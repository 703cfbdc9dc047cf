import JobEngine.Proofs.Thresholds
import Mathlib.Data.List.DropRight

/-!
# Where a delivery takes its record

A worker that works off a record leaves it in exactly one place. Two parts
decide which, and they count differently: the retry policy looks at the
failures before the one at hand, the queue at those after it, and the policy
speaks to the queue only through a count that no budget reaches. Stated here
is the rule that results, for every way in which a job can end.

Between two steps of the worker others may change the engine at will, but not
the table of thresholds.
-/
namespace JobEngine

/-- How the job of one delivery ended. -/
inductive Ending
  | success
  | fault (f : Fault)
  /-- No log could be opened. -/
  | unlogged (e : QueueError)
  /-- The parameters were refused. -/
  | refused (f : Fault)
deriving DecidableEq, Repr

namespace Ending

/-- The job succeeded or was stopped. -/
def completes : Ending → Bool
  | .success => true
  | .fault f => f.contained.kind = .stopped
  | _ => false

def cancels : Ending → Bool
  | .fault f => f.contained.kind = .cancelled
  | _ => false

/-- The run itself failed, neither stopped nor cancelled. -/
def failsRun : Ending → Bool
  | .fault f => f.contained.kind ≠ .stopped && f.contained.kind ≠ .cancelled
  | _ => false

def neverRan : Ending → Bool
  | .unlogged _ | .refused _ => true
  | _ => false

/-- What the queue is told of a failure. -/
def error? : Ending → Option JobError
  | .success => none
  | .fault f => if f.contained.kind = .stopped then none else some f.contained
  | .unlogged e => some (.contextBuild e.message)
  | .refused f => some (.contextBuild f.contained.message)

def outcome : Ending → Outcome
  | .success => .succeeded
  | .fault f => .ofFault f
  | .unlogged e => .buildFailed (.contextBuild e.message)
  | .refused f => .buildFailed (.contextBuild f.contained.message)

end Ending

/-- Where a record goes, and with how many failures. -/
inductive Verdict
  | completed
  | requeued (fails : UInt64)
  | buried (fails : UInt64)
deriving DecidableEq, Repr

namespace Verdict

/-- The rule for a record with budget `m`. -/
def of (m : UInt32) (shouldRetry : Bool) (fails : UInt64) (ending : Ending) : Verdict :=
  let underBudget : Bool := min (fails.toNat + 1) (UInt64.size - 1) < m.toNat
  if ending.completes then .completed
  else if ending.failsRun && shouldRetry && underBudget then .requeued (fails + 1)
  else if ending.neverRan || underBudget && (ending.cancels || !shouldRetry) then
    .buried (deadLetterFails + 1)
  else .buried (countFailure fails)

/-- The queue after a verdict on a record. The record stands behind those that wait, or is the
newest of an archive, which keeps a thousand. An identifier is listed as dead until a record with
it is forgotten. -/
def apply (record : Record) (reason : Option String) (q : Queue) : Verdict → Queue
  | .completed => { q with completed := (q.completed ++ [record]).rtake 1000 }
  | .requeued fails => { q with pending := q.pending ++ [{ record with fails }] }
  | .buried fails =>
    let dead := q.dead ++ [⟨{ record with fails }, reason⟩]
    { q with
      dead := dead.rtake 1000
      deadIds := (q.deadIds.insert record.id).filter fun id =>
        !(dead.rdrop 1000).any (·.record.id = id) }

section

variable (record : Record) (reason : Option String) (q : Queue) (fails : UInt64)

theorem apply_completed : apply record reason q .completed = q.complete record := rfl

theorem apply_requeued :
    apply record reason q (.requeued fails) = q.append { record with fails } := rfl

theorem apply_buried :
    apply record reason q (.buried fails) = q.bury { record with fails } reason := by
  simp only [apply, Queue.bury, List.insert, List.elem_eq_mem, decide_eq_true_eq]
  rfl

end

end Verdict

/-- The record's own budget, else its job's, else the default; zero stands for none. -/
def Record.budget (record : Record) (job : Job) (default : UInt32) : UInt32 :=
  match record.maxFails with
  | some n => if 0 < n then n else if job.maxFails ≠ 0 then job.maxFails else default
  | none => if job.maxFails ≠ 0 then job.maxFails else default

theorem RetryPolicy.effectiveBudget_eq (policy : RetryPolicy) (job : Job) (record : Record) :
    policy.effectiveBudget job record = record.budget job policy.defaultMaxFails := by
  simp only [effectiveBudget, Record.override?, Record.budget, budgetOf]
  cases record.maxFails with
  | none => by_cases zero : job.maxFails = 0 <;> simp [zero]
  | some n =>
    by_cases own : 0 < n <;> by_cases zero : job.maxFails = 0 <;> simp [Option.filter, own, zero]

/-! ## The last step -/

namespace Queue

theorem fail_of_lt {q : Queue} {record : Record} (e : JobError)
    (h : (countFailure record.fails).toNat < (q.threshold record).toNat) :
    q.fail record e = (q.append { record with fails := countFailure record.fails }, .requeued) := by
  exact if_neg (Nat.not_le.mpr h)

theorem fail_of_le {q : Queue} {record : Record} (e : JobError)
    (h : (q.threshold record).toNat ≤ (countFailure record.fails).toNat) :
    q.fail record e =
      (q.bury { record with fails := countFailure record.fails } (some e.message), .dead) := by
  exact if_pos h

/-- No threshold lets a record live whose retries were disabled. -/
theorem fail_deadLetterFails (q : Queue) (record : Record) (e : JobError) :
    q.fail { record with fails := deadLetterFails } e =
      (q.bury { record with fails := deadLetterFails + 1 } (some e.message), .dead) := by
  have counted : countFailure deadLetterFails = deadLetterFails + 1 := by decide
  have large : (deadLetterFails + 1).toNat = 10000000001 := by decide
  have bound := (q.threshold record).toNat_lt_size
  have reached : (q.threshold { record with fails := deadLetterFails }).toNat ≤
      (countFailure deadLetterFails).toNat := by
    rw [threshold_fails, counted, large]
    exact Nat.le_of_lt (Nat.lt_trans bound (by decide))
  rw [fail_of_le e reached]
  simp only [counted]

end Queue

namespace Worker

theorem settle_under {record : Record} {e : Engine} (err : JobError)
    (h : (countFailure record.fails).toNat < (e.queue.threshold record).toNat) :
    settle record (.error err) e =
      (.ringing, { e with
        queue := e.queue.append { record with fails := countFailure record.fails } }) := by
  simp only [settle, Queue.fail_of_lt err h]

theorem settle_spent {record : Record} {e : Engine} (err : JobError)
    (h : (e.queue.threshold record).toNat ≤ (countFailure record.fails).toNat) :
    settle record (.error err) e =
      (.asking, { e with
        queue := e.queue.bury { record with fails := countFailure record.fails }
          (some err.message) }) := by
  simp only [settle, Queue.fail_of_le err h]

theorem settle_doomed (record : Record) (e : Engine) (err : JobError) :
    settle { record with fails := deadLetterFails } (.error err) e =
      (.asking, { e with
        queue := e.queue.bury { record with fails := deadLetterFails + 1 }
          (some err.message) }) := by
  simp only [settle, Queue.fail_deadLetterFails]

/-- The record as the policy hands it to the queue. -/
def judged (policy : RetryPolicy) (job : Job) (record : Record) (outcome : Outcome) : Record :=
  if outcome.deadLetters policy job record then { record with fails := deadLetterFails } else record

/-- The three branches of a failure: the policy disabled retries, or the queue counts it. -/
theorem settle_failed (policy : RetryPolicy) (job : Job) (record : Record) (e : Engine)
    (outcome : Outcome) {err : JobError} (failed : outcome.result = .error err) :
    let settled := settle (judged policy job record outcome) outcome.result e
    settled.2.queue =
        (if outcome.deadLetters policy job record then
          e.queue.bury { record with fails := deadLetterFails + 1 } (some err.message)
        else if (countFailure record.fails).toNat < (e.queue.threshold record).toNat then
          e.queue.append { record with fails := countFailure record.fails }
        else e.queue.bury { record with fails := countFailure record.fails } (some err.message)) ∧
      settled.1.record? = none := by
  intro settled
  simp only [settled, failed, judged]
  split
  · rw [settle_doomed]
    exact ⟨rfl, rfl⟩
  · split
    · rename_i under
      rw [settle_under err under]
      exact ⟨rfl, rfl⟩
    · rename_i spent
      rw [settle_spent err (Nat.not_lt.mp spent)]
      exact ⟨rfl, rfl⟩

/-- Policy and queue together follow the rule, if their budgets agree. -/
theorem settle_judged (policy : RetryPolicy) (job : Job) (record : Record) (ending : Ending)
    (e : Engine) (agree : e.queue.threshold record = policy.effectiveBudget job record) :
    let settled := settle (judged policy job record ending.outcome) ending.outcome.result e
    settled.2.queue =
        (Verdict.of (record.budget job policy.defaultMaxFails) job.shouldRetry record.fails
          ending).apply record (ending.error?.map (·.message)) e.queue ∧
      settled.1.record? = none := by
  have counted := toNat_countFailure record.fails
  have plain (under : (countFailure record.fails).toNat < (e.queue.threshold record).toNat) :
      countFailure record.fails = record.fails + 1 := by
    have small := (e.queue.threshold record).toNat_lt_size
    have word : UInt32.size < UInt64.size := by decide
    exact if_pos (by omega)
  have disables (cancelled : Bool) : policy.disablesRetry job record cancelled =
      (decide ((countFailure record.fails).toNat < (e.queue.threshold record).toNat) &&
        (cancelled || !job.shouldRetry)) := by
    rw [RetryPolicy.disablesRetry, agree]
  rw [policy.effectiveBudget_eq] at agree
  simp only [Verdict.of, ← agree, ← counted]
  cases ending with
  | success => exact ⟨rfl, rfl⟩
  | unlogged err =>
    obtain ⟨moved, freed⟩ :=
      settle_failed policy job record e (.buildFailed (.contextBuild err.message)) rfl
    exact ⟨moved.trans (Verdict.apply_buried ..).symm, freed⟩
  | refused f =>
    obtain ⟨moved, freed⟩ :=
      settle_failed policy job record e (.buildFailed (.contextBuild f.contained.message)) rfl
    exact ⟨moved.trans (Verdict.apply_buried ..).symm, freed⟩
  | fault f =>
    cases kind : f.contained.kind with
    | stopped =>
      have outcome : (Ending.fault f).outcome = .stopped := by
        simp only [Ending.outcome, Outcome.ofFault, kind]
      simp only [outcome, Ending.completes, kind, decide_true, if_true, Verdict.apply_completed]
      exact ⟨rfl, rfl⟩
    | cancelled =>
      have outcome : (Ending.fault f).outcome = .cancelled f.contained := by
        simp only [Ending.outcome, Outcome.ofFault, kind]
      obtain ⟨moved, freed⟩ := settle_failed policy job record e _ (congrArg _ outcome)
      refine ⟨moved.trans ?_, freed⟩
      by_cases under : (countFailure record.fails).toNat < (e.queue.threshold record).toNat <;>
        simp [outcome, Outcome.deadLetters, disables, under, Ending.completes, Ending.failsRun,
          Ending.neverRan, Ending.cancels, Ending.error?, kind, Verdict.apply_buried]
    | contextBuild | runtime | ordinary =>
      have outcome : (Ending.fault f).outcome = .failed f.contained := by
        simp only [Ending.outcome, Outcome.ofFault, kind]
      obtain ⟨moved, freed⟩ := settle_failed policy job record e _ (congrArg _ outcome)
      refine ⟨moved.trans ?_, freed⟩
      by_cases under : (countFailure record.fails).toNat < (e.queue.threshold record).toNat
      · cases retries : job.shouldRetry <;>
          simp [outcome, Outcome.deadLetters, disables, under, retries, ← plain under,
            Ending.completes, Ending.failsRun, Ending.neverRan, Ending.error?, kind,
            Verdict.apply_requeued, Verdict.apply_buried]
      · simp [outcome, Outcome.deadLetters, disables, under, Ending.completes, Ending.neverRan,
          Ending.error?, kind, Verdict.apply_buried]

end Worker

/-! ## The way there -/

/-- Of the engine only the tracker is written. -/
theorem Engine.write_tracker (e : Engine) (call : TrackerCall)
    (change : Tracker → Except QueueError Tracker) :
    ∃ tracker, (e.write call change).2 = { e with tracker } := by
  simp only [write]
  split
  · exact ⟨e.tracker, rfl⟩
  · split
    · exact ⟨_, rfl⟩
    · exact ⟨e.tracker, rfl⟩

theorem Engine.write_queue (e : Engine) (call : TrackerCall)
    (change : Tracker → Except QueueError Tracker) :
    (e.write call change).2.queue = e.queue := by
  obtain ⟨tracker, written⟩ := write_tracker e call change
  rw [written]

/-- What a delivery can not write is as it was. -/
structure Engine.Beyond (e after : Engine) : Prop where
  clock : after.clock = e.clock
  queue : after.queue = e.queue
  bell : after.bell = e.bell
  trackerOutage : after.trackerOutage = e.trackerOutage
  storeOutage : after.storeOutage = e.storeOutage

theorem Engine.write_beyond (e : Engine) (call : TrackerCall)
    (change : Tracker → Except QueueError Tracker) : e.Beyond (e.write call change).2 := by
  obtain ⟨tracker, written⟩ := write_tracker e call change
  rw [written]
  exact ⟨rfl, rfl, rfl, rfl, rfl⟩

theorem Engine.deleteArtifact_beyond (e : Engine) (repository digest : String) :
    e.Beyond (e.deleteArtifact repository digest).2 := by
  simp only [deleteArtifact]
  split
  · exact ⟨rfl, rfl, rfl, rfl, rfl⟩
  · split <;> exact ⟨rfl, rfl, rfl, rfl, rfl⟩

namespace Delivery

theorem act_beyond (record : Record) (e : Engine) (log : OpenLog) (rest : Activity) :
    e.Beyond (act record e log rest).2 := by
  cases rest with
  | checkIn message next => exact e.write_beyond _ _
  | order command next =>
    show e.Beyond (e.sendCommand record.id command).2
    exact e.write_beyond _ _
  | delete repository digest next => exact e.deleteArtifact_beyond repository digest
  | _ => exact ⟨rfl, rfl, rfl, rfl, rfl⟩

theorem prepare_beyond (target : LogTarget) (job : Job) (record : Record) (e : Engine) :
    e.Beyond (prepare target job record e).2 := by
  simp only [prepare]
  split
  · exact ⟨rfl, rfl, rfl, rfl, rfl⟩
  · split <;> exact ⟨rfl, rfl, rfl, rfl, rfl⟩

theorem step_beyond (d : Delivery) (terms : Terms) (e : Engine) (letters : DeadLetters) :
    e.Beyond (d.step terms e letters).2.1 := by
  obtain ⟨record, job, stage⟩ := d
  cases stage with
  | fetched | ended => exact e.write_beyond _ _
  | announced => exact prepare_beyond terms.target job record e
  | active log rest =>
    simp only [step]
    exact act_beyond record e log rest
  | reported outcome =>
    simp only [step]
    split <;> exact ⟨rfl, rfl, rfl, rfl, rfl⟩
  | decided result => exact ⟨rfl, rfl, rfl, rfl, rfl⟩

theorem step_id (d : Delivery) (terms : Terms) (e : Engine) (letters : DeadLetters) :
    (d.step terms e letters).1.record.id = d.record.id := by
  obtain ⟨record, job, stage⟩ := d
  cases stage with
  | reported outcome =>
    simp only [step]
    split <;> rfl
  | _ => rfl

end Delivery

namespace Worker

/-- How the job ends in the next step of the worker, if it does. -/
def ending? (target : LogTarget) (w : Worker) (e : Engine) : Option Ending :=
  match w with
  | .carrying d =>
    match d.stage with
    | .announced =>
      match e.logs.openLog target d.record with
      | .error err => some (.unlogged err)
      | .ok _ =>
        match d.job.validate d.record.parameters with
        | .error f => some (.refused f)
        | .ok () => none
    | .active _ .done => some .success
    | .active _ (.fault f) => some (.fault f)
    | _ => none
  | _ => none

section Run

variable (terms : Terms) (index : Nat)

/-- The worker after `n` steps, of which step `k` meets the engine `(met k).1`. -/
def after (w : Worker) (met : Nat → Engine × DeadLetters) : Nat → Worker
  | 0 => w
  | n + 1 => ((w.after met n).step terms index (met n).1 (met n).2).1

/-- The engine that step `n` leaves. -/
def leaves (w : Worker) (met : Nat → Engine × DeadLetters) (n : Nat) : Engine :=
  ((w.after terms index met n).step terms index (met n).1 (met n).2).2.1

theorem after_succ (w : Worker) (met : Nat → Engine × DeadLetters) (n : Nat) :
    w.after terms index met (n + 1) =
      (w.step terms index (met 0).1 (met 0).2).1.after terms index (fun k => met (k + 1)) n := by
  induction n with
  | zero => rfl
  | succ n ih => rw [after, ih, after]

theorem leaves_succ (w : Worker) (met : Nat → Engine × DeadLetters) (n : Nat) :
    w.leaves terms index met (n + 1) =
      (w.step terms index (met 0).1 (met 0).2).1.leaves terms index (fun k => met (k + 1)) n := by
  rw [leaves, leaves, after_succ]

def Carries (id : JobId) (w : Worker) : Prop := ∃ d, w = .carrying d ∧ d.record.id = id

/-- The worker works off a record: up to some step the record stays in its hand and the queue is
left as it was found; that step moves the record to the place which the end of the job decides. -/
def Settles (id : JobId) (place : Ending → Queue → Queue) (past : Option Ending) (w : Worker)
    (met : Nat → Engine × DeadLetters) : Prop :=
  ∃ n ending,
    (past = some ending ∨
      ∃ k < n, (w.after terms index met k).ending? terms.target (met k).1 = some ending) ∧
    (∀ k ≤ n, (w.after terms index met k).Carries id) ∧
    (∀ k < n, (w.leaves terms index met k).queue = (met k).1.queue) ∧
    (w.leaves terms index met n).queue = place ending (met n).1.queue ∧
    (w.after terms index met (n + 1)).record? = none

variable {terms index} {id : JobId} {place : Ending → Queue → Queue} {past : Option Ending}

/-- One more step in front, which leaves the queue alone. -/
theorem Settles.front {later : Option Ending} {w : Worker} {met : Nat → Engine × DeadLetters}
    (carries : w.Carries id)
    (quiet : (w.step terms index (met 0).1 (met 0).2).2.1.queue = (met 0).1.queue)
    (known : ∀ ending, later = some ending →
      past = some ending ∨ w.ending? terms.target (met 0).1 = some ending)
    (rest : Settles terms index id place later (w.step terms index (met 0).1 (met 0).2).1
      fun k => met (k + 1)) :
    Settles terms index id place past w met := by
  obtain ⟨n, ending, ended, held, kept, moved, freed⟩ := rest
  refine ⟨n + 1, ending, ?_, ?_, ?_, ?_, ?_⟩
  · rcases ended with before | ⟨k, less, here⟩
    · rcases known ending before with before | now
      · exact Or.inl before
      · exact Or.inr ⟨0, by omega, now⟩
    · exact Or.inr ⟨k + 1, by omega, by rw [after_succ]; exact here⟩
  · intro k le
    cases k with
    | zero => exact carries
    | succ k => rw [after_succ]; exact held k (by omega)
  · intro k less
    cases k with
    | zero => exact quiet
    | succ k => rw [leaves_succ]; exact kept k (by omega)
  · rw [leaves_succ]; exact moved
  · rw [after_succ]; exact freed

/-- What the rule of verdicts makes of the queue. -/
def placed (terms : Terms) (job : Job) (record : Record) (ending : Ending) (q : Queue) : Queue :=
  (Verdict.of (record.budget job terms.policy.defaultMaxFails) job.shouldRetry record.fails
    ending).apply record (ending.error?.map (·.message)) q

variable {job : Job} {record : Record} {met : Nat → Engine × DeadLetters}

theorem settles_decided (ending : Ending)
    (agree : ∀ n, (met n).1.queue.threshold record = terms.policy.effectiveBudget job record) :
    Settles terms index record.id (placed terms job record) (some ending)
      (.carrying ⟨judged terms.policy job record ending.outcome, job,
        .decided ending.outcome.result⟩) met := by
  obtain ⟨moved, freed⟩ := settle_judged terms.policy job record ending (met 0).1 (agree 0)
  refine ⟨0, ending, Or.inl rfl, ?_, by omega, moved, freed⟩
  intro k le
  obtain rfl : k = 0 := by omega
  refine ⟨_, rfl, ?_⟩
  simp only [judged]
  split <;> rfl

theorem settles_reported (ending : Ending)
    (agree : ∀ n, (met n).1.queue.threshold record = terms.policy.effectiveBudget job record) :
    Settles terms index record.id (placed terms job record) (some ending)
      (.carrying ⟨record, job, .reported ending.outcome⟩) met := by
  have next : (step terms index (.carrying ⟨record, job, .reported ending.outcome⟩) (met 0).1
      (met 0).2).1 = .carrying ⟨judged terms.policy job record ending.outcome, job,
        .decided ending.outcome.result⟩ ∧
      (step terms index (.carrying ⟨record, job, .reported ending.outcome⟩) (met 0).1
        (met 0).2).2.1 = (met 0).1 := by
    simp only [step, Delivery.result?, Delivery.step, judged]
    split <;> exact ⟨rfl, rfl⟩
  apply Settles.front ⟨_, rfl, rfl⟩ (by rw [next.2]) (fun _ h => Or.inl h)
  rw [next.1]
  exact settles_decided ending fun n => agree (n + 1)

theorem settles_ended (ending : Ending)
    (agree : ∀ n, (met n).1.queue.threshold record = terms.policy.effectiveBudget job record) :
    Settles terms index record.id (placed terms job record) (some ending)
      (.carrying ⟨record, job, .ended ending.outcome⟩) met := by
  apply Settles.front ⟨_, rfl, rfl⟩ _ (fun _ h => Or.inl h)
  · exact settles_reported ending fun n => agree (n + 1)
  · exact Engine.write_queue _ _ _

theorem step_active (record : Record) (job : Job) (log : OpenLog) (rest : Activity) (e : Engine)
    (letters : DeadLetters) :
    step terms index (.carrying ⟨record, job, .active log rest⟩) e letters =
      (.carrying ⟨record, job, (Delivery.act record e log rest).1⟩,
        (Delivery.act record e log rest).2, letters) := by
  simp only [step, Delivery.result?, Delivery.step]

/-- The induction is on what the job still does; others may answer it as they like. -/
theorem settles_active (rest : Activity) (log : OpenLog)
    (agree : ∀ n, (met n).1.queue.threshold record = terms.policy.effectiveBudget job record) :
    Settles terms index record.id (placed terms job record) none
      (.carrying ⟨record, job, .active log rest⟩) met := by
  have quiet (rest : Activity) (log : OpenLog) (met : Nat → Engine × DeadLetters) :
      (step terms index (.carrying ⟨record, job, .active log rest⟩) (met 0).1
        (met 0).2).2.1.queue = (met 0).1.queue := by
    rw [step_active]
    exact (Delivery.act_beyond record _ log rest).queue
  induction rest generalizing log met with
  | done =>
    exact Settles.front ⟨_, rfl, rfl⟩ (quiet _ _ _) (fun _ h => Or.inr h)
      (settles_ended .success fun n => agree (n + 1))
  | fault f =>
    exact Settles.front ⟨_, rfl, rfl⟩ (quiet _ _ _) (fun _ h => Or.inr h)
      (settles_ended (.fault f) fun n => agree (n + 1))
  | log level message next ih | checkIn message next ih | sleep ms next ih =>
    exact Settles.front ⟨_, rfl, rfl⟩ (quiet _ _ _) (fun _ h => Or.inl h)
      (ih _ fun n => agree (n + 1))
  | poll next ih | order command next ih | repositories next ih | list repository next ih
  | find digest next ih | delete repository digest next ih =>
    exact Settles.front ⟨_, rfl, rfl⟩ (quiet _ _ _) (fun _ h => Or.inl h)
      (ih _ _ fun n => agree (n + 1))

theorem settles_announced
    (agree : ∀ n, (met n).1.queue.threshold record = terms.policy.effectiveBudget job record) :
    Settles terms index record.id (placed terms job record) none
      (.carrying ⟨record, job, .announced⟩) met := by
  have next : step terms index (.carrying ⟨record, job, .announced⟩) (met 0).1 (met 0).2 =
      (.carrying ⟨record, job, (Delivery.prepare terms.target job record (met 0).1).1⟩,
        (Delivery.prepare terms.target job record (met 0).1).2, (met 0).2) := rfl
  have quiet := (Delivery.prepare_beyond terms.target job record (met 0).1).queue
  cases opened : (met 0).1.logs.openLog terms.target record with
  | error err =>
    apply Settles.front ⟨_, rfl, rfl⟩ (by rw [next]; exact quiet)
    rotate_left
    · simp only [next, Delivery.prepare, opened]
      exact settles_ended (.unlogged err) fun n => agree (n + 1)
    · intro ending same
      exact Or.inr (by simp only [ending?, opened, same])
  | ok pair =>
    obtain ⟨log, logs⟩ := pair
    cases validated : job.validate record.parameters with
    | error f =>
      apply Settles.front ⟨_, rfl, rfl⟩ (by rw [next]; exact quiet)
      rotate_left
      · simp only [next, Delivery.prepare, opened, validated]
        exact settles_ended (.refused f) fun n => agree (n + 1)
      · intro ending same
        exact Or.inr (by simp only [ending?, opened, validated, same])
    | ok =>
      apply Settles.front ⟨_, rfl, rfl⟩ (by rw [next]; exact quiet) (fun _ h => Or.inl h)
      simp only [next, Delivery.prepare, opened, validated]
      exact settles_active _ _ fun n => agree (n + 1)

theorem settles_fetched
    (agree : ∀ n, (met n).1.queue.threshold record = terms.policy.effectiveBudget job record) :
    Settles terms index record.id (placed terms job record) none
      (.carrying ⟨record, job, .fetched⟩) met := by
  apply Settles.front ⟨_, rfl, rfl⟩ _ (fun _ h => Or.inl h)
  · exact settles_announced fun n => agree (n + 1)
  · exact Engine.write_queue _ _ _

end Run

/-- After the start of a pool a worker that receives a record of a registered type works it off by
the rule of verdicts, whatever the job does and whatever else goes on between two of its steps. -/
theorem record_settled {settings : PoolSettings} {before started : Engine} {pool : Pool}
    (start : Pool.start settings before = .ok (pool, started)) (built : before.registry.Built)
    {record : Record} {job : Job} (known : before.registry.find? record.jobType = some job)
    (index : Nat) (met : Nat → Engine × DeadLetters)
    (untouched : ∀ n, (met n).1.queue.thresholds = started.queue.thresholds) :
    let w := receive started.registry record
    let m := record.budget job settings.defaultMaxFails
    ∃ n ending,
      (∃ k < n, (w.after pool.terms index met k).ending? pool.terms.target (met k).1 =
        some ending) ∧
      (∀ k ≤ n, (w.after pool.terms index met k).Carries record.id) ∧
      (∀ k < n, (w.leaves pool.terms index met k).queue = (met k).1.queue) ∧
      (w.leaves pool.terms index met n).queue =
        (Verdict.of m job.shouldRetry record.fails ending).apply record
          (ending.error?.map (·.message)) (met n).1.queue ∧
      (w.after pool.terms index met (n + 1)).record? = none := by
  have agree (n : Nat) : (met n).1.queue.threshold record =
      pool.terms.policy.effectiveBudget job record := by
    rw [Queue.threshold_congr (untouched n), Pool.threshold_of_start start built known]
    obtain ⟨-, rfl, -⟩ := Pool.start_ok start
    rfl
  have policy : pool.terms.policy.defaultMaxFails = settings.defaultMaxFails := by
    obtain ⟨-, rfl, -⟩ := Pool.start_ok start
    rfl
  have received : receive started.registry record = .carrying ⟨record, job, .fetched⟩ := by
    obtain ⟨-, -, logs, rfl⟩ := Pool.start_ok start
    simp only [receive, Pool.registerThresholds, known]
  have settles : Settles pool.terms index record.id (placed pool.terms job record) none
      (.carrying ⟨record, job, .fetched⟩) met := settles_fetched agree
  obtain ⟨n, ending, impossible | past, held, kept, moved, freed⟩ := settles
  · cases impossible
  · rw [placed, policy] at moved
    rw [received]
    exact ⟨n, ending, past, held, kept, moved, freed⟩

theorem record_settled_idle :
    let record : Record := ⟨.ofNat 7, "idle", [], 0xFFFFFFFFFFFFFFFF, some 0xFFFFFFFF, ⟨0, 0⟩⟩
    let before : Engine := { registry := ⟨[.idle "idle"]⟩, clock := 0 }
    ∃ pool started n, Pool.start {} before = .ok (pool, started) ∧
      ((receive started.registry record).leaves pool.terms 0 (fun _ => (started, ⟨0, [], false⟩))
        n).queue = { started.queue with completed := [record] } := by
  intro record before
  obtain ⟨pool, started, start⟩ : ∃ pool started, Pool.start {} before = .ok (pool, started) :=
    ⟨_, _, rfl⟩
  have built : before.registry.Built := .grown .empty rfl
  have known : before.registry.find? record.jobType = some (.idle "idle") := rfl
  obtain ⟨n, ending, ⟨k, less, ended⟩, held, -, moved, -⟩ :=
    record_settled start built known 0 (fun _ => (started, ⟨0, [], false⟩)) fun _ => rfl
  have early : n < 6 := by
    obtain ⟨rfl, rfl⟩ : _ ∧ _ := Prod.mk.inj (Except.ok.inj start)
    by_contra late
    obtain ⟨d, carrying, -⟩ := held 6 (by omega)
    cases carrying
  obtain rfl : ending = .success := by
    obtain ⟨rfl, rfl⟩ : _ ∧ _ := Prod.mk.inj (Except.ok.inj start)
    have step : k = 0 ∨ k = 1 ∨ k = 2 ∨ k = 3 ∨ k = 4 := by omega
    obtain rfl | rfl | rfl | rfl | rfl := step <;> cases ended
    rfl
  have verdict : Verdict.of (record.budget (.idle "idle") ({} : PoolSettings).defaultMaxFails)
      (Job.idle "idle").shouldRetry record.fails .success = .completed := rfl
  have fresh : started.queue.completed = [] := by
    obtain ⟨-, -, logs, rfl⟩ := Pool.start_ok start
    rfl
  refine ⟨pool, started, n, start, ?_⟩
  simp [moved, verdict, Verdict.apply, fresh, List.rtake]

end Worker

end JobEngine
