import JobEngine.Proofs.Settlement

/-!
# What a delivery does, and in which order

There are five ways out of a delivery, a crash of the job's code is contained
in two places, and the log is closed by whoever leaves it. Whatever the way,
the delivery does the same things in the same order: it writes that the job
runs, opens the log, calls the job once if its parameters pass, closes the
log, writes the final status, and last of all has the death confirmed if
retries are disabled.

Between two steps others may change the engine at will, so this holds for
every state of the tracker, whether it answers or not.
-/
namespace JobEngine

/-- What a delivery does that others can see. -/
inductive Deed
  /-- A status is written; that the tracker refuses it changes nothing. -/
  | status (status : Status)
  | opened
  /-- The job's code is called. -/
  | called
  | line (level : Level) (message : String)
  | checkIn (message : String)
  | order (command : Command)
  | delete (repository digest : String)
  | closed
  /-- The confirmation of the death is scheduled. -/
  | doomed
deriving DecidableEq

namespace Deed

/-- Only the job's own code does it. -/
def byJob : Deed → Bool
  | line _ _ | checkIn _ | order _ | delete _ _ => true
  | _ => false

end Deed

/-! ## Deeds and their effects -/

def Stage.log? : Stage → Option OpenLog
  | .active log _ => some log
  | _ => none

/-- What a delivery can change besides itself, and the log it holds. -/
structure Scene where
  engine : Engine
  letters : DeadLetters
  log : Option OpenLog

/-- A deed is done. -/
def Scene.act (terms : Terms) (d : Delivery) (scene : Scene) : Deed → Scene
  | .status status => { scene with engine := (scene.engine.setStatus d.record.id status).2 }
  | .opened =>
    match scene.engine.logs.openLog terms.target d.record with
    | .ok (log, logs) => { scene with engine := { scene.engine with logs }, log := some log }
    | .error _ => scene
  | .called => { scene with engine := scene.engine.countRun d.job.jobType }
  | .line level message =>
    match scene.log with
    | some log =>
      let (log, logs) := scene.engine.logs.log d.record scene.engine.now level message log
      { scene with engine := { scene.engine with logs }, log := some log }
    | none => scene
  | .checkIn message => { scene with engine := (scene.engine.checkIn d.record.id message).2 }
  | .order command => { scene with engine := (scene.engine.sendCommand d.record.id command).2 }
  | .delete repository digest =>
    { scene with engine := (scene.engine.deleteArtifact repository digest).2 }
  | .closed =>
    match scene.log with
    | some log =>
      { scene with
        engine := { scene.engine with logs := scene.engine.logs.close log }
        log := none }
    | none => scene
  | .doomed =>
    { scene with
      letters := scene.letters.schedule d.record.id scene.engine.now scene.engine.clock }

/-- What the job's code does in its next step; where it ends the log is closed. -/
def Activity.deeds : Activity → List Deed
  | .done | .fault _ => [.closed]
  | .log level message _ => [.line level message]
  | .checkIn message _ => [.checkIn message]
  | .order command _ => [.order command]
  | .delete repository digest _ => [.delete repository digest]
  | .poll _ | .sleep _ _ | .repositories _ | .list _ _ | .find _ _ => []

namespace Delivery

/-- What a delivery does in its next step. -/
def deeds (terms : Terms) (d : Delivery) (e : Engine) : List Deed :=
  match d.stage with
  | .fetched => [.status .running]
  | .announced =>
    match e.logs.openLog terms.target d.record with
    | .error _ => []
    | .ok _ =>
      match d.job.validate d.record.parameters with
      | .error _ => [.opened, .closed]
      | .ok () => [.opened, .called]
  | .active _ rest => rest.deeds
  | .ended outcome => [.status outcome.status]
  | .reported outcome =>
    if outcome.deadLetters terms.policy d.job d.record then [.doomed] else []
  | .decided _ => []

/-- What the delivery has before it. -/
def scene (d : Delivery) (met : Engine × DeadLetters) : Scene := ⟨met.1, met.2, d.stage.log?⟩

/-- A step is its deeds and nothing else. -/
theorem step_acts (terms : Terms) (d : Delivery) (e : Engine) (letters : DeadLetters) :
    let next := d.step terms e letters
    (d.deeds terms e).foldl (Scene.act terms d) (d.scene (e, letters)) = next.1.scene next.2 := by
  obtain ⟨record, job, stage⟩ := d
  simp only [scene]
  cases stage with
  | fetched | ended outcome | decided result => simp [deeds, step, Scene.act, Stage.log?]
  | announced =>
    simp only [deeds, step, prepare]
    cases opened : e.logs.openLog terms.target record with
    | error err => rfl
    | ok pair =>
      obtain ⟨log, logs⟩ := pair
      cases validated : job.validate record.parameters with
      | error f => simp [Scene.act, opened, Stage.log?]
      | ok => simp [Scene.act, opened, Stage.log?]
  | active log rest =>
    cases rest with
    | log level message next =>
      rcases written : e.logs.log record e.now level message log with ⟨later, logs⟩
      simp [deeds, Activity.deeds, step, act, Scene.act, Stage.log?, written]
    | _ => simp [deeds, Activity.deeds, step, act, Scene.act, Stage.log?]
  | reported outcome =>
    by_cases hopeless : outcome.deadLetters terms.policy job record = true
    · simp [deeds, step, hopeless, Scene.act, Stage.log?]
    · simp [deeds, step, hopeless, Stage.log?]

/-- The delivery after `n` steps, of which step `k` meets the engine `(met k).1`. -/
def after (terms : Terms) (d : Delivery) (met : Nat → Engine × DeadLetters) : Nat → Delivery
  | 0 => d
  | n + 1 => ((d.after terms met n).step terms (met n).1 (met n).2).1

/-- What the delivery did in its first `n` steps. -/
def trace (terms : Terms) (d : Delivery) (met : Nat → Engine × DeadLetters) : Nat → List Deed
  | 0 => []
  | n + 1 => d.trace terms met n ++ (d.after terms met n).deeds terms (met n).1

end Delivery

/-! ## Ways through a delivery -/

namespace Ending

/-- The final status. -/
def status : Ending → Status
  | .success => .success
  | .fault f =>
    match f.contained.kind with
    | .stopped => .stopped
    | .cancelled => .cancelled
    | _ => .error
  | .unlogged _ | .refused _ => .error

/-- What the caller is told. -/
def result (ending : Ending) : Except JobError Unit :=
  match ending.error? with
  | none => .ok ()
  | some err => .error err

/-- Retries are disabled: the job never ran, or its budget is not spent and it was cancelled or
does not want a retry. -/
def dooms (policy : RetryPolicy) (job : Job) (record : Record) (ending : Ending) : Bool :=
  ending.neverRan ||
    (countFailure record.fails).toNat < (record.budget job policy.defaultMaxFails).toNat &&
      (ending.cancels || ending.failsRun && !job.shouldRetry)

theorem outcome_eq (ending : Ending) : ending.outcome.status = ending.status ∧
    ending.outcome.result = ending.result := by
  cases ending with
  | success | unlogged | refused => exact ⟨rfl, rfl⟩
  | fault f =>
    cases kind : f.contained.kind <;>
      simp [outcome, Outcome.ofFault, kind, Outcome.status, Outcome.result, status, result, error?]

theorem deadLetters_eq (policy : RetryPolicy) (job : Job) (record : Record) (ending : Ending) :
    ending.outcome.deadLetters policy job record = ending.dooms policy job record := by
  cases ending with
  | success | unlogged | refused => simp [outcome, Outcome.deadLetters, dooms, neverRan, cancels,
      failsRun]
  | fault f =>
    cases kind : f.contained.kind <;>
      simp [outcome, Outcome.ofFault, kind, Outcome.deadLetters, dooms, neverRan, cancels, failsRun,
        RetryPolicy.disablesRetry, policy.effectiveBudget_eq]

/-- The caller is told of success exactly if the job succeeded or was stopped. -/
theorem result_ok_iff (ending : Ending) :
    ending.result = .ok () ↔ ending.status = .success ∨ ending.status = .stopped := by
  cases ending with
  | success | unlogged | refused => simp [result, error?, status]
  | fault f => cases kind : f.contained.kind <;> simp [result, error?, status, kind]

end Ending

/-- The job's code, answered in some way, does this work and comes to this end. -/
inductive Activity.Comes : Activity → List Deed → Ending → Prop
  | done : Comes .done [] .success
  | fault (f : Fault) : Comes (.fault f) [] (.fault f)
  | log {level : Level} {message : String} {next : Activity} {work : List Deed} {ending : Ending}
      (comes : Comes next work ending) :
      Comes (.log level message next) (.line level message :: work) ending
  | checkIn {message : String} {next : Activity} {work : List Deed} {ending : Ending}
      (comes : Comes next work ending) :
      Comes (.checkIn message next) (.checkIn message :: work) ending
  | poll {next : Option Command → Activity} {work : List Deed} {ending : Ending}
      (answer : Option Command) (comes : Comes (next answer) work ending) :
      Comes (.poll next) work ending
  | sleep {ms : Nat} {next : Activity} {work : List Deed} {ending : Ending}
      (comes : Comes next work ending) : Comes (.sleep ms next) work ending
  | order {command : Command} {next : Except QueueError Unit → Activity} {work : List Deed}
      {ending : Ending} (answer : Except QueueError Unit)
      (comes : Comes (next answer) work ending) :
      Comes (.order command next) (.order command :: work) ending
  | repositories {next : Except StoreError (List String) → Activity} {work : List Deed}
      {ending : Ending} (answer : Except StoreError (List String))
      (comes : Comes (next answer) work ending) : Comes (.repositories next) work ending
  | list {repository : String} {next : Except StoreError (List Artifact) → Activity}
      {work : List Deed} {ending : Ending} (answer : Except StoreError (List Artifact))
      (comes : Comes (next answer) work ending) : Comes (.list repository next) work ending
  | find {digest : String} {next : Except StoreError (Option Artifact) → Activity}
      {work : List Deed} {ending : Ending} (answer : Except StoreError (Option Artifact))
      (comes : Comes (next answer) work ending) : Comes (.find digest next) work ending
  | delete {repository digest : String} {next : Except StoreError UInt64 → Activity}
      {work : List Deed} {ending : Ending} (answer : Except StoreError UInt64)
      (comes : Comes (next answer) work ending) :
      Comes (.delete repository digest next) (.delete repository digest :: work) ending

theorem Activity.Comes.byJob {rest : Activity} {work : List Deed} {ending : Ending}
    (comes : rest.Comes work ending) : ∀ deed ∈ work, deed.byJob = true := by
  induction comes with
  | done | fault => simp
  | log comes ih | checkIn comes ih | order answer comes ih | delete answer comes ih =>
    simpa [Deed.byJob] using ih
  | poll answer comes ih | sleep comes ih | repositories answer comes ih | list answer comes ih
  | find answer comes ih => exact ih

namespace Delivery

/-- What a delivery does between its first status and its last one, and how the job ends. -/
inductive Course (terms : Terms) (job : Job) (record : Record) (e : Engine) :
    List Deed → Ending → Prop
  | unlogged {err : QueueError} (broken : e.logs.openLog terms.target record = .error err) :
      Course terms job record e [] (.unlogged err)
  | refused {log : OpenLog × LogBook} {f : Fault}
      (logged : e.logs.openLog terms.target record = .ok log)
      (invalid : job.validate record.parameters = .error f) :
      Course terms job record e [.opened, .closed] (.refused f)
  | ran {log : OpenLog × LogBook} {work : List Deed} {ending : Ending}
      (logged : e.logs.openLog terms.target record = .ok log)
      (valid : job.validate record.parameters = .ok ())
      (comes : (job.run ⟨record.id, record.jobType, record.parameters,
        e.runsOf job.jobType⟩).Comes work ending) :
      Course terms job record e (.opened :: .called :: work ++ [.closed]) ending

theorem Course.counts {terms : Terms} {job : Job} {record : Record} {e : Engine}
    {part : List Deed} {ending : Ending} (course : Course terms job record e part ending) :
    part.count .called ≤ part.count .opened ∧ part.count .opened ≤ 1 ∧
      part.count .closed = part.count .opened ∧ (∀ status, .status status ∉ part) ∧
      .doomed ∉ part := by
  cases course with
  | unlogged broken => simp
  | refused logged invalid => simp
  | @ran log work ending logged valid comes =>
    have none {deed : Deed} (other : deed.byJob = false) : deed ∉ work := by
      intro mem
      rw [comes.byJob deed mem] at other
      cases other
    have called : work.count .called = 0 := List.count_eq_zero.mpr (none rfl)
    have opened : work.count .opened = 0 := List.count_eq_zero.mpr (none rfl)
    have closed : work.count .closed = 0 := List.count_eq_zero.mpr (none rfl)
    have written (status : Status) : .status status ∉ work := none rfl
    have doomed : .doomed ∉ work := none rfl
    simp [called, opened, closed, written, doomed]

section Run

variable {terms : Terms}

theorem after_succ (d : Delivery) (met : Nat → Engine × DeadLetters) (n : Nat) :
    d.after terms met (n + 1) =
      (d.step terms (met 0).1 (met 0).2).1.after terms (fun k => met (k + 1)) n := by
  induction n with
  | zero => rfl
  | succ n ih => rw [after, ih, after]

theorem trace_succ (d : Delivery) (met : Nat → Engine × DeadLetters) (n : Nat) :
    d.trace terms met (n + 1) = d.deeds terms (met 0).1 ++
      (d.step terms (met 0).1 (met 0).2).1.trace terms (fun k => met (k + 1)) n := by
  induction n with
  | zero => simp [trace, after]
  | succ n ih => rw [trace, ih, after_succ, List.append_assoc, trace]

/-- From some step on the delivery has come to `last` and has done just this. -/
def Reaches (terms : Terms) (d : Delivery) (met : Nat → Engine × DeadLetters) (done : List Deed)
    (last : Delivery) : Prop :=
  ∃ n, ∀ m ≥ n, d.after terms met m = last ∧ d.trace terms met m = done

variable {met : Nat → Engine × DeadLetters} {job : Job} {record : Record}

/-- One more step in front. -/
theorem Reaches.front {d next last : Delivery} {deeds done : List Deed}
    (step : (d.step terms (met 0).1 (met 0).2).1 = next) (does : d.deeds terms (met 0).1 = deeds)
    (rest : Reaches terms next (fun k => met (k + 1)) done last) :
    Reaches terms d met (deeds ++ done) last := by
  subst step does
  obtain ⟨n, reached⟩ := rest
  refine ⟨n + 1, ?_⟩
  intro m le
  obtain ⟨k, rfl⟩ : ∃ k, m = k + 1 := ⟨m - 1, by omega⟩
  obtain ⟨here, done⟩ := reached k (by omega)
  rw [after_succ, trace_succ, here, done]
  exact ⟨rfl, rfl⟩

theorem reaches_decided (result : Except JobError Unit) :
    Reaches terms ⟨record, job, .decided result⟩ met [] ⟨record, job, .decided result⟩ := by
  refine ⟨0, fun m _ => ?_⟩
  induction m with
  | zero => exact ⟨rfl, rfl⟩
  | succ m ih =>
    obtain ⟨here, done⟩ := ih (Nat.zero_le m)
    rw [after, trace, here, done]
    exact ⟨rfl, rfl⟩

/-- The last deeds of a delivery. -/
def farewell (terms : Terms) (job : Job) (record : Record) (ending : Ending) : List Deed :=
  .status ending.status :: if ending.dooms terms.policy job record then [.doomed] else []

/-- The delivery when it has decided. -/
def decided (terms : Terms) (job : Job) (record : Record) (ending : Ending) : Delivery where
  record := if ending.dooms terms.policy job record then { record with fails := deadLetterFails }
    else record
  job := job
  stage := .decided ending.result

theorem reaches_reported (ending : Ending) :
    Reaches terms ⟨record, job, .reported ending.outcome⟩ met
      (if ending.dooms terms.policy job record then [.doomed] else [])
      (decided terms job record ending) := by
  have does : deeds terms ⟨record, job, .reported ending.outcome⟩ (met 0).1 =
      if ending.dooms terms.policy job record then [.doomed] else [] := by
    simp only [deeds, ending.deadLetters_eq]
  have step : (Delivery.step terms ⟨record, job, .reported ending.outcome⟩ (met 0).1 (met 0).2).1 =
      decided terms job record ending := by
    simp only [Delivery.step, ending.deadLetters_eq, ending.outcome_eq.2, decided]
    split <;> rfl
  have reached := Reaches.front step does (reaches_decided ending.result)
  rwa [List.append_nil] at reached

theorem reaches_ended (ending : Ending) :
    Reaches terms ⟨record, job, .ended ending.outcome⟩ met (farewell terms job record ending)
      (decided terms job record ending) := by
  have does : deeds terms ⟨record, job, .ended ending.outcome⟩ (met 0).1 =
      [.status ending.status] := by
    simp only [deeds, ending.outcome_eq.1]
  exact Reaches.front rfl does (reaches_reported ending)

theorem reaches_act {rest : Activity} {log : OpenLog} {stage : Stage} {done : List Deed}
    {last : Delivery} (goes : (act record (met 0).1 log rest).1 = stage)
    (reached : Reaches terms ⟨record, job, stage⟩ (fun k => met (k + 1)) done last) :
    Reaches terms ⟨record, job, .active log rest⟩ met (rest.deeds ++ done) last := by
  refine Reaches.front ?_ ?_ reached
  · simp only [Delivery.step, goes]
  · simp only [deeds]

/-- The induction is on what the job still does; others may answer it as they like. -/
theorem reaches_active (rest : Activity) (log : OpenLog) (met : Nat → Engine × DeadLetters) :
    ∃ work ending, rest.Comes work ending ∧
      Reaches terms ⟨record, job, .active log rest⟩ met
        (work ++ .closed :: farewell terms job record ending)
        (decided terms job record ending) := by
  induction rest generalizing log met with
  | done => exact ⟨[], .success, .done, reaches_act rfl (reaches_ended .success)⟩
  | fault f => exact ⟨[], .fault f, .fault f, reaches_act rfl (reaches_ended (.fault f))⟩
  | log level message next ih =>
    obtain ⟨work, ending, comes, reached⟩ :=
      ih ((met 0).1.logs.log record (met 0).1.now level message log).1 fun k => met (k + 1)
    exact ⟨.line level message :: work, ending, comes.log, reaches_act rfl reached⟩
  | checkIn message next ih =>
    obtain ⟨work, ending, comes, reached⟩ := ih log fun k => met (k + 1)
    exact ⟨.checkIn message :: work, ending, comes.checkIn, reaches_act rfl reached⟩
  | sleep ms next ih =>
    obtain ⟨work, ending, comes, reached⟩ := ih log fun k => met (k + 1)
    exact ⟨work, ending, comes.sleep, reaches_act rfl reached⟩
  | poll next ih =>
    obtain ⟨answer, goes⟩ : ∃ answer,
      (act record (met 0).1 log (.poll next)).1 = .active log (next answer) := ⟨_, rfl⟩
    obtain ⟨work, ending, comes, reached⟩ := ih answer log fun k => met (k + 1)
    exact ⟨work, ending, comes.poll answer, reaches_act goes reached⟩
  | order command next ih =>
    let answer := ((met 0).1.sendCommand record.id command).1
    obtain ⟨work, ending, comes, reached⟩ := ih answer log fun k => met (k + 1)
    exact ⟨.order command :: work, ending, comes.order answer, reaches_act rfl reached⟩
  | repositories next ih =>
    let answer := (met 0).1.listRepositories
    obtain ⟨work, ending, comes, reached⟩ := ih answer log fun k => met (k + 1)
    exact ⟨work, ending, comes.repositories answer, reaches_act rfl reached⟩
  | list repository next ih =>
    let answer := (met 0).1.listArtifacts repository
    obtain ⟨work, ending, comes, reached⟩ := ih answer log fun k => met (k + 1)
    exact ⟨work, ending, comes.list answer, reaches_act rfl reached⟩
  | find digest next ih =>
    let answer := (met 0).1.findArtifact digest
    obtain ⟨work, ending, comes, reached⟩ := ih answer log fun k => met (k + 1)
    exact ⟨work, ending, comes.find answer, reaches_act rfl reached⟩
  | delete repository digest next ih =>
    let answer := ((met 0).1.deleteArtifact repository digest).1
    obtain ⟨work, ending, comes, reached⟩ := ih answer log fun k => met (k + 1)
    exact ⟨.delete repository digest :: work, ending, comes.delete answer,
      reaches_act rfl reached⟩

theorem reaches_announced (met : Nat → Engine × DeadLetters) :
    ∃ part ending, Course terms job record (met 0).1 part ending ∧
      Reaches terms ⟨record, job, .announced⟩ met (part ++ farewell terms job record ending)
        (decided terms job record ending) := by
  cases opened : (met 0).1.logs.openLog terms.target record with
  | error err =>
    refine ⟨[], .unlogged err, .unlogged opened, ?_⟩
    refine Reaches.front ?_ ?_ (reaches_ended (.unlogged err))
    · simp only [Delivery.step, prepare, opened]
      rfl
    · simp only [deeds, opened]
  | ok log =>
    cases validated : job.validate record.parameters with
    | error f =>
      refine ⟨[.opened, .closed], .refused f, .refused opened validated, ?_⟩
      refine Reaches.front ?_ ?_ (reaches_ended (.refused f))
      · simp only [Delivery.step, prepare, opened, validated]
        rfl
      · simp only [deeds, opened, validated]
    | ok =>
      let invocation : Invocation :=
        ⟨record.id, record.jobType, record.parameters, (met 0).1.runsOf job.jobType⟩
      obtain ⟨work, ending, comes, reached⟩ :=
        reaches_active (job.run invocation) log.1 fun k => met (k + 1)
      refine ⟨.opened :: .called :: work ++ [.closed], ending, .ran opened validated comes, ?_⟩
      have through : Reaches terms ⟨record, job, .announced⟩ met
          ([.opened, .called] ++ (work ++ .closed :: farewell terms job record ending))
          (decided terms job record ending) := by
        refine Reaches.front ?_ ?_ reached
        · simp only [Delivery.step, prepare, opened, validated, invocation]
        · simp only [deeds, opened, validated]
      simpa only [List.cons_append, List.append_assoc, List.nil_append] using through

/-- Whatever the job does and whatever others do in between, a delivery comes to a decision, and
until then it does exactly this: it writes Running, opens the log, calls the job if the parameters
pass, does what the job does, closes the log if one is open, writes the status that the ending has,
and schedules the confirmation if retries are disabled. -/
theorem run_traced (terms : Terms) (job : Job) (record : Record)
    (met : Nat → Engine × DeadLetters) :
    let d : Delivery := { record, job }
    ∃ n part ending,
      Course terms job record (met 1).1 part ending ∧
      (∀ m ≥ n,
        d.after terms met m =
          { record := if ending.dooms terms.policy job record then
              { record with fails := deadLetterFails } else record
            job, stage := .decided ending.result } ∧
        d.trace terms met m = .status .running :: part ++ .status ending.status ::
          if ending.dooms terms.policy job record then [.doomed] else []) ∧
      (ending.result = .ok () ↔ ending.status = .success ∨ ending.status = .stopped) ∧
      (part.count .called ≤ part.count .opened ∧ part.count .opened ≤ 1 ∧
        part.count .closed = part.count .opened ∧ (∀ status, .status status ∉ part) ∧
        .doomed ∉ part) ∧
      ∀ k, let here := d.after terms met k
        let next := here.step terms (met k).1 (met k).2
        d.after terms met (k + 1) = next.1 ∧
          (here.deeds terms (met k).1).foldl (Scene.act terms here) (here.scene (met k)) =
            next.1.scene next.2 := by
  intro d
  obtain ⟨part, ending, course, reached⟩ := reaches_announced fun k => met (k + 1)
  have begun : Reaches terms d met
      ([.status .running] ++ (part ++ farewell terms job record ending))
      (decided terms job record ending) := Reaches.front rfl rfl reached
  obtain ⟨n, there⟩ := begun
  refine ⟨n, part, ending, course, there, ending.result_ok_iff, course.counts, fun k => ⟨rfl, ?_⟩⟩
  exact step_acts terms (d.after terms met k) (met k).1 (met k).2

/-- A job that crashes at once. -/
example :
    let job : Job := { Job.idle "idle" with run := fun _ => .fault (.crash .wordless) }
    let record : Record := .ofRequest ⟨"idle", [], none⟩ (.ofNat 7) ⟨0, 0⟩
    Delivery.trace ⟨⟨4⟩, .recorder⟩ { record, job } (fun _ => ({ clock := 0 }, ⟨0, [], false⟩)) 9 =
      [.status .running, .opened, .called, .closed, .status .error] := by decide +kernel

end Run

end Delivery

end JobEngine
