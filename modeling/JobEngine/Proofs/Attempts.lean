import JobEngine.Proofs.Runs
import Mathlib.Logic.Function.Iterate

/-!
# The attempts at a record

A record is taken and worked off, and perhaps appended again. Said here is how
far the attempts at one record can have come: which failures are behind it,
what it looks like at each delivery, and what its last delivery came to. Only
an ordinary failure under the budget, of a job that may be retried, is
followed by another attempt.
-/
namespace JobEngine

/-! ## Counted failures -/

namespace Record

/-- The record after so many failures were counted. -/
def after (record : Record) (n : Nat) : Record :=
  { record with fails := countFailure^[n] record.fails }

theorem after_zero (record : Record) : record.after 0 = record := rfl

theorem after_succ (record : Record) (n : Nat) :
    record.after (n + 1) =
      { record.after n with fails := countFailure (record.after n).fails } := by
  simp only [after, Function.iterate_succ_apply']

theorem toNat_fails_after (record : Record) (n : Nat) :
    (record.after n).fails.toNat = min (record.fails.toNat + n) (UInt64.size - 1) := by
  induction n with
  | zero =>
    have word := record.fails.toNat_lt_size
    rw [after_zero]
    omega
  | succ n ih =>
    rw [after_succ, toNat_countFailure, ih]
    omega

end Record

/-! ## What a story tells of the attempts -/

namespace Event

def taken? : Event → Option Record
  | .taken record => some record
  | _ => none

def outcome? : Event → Option Outcome
  | .ended _ outcome => some outcome
  | _ => none

end Event

namespace Life

/-- The record as it was each time a worker took it. -/
def deliveries (l : Life) : List Record := l.story.filterMap Event.taken?

/-- How the runs ended. -/
def outcomes (l : Life) : List Outcome := l.story.filterMap Event.outcome?

end Life

/-- One more event is told. -/
theorem filterMap_told {α : Type} (f : Event → Option α) (story : List Event) (event : Event) :
    (story ++ [event]).filterMap f = story.filterMap f ++ (f event).toList := by
  cases told : f event <;> simp [told]

/-- What was dropped is told of, to no effect on what else happened. -/
theorem filterMap_dropped {α : Type} (f : Event → Option α) (story : List Event)
    (silent : ∀ c, f (.dropped c) = none) (waiting : List Confirmation) :
    (story ++ waiting.map Event.dropped).filterMap f = story.filterMap f := by
  simp [silent]

theorem mem_of_told {story : List Event} {event last : Event} (mem : event ∈ story ++ [last])
    (earlier : event ≠ last) : event ∈ story :=
  (List.mem_append.mp mem).resolve_right (by simpa using earlier)

/-- A worker has a record with the job of its type, or as a stray if there is none. -/
def Station.Suits (registry : Registry) (jobType : String) : Station → Prop
  | .fetched job | .running job | .reported job _ | .decided job _ =>
    registry.find? jobType = some job
  | .stray | .strayMarked => registry.find? jobType = none
  | _ => True

/-- How far the attempts at the record have come when the failures `errors` are behind it: what it
is now, as what it was delivered and what became of the runs. -/
def Station.Stands (origin : World) (first : Record) (errors : List JobError) (record : Record)
    (deliveries : List Record) (outcomes : List Outcome) (station : Station) : Prop :=
  let now := first.after errors.length
  let policy := origin.pool.terms.policy
  let taken (n : Nat) := deliveries = (List.range n).map first.after
  let ended (last : List Outcome) := outcomes = errors.map .failed ++ last
  match station with
  | .appending | .queued => record = now ∧ taken errors.length ∧ ended []
  | .fetched _ | .running _ | .stray | .strayMarked =>
    record = now ∧ taken (errors.length + 1) ∧ ended []
  | .reported _ outcome => record = now ∧ taken (errors.length + 1) ∧ ended [outcome]
  | .decided job result => ∃ outcome, outcome.result = result ∧
    record = Worker.judged policy job now outcome ∧
      taken (errors.length + 1) ∧ ended [outcome]
  | .completed => ∃ outcome, outcome.result = .ok () ∧
    record = now ∧ taken (errors.length + 1) ∧ ended [outcome]
  | .buried => taken (errors.length + 1) ∧
    (origin.engine.registry.find? first.jobType = none ∧ record = now ∧ ended [] ∨
      ∃ job outcome err, origin.engine.registry.find? first.jobType = some job ∧
        outcome.result = .error err ∧
        record = (Worker.judged policy job now outcome).after 1 ∧
        (origin.engine.queue.threshold first).toNat ≤ record.fails.toNat ∧ ended [outcome])

/-- The attempts at a record, of which all but the last ended with one of `errors` and were
retried. -/
structure Life.Tally (origin : World) (first : Record) (errors : List JobError) (l : Life) :
    Prop where
  stands : l.station.Stands origin first errors l.record l.deliveries l.outcomes
  retried : errors ≠ [] →
    (first.after errors.length).fails.toNat < (origin.engine.queue.threshold first).toNat ∧
      ∃ job, origin.engine.registry.find? first.jobType = some job ∧ job.shouldRetry = true

namespace Station.Stands

variable {origin : World} {first record : Record} {errors : List JobError} {story : List Event}

/-- Another event is told that is neither a delivery nor the end of one. -/
theorem told {station : Station}
    (stands : station.Stands origin first errors record (story.filterMap Event.taken?)
      (story.filterMap Event.outcome?)) (event : Event)
    (untaken : event.taken? = none) (unended : event.outcome? = none) :
    station.Stands origin first errors record ((story ++ [event]).filterMap Event.taken?)
      ((story ++ [event]).filterMap Event.outcome?) := by
  rw [filterMap_told, filterMap_told, untaken, unended]
  simpa using stands

theorem taken (stands : queued.Stands origin first errors record (story.filterMap Event.taken?)
      (story.filterMap Event.outcome?)) :
    stray.Stands origin first errors record ((story ++ [Event.taken record]).filterMap Event.taken?)
      ((story ++ [Event.taken record]).filterMap Event.outcome?) := by
  obtain ⟨same, taken, ended⟩ := stands
  refine ⟨same, ?_, ?_⟩
  · simp only [filterMap_told, taken, same, List.range_succ, List.map_append, List.map_cons]
    rfl
  · simp only [filterMap_told, ended, Event.outcome?, Option.toList_none, List.append_nil]

theorem ended {job : Job} (outcome : Outcome) (id : JobId)
    (stands : (running job).Stands origin first errors record (story.filterMap Event.taken?)
      (story.filterMap Event.outcome?)) :
    (reported job outcome).Stands origin first errors record
      ((story ++ [Event.ended id outcome]).filterMap Event.taken?)
      ((story ++ [Event.ended id outcome]).filterMap Event.outcome?) := by
  obtain ⟨same, taken, ended⟩ := stands
  refine ⟨same, ?_, ?_⟩
  · simp only [filterMap_told, taken, Event.taken?, Option.toList_none, List.append_nil]
  · simp only [filterMap_told, ended, List.append_nil]
    rfl

end Station.Stands

namespace Worker

/-- Of a run that did not fail the policy decides nothing. -/
theorem judged_of_ok {policy : RetryPolicy} {job : Job} {record : Record} {outcome : Outcome}
    (ended : outcome.result = .ok ()) : judged policy job record outcome = record := by
  cases outcome with
  | succeeded | stopped => rfl
  | cancelled e | failed e | buildFailed e => cases ended

/-- Nor does it of an ordinary failure of a job that may be retried. -/
theorem judged_of_retries {policy : RetryPolicy} {job : Job} {record : Record} {e : JobError}
    (retries : job.shouldRetry = true) : judged policy job record (.failed e) = record := by
  simp [judged, Outcome.deadLetters, RetryPolicy.disablesRetry, retries]

theorem jobType_judged (policy : RetryPolicy) (job : Job) (record : Record) (outcome : Outcome) :
    (judged policy job record outcome).jobType = record.jobType := by
  simp only [judged]
  split <;> rfl

theorem threshold_judged (policy : RetryPolicy) (job : Job) (record : Record) (outcome : Outcome)
    (q : Queue) : q.threshold (judged policy job record outcome) = q.threshold record := by
  simp only [judged]
  split <;> rfl

/-- What the queue may append again was an ordinary failure of a job that may be retried. -/
theorem retried_of_under {policy : RetryPolicy} {job : Job} {record : Record} {outcome : Outcome}
    {err : JobError} {m : UInt32} (ended : outcome.result = .error err)
    (budget : m = policy.effectiveBudget job record)
    (under : (countFailure (judged policy job record outcome).fails).toNat < m.toNat) :
    outcome = .failed err ∧ job.shouldRetry = true ∧
      judged policy job record outcome = record := by
  have spared : outcome.deadLetters policy job record = false := by
    by_contra hopeless
    have doomed : countFailure deadLetterFails = 10000000001 := by decide
    have word := m.toNat_lt_size
    have size : UInt32.size < (10000000001 : UInt64).toNat := by decide
    simp only [judged, Bool.eq_true_of_not_eq_false hopeless, if_true, doomed] at under
    omega
  have same : judged policy job record outcome = record := by
    simp only [judged, spared, Bool.false_eq_true, if_false]
  rw [same, budget] at under
  cases outcome with
  | succeeded | stopped => cases ended
  | buildFailed e => cases spared
  | cancelled e => simp [Outcome.deadLetters, RetryPolicy.disablesRetry, under] at spared
  | failed e =>
    obtain rfl : e = err := Except.error.inj ended
    refine ⟨rfl, ?_, same⟩
    simpa [Outcome.deadLetters, RetryPolicy.disablesRetry, under] using spared

end Worker

namespace Lived

variable {origin : World}

theorem suits {l : Life} (lived : Lived origin l) :
    l.station.Suits origin.engine.registry l.record.jobType := by
  induction lived with
  | submitted | offered | handed | cast | completed | requeued | buried => trivial
  | taken lived here known ih => exact known
  | strayed lived here unknown ih => exact unknown
  | marked lived here ih | began lived here ih | ended outcome lived here ih
  | doomed lived here hopeless ih | spared lived here hopeful ih =>
    rw [here] at ih
    exact ih
  | checkedIn message lived here ih | commanded command lived tracked ih
  | confirmed lived waits due ih | dropped lived ih | evicted lived tracked settled ih
  | passed ms lived ih => exact ih

/-- The induction is on the steps of the life. -/
theorem tally (starts : origin.Starts) {l : Life} (lived : Lived origin l) {first : Record}
    (born : .created first ∈ l.story) : ∃ errors, l.Tally origin first errors := by
  induction lived with
  | submitted | offered =>
    obtain rfl : first = _ := by simpa using born
    exact ⟨[], ⟨rfl, rfl, rfl⟩, fun none => absurd rfl none⟩
  | handed lived here ih | marked lived here ih | began lived here ih =>
    obtain ⟨errors, stands, retried⟩ := ih (mem_of_told born (by simp))
    rw [here] at stands
    exact ⟨errors, stands.told _ rfl rfl, retried⟩
  | commanded command lived tracked ih | confirmed lived waits due ih =>
    obtain ⟨errors, stands, retried⟩ := ih (mem_of_told born (by simp))
    exact ⟨errors, stands.told _ rfl rfl, retried⟩
  | checkedIn message lived here ih | evicted lived tracked settled ih | passed ms lived ih =>
    obtain ⟨errors, stands, retried⟩ := ih born
    exact ⟨errors, stands, retried⟩
  | @dropped l lived ih =>
    have silent : .created first ∉ l.waiting.map Event.dropped := by simp
    obtain ⟨errors, stands, retried⟩ := ih ((List.mem_append.mp born).resolve_right silent)
    refine ⟨errors, ?_, retried⟩
    simp only [Life.deliveries, Life.outcomes] at stands ⊢
    rwa [filterMap_dropped Event.taken? _ fun _ => rfl,
      filterMap_dropped Event.outcome? _ fun _ => rfl]
  | taken lived here known ih | strayed lived here unknown ih =>
    obtain ⟨errors, stands, retried⟩ := ih (mem_of_told born (by simp))
    rw [here] at stands
    exact ⟨errors, stands.taken, retried⟩
  | cast lived here ih =>
    obtain ⟨errors, stands, retried⟩ := ih (mem_of_told born (by simp))
    have suits := lived.suits
    rw [here] at stands suits
    obtain ⟨same, taken, ended⟩ := stands.told (.buried _) rfl rfl
    rw [same] at suits
    exact ⟨errors, ⟨taken, Or.inl ⟨suits, same, ended⟩⟩, retried⟩
  | ended outcome lived here ih =>
    obtain ⟨errors, stands, retried⟩ := ih (mem_of_told born (by simp))
    rw [here] at stands
    exact ⟨errors, stands.ended outcome _, retried⟩
  | @doomed l job outcome lived here hopeless ih =>
    obtain ⟨errors, stands, retried⟩ := ih (mem_of_told born (by simp))
    rw [here] at stands
    obtain ⟨same, taken, ended⟩ := stands.told (.doomed _) rfl rfl
    refine ⟨errors, ⟨outcome, rfl, ?_, taken, ended⟩, retried⟩
    rw [← same, Worker.judged, hopeless, if_pos rfl]
  | @spared l job outcome lived here hopeful ih =>
    obtain ⟨errors, stands, retried⟩ := ih born
    rw [here] at stands
    obtain ⟨same, taken, ended⟩ := stands
    refine ⟨errors, ⟨outcome, rfl, ?_, taken, ended⟩, retried⟩
    rw [← same, Worker.judged, hopeful]
    rfl
  | completed lived here ih =>
    obtain ⟨errors, stands, retried⟩ := ih (mem_of_told born (by simp))
    rw [here] at stands
    obtain ⟨outcome, result, same, taken, ended⟩ := stands.told (.completed _) rfl rfl
    rw [Worker.judged_of_ok result] at same
    exact ⟨errors, ⟨outcome, result, same, taken, ended⟩, retried⟩
  | @requeued l job err lived here under ih =>
    obtain ⟨errors, stands, retried⟩ := ih (mem_of_told born (by simp))
    have known := lived.suits
    rw [here] at stands known
    obtain ⟨outcome, result, same, taken, ended⟩ := stands.told (.requeued l.counted) rfl rfl
    simp only [Life.counted, same, Station.Suits, Worker.jobType_judged, Worker.threshold_judged]
      at known under
    obtain ⟨rfl, retries, same'⟩ :=
      Worker.retried_of_under result (starts.agree _ job known) under
    rw [same'] at same under
    have counted : l.counted = first.after (errors ++ [err]).length := by
      simp only [List.length_append, List.length_singleton, Record.after_succ, Life.counted, same]
    refine ⟨errors ++ [err], ⟨counted, ?_, ?_⟩, fun _ => ⟨?_, job, known, retries⟩⟩
    · rwa [List.length_append]
    · simp only [List.map_append, List.append_nil]
      exact ended
    · rw [← counted, Life.counted, same]
      exact under
  | @buried l job err lived here spent ih =>
    obtain ⟨errors, stands, retried⟩ := ih (mem_of_told born (by simp))
    have known := lived.suits
    rw [here] at stands known
    obtain ⟨outcome, result, same, taken, ended⟩ := stands.told (.buried l.counted) rfl rfl
    simp only [same, Station.Suits, Worker.jobType_judged, Worker.threshold_judged]
      at known spent
    have counted : l.counted = l.record.after 1 := rfl
    rw [same] at counted
    exact ⟨errors, ⟨taken, Or.inr ⟨job, outcome, err, known, result, counted, spent, ended⟩⟩,
      retried⟩

end Lived

/-- Fails each time it is run, and may be retried once. -/
def World.broken : Job where
  jobType := "broken"
  maxFails := 2
  shouldRetry := true
  run := fun _ => .fail (.failed "broken")

/-- A record is submitted, and its first attempt is worked off. -/
def World.firstAttempt : List Move :=
  [.submit ⟨"broken", [], none⟩ (.ofNat 7), .proceed 0, .proceed 0] ++ List.replicate 7 (.work 0)

end JobEngine
