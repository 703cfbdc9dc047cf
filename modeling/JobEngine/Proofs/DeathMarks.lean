import JobEngine.Proofs.Conservation
import JobEngine.Proofs.StatusCourse

/-!
# The mark of death is true

The mark in the tracker is written by a confirmation that waits for a grace
delay, while the worker still has the record in hand and tells the queue on
its own. Nothing makes one wait for the other but the clock: as long as a
worker can go on no time passes, so a confirmation is not due before the
record it is about is among the dead.
-/
namespace JobEngine

/-! ## Decisions and what they schedule -/

/-- The retries of a job were disabled at this time. -/
structure Decision where
  id : JobId
  clock : Nat
deriving DecidableEq

def Decision.confirmation (grace : Nat) (d : Decision) : Confirmation :=
  ⟨d.id, .ofMillis d.clock, d.clock + grace⟩

namespace Worker

/-- What the retry policy decides in the next step, if it disables the retries. -/
def decision? (terms : Terms) (e : Engine) : Worker → Option Decision
  | .carrying ⟨record, job, .reported outcome⟩ =>
    if outcome.deadLetters terms.policy job record then some ⟨record.id, e.clock⟩ else none
  | _ => none

/-- It waits for a record or for time to pass, or it has stopped. -/
def isIdle : Worker → Bool
  | .parked | .stopped => true
  | .carrying d => 0 < d.pause
  | _ => false

end Worker

def Move.passes : Move → Bool
  | .pass _ => true
  | _ => false

namespace World

def decision? (s : World) : Move → Option Decision
  | .work index => s.pool.workers[index]?.bind (Worker.decision? s.pool.terms s.engine)
  | _ => none

/-- All decisions of a run, in order. -/
def decisions (s : World) : List Move → List Decision
  | [] => []
  | move :: rest => (s.decision? move).toList ++ (s.apply move).decisions rest

/-- All confirmations that come to those that wait, in order. -/
def scheduled (s : World) : List Move → List Confirmation
  | [] => []
  | move :: rest =>
    (s.apply move).pool.letters.waiting.drop s.pool.letters.waiting.length ++
      (s.apply move).scheduled rest

/-- The clock moves only while no worker can go on. -/
def isPunctual (s : World) : List Move → Bool
  | [] => true
  | move :: rest =>
    (!move.passes || s.pool.workers.all Worker.isIdle) && (s.apply move).isPunctual rest

end World

namespace Event

def doomed? : Event → Option Confirmation
  | .doomed c => some c
  | _ => none

/-- A confirmation is scheduled or delivered. -/
def isMark : Event → Bool
  | .doomed _ | .confirmed _ => true
  | _ => false

theorem filterMap_isMark (events : List Event) :
    (events.filter isMark).filterMap doomed? = events.filterMap doomed? := by
  rw [List.filterMap_filter]
  congr 1
  funext event
  cases event <;> rfl

end Event

/-! ## One life -/

namespace Fate

/-- The confirmation that was scheduled. -/
def scheduled : Fate → List Confirmation
  | .open => []
  | .doomed c | .confirmed c | .dropped c => [c]

end Fate

/-- At most one confirmation is scheduled for a job, and it is delivered when it is due. A job that
had one dies with a count that no budget reaches. -/
structure Life.Scheduled (l : Life) : Prop where
  once : l.story.filterMap Event.doomed? = (Account.of l.story).fate.scheduled
  due : ∀ c, (Account.of l.story).fate = .confirmed c → .confirmed c ∈ l.story ∧ c.due ≤ l.clock
  spent : l.station = .buried → (Account.of l.story).fate ≠ .open →
    l.record.fails = deadLetterFails + 1

namespace Life.Scheduled

/-- Another event is told that schedules nothing and delivers nothing. -/
theorem told {l : Life} (scheduled : l.Scheduled) {event : Event} (plain : event.doomed? = none)
    (still : ((Account.of l.story).after event).fate = (Account.of l.story).fate)
    {record : Record} {station : Station} (entry : Option Stats)
    (spent : station = .buried → (Account.of l.story).fate ≠ .open →
      record.fails = deadLetterFails + 1) :
    Life.Scheduled { l with record, station, entry, story := l.story ++ [event] } := by
  constructor
  · rw [filterMap_told, plain, Option.toList_none, List.append_nil, Account.of_append, still]
    exact scheduled.once
  · rw [Account.of_append, still]
    intro c fate
    obtain ⟨delivered, due⟩ := scheduled.due c fate
    exact ⟨List.mem_append_left _ delivered, due⟩
  · rw [Account.of_append, still]
    exact spent

end Life.Scheduled

namespace Lived

variable {origin : World} {l : Life}

theorem scheduled (lived : Lived origin l) : l.Scheduled := by
  induction lived with
  | submitted known valid => exact ⟨rfl, by rintro c ⟨⟩, by simp⟩
  | offered record clock => exact ⟨rfl, by rintro c ⟨⟩, by simp⟩
  | handed lived here ih | taken lived here known ih | strayed lived here unknown ih
  | marked lived here ih | began lived here ih | ended outcome lived here ih
  | completed lived here ih | requeued lived here under ih =>
    exact ih.told rfl rfl _ (by simp)
  | @cast l lived here ih =>
    have fits := lived.accords.station
    rw [here] at fits
    exact ih.told rfl rfl _ fun _ unopened => absurd fits.1 unopened
  | @buried l job err lived here spent ih =>
    have fits := lived.accords.station
    rw [here] at fits
    refine ih.told rfl rfl _ fun _ unopened => ?_
    have counted : countFailure deadLetterFails = deadLetterFails + 1 := by decide
    simp only [Life.counted, fits.2.resolve_left unopened, counted]
  | @doomed l job outcome lived here hopeless ih =>
    have fits := lived.accords.station
    rw [here] at fits
    refine ⟨?_, ?_, by simp⟩
    · rw [filterMap_told, ih.once, fits.1, Account.of_append]
      rfl
    · rw [Account.of_append]
      rintro c ⟨⟩
  | spared lived here hopeful ih => exact ⟨ih.once, ih.due, by simp⟩
  | commanded command lived tracked ih => exact ih.told rfl rfl _ ih.spent
  | @confirmed l c lived waits due ih =>
    obtain ⟨fate, -⟩ := lived.accords.of_waiting waits
    refine ⟨?_, ?_, ?_⟩
    · rw [filterMap_told, ih.once, fate, Account.of_append]
      rfl
    · rw [Account.of_append]
      rintro d same
      obtain rfl : c = d := Fate.confirmed.inj same
      exact ⟨List.mem_append_right _ (List.mem_singleton_self _), due⟩
    · intro here _
      exact ih.spent here (by rw [fate]; simp)
  | @dropped l lived ih =>
    have accords := lived.accords
    cases waiting : l.waiting with
    | nil =>
      simp only [List.map_nil, List.append_nil]
      exact ⟨ih.once, ih.due, ih.spent⟩
    | cons c rest =>
      obtain ⟨fate, only, -⟩ := accords.of_waiting (waiting ▸ List.mem_cons_self)
      rw [← waiting, only, List.map_singleton]
      refine ⟨?_, ?_, ?_⟩
      · rw [filterMap_told, ih.once, fate, Account.of_append]
        rfl
      · rw [Account.of_append]
        rintro d ⟨⟩
      · intro here _
        exact ih.spent here (by rw [fate]; simp)
  | checkedIn message lived here ih => exact ⟨ih.once, ih.due, ih.spent⟩
  | evicted lived tracked settled ih => exact ⟨ih.once, ih.due, ih.spent⟩
  | passed ms lived ih =>
    refine ⟨ih.once, fun c fate => ?_, ih.spent⟩
    obtain ⟨delivered, due⟩ := ih.due c fate
    exact ⟨delivered, Nat.le_add_right_of_le due⟩

end Lived

/-! ## One step -/

theorem Engine.write_clock (e : Engine) (call : TrackerCall)
    (change : Tracker → Except QueueError Tracker) : (e.write call change).2.clock = e.clock := by
  obtain ⟨tracker, written⟩ := write_tracker e call change
  rw [written]

theorem Engine.commandEvents_unmarked (e : Engine) (id : JobId) (command : Command) :
    (e.commandEvents id command).filter Event.isMark = [] := by
  simp only [commandEvents]
  split <;> rfl

namespace Worker

variable {terms : Terms} {index : Nat} {e : Engine} {letters : DeadLetters}

theorem settle_clock (record : Record) (result : Except JobError Unit) (e : Engine) :
    (settle record result e).2.clock = e.clock := by
  cases result with
  | ok | error => simp only [settle]

theorem step_clock (w : Worker) : (w.step terms index e letters).2.1.clock = e.clock := by
  cases w with
  | asking =>
    simp only [step]
    cases taken : e.take? with
    | none => rfl
    | some pair =>
      obtain ⟨_, -, -, -, clock, -⟩ := Engine.take?_some taken
      exact clock
  | carrying d =>
    simp only [step]
    cases d.result? with
    | some result => exact settle_clock d.record result e
    | none => exact (d.step_beyond terms e letters).clock
  | stray record => exact Engine.write_clock _ _ _
  | strayMarked record => simp only [step]
  | emptyHanded | parked | ringing | stopped => rfl

theorem clock_of_decision {w : Worker} {decision : Decision}
    (made : w.decision? terms e = some decision) : decision.clock = e.clock := by
  cases w with
  | carrying d =>
    obtain ⟨record, job, stage⟩ := d
    cases stage with
    | reported outcome =>
      simp only [decision?] at made
      split at made
      · obtain rfl := Option.some.inj made
        rfl
      · cases made
    | _ => cases made
  | _ => cases made

/-- What is decided is scheduled, and nothing else is. -/
theorem step_letters (w : Worker) :
    (w.step terms index e letters).2.2 = { letters with
      waiting := letters.waiting ++
        (w.decision? terms e).toList.map (Decision.confirmation letters.grace) } := by
  have unchanged : letters = { letters with waiting := letters.waiting ++ [] } := by
    rw [List.append_nil]
  cases w with
  | asking =>
    simp only [step]
    split <;> exact unchanged
  | carrying d =>
    obtain ⟨record, job, stage⟩ := d
    cases stage with
    | reported outcome =>
      simp only [step, Delivery.result?, Delivery.step, decision?]
      split
      · rfl
      · exact unchanged
    | _ => exact unchanged
  | _ => exact unchanged

theorem settleEvents_unmarked (record : Record) (result : Except JobError Unit) (q : Queue) :
    (settleEvents record result q).filter Event.isMark = [] := by
  cases result with
  | ok => rfl
  | error err =>
    simp only [settleEvents]
    split <;> rfl

/-- What is decided is told. -/
theorem events_marks (w : Worker) :
    (w.events terms e letters).filter Event.isMark =
      (w.decision? terms e).toList.map fun d => .doomed (d.confirmation letters.grace) := by
  cases w with
  | asking =>
    simp only [events]
    split <;> rfl
  | carrying d =>
    obtain ⟨record, job, stage⟩ := d
    cases stage with
    | reported outcome =>
      simp only [events, Delivery.result?, Delivery.events, decision?]
      split <;> rfl
    | decided result => exact settleEvents_unmarked record result e.queue
    | active log rest =>
      cases rest with
      | order command next => exact e.commandEvents_unmarked record.id command
      | _ => rfl
    | _ => rfl
  | _ => rfl

end Worker

namespace Delivery

/-- A delivery is decided only by the retry policy. -/
theorem reported_of_decided {d : Delivery} {terms : Terms} {e : Engine} {letters : DeadLetters}
    (undecided : d.result? = none) (decided : (d.step terms e letters).1.result?.isSome) :
    ∃ outcome, d.stage = .reported outcome := by
  obtain ⟨record, job, stage⟩ := d
  cases stage with
  | reported outcome => exact ⟨outcome, rfl⟩
  | decided result => cases undecided
  | fetched | ended => cases decided
  | announced =>
    simp only [step, prepare] at decided
    split at decided
    · cases decided
    · split at decided <;> cases decided
  | active log rest => cases rest <;> cases decided

end Delivery

/-- A worker has something to tell the queue only if the policy has just decided. -/
theorem Worker.reported_of_decided {w : Worker} {terms : Terms} {index : Nat} {e : Engine}
    {letters : DeadLetters} {next : Delivery}
    (carries : (w.step terms index e letters).1 = .carrying next)
    (decided : next.result?.isSome) :
    ∃ d outcome, w = .carrying d ∧ d.stage = .reported outcome ∧
      d.record.id = next.record.id := by
  cases w with
  | asking =>
    simp only [step, receive] at carries
    split at carries
    · split at carries
      · cases carries
        cases decided
      · cases carries
    · cases carries
  | emptyHanded =>
    simp only [step] at carries
    split at carries <;> cases carries
  | carrying d =>
    simp only [step] at carries
    cases undecided : d.result? with
    | some result =>
      simp only [undecided, settle] at carries
      split at carries
      · cases carries
      · split at carries <;> cases carries
    | none =>
      simp only [undecided, Worker.carrying.injEq] at carries
      rw [← carries] at decided
      obtain ⟨outcome, reported⟩ := Delivery.reported_of_decided undecided decided
      exact ⟨d, outcome, rfl, reported, by rw [← carries, Delivery.step_id]⟩
  | parked | stray | strayMarked | ringing | stopped => cases carries

namespace World

variable {origin s : World} {move : Move}

/-- All that the others can do while no time passes: they schedule nothing and give nobody a
delivery, and they deliver what is due. -/
structure Calm (s later : World) : Prop where
  waiting : later.pool.letters.waiting.Sublist s.pool.letters.waiting
  carried : ∀ d, .carrying d ∈ later.pool.workers → .carrying d ∈ s.pool.workers
  clock : later.engine.clock = s.engine.clock
  marks : ∃ delivered : List Confirmation,
    later.history.filter Event.isMark =
      s.history.filter Event.isMark ++ delivered.map .confirmed ∧
    ∀ c ∈ delivered, c ∈ s.pool.letters.waiting ∧ c.due ≤ s.engine.clock

namespace Calm

variable {later : World}

theorem told {events : List Event} (pool : later.pool = s.pool)
    (clock : later.engine.clock = s.engine.clock) (history : later.history = s.history ++ events)
    (unmarked : events.filter Event.isMark = []) : Calm s later := by
  refine ⟨?_, ?_, clock, [], ?_, by simp⟩
  · rw [pool]
  · rw [pool]
    exact fun _ held => held
  · rw [history, List.filter_append, unmarked]
    rfl

theorem quiet (pool : later.pool = s.pool) (clock : later.engine.clock = s.engine.clock)
    (history : later.history = s.history) : Calm s later :=
  told pool clock (history.trans (List.append_nil _).symm) rfl

theorem setWorker {w : Worker} (free : w.token? = none) (index : Nat) (bell : Bell Taker) :
    Calm s (s.setWorker index w bell) := by
  refine ⟨List.Sublist.refl _, fun d held => ?_, rfl, [], (List.append_nil _).symm, by simp⟩
  rcases List.mem_or_eq_of_mem_set held with before | rfl
  · exact before
  · cases free

theorem submit (request : Request) (id : JobId) : Calm s (s.submit request id) := by
  simp only [World.submit]
  split
  · exact quiet rfl rfl rfl
  · split
    · rename_i engine _ written
      have clock : (s.engine.setStatus id .pending).2.clock = s.engine.clock :=
        Engine.write_clock _ _ _
      rw [written] at clock
      exact told rfl clock rfl rfl
    · exact quiet rfl rfl rfl

theorem proceed (index : Nat) : Calm s (s.proceed index) := by
  cases here : s.callers[index]? with
  | none =>
    simp only [World.proceed, here]
    exact quiet rfl rfl rfl
  | some c =>
    rw [proceed_eq here]
    cases c with
    | ordering id command =>
      exact told rfl (Engine.write_clock _ _ _) rfl (s.engine.commandEvents_unmarked id command)
    | appending | ringing | done => exact told rfl rfl rfl rfl

theorem confirm (c : Confirmation) : Calm s (s.confirm c) := by
  simp only [World.confirm]
  split
  · rename_i deliverable
    refine ⟨List.erase_sublist, fun _ held => held, Engine.write_clock _ _ _, [c],
      List.filter_append .., fun d one => ?_⟩
    rw [List.mem_singleton.mp one]
    exact deliverable
  · exact quiet rfl rfl rfl

theorem drop : Calm s s.drop := by
  refine ⟨?_, fun _ held => held, rfl, [], ?_, by simp⟩
  · simp only [World.drop, DeadLetters.dropAbandoned]
    split
    · exact List.nil_sublist _
    · exact List.Sublist.refl _
  · simp only [World.drop, List.filter_append]
    congr 1
    split
    · simp [Event.isMark]
    · rfl

end Calm

theorem calm_apply (other : ∀ index, move ≠ .work index) (still : move.passes = false) :
    Calm s (s.apply move) := by
  cases move with
  | work index => exact absurd rfl (other index)
  | pass ms => cases still
  | submit request id => exact .submit request id
  | proceed index => exact .proceed index
  | confirm c => exact .confirm c
  | drop => exact .drop
  | wake index =>
    simp only [apply, wake]
    split
    · split
      · exact .setWorker rfl index _
      · exact .quiet rfl rfl rfl
    · exact .quiet rfl rfl rfl
  | retire index =>
    simp only [apply, retire]
    split
    · split
      · exact .setWorker rfl index _
      · exact .setWorker rfl index _
      · exact .quiet rfl rfl rfl
    · exact .quiet rfl rfl rfl
  | hand record =>
    simp only [apply, hand]
    split
    · exact .quiet rfl rfl rfl
    · exact .told rfl rfl rfl rfl
  | order id command =>
    simp only [apply, order]
    split
    · exact .told rfl rfl rfl rfl
    · exact .quiet rfl rfl rfl
  | close | abandon =>
    exact ⟨List.Sublist.refl _, fun _ held => held, rfl, [], (List.append_nil _).symm, by simp⟩
  | stock store => exact .quiet rfl rfl rfl

/-- A move adds to the confirmations that wait what was decided. -/
theorem scheduled_apply (s : World) (move : Move) :
    (s.apply move).pool.letters.waiting.drop s.pool.letters.waiting.length =
      (s.decision? move).toList.map (Decision.confirmation s.pool.letters.grace) := by
  have calm {later : World} (calm : Calm s later) :
      later.pool.letters.waiting.drop s.pool.letters.waiting.length = [] :=
    List.drop_eq_nil_of_le calm.waiting.length_le
  cases move with
  | work index =>
    simp only [apply, decision?]
    cases here : s.pool.workers[index]? with
    | none =>
      simp only [work, here]
      exact List.drop_length
    | some w =>
      rw [work_eq here]
      simp only [stepped, Worker.step_letters, Option.bind_some]
      exact List.drop_left
  | pass ms => exact List.drop_length
  | _ => exact calm (calm_apply (by simp) rfl)

/-- What was decided is told. -/
theorem doomed_apply (s : World) (move : Move) :
    (s.apply move).history.filterMap Event.doomed? = s.history.filterMap Event.doomed? ++
      (s.decision? move).toList.map (Decision.confirmation s.pool.letters.grace) := by
  have calm {later : World} (calm : Calm s later) : later.history.filterMap Event.doomed? =
      s.history.filterMap Event.doomed? ++ [] := by
    obtain ⟨delivered, marks, -⟩ := calm.marks
    rw [← Event.filterMap_isMark, marks, List.filterMap_append, Event.filterMap_isMark]
    congr 1
    simp [Event.doomed?]
  cases move with
  | work index =>
    simp only [apply, decision?]
    cases here : s.pool.workers[index]? with
    | none =>
      simp only [work, here]
      exact (List.append_nil _).symm
    | some w =>
      rw [work_eq here, stepped, List.filterMap_append, ← Event.filterMap_isMark (w.events ..),
        Worker.events_marks, Option.bind_some]
      cases w.decision? s.pool.terms s.engine <;> rfl
  | pass ms => exact (List.append_nil _).symm
  | _ => exact calm (calm_apply (by simp) rfl)

/-- Only a confirmation that waits and is due is delivered. -/
theorem confirmed_apply {c : Confirmation} (told : .confirmed c ∈ (s.apply move).history) :
    .confirmed c ∈ s.history ∨ c ∈ s.pool.letters.waiting ∧ c.due ≤ s.engine.clock := by
  have mark : .confirmed c ∈ (s.apply move).history.filter Event.isMark :=
    List.mem_filter.mpr ⟨told, rfl⟩
  have calm (calm : Calm s (s.apply move)) :
      .confirmed c ∈ s.history ∨ c ∈ s.pool.letters.waiting ∧ c.due ≤ s.engine.clock := by
    obtain ⟨delivered, marks, due⟩ := calm.marks
    rw [marks] at mark
    rcases List.mem_append.mp mark with before | new
    · exact .inl (List.mem_filter.mp before).1
    · obtain ⟨d, there, same⟩ := List.mem_map.mp new
      obtain rfl := Event.confirmed.inj same
      exact .inr (due d there)
  cases move with
  | work index =>
    rw [apply] at told
    cases here : s.pool.workers[index]? with
    | none =>
      simp only [work, here] at told
      exact .inl told
    | some w =>
      rw [work_eq here] at told
      rcases List.mem_append.mp told with before | new
      · exact .inl before
      · have mark : .confirmed c ∈ (w.events s.pool.terms s.engine s.pool.letters).filter
            Event.isMark := List.mem_filter.mpr ⟨new, rfl⟩
        rw [Worker.events_marks] at mark
        simp at mark
  | pass ms => exact .inl told
  | _ => exact calm (calm_apply (by simp) rfl)

/-! ## Runs -/

/-- A confirmation is not due while a worker still has to tell the queue of its job. -/
def Timely (s : World) : Prop :=
  ∀ d, .carrying d ∈ s.pool.workers → d.result?.isSome → ∀ c ∈ s.pool.letters.waiting,
    c.id = d.record.id → s.engine.clock < c.due

/-- The record of a job whose death was confirmed is among the dead. -/
def Truthful (s : World) : Prop :=
  ∀ c, .confirmed c ∈ s.history → ∃ record, .buried record ∈ s.history ∧ record.id = c.id ∧
    record.fails = deadLetterFails + 1

theorem mem_tokens {token : Token} :
    token ∈ s.tokens ↔ (∃ c ∈ s.callers, c.token? = some token) ∨
      (∃ record ∈ s.engine.queue.pending, (record, .queued) = token) ∨
      (∃ w ∈ s.pool.workers, w.token? = some token) ∨
      ∃ event ∈ s.history, event.token? = some token := by
  simp only [tokens, Queue.tokens, Multiset.mem_add, Multiset.mem_coe, List.mem_filterMap,
    List.mem_map, or_assoc]

theorem event_of_buried {record : Record} (there : (record, .buried) ∈ s.tokens) :
    .buried record ∈ s.history := by
  rcases mem_tokens.mp there with ⟨c, -, same⟩ | ⟨other, -, same⟩ | ⟨w, -, same⟩ |
    ⟨event, told, same⟩
  · cases c <;> cases same
  · cases same
  · cases w with
    | carrying d =>
      obtain ⟨record, job, stage⟩ := d
      cases stage <;> cases same
    | _ => cases same
  · cases event <;> cases same
    exact told

theorem carried_of_decided {record : Record} {job : Job} {result : Except JobError Unit}
    (there : (record, .decided job result) ∈ s.tokens) :
    ∃ d, .carrying d ∈ s.pool.workers ∧ d.record = record ∧ d.result?.isSome := by
  rcases mem_tokens.mp there with ⟨c, -, same⟩ | ⟨other, -, same⟩ | ⟨w, held, same⟩ |
    ⟨event, -, same⟩
  · cases c <;> cases same
  · cases same
  · cases w with
    | carrying d =>
      obtain ⟨record, job, stage⟩ := d
      cases stage <;> cases same
      exact ⟨_, held, rfl, rfl⟩
    | _ => cases same
  · cases event <;> cases same

/-- Nothing is scheduled for a job before the policy has decided. -/
theorem unscheduled_of_reported (tracked : Tracked origin s) {d : Delivery} {outcome : Outcome}
    (held : .carrying d ∈ s.pool.workers) (reported : d.stage = .reported outcome) :
    ∀ c ∈ s.pool.letters.waiting, c.id ≠ d.record.id := by
  intro c waits same
  have accords := (tracked.lived _ (token_of_worker held rfl)).accords
  have fits := accords.station
  simp only [World.life, reported, Stage.station] at fits
  have there : c ∈ (s.life (d.record, d.stage.station d.job)).waiting :=
    List.mem_filter.mpr ⟨waits, decide_eq_true same⟩
  rw [accords.waiting] at there
  simp only [World.life, fits.1] at there
  cases there

theorem Timely.calm {later : World} (timely : s.Timely) (calm : Calm s later) :
    later.Timely := by
  intro d held decided c waits same
  rw [calm.clock]
  exact timely d (calm.carried d held) decided c (calm.waiting.subset waits) same

/-- No time passes while the queue is still to be told of a job. -/
theorem timely_pass (idle : ∀ w ∈ s.pool.workers, w.isIdle = true) (ms : Nat) :
    (s.apply (.pass ms)).Timely := by
  intro d held decided
  have waits := idle _ held
  obtain ⟨record, job, stage⟩ := d
  cases stage with
  | decided result => cases waits
  | _ => cases decided

theorem Timely.work (timely : s.Timely) (tracked : Tracked origin s)
    (positive : 0 < s.pool.letters.grace) (index : Nat) : (s.work index).Timely := by
  intro d held decided c waits same
  cases here : s.pool.workers[index]? with
  | none =>
    simp only [World.work, here] at held waits ⊢
    exact timely d held decided c waits same
  | some w =>
    rw [work_eq here] at held waits ⊢
    simp only [stepped, Worker.step_letters, Worker.step_clock, List.mem_append, List.mem_map]
      at held waits ⊢
    rcases waits with waits | ⟨decision, made, rfl⟩
    · rcases List.mem_or_eq_of_mem_set held with before | new
      · exact timely d before decided c waits same
      · obtain ⟨old, outcome, rfl, reported, own⟩ := Worker.reported_of_decided new.symm decided
        have unscheduled :=
          unscheduled_of_reported tracked (List.mem_of_getElem? here) reported c waits
        exact absurd (same.trans own.symm) unscheduled
    · have now := Worker.clock_of_decision (Option.mem_toList.mp made)
      simp only [Decision.confirmation, now]
      omega

theorem Timely.apply (timely : s.Timely) (tracked : Tracked origin s)
    (positive : 0 < s.pool.letters.grace)
    (punctual : move.passes = true → ∀ w ∈ s.pool.workers, w.isIdle = true) :
    (s.apply move).Timely := by
  cases move with
  | work index => exact timely.work tracked positive index
  | pass ms => exact timely_pass (punctual rfl) ms
  | _ => exact timely.calm (calm_apply (by simp) rfl)

/-- The record of a job whose confirmation is due is among the dead. -/
theorem Timely.buried_of_due (timely : s.Timely) (tracked : Tracked origin s) {c : Confirmation}
    (waits : c ∈ s.pool.letters.waiting) (due : c.due ≤ s.engine.clock) :
    ∃ record, .buried record ∈ s.history ∧ record.id = c.id ∧
      record.fails = deadLetterFails + 1 := by
  have issued : c.id ∈ s.issued := by
    by_contra new
    have none := List.filter_eq_nil_iff.mp (tracked.blank c.id new).waiting c waits
    exact none (decide_eq_true rfl)
  obtain ⟨⟨record, station⟩, there, own⟩ := tracked.exists_token issued
  have lived := tracked.lived _ there
  have own : record.id = c.id := own
  have waiting : c ∈ (s.life (record, station)).waiting :=
    List.mem_filter.mpr ⟨waits, decide_eq_true own.symm⟩
  obtain ⟨fate, -⟩ := lived.accords.of_waiting waiting
  have fits : (Account.of (s.life (record, station)).story).Fits record station :=
    lived.accords.station
  cases station with
  | decided job result =>
    obtain ⟨d, held, same, decided⟩ := carried_of_decided there
    have early := timely d held decided c waits (by rw [same, own])
    exact absurd due (Nat.not_le.mpr early)
  | buried =>
    exact ⟨record, event_of_buried there, own, lived.scheduled.spent rfl (by rw [fate]; simp)⟩
  | appending | queued | fetched | stray | running | reported | completed | strayMarked =>
    have unscheduled := fits.1
    rw [fate] at unscheduled
    cases unscheduled

theorem Truthful.apply (truthful : s.Truthful) (timely : s.Timely) (tracked : Tracked origin s)
    (move : Move) : (s.apply move).Truthful := by
  intro c told
  have grows := s.history_apply move
  obtain ⟨record, buried, own, spent⟩ : ∃ record, .buried record ∈ s.history ∧
      record.id = c.id ∧ record.fails = deadLetterFails + 1 := by
    rcases confirmed_apply told with before | ⟨waits, due⟩
    · exact truthful c before
    · exact timely.buried_of_due tracked waits due
  exact ⟨record, grows.subset buried, own, spent⟩

/-- The induction is on the moves; a move needs only that the state before is timely. -/
theorem truthful_run (tracked : Tracked origin s) (positive : 0 < origin.pool.letters.grace)
    (timely : s.Timely) (truthful : s.Truthful) (moves : List Move)
    (punctual : s.isPunctual moves = true) : (s.run moves).Truthful := by
  induction moves generalizing s with
  | nil => exact truthful
  | cons move rest ih =>
    rw [isPunctual, Bool.and_eq_true, Bool.or_eq_true, Bool.not_eq_true', List.all_eq_true]
      at punctual
    obtain ⟨now, later⟩ := punctual
    have idle : move.passes = true → ∀ w ∈ s.pool.workers, w.isIdle = true := by
      intro passes
      exact now.resolve_left (by rw [passes]; simp)
    have waits : 0 < s.pool.letters.grace := by
      rw [tracked.kept.grace]
      exact positive
    exact ih (tracked.apply move) (timely.apply tracked waits idle)
      (truthful.apply timely tracked move) later

theorem scheduled_run (tracked : Tracked origin s) (moves : List Move) :
    s.scheduled moves =
      (s.decisions moves).map (Decision.confirmation origin.pool.letters.grace) := by
  induction moves generalizing s with
  | nil => rfl
  | cons move rest ih =>
    rw [scheduled, decisions, List.map_append, scheduled_apply, tracked.kept.grace,
      ih (tracked.apply move)]

theorem doomed_run (tracked : Tracked origin s) (moves : List Move) :
    (s.run moves).history.filterMap Event.doomed? = s.history.filterMap Event.doomed? ++
      (s.decisions moves).map (Decision.confirmation origin.pool.letters.grace) := by
  induction moves generalizing s with
  | nil => exact (List.append_nil _).symm
  | cons move rest ih =>
    have step : s.run (move :: rest) = (s.apply move).run rest := rfl
    rw [step, ih (tracked.apply move), doomed_apply, decisions, List.map_append,
      List.append_assoc, tracked.kept.grace]

theorem doomed_filter (history : List Event) (id : JobId) :
    (history.filterMap Event.doomed?).filter (·.id = id) =
      (history.filter (·.job = id)).filterMap Event.doomed? := by
  rw [List.filterMap_filter, List.filter_filterMap]
  congr 1
  funext event
  cases event with
  | doomed c => by_cases own : c.id = id <;> simp [Event.job, Event.doomed?, Option.filter, own]
  | _ => simp [Event.doomed?]

/-- The retries of a job are disabled once at most. -/
theorem doomed_once (tracked : Tracked origin s) :
    ((s.history.filterMap Event.doomed?).map (·.id)).Nodup := by
  rw [List.nodup_iff_count_le_one]
  intro id
  have own : ((s.history.filterMap Event.doomed?).map (·.id)).count id =
      ((s.history.filter (·.job = id)).filterMap Event.doomed?).length := by
    rw [← doomed_filter, List.count_eq_countP, List.countP_map, List.countP_eq_length_filter]
    congr 1
  rw [own]
  by_cases issued : id ∈ s.issued
  · obtain ⟨token, there, rfl⟩ := tracked.exists_token issued
    have once : (s.history.filter (·.job = token.1.id)).filterMap Event.doomed? = _ :=
      (tracked.lived token there).scheduled.once
    rw [once]
    cases (Account.of (s.life token).story).fate <;> simp [Fate.scheduled]
  · rw [(tracked.blank id issued).story]
    simp

/-- A mark that the tracker shows was scheduled, and delivered when it was due. -/
theorem confirmed_of_entry (tracked : Tracked origin s) {id : JobId} {stats : Stats}
    {diedAt : Time.Timestamp} (entry : s.engine.tracker.find? id = some stats)
    (shown : stats.dieAt = some diedAt) :
    ∃ c, .confirmed c ∈ s.history ∧ .doomed c ∈ s.history ∧ c.id = id ∧ c.diedAt = diedAt ∧
      c.due ≤ s.engine.clock := by
  have issued : id ∈ s.issued := by
    by_contra new
    rw [(tracked.blank id new).entry] at entry
    cases entry
  obtain ⟨token, there, rfl⟩ := tracked.exists_token issued
  have lived := tracked.lived token there
  obtain ⟨once, due, -⟩ := lived.scheduled
  have matched := lived.accords.entry
  rw [show (s.life token).entry = some stats from entry] at matched
  obtain ⟨-, -, -, died⟩ := matched
  rw [shown] at died
  cases fate : (Account.of (s.life token).story).fate with
  | confirmed c =>
    rw [fate] at died once
    obtain ⟨delivered, past⟩ := due c fate
    obtain ⟨told, own⟩ := List.mem_filter.mp delivered
    have scheduled : c ∈ (s.life token).story.filterMap Event.doomed? := by
      rw [once]
      exact List.mem_singleton_self c
    obtain ⟨event, mem, same⟩ := List.mem_filterMap.mp scheduled
    have doomed : event = .doomed c := by
      cases event <;> cases same
      rfl
    rw [doomed] at mem
    exact ⟨c, told, (List.mem_filter.mp mem).1, of_decide_eq_true own,
      (Option.some.inj died).symm, past⟩
  | «open» | doomed c | dropped c =>
    rw [fate] at died
    cases died

/-- Such a mark tells of a decision, and of a record among the dead. -/
theorem Truthful.of_entry (truthful : s.Truthful) (tracked : Tracked origin s)
    {decisions : List Decision} {grace : Nat}
    (doomed : s.history.filterMap Event.doomed? = decisions.map (Decision.confirmation grace))
    {id : JobId} {stats : Stats} {diedAt : Time.Timestamp}
    (entry : s.engine.tracker.find? id = some stats) (shown : stats.dieAt = some diedAt) :
    (stats.status = .error ∨ stats.status = .cancelled) ∧
      (∃ record, .buried record ∈ s.history ∧ record.id = id ∧
        record.fails = deadLetterFails + 1) ∧
      ∃ decision ∈ decisions, decision.id = id ∧ diedAt = .ofMillis decision.clock ∧
        decision.clock + grace ≤ s.engine.clock := by
  obtain ⟨c, confirmed, scheduled, rfl, rfl, due⟩ := confirmed_of_entry tracked entry shown
  obtain ⟨record, buried, own, spent⟩ := truthful c confirmed
  have made : c ∈ decisions.map (Decision.confirmation grace) := by
    rw [← doomed]
    exact List.mem_filterMap.mpr ⟨_, scheduled, rfl⟩
  obtain ⟨decision, there, rfl⟩ := List.mem_map.mp made
  refine ⟨?_, ⟨record, buried, own, spent⟩, decision, there, rfl, rfl, due⟩
  have last := last_of_buried tracked buried
  rw [own, last_of_entry tracked entry] at last
  simpa only [Option.some.injEq] using last

/-- If no time passes while a worker can go on, one confirmation is scheduled for each job whose
retries were disabled and none for another, and a job that shows when it died is dead: its record
is in the archive, it failed or was cancelled, and the grace delay since the decision is over. -/
theorem death_marks_true (launched : origin.Launched) (positive : 0 < origin.pool.settings.grace)
    (moves : List Move) (punctual : origin.isPunctual moves = true) :
    let s := origin.run moves
    let grace := origin.pool.settings.grace
    origin.scheduled moves = (origin.decisions moves).map (Decision.confirmation grace) ∧
      ((origin.decisions moves).map (·.id)).Nodup ∧
      s.engine.queue.Remembers s.history ∧
      ∀ id stats diedAt, s.engine.tracker.find? id = some stats → stats.dieAt = some diedAt →
        (stats.status = .error ∨ stats.status = .cancelled) ∧
        (∃ record, .buried record ∈ s.history ∧ record.id = id ∧
          record.fails = deadLetterFails + 1) ∧
        ∃ decision ∈ origin.decisions moves, decision.id = id ∧
          diedAt = .ofMillis decision.clock ∧ decision.clock + grace ≤ s.engine.clock := by
  intro s grace
  have tracked := launched.tracked_run moves
  obtain ⟨-, -, silent, -, idle, letters, -⟩ := launched.starts
  have delay : origin.pool.letters.grace = grace := by rw [letters]
  have doomed : s.history.filterMap Event.doomed? =
      (origin.decisions moves).map (Decision.confirmation grace) := by
    have told := doomed_run launched.tracked moves
    rwa [silent, List.filterMap_nil, List.nil_append, delay] at told
  have truthful : s.Truthful := by
    refine truthful_run launched.tracked (by rw [delay]; exact positive) ?_ ?_ moves punctual
    · intro d held
      rw [idle] at held
      cases (List.mem_replicate.mp held).2
    · intro c told
      rw [silent] at told
      cases told
  refine ⟨?_, ?_, launched.remembers moves, ?_⟩
  · rw [← delay]
    exact scheduled_run launched.tracked moves
  · have once := doomed_once tracked
    rwa [doomed, List.map_map] at once
  · intro id stats diedAt entry shown
    exact truthful.of_entry tracked doomed entry shown

/-- Fails, and is not to be retried. -/
def hopeless : Job where
  jobType := "hopeless"
  maxFails := 2
  shouldRetry := false
  run := fun _ => .fail (.failed "broken")

/-- The only worker works off the record and parks, then the delay goes by. -/
def lastRites : List Move :=
  [.submit ⟨"hopeless", [], none⟩ (.ofNat 7), .proceed 0, .proceed 0] ++
    List.replicate 12 (.work 0) ++ [.pass 2000, .confirm ⟨.ofNat 7, .ofMillis 0, 2000⟩]

theorem death_marks_true_hopeless :
    let s := (workshop hopeless).run lastRites
    (workshop hopeless).Launched ∧ 0 < (workshop hopeless).pool.settings.grace ∧
      (workshop hopeless).isPunctual lastRites = true ∧
      (workshop hopeless).scheduled lastRites = [⟨.ofNat 7, .ofMillis 0, 2000⟩] ∧
      ∃ stats, s.engine.tracker.find? (.ofNat 7) = some stats ∧
        stats.dieAt = some (.ofMillis 0) ∧
        ∃ record, .buried record ∈ s.history ∧ record.fails = deadLetterFails + 1 := by
  intro s
  have launched := workshop_launched hopeless
  have positive : 0 < (workshop hopeless).pool.settings.grace := by decide
  have punctual : (workshop hopeless).isPunctual lastRites = true := by decide +kernel
  have decided : (workshop hopeless).decisions lastRites = [⟨.ofNat 7, 0⟩] := by decide +kernel
  have shown : (s.engine.tracker.find? (.ofNat 7)).bind (·.dieAt) = some (.ofMillis 0) := by
    decide +kernel
  obtain ⟨stats, entry, died⟩ := Option.bind_eq_some_iff.mp shown
  obtain ⟨scheduled, -, -, marks⟩ := death_marks_true launched positive lastRites punctual
  obtain ⟨-, ⟨record, buried, -, spent⟩, -⟩ := marks _ stats _ entry died
  exact ⟨launched, positive, punctual, by rw [scheduled, decided]; rfl, stats, entry, died, record,
    buried, spent⟩

end World

end JobEngine
