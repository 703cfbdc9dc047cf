import JobEngine.Proofs.Interleaving
import JobEngine.Simulation.Control

/-!
# Virtual time runs the world

A service in virtual time knows one order of steps: the first in line goes on,
then what is due, then the clock. Each of these is a move of the world or none
at all. So what holds after every run of the world holds of such a service
whenever one looks. What a client does at one go is a run too.
-/
namespace JobEngine

/-- A write that is refused changes nothing. -/
theorem Engine.write_error {e later : Engine} {call : TrackerCall}
    {change : Tracker → Except QueueError Tracker} {err : QueueError}
    (refused : e.write call change = (.error err, later)) : later = e := by
  simp only [write] at refused
  split at refused
  · exact (Prod.mk.inj refused).2.symm
  · split at refused
    · cases refused
    · exact (Prod.mk.inj refused).2.symm

theorem DeadLetters.takeDue?_some {d later : DeadLetters} {now : Nat} {c : Confirmation}
    (taken : d.takeDue? now = some (c, later)) :
    c ∈ d.waiting ∧ c.due ≤ now ∧ later = { d with waiting := d.waiting.erase c } := by
  obtain ⟨first, found, same⟩ := Option.map_eq_some_iff.mp taken
  obtain ⟨rfl, rfl⟩ := Prod.mk.inj same
  have due := List.find?_some found
  exact ⟨List.mem_of_find?_eq_some found, by simpa using due, rfl⟩

namespace World

/-! ## Clients -/

/-- The caller that came last takes its next step. -/
theorem proceed_joined (w : World) (c : Caller) (engine : Engine) (events : List Event) :
    (w.joined c engine events).proceed w.callers.length =
      w.joined (c.step engine).1 (c.step engine).2 (events ++ c.events engine) := by
  simp [proceed, joined]

/-- A request that is submitted at one go. -/
theorem run_enqueue (w : World) (request : Request) {id : JobId} (fresh : id ∉ w.issued) :
    let last := w.callers.length
    let later := w.run [.submit request id, .proceed last, .proceed last]
    later.engine = (Client.enqueue request id w.engine).2 ∧ later.pool = w.pool := by
  intro last later
  have absent : w.proceed last = w := by simp [proceed, last]
  have moved : later = ((w.submit request id).proceed last).proceed last := rfl
  have own : (Record.ofRequest request id w.engine.now).id = id := rfl
  cases accepted : Client.check w.engine.registry request with
  | error f =>
    have same : w.submit request id = w := by
      simp only [submit, fresh, if_false, accepted]
    rw [moved, same, absent, absent]
    simp only [Client.enqueue, accepted, and_self]
  | ok =>
    rcases written : w.engine.setStatus id .pending with ⟨answer, engine⟩
    cases answer with
    | error err =>
      have same : w.submit request id = w := by
        simp only [submit, fresh, if_false, accepted, written]
      rw [moved, same, absent, absent]
      simp only [Client.enqueue, accepted, Client.submit, own, written,
        Engine.write_error written, and_self]
    | ok =>
      have joined : w.submit request id =
          w.joined (.appending (.ofRequest request id w.engine.now)) engine
            [.created (.ofRequest request id w.engine.now), .announced id] := by
        simp only [submit, fresh, if_false, accepted, written]
      rw [moved, joined, proceed_joined, proceed_joined]
      simp only [Client.enqueue, accepted, Client.submit, own, written, World.joined,
        Caller.step, Engine.push, and_self]

/-- A command that is sent at one go. -/
theorem run_send (w : World) (id : JobId) (command : Command) :
    let later := w.run [.order id command, .proceed w.callers.length]
    later.engine = (Client.send id command w.engine).2 ∧ later.pool = w.pool := by
  intro later
  have absent : w.proceed w.callers.length = w := by simp [proceed]
  have moved : later = (w.order id command).proceed w.callers.length := rfl
  cases looked : Client.checkOpen w.engine id with
  | error err =>
    have same : w.order id command = w := by simp only [order, looked]
    rw [moved, same, absent]
    simp only [Client.send, looked, and_self]
  | ok =>
    have joined : w.order id command = w.joined (.ordering id command) w.engine [] := by
      simp only [order, looked]
    rw [moved, joined, proceed_joined]
    simp only [Client.send, looked, World.joined, Caller.step, and_self]

end World

/-! ## The service -/

namespace Simulation

/-- The service has a pool, to which alone it gives its records, and its state is that of the
world. -/
structure Shows (s : Simulation) (w : World) : Prop where
  engine : s.engine = w.engine
  pool : s.pool = some w.pool
  waiters : s.waiters = []
  runner : s.runner = none
  letters : s.letters.waiting = []
  periodic : s.periodic = none

namespace Shows

variable {s later : Simulation} {w : World}

theorem setWorker (shows : s.Shows w) (index : Nat) (worker : Worker) (bell : Bell Taker) :
    ({ s with engine := { s.engine with bell } }.setWorker w.pool index worker).Shows
      (w.setWorker index worker bell) :=
  ⟨by rw [World.setWorker, ← shows.engine]; rfl, rfl, shows.waiters, shows.runner, shows.letters,
    shows.periodic⟩

theorem work (shows : s.Shows w) {index : Nat} {worker : Worker}
    (here : w.pool.workers[index]? = some worker) :
    { s with
      pool := some (w.pool.stepWorker index s.engine).1
      engine := (w.pool.stepWorker index s.engine).2 }.Shows (w.work index) := by
  have same : w.work index = { w with
      pool := (w.pool.stepWorker index s.engine).1
      engine := (w.pool.stepWorker index s.engine).2
      history := w.history ++ worker.events w.pool.terms w.engine w.pool.letters } := by
    simp only [World.work, here, shows.engine]
  rw [same]
  exact ⟨rfl, rfl, shows.waiters, shows.runner, shows.letters, shows.periodic⟩

theorem stepWorker (shows : s.Shows w) {index : Nat}
    (stepped : s.stepWorker w.pool index = some later) : ∃ move, later.Shows (w.apply move) := by
  simp only [Simulation.stepWorker] at stepped
  cases here : w.pool.workers[index]? with
  | none =>
    rw [here] at stepped
    cases stepped
  | some worker =>
    rw [here] at stepped
    cases worker with
    | stopped => cases stepped
    | asking =>
      by_cases closing : w.pool.closing = true
      · simp only [closing, if_true] at stepped
        obtain rfl := Option.some.inj stepped
        have retired : w.apply (.retire index) = w.setWorker index .stopped s.engine.bell := by
          simp only [World.apply, World.retire, closing, if_true, here, shows.engine]
        exact ⟨.retire index, retired ▸ shows.setWorker index .stopped s.engine.bell⟩
      · simp only [closing] at stepped
        obtain rfl := Option.some.inj stepped
        exact ⟨.work index, shows.work here⟩
    | parked =>
      by_cases closing : w.pool.closing = true
      · simp only [closing, if_true] at stepped
        obtain rfl := Option.some.inj stepped
        have retired : w.apply (.retire index) =
            w.setWorker index .stopped (s.engine.bell.leave (.worker index)) := by
          simp only [World.apply, World.retire, closing, if_true, here, shows.engine]
        exact ⟨.retire index, retired ▸ shows.setWorker index .stopped _⟩
      · by_cases woken : .worker index ∈ s.engine.bell.woken
        · have heard : s.isWoken (.worker index) = true := List.contains_iff_mem.mpr woken
          simp only [closing, heard, if_true] at stepped
          obtain rfl := Option.some.inj stepped
          have resumed : w.apply (.wake index) =
              w.setWorker index .asking (s.engine.bell.resume (.worker index)) := by
            rw [shows.engine] at woken
            simp only [World.apply, World.wake, here, woken, if_true, shows.engine]
          exact ⟨.wake index, resumed ▸ shows.setWorker index .asking _⟩
        · have unheard : ¬ s.isWoken (.worker index) = true := by
            simpa [isWoken] using woken
          simp only [closing, unheard] at stepped
          cases stepped
    | emptyHanded | carrying | stray | strayMarked | ringing =>
      obtain rfl := Option.some.inj stepped
      exact ⟨.work index, shows.work here⟩

theorem stepTask (shows : s.Shows w) {task : Task} (stepped : s.stepTask task = some later) :
    ∃ move, later.Shows (w.apply move) := by
  cases task with
  | taker taker =>
    cases taker with
    | worker index =>
      simp only [Simulation.stepTask, shows.pool] at stepped
      exact shows.stepWorker stepped
    | waiter name =>
      simp only [Simulation.stepTask, shows.waiters, List.find?_nil] at stepped
      cases stepped
  | runner =>
    simp only [Simulation.stepTask, shows.runner] at stepped
    cases stepped

theorem confirm (shows : s.Shows w) (confirmed : s.confirm = some later) :
    ∃ move, later.Shows (w.apply move) := by
  have none : s.letters.takeDue? s.clock = none := by
    simp [DeadLetters.takeDue?, shows.letters]
  simp only [Simulation.confirm, none, shows.pool] at confirmed
  obtain ⟨⟨c, letters⟩, taken, rfl⟩ := Option.map_eq_some_iff.mp confirmed
  obtain ⟨waits, due, rfl⟩ := DeadLetters.takeDue?_some taken
  rw [Simulation.clock, shows.engine] at due
  refine ⟨.confirm c, ?_⟩
  simp only [World.apply, World.confirm, waits, due, and_self, if_true]
  exact ⟨by rw [← shows.engine], rfl, shows.waiters, shows.runner, shows.letters, shows.periodic⟩

theorem dropAbandoned (shows : s.Shows w) : s.dropAbandoned.Shows (w.apply .drop) := by
  have empty : s.letters.dropAbandoned.waiting = [] := by
    simp only [DeadLetters.dropAbandoned]
    split
    · rfl
    · exact shows.letters
  exact ⟨shows.engine, by simp [Simulation.dropAbandoned, World.apply, World.drop, shows.pool],
    shows.waiters, shows.runner, empty, shows.periodic⟩

theorem setClock (shows : s.Shows w) (time : Nat) :
    (s.setClock time).Shows (w.apply (.pass (time - s.clock))) := by
  have same : max w.engine.clock time = w.engine.clock + (time - w.engine.clock) := by omega
  refine ⟨?_, shows.pool, shows.waiters, shows.runner, shows.letters, shows.periodic⟩
  simp only [Simulation.setClock, Simulation.clock, shows.engine, same, World.apply]

/-- Who stands in line and who sleeps is nothing to the world. -/
theorem queued (shows : s.Shows w) (ready : List Task) (asleep : List (Nat × Task)) :
    { s with ready, asleep }.Shows w :=
  ⟨shows.engine, shows.pool, shows.waiters, shows.runner, shows.letters, shows.periodic⟩

theorem turn (shows : s.Shows w) (turned : s.turn = some later) :
    ∃ moves, later.Shows (w.run moves) := by
  have admitted : s.admitWoken.Shows w := shows.queued _ s.asleep
  simp only [Simulation.turn] at turned
  generalize s.admitWoken = front at admitted turned
  cases line : front.ready with
  | nil =>
    simp only [line] at turned
    cases turned
  | cons task rest =>
    simp only [line] at turned
    split at turned
    · obtain rfl := Option.some.inj turned
      exact ⟨[], admitted.queued _ _⟩
    · cases stepped : front.stepTask task with
      | some next =>
        simp only [stepped] at turned
        obtain rfl := Option.some.inj turned
        obtain ⟨move, shown⟩ := admitted.stepTask stepped
        exact ⟨[move], shown⟩
      | none =>
        simp only [stepped] at turned
        obtain rfl := Option.some.inj turned
        exact ⟨[], admitted.queued rest front.asleep⟩

theorem wake (shows : s.Shows w) (woken : s.wake = some later) :
    ∃ moves, later.Shows (w.run moves) := by
  simp only [Simulation.wake] at woken
  split at woken
  · cases woken
  · rename_i time task _
    have up := shows.queued s.ready (s.asleep.erase (time, task))
    cases stepped : Simulation.stepTask { s with asleep := s.asleep.erase (time, task) } task with
    | some next =>
      simp only [stepped] at woken
      obtain rfl := Option.some.inj woken
      obtain ⟨move, shown⟩ := up.stepTask stepped
      exact ⟨[move], shown.queued _ next.asleep⟩
    | none =>
      simp only [stepped] at woken
      obtain rfl := Option.some.inj woken
      exact ⟨[], up⟩

theorem event (shows : s.Shows w) (due : s.event = some later) :
    ∃ moves, later.Shows (w.run moves) := by
  have unseen : s.look = none := by simp only [Simulation.look, shows.periodic]
  cases confirmed : s.confirm with
  | some next =>
    simp only [Simulation.event, confirmed] at due
    obtain rfl := Option.some.inj due
    obtain ⟨move, shown⟩ := shows.confirm confirmed
    exact ⟨[move], shown⟩
  | none =>
    simp only [Simulation.event, confirmed, unseen] at due
    exact shows.wake due

theorem round (shows : s.Shows w) (limit : Option Nat) :
    ∃ moves, (s.round limit).1.Shows (w.run moves) := by
  unfold Simulation.round
  split
  · rename_i turned
    exact shows.turn turned
  · have dropped : s.dropAbandoned.Shows (w.run [.drop]) := shows.dropAbandoned
    have clocked (time : Nat) : ∃ moves, (s.dropAbandoned.setClock time).Shows (w.run moves) :=
      ⟨[.drop, .pass (time - s.dropAbandoned.clock)], dropped.setClock time⟩
    dsimp only
    split
    · rename_i happened
      obtain ⟨moves, shown⟩ := dropped.event happened
      exact ⟨[.drop] ++ moves, by rwa [World.run_append]⟩
    · split
      · exact ⟨_, dropped⟩
      · exact clocked _
      · exact clocked _
      · split <;> exact clocked _

/-- The induction is on the fuel. -/
theorem goOn (shows : s.Shows w) (done : Simulation → Bool) (limit : Option Nat) (fuel : Nat) :
    ∃ moves, (s.goOn done limit fuel).Shows (w.run moves) := by
  induction fuel generalizing s w with
  | zero => exact ⟨[], shows⟩
  | succ fuel ih =>
    obtain ⟨moves, shown⟩ := shows.round limit
    unfold Simulation.goOn
    split
    · exact ⟨[], shows⟩
    · split
      · obtain ⟨more, later⟩ := ih shown
        exact ⟨moves ++ more, by rwa [World.run_append]⟩
      · exact ⟨moves, shown⟩

theorem wait (shows : s.Shows w) (done : Simulation → Bool) (limit : Option Nat) :
    ∃ moves, (s.wait done limit).Shows (w.run moves) :=
  shows.goOn done limit s.allowance

/-- Only the engine is acted on. -/
theorem acted (shows : s.Shows w) {moves : List Move} {engine : Engine}
    (same : (w.run moves).engine = engine) (pool : (w.run moves).pool = w.pool) (issued : Nat) :
    { s with engine, issued }.Shows (w.run moves) :=
  ⟨same.symm, by rw [pool]; exact shows.pool, shows.waiters, shows.runner, shows.letters,
    shows.periodic⟩

theorem enqueue (shows : s.Shows w) (request : Request) (fresh : issuedId s.issued ∉ w.issued) :
    ∃ moves, (s.enqueue request).2.Shows (w.run moves) := by
  obtain ⟨engine, pool⟩ := w.run_enqueue request fresh
  have enqueued : (s.enqueue request).2 = { s with
      engine := (Client.enqueue request (issuedId s.issued) w.engine).2
      issued := s.issued + 1 } := by
    simp only [Simulation.enqueue]
    rw [← shows.engine]
    dsimp only [issue]
    split <;> (rename_i result; rw [result])
  rw [enqueued]
  exact ⟨_, shows.acted engine pool (s.issued + 1)⟩

theorem send (shows : s.Shows w) (id : JobId) (command : Command) :
    ∃ moves, { s with engine := (Client.send id command s.engine).2 }.Shows (w.run moves) := by
  obtain ⟨engine, pool⟩ := w.run_send id command
  rw [shows.engine]
  exact ⟨_, shows.acted engine pool s.issued⟩

end Shows

end Simulation

end JobEngine
