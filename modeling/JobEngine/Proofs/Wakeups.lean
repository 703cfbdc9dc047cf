import JobEngine.Simulation
import Mathlib.Data.List.Basic
import Mathlib.Data.List.Nodup
import Mathlib.Logic.Function.Basic

/-!
# No wake-up is lost

The bell remembers a single ring, however many records were appended. That no
one sleeps beside a record nevertheless is due to those who take: who leaves
records behind rings for the next, and who leaves the line after being woken
hands the ring on.

Any number of calls take from one queue here, while others append, ring and
fail records, and calls that wait are given up at any time. What a call does
under the lock of the queue is one step. A call that goes on after a ring does
not wait any more, and is not given up before it has taken that step.
-/
namespace JobEngine

/-! ## The line at the bell -/

namespace Bell

variable {α : Type} {b : Bell α} {waits others : α → Prop} {a : α}

/-- Those who wait have one seat each, parked or woken, and no one is parked while a ring is
remembered. -/
structure Seats (b : Bell α) (waits : α → Prop) : Prop where
  nodup : (b.parked ++ b.woken).Nodup
  seated : ∀ a, a ∈ b.parked ++ b.woken ↔ waits a
  heard : b.pending = true → b.parked = []

/-- A ring has not been answered yet. -/
def Rung (b : Bell α) : Prop := b.pending = true ∨ b.woken ≠ []

theorem rung_ring (b : Bell α) : b.ring.Rung := by
  cases parked : b.parked with
  | nil => exact Or.inl (by simp only [ring, parked])
  | cons first rest => exact Or.inr (by simp [ring, parked])

theorem Rung.leave [DecidableEq α] (rung : b.Rung) (a : α) : (b.leave a).Rung := by
  simp only [Bell.leave]
  split
  · exact rung_ring _
  · exact rung

namespace Seats

theorem congr (seats : b.Seats waits) (same : ∀ a, waits a ↔ others a) : b.Seats others :=
  ⟨seats.nodup, fun a => (seats.seated a).trans (same a), seats.heard⟩

theorem ring (seats : b.Seats waits) : b.ring.Seats waits := by
  cases parked : b.parked with
  | nil =>
    obtain ⟨nodup, seated, -⟩ := seats
    simp only [Bell.ring, parked] at nodup seated ⊢
    exact ⟨nodup, seated, fun _ => rfl⟩
  | cons first rest =>
    have moved : (rest ++ (b.woken ++ [first])).Perm (b.parked ++ b.woken) := by
      rw [parked, ← List.append_assoc]
      exact List.perm_append_singleton first (rest ++ b.woken)
    simp only [Bell.ring, parked]
    refine ⟨moved.nodup_iff.mpr seats.nodup, fun a => moved.mem_iff.trans (seats.seated a), ?_⟩
    intro pending
    have none := seats.heard pending
    rw [parked] at none
    cases none

theorem park (seats : b.Seats waits) (free : ¬ waits a) :
    (b.park a).1.Seats fun other => waits other ∨ (b.park a).2 = true ∧ other = a := by
  cases pending : b.pending with
  | true =>
    have none := seats.heard pending
    simp only [Bell.park, pending, if_true]
    refine ⟨seats.nodup, fun other => ?_, fun _ => none⟩
    simpa using seats.seated other
  | false =>
    have absent : a ∉ b.parked ++ b.woken := fun mem => free ((seats.seated a).mp mem)
    have moved : ((b.parked ++ [a]) ++ b.woken).Perm (a :: (b.parked ++ b.woken)) := by
      rw [List.append_assoc]
      exact List.perm_middle
    simp only [Bell.park, pending, Bool.false_eq_true, if_false]
    refine ⟨moved.nodup_iff.mpr (List.nodup_cons.mpr ⟨absent, seats.nodup⟩), fun other => ?_,
      fun later => ?_⟩
    · rw [moved.mem_iff, List.mem_cons, seats.seated, or_comm, true_and]
    · cases later

variable [DecidableEq α]

theorem resume (seats : b.Seats waits) (woken : a ∈ b.woken) :
    (b.resume a).Seats fun other => waits other ∧ other ≠ a := by
  obtain ⟨parked, nodup, apart⟩ := List.nodup_append.mp seats.nodup
  refine ⟨?_, fun other => ?_, seats.heard⟩
  · exact seats.nodup.sublist (List.Sublist.append_left List.erase_sublist _)
  · have absent : a ∉ b.parked := fun mem => apart a mem a woken rfl
    rw [← seats.seated, Bell.resume, List.mem_append, List.mem_append, nodup.mem_erase_iff]
    constructor
    · rintro (early | ⟨differ, late⟩)
      · exact ⟨Or.inl early, fun same => absent (same ▸ early)⟩
      · exact ⟨Or.inr late, differ⟩
    · rintro ⟨early | late, differ⟩
      · exact Or.inl early
      · exact Or.inr ⟨differ, late⟩

theorem leave (seats : b.Seats waits) (a : α) :
    (b.leave a).Seats fun other => waits other ∧ other ≠ a := by
  simp only [Bell.leave]
  split
  · rename_i woken
    exact (seats.resume woken).ring
  · rename_i asleep
    obtain ⟨nodup, -, -⟩ := List.nodup_append.mp seats.nodup
    refine ⟨?_, fun other => ?_, fun pending => ?_⟩
    · exact seats.nodup.sublist (List.Sublist.append_right List.erase_sublist _)
    · rw [← seats.seated, List.mem_append, List.mem_append, nodup.mem_erase_iff]
      constructor
      · rintro (⟨differ, early⟩ | late)
        · exact ⟨Or.inl early, differ⟩
        · exact ⟨Or.inr late, fun same => asleep (same ▸ late)⟩
      · rintro ⟨early | late, differ⟩
        · exact Or.inl ⟨differ, early⟩
        · exact Or.inr late
    · have none := seats.heard pending
      simp [none]

end Seats

end Bell

/-- What taking a record does to the bell. -/
theorem Engine.take?_bell {e later : Engine} {record : Record}
    (taken : e.take? = some (record, later)) :
    ∃ rest, e.queue.pending = record :: rest ∧ later.queue.pending = rest ∧
      (rest = [] ∧ later.bell = e.bell ∨ later.bell = e.bell.ring) := by
  simp only [take?, Queue.take?] at taken
  cases pending : e.queue.pending with
  | nil =>
    rw [pending] at taken
    cases taken
  | cons first rest =>
    rw [pending] at taken
    obtain ⟨rfl, rfl⟩ := Prod.mk.inj (Option.some.inj taken)
    cases rest with
    | nil => exact ⟨[], rfl, rfl, Or.inl ⟨rfl, rfl⟩⟩
    | cons second rest => exact ⟨second :: rest, rfl, rfl, Or.inr rfl⟩

theorem Engine.take?_none {e : Engine} (taken : e.take? = none) : e.queue.pending = [] := by
  simp only [take?, Queue.take?] at taken
  cases pending : e.queue.pending with
  | nil => rfl
  | cons first rest =>
    rw [pending] at taken
    cases taken

theorem Queue.pending_bury (q : Queue) (record : Record) (lastError : Option String) :
    (q.bury record lastError).pending = q.pending := by
  simp only [bury]

/-! ## Calls on one queue -/

/-- Where a call is that takes a record. -/
inductive Call
  | idle
  /-- About to look into the queue for the first time. -/
  | asking
  /-- Found the queue empty and is about to park. -/
  | emptyHanded
  /-- Parked, or woken and not gone on yet. -/
  | waiting
  /-- Went on after a ring and has not looked since. -/
  | recalled
deriving DecidableEq

/-- Those who take from a queue, and what was appended and returned so far. -/
structure Dispatch where
  engine : Engine
  call : Taker → Call := fun _ => .idle
  /-- How many appends are still to ring. -/
  owed : Nat := 0
  appended : List Record := []
  returned : List (Taker × Record) := []

namespace Dispatch

inductive Action
  | push (record : Record)
  | fail (record : Record) (e : JobError)
  /-- Who appended rings. -/
  | ring
  | call (t : Taker)
  | look (t : Taker)
  | park (t : Taker)
  /-- A call that was woken goes on. -/
  | resume (t : Taker)
  /-- A call is given up. -/
  | drop (t : Taker)

def setCall (d : Dispatch) (t : Taker) (c : Call) (engine : Engine) : Dispatch :=
  { d with engine, call := Function.update d.call t c }

def append (d : Dispatch) (record : Record) (engine : Engine) : Dispatch :=
  { d with engine, owed := d.owed + 1, appended := d.appended ++ [record] }

def fail (d : Dispatch) (record : Record) (e : JobError) : Dispatch :=
  match d.engine.queue.fail record e with
  | (queue, .requeued) =>
    d.append { record with fails := countFailure record.fails } { d.engine with queue }
  | (queue, .dead) => { d with engine := { d.engine with queue } }

def look (d : Dispatch) (t : Taker) : Dispatch :=
  match d.engine.take? with
  | some (record, engine) =>
    { d.setCall t .idle engine with returned := d.returned ++ [(t, record)] }
  | none => d.setCall t .emptyHanded d.engine

def park (d : Dispatch) (t : Taker) : Dispatch :=
  let (bell, waits) := d.engine.bell.park t
  d.setCall t (if waits then .waiting else .recalled) { d.engine with bell }

/-- An action that is not possible changes nothing. -/
def act (d : Dispatch) : Action → Dispatch
  | .push record => d.append record (d.engine.append record)
  | .fail record e => d.fail record e
  | .ring => if 0 < d.owed then { d with engine := d.engine.ring, owed := d.owed - 1 } else d
  | .call t => if d.call t = .idle then d.setCall t .asking d.engine else d
  | .look t => if d.call t = .asking ∨ d.call t = .recalled then d.look t else d
  | .park t => if d.call t = .emptyHanded then d.park t else d
  | .resume t =>
    if t ∈ d.engine.bell.woken then
      d.setCall t .recalled { d.engine with bell := d.engine.bell.resume t }
    else d
  | .drop t =>
    match d.call t with
    | .waiting => d.setCall t .idle { d.engine with bell := d.engine.bell.leave t }
    | .asking | .emptyHanded => d.setCall t .idle d.engine
    | .idle | .recalled => d

def run (d : Dispatch) (actions : List Action) : Dispatch := actions.foldl act d

/-- The call was woken and has not looked into the queue since. -/
def Notified (d : Dispatch) (t : Taker) : Prop := t ∈ d.engine.bell.woken ∨ d.call t = .recalled

/-- Nothing waits and no one does. A ring may be remembered. -/
structure Fresh (d : Dispatch) : Prop where
  pending : d.engine.queue.pending = []
  parked : d.engine.bell.parked = []
  woken : d.engine.bell.woken = []
  idle : ∀ t, d.call t = .idle
  appended : d.appended = []
  returned : d.returned = []

/-- Calls and bell agree, a record that waits has a ring to come, and every record that was
appended waits still or was returned, in order. -/
structure Sound (d : Dispatch) : Prop where
  seats : d.engine.bell.Seats fun t => d.call t = .waiting
  attended : d.engine.queue.pending ≠ [] →
    d.engine.bell.Rung ∨ 0 < d.owed ∨ ∃ t, d.call t = .recalled
  conserved : d.appended = d.returned.map (·.2) ++ d.engine.queue.pending

namespace Sound

variable {d : Dispatch} {t : Taker}

/-- A call that does not wait goes on without waiting. -/
theorem seats_setCall {bell : Bell Taker} {c : Call}
    (seats : bell.Seats fun u => d.call u = .waiting) (before : d.call t ≠ .waiting)
    (after : c ≠ .waiting) : bell.Seats fun u => Function.update d.call t c u = .waiting := by
  refine seats.congr fun u => ?_
  by_cases same : u = t
  · subst same
    simp [before, after]
  · simp [same]

/-- The other calls stay where they were. -/
theorem recalled_setCall (c : Call) (recalled : ∃ u, d.call u = .recalled)
    (before : d.call t ≠ .recalled) : ∃ u, Function.update d.call t c u = .recalled := by
  obtain ⟨u, here⟩ := recalled
  have other : u ≠ t := fun same => before (same ▸ here)
  exact ⟨u, by rw [Function.update_of_ne other, here]⟩

theorem append (sound : d.Sound) (record : Record) {engine : Engine}
    (queue : engine.queue.pending = d.engine.queue.pending ++ [record])
    (bell : engine.bell = d.engine.bell) : (d.append record engine).Sound := by
  refine ⟨?_, fun _ => Or.inr (Or.inl (Nat.succ_pos _)), ?_⟩
  · exact bell ▸ sound.seats
  · simp only [Dispatch.append, queue, sound.conserved, List.append_assoc]

theorem fail (sound : d.Sound) (record : Record) (e : JobError) : (d.fail record e).Sound := by
  simp only [Dispatch.fail, Queue.fail]
  split
  · rename_i queue failed
    split at failed
    · cases failed
    · obtain ⟨rfl, -⟩ := Prod.mk.inj failed
      exact sound.append _ rfl rfl
  · rename_i queue failed
    split at failed
    · obtain ⟨rfl, -⟩ := Prod.mk.inj failed
      refine ⟨sound.seats, fun waits => ?_, ?_⟩
      · rw [Queue.pending_bury] at waits
        exact sound.attended waits
      · rw [Queue.pending_bury]
        exact sound.conserved
    · cases failed

/-- Who leaves records behind rings. -/
theorem look (sound : d.Sound) (before : d.call t ≠ .waiting) : (d.look t).Sound := by
  simp only [Dispatch.look]
  cases taken : d.engine.take? with
  | none =>
    have empty := Engine.take?_none taken
    exact ⟨seats_setCall sound.seats before (by simp), fun waits => absurd empty waits,
      sound.conserved⟩
  | some pair =>
    obtain ⟨record, engine⟩ := pair
    obtain ⟨rest, pending, left, bell⟩ := Engine.take?_bell taken
    have conserved := sound.conserved
    rw [pending] at conserved
    refine ⟨?_, fun waits => ?_, ?_⟩
    · have seats : engine.bell.Seats fun u => d.call u = .waiting := by
        rcases bell with ⟨-, same⟩ | rung
        · exact same ▸ sound.seats
        · exact rung ▸ sound.seats.ring
      exact seats_setCall seats before (by simp)
    · rcases bell with ⟨last, -⟩ | rung
      · exact absurd (left.trans last) waits
      · exact Or.inl (rung ▸ Bell.rung_ring _)
    · simp only [Dispatch.setCall, conserved, left, List.map_append, List.append_assoc]
      rfl

theorem park (sound : d.Sound) (before : d.call t = .emptyHanded) : (d.park t).Sound := by
  have free : ¬ d.call t = .waiting := by simp [before]
  refine ⟨?_, fun waits => ?_, sound.conserved⟩
  · refine (sound.seats.park free).congr fun u => ?_
    by_cases same : u = t
    · subst same
      cases parks : (d.engine.bell.park u).2 <;> simp [Dispatch.park, setCall, parks, before]
    · simp [Dispatch.park, setCall, same]
  · cases remembered : d.engine.bell.pending with
    | true =>
      have recalled : (d.park t).call t = .recalled := by
        simp [Dispatch.park, setCall, Bell.park, remembered]
      exact Or.inr (Or.inr ⟨t, recalled⟩)
    | false =>
      rcases sound.attended waits with (pending | woken) | owed | recalled
      · rw [remembered] at pending
        cases pending
      · refine Or.inl (Or.inr ?_)
        simpa [Dispatch.park, setCall, Bell.park, remembered] using woken
      · exact Or.inr (Or.inl owed)
      · exact Or.inr (Or.inr (recalled_setCall _ recalled (by simp [before])))

/-- Who goes on after a ring is still to look. -/
theorem resume (sound : d.Sound) (woken : t ∈ d.engine.bell.woken) :
    (d.act (.resume t)).Sound := by
  simp only [act, woken, if_true]
  refine ⟨?_, fun _ => Or.inr (Or.inr ⟨t, Function.update_self ..⟩), sound.conserved⟩
  refine (sound.seats.resume woken).congr fun u => ?_
  by_cases same : u = t
  · subst same
    simp [setCall]
  · simp [setCall, same]

/-- A ring that reached a call which is given up goes to the next. -/
theorem leave (sound : d.Sound) (before : d.call t = .waiting) :
    (d.setCall t .idle { d.engine with bell := d.engine.bell.leave t }).Sound := by
  refine ⟨?_, fun waits => ?_, sound.conserved⟩
  · refine (sound.seats.leave t).congr fun u => ?_
    by_cases same : u = t
    · subst same
      simp [setCall]
    · simp [setCall, same]
  · rcases sound.attended waits with rung | owed | recalled
    · exact Or.inl (rung.leave t)
    · exact Or.inr (Or.inl owed)
    · exact Or.inr (Or.inr (recalled_setCall _ recalled (by simp [before])))

/-- A call that does not wait yet begins or is given up. -/
theorem setCall (sound : d.Sound) {c : Call} (before : d.call t ≠ .waiting)
    (unrecalled : d.call t ≠ .recalled) (after : c ≠ .waiting) :
    (d.setCall t c d.engine).Sound := by
  refine ⟨seats_setCall sound.seats before after, fun waits => ?_, sound.conserved⟩
  rcases sound.attended waits with rung | owed | recalled
  · exact Or.inl rung
  · exact Or.inr (Or.inl owed)
  · exact Or.inr (Or.inr (recalled_setCall _ recalled unrecalled))

theorem act (sound : d.Sound) (action : Action) : (d.act action).Sound := by
  cases action with
  | push record => exact sound.append record rfl rfl
  | fail record e => exact sound.fail record e
  | ring =>
    simp only [Dispatch.act]
    split
    · exact ⟨sound.seats.ring, fun _ => Or.inl (Bell.rung_ring _), sound.conserved⟩
    · exact sound
  | call t =>
    simp only [Dispatch.act]
    split
    · rename_i here
      exact sound.setCall (by simp [here]) (by simp [here]) (by simp)
    · exact sound
  | look t =>
    simp only [Dispatch.act]
    split
    · rename_i here
      exact sound.look (by rcases here with here | here <;> simp [here])
    · exact sound
  | park t =>
    simp only [Dispatch.act]
    split
    · rename_i here
      exact sound.park here
    · exact sound
  | resume t =>
    by_cases woken : t ∈ d.engine.bell.woken
    · exact sound.resume woken
    · simpa only [Dispatch.act, woken, if_false] using sound
  | drop t =>
    simp only [Dispatch.act]
    split
    · rename_i here
      exact sound.leave here
    · rename_i here
      exact sound.setCall (by simp [here]) (by simp [here]) (by simp)
    · rename_i here
      exact sound.setCall (by simp [here]) (by simp [here]) (by simp)
    · exact sound
    · exact sound

theorem run (sound : d.Sound) (actions : List Action) : (d.run actions).Sound := by
  induction actions generalizing d with
  | nil => exact sound
  | cons action rest ih => exact ih (sound.act action)

end Sound

theorem Fresh.sound {d : Dispatch} (fresh : d.Fresh) : d.Sound := by
  refine ⟨⟨?_, fun t => ?_, fun _ => fresh.parked⟩, fun waits => absurd fresh.pending waits, ?_⟩
  · simp [fresh.parked, fresh.woken]
  · simp [fresh.parked, fresh.woken, fresh.idle]
  · simp [fresh.pending, fresh.appended, fresh.returned]

/-- In every interleaving, while a record waits and a call is parked, some call was woken that has
not looked since, or an append is still to ring. Every record that was appended was returned once
or waits still. A call may be given up while it waits, woken or not. Assumed is that one which went
on after a ring is not given up before it has looked again. -/
theorem no_lost_wakeup {start : Dispatch} (fresh : start.Fresh) (actions : List Action) :
    let d := start.run actions
    (d.engine.queue.pending ≠ [] → d.engine.bell.parked ≠ [] →
      (∃ t, d.Notified t) ∨ 0 < d.owed) ∧
    (d.engine.bell.parked ++ d.engine.bell.woken).Nodup ∧
    (∀ t, t ∈ d.engine.bell.parked ++ d.engine.bell.woken ↔ d.call t = .waiting) ∧
    d.appended = d.returned.map (·.2) ++ d.engine.queue.pending := by
  intro d
  obtain ⟨seats, attended, conserved⟩ : d.Sound := fresh.sound.run actions
  refine ⟨fun waits parked => ?_, seats.nodup, seats.seated, conserved⟩
  rcases attended waits with (pending | woken) | owed | ⟨t, recalled⟩
  · exact absurd (seats.heard pending) parked
  · obtain ⟨t, woken⟩ := List.exists_mem_of_ne_nil _ woken
    exact Or.inl ⟨t, Or.inl woken⟩
  · exact Or.inr owed
  · exact Or.inl ⟨t, Or.inr recalled⟩

/-- A queue without records, and no one who takes. -/
def vacant : Dispatch := { engine := { clock := 0 } }

/-- Three calls park, a record is appended, and the call that its ring wakes is given up. -/
def handedOn : List Action :=
  ["a", "b", "c"].flatMap (fun name =>
    [.call (.waiter name), .look (.waiter name), .park (.waiter name)]) ++
  [.push ⟨.ofNat 7, "idle", [], 0, none, ⟨0, 0⟩⟩, .ring, .drop (.waiter "a")]

theorem no_lost_wakeup_vacant :
    vacant.Fresh ∧ (vacant.run handedOn).engine.queue.pending ≠ [] ∧
      (vacant.run handedOn).engine.bell.parked ≠ [] ∧ (vacant.run handedOn).owed = 0 ∧
      ∃ t, (vacant.run handedOn).Notified t := by
  have fresh : vacant.Fresh := ⟨rfl, rfl, rfl, fun _ => rfl, rfl, rfl⟩
  have waits : (vacant.run handedOn).engine.queue.pending ≠ [] := by decide +kernel
  have parked : (vacant.run handedOn).engine.bell.parked ≠ [] := by decide +kernel
  have rung : (vacant.run handedOn).owed = 0 := by decide +kernel
  have attended := (no_lost_wakeup fresh handedOn).1 waits parked
  exact ⟨fresh, waits, parked, rung,
    attended.resolve_right (Nat.not_lt.mpr (Nat.le_of_eq rung))⟩

/-! ## Workers and waiters -/

end Dispatch

/-- What the worker does is this call. -/
def Worker.At : Worker → Call → Prop
  | .asking, c => c = .asking ∨ c = .recalled
  | .emptyHanded, c => c = .emptyHanded
  | .parked, c => c = .waiting
  | _, c => c = .idle

/-- What the waiter does is this call. -/
def Waiter.At : Waiter → Call → Prop
  | .asking, c => c = .asking ∨ c = .recalled
  | .emptyHanded, c => c = .emptyHanded
  | .parked, c => c = .waiting
  | .served _, c => c = .idle

namespace Dispatch

variable {d : Dispatch} {t : Taker}

theorem act_look (here : d.call t = .asking ∨ d.call t = .recalled) :
    d.act (.look t) = d.look t := if_pos here

theorem act_park (here : d.call t = .emptyHanded) : d.act (.park t) = d.park t := if_pos here

theorem act_resume (woken : t ∈ d.engine.bell.woken) : d.act (.resume t) =
    d.setCall t .recalled { d.engine with bell := d.engine.bell.resume t } := if_pos woken

/-- A worker that takes a record takes the steps of a call. -/
theorem step_worker {w : Worker} {terms : Terms} {index : Nat} {letters : DeadLetters}
    (same : w.At (d.call (.worker index))) (takes : w = .asking ∨ w = .emptyHanded) :
    ∃ action, (d.act action).engine = (w.step terms index d.engine letters).2.1 ∧
      (w.step terms index d.engine letters).1.At ((d.act action).call (.worker index)) := by
  rcases takes with rfl | rfl
  · refine ⟨.look (.worker index), ?_⟩
    rw [act_look same]
    simp only [look, Worker.step]
    cases d.engine.take? with
    | none => exact ⟨rfl, Function.update_self ..⟩
    | some pair =>
      refine ⟨rfl, ?_⟩
      simp only [setCall, Function.update_self, Worker.receive]
      split <;> rfl
  · refine ⟨.park (.worker index), ?_⟩
    rw [act_park same]
    refine ⟨rfl, ?_⟩
    simp only [park, Worker.step, setCall, Function.update_self]
    cases (d.engine.bell.park (.worker index)).2 with
    | true => rfl
    | false => exact Or.inr rfl

/-- A waiter takes the steps of a call, too. -/
theorem step_waiter {s later : Simulation} {name : String} {w : Waiter}
    (engine : d.engine = s.engine) (same : w.At (d.call (.waiter name)))
    (steps : s.stepWaiter name w = some later) :
    ∃ action next, (d.act action).engine = later.engine ∧
      next.At ((d.act action).call (.waiter name)) ∧
      later.waiters = (s.setWaiter name next).waiters := by
  cases w with
  | asking =>
    refine ⟨.look (.waiter name), ?_⟩
    rw [act_look same]
    simp only [Simulation.stepWaiter, ← engine, look] at steps ⊢
    cases found : d.engine.take? with
    | some pair =>
      simp only [found] at steps
      obtain rfl := Option.some.inj steps
      exact ⟨.served pair.1.id, rfl, Function.update_self .., rfl⟩
    | none =>
      simp only [found] at steps
      obtain rfl := Option.some.inj steps
      exact ⟨.emptyHanded, engine, Function.update_self .., rfl⟩
  | emptyHanded =>
    refine ⟨.park (.waiter name), ?_⟩
    simp only [Simulation.stepWaiter, ← engine] at steps
    obtain rfl := Option.some.inj steps
    rw [act_park same]
    simp only [park, setCall]
    refine ⟨_, rfl, ?_, rfl⟩
    rw [Function.update_self]
    cases (d.engine.bell.park (.waiter name)).2 with
    | true => rfl
    | false => exact Or.inr rfl
  | parked =>
    refine ⟨.resume (.waiter name), .asking, ?_⟩
    simp only [Simulation.stepWaiter] at steps
    split at steps
    · rename_i woken
      obtain rfl := Option.some.inj steps
      have mem : Taker.waiter name ∈ d.engine.bell.woken := by
        rw [engine]
        exact List.contains_iff_mem.mp woken
      rw [act_resume mem, engine]
      exact ⟨rfl, Or.inr (Function.update_self ..), rfl⟩
    · cases steps
  | served id => cases steps

end Dispatch

end JobEngine
