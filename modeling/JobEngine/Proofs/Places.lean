import JobEngine.Proofs.Life
import Mathlib.Algebra.Order.Group.Multiset
import Mathlib.Data.List.Perm.Basic
import Mathlib.Data.Multiset.MapFold
import Mathlib.Tactic.Abel

/-!
# Where the records are

All records of a world with their stations: with those who submit them, in
the queue, in the hands of workers, and those the history says were moved to
one of the archives. An archive forgets, the history does not.
-/
namespace JobEngine

abbrev Token := Record × Station

def Stage.station (job : Job) : Stage → Station
  | .fetched => .fetched job
  | .announced | .active _ _ | .ended _ => .running job
  | .reported outcome => .reported job outcome
  | .decided result => .decided job result

def Worker.token? : Worker → Option Token
  | .carrying d => some (d.record, d.stage.station d.job)
  | .stray record => some (record, .stray)
  | .strayMarked record => some (record, .strayMarked)
  | _ => none

def Caller.token? : Caller → Option Token
  | .appending record => some (record, .appending)
  | _ => none

def Event.token? : Event → Option Token
  | .completed record => some (record, .completed)
  | .buried record => some (record, .buried)
  | _ => none

def Queue.tokens (q : Queue) : Multiset Token := q.pending.map fun record => (record, Station.queued)

/-- Exchanging one item of a list exchanges its share. -/
theorem filterMap_set {α β : Type*} (f : α → Option β) {items : List α} {index : Nat} {a : α}
    (here : items[index]? = some a) :
    ∃ rest : Multiset β, (items.filterMap f : Multiset β) = (f a).toList + rest ∧
      ∀ b, ((items.set index b).filterMap f : Multiset β) = (f b).toList + rest := by
  obtain ⟨bound, rfl⟩ := List.getElem?_eq_some_iff.mp here
  have share (b : α) : ((b :: items.eraseIdx index).filterMap f : Multiset β) =
      (f b).toList + ((items.eraseIdx index).filterMap f : Multiset β) := by
    cases known : f b <;> simp [known]
  refine ⟨(items.eraseIdx index).filterMap f, ?_, fun b => ?_⟩
  · rw [← share]
    exact (Quot.sound ((List.getElem_cons_eraseIdx_perm bound).filterMap f)).symm
  · rw [← share]
    exact Quot.sound ((List.set_perm_cons_eraseIdx bound b).filterMap f)

namespace World

def tokens (s : World) : Multiset Token :=
  (s.callers.filterMap Caller.token? : Multiset Token) + s.engine.queue.tokens +
    (s.pool.workers.filterMap Worker.token? : Multiset Token) +
    (s.history.filterMap Event.token? : Multiset Token)

/-- A worker has taken a step. -/
def stepped (s : World) (index : Nat) (w : Worker) (engine : Engine) (letters : DeadLetters)
    (events : List Event) : World :=
  { s with
    engine
    pool := { s.pool with workers := s.pool.workers.set index w, letters }
    history := s.history ++ events }

/-- A caller has taken a step. -/
def called (s : World) (index : Nat) (c : Caller) (engine : Engine) (events : List Event) :
    World :=
  { s with engine, callers := s.callers.set index c, history := s.history ++ events }

variable {s : World} {index : Nat}

theorem work_eq {w : Worker} (here : s.pool.workers[index]? = some w) :
    s.work index =
      let next := w.step s.pool.terms index s.engine s.pool.letters
      s.stepped index next.1 next.2.1 next.2.2
        (w.events s.pool.terms s.engine s.pool.letters) := by
  simp only [work, here, Pool.stepWorker, stepped]

theorem proceed_eq {c : Caller} (here : s.callers[index]? = some c) :
    s.proceed index =
      s.called index (c.step s.engine).1 (c.step s.engine).2 (c.events s.engine) := by
  simp only [proceed, here, called]

theorem tokens_stepped {w : Worker} (here : s.pool.workers[index]? = some w) :
    ∃ rest : Multiset Token,
      s.tokens = w.token?.toList + (s.engine.queue.tokens + rest) ∧
      ∀ next engine letters events, (s.stepped index next engine letters events).tokens =
        next.token?.toList + (engine.queue.tokens +
          ((events.filterMap Event.token? : Multiset Token) + rest)) := by
  obtain ⟨others, before, after⟩ := filterMap_set Worker.token? here
  refine ⟨(s.callers.filterMap Caller.token? : Multiset Token) + others +
    (s.history.filterMap Event.token? : Multiset Token), ?_, fun next engine letters events => ?_⟩
  · rw [tokens, before]
    abel
  · simp only [tokens, stepped, after, List.filterMap_append, ← Multiset.coe_add]
    abel

theorem tokens_called {c : Caller} (here : s.callers[index]? = some c) :
    ∃ rest : Multiset Token,
      s.tokens = c.token?.toList + (s.engine.queue.tokens + rest) ∧
      ∀ next engine events, (s.called index next engine events).tokens =
        next.token?.toList + (engine.queue.tokens +
          ((events.filterMap Event.token? : Multiset Token) + rest)) := by
  obtain ⟨others, before, after⟩ := filterMap_set Caller.token? here
  refine ⟨others + (s.pool.workers.filterMap Worker.token? : Multiset Token) +
    (s.history.filterMap Event.token? : Multiset Token), ?_, fun next engine events => ?_⟩
  · rw [tokens, before]
    abel
  · simp only [tokens, called, after, List.filterMap_append, ← Multiset.coe_add]
    abel

theorem tokens_joined (s : World) :
    ∃ rest : Multiset Token, s.tokens = s.engine.queue.tokens + rest ∧
      ∀ c engine events, (s.joined c engine events).tokens =
        c.token?.toList + (engine.queue.tokens +
          ((events.filterMap Event.token? : Multiset Token) + rest)) := by
  refine ⟨(s.callers.filterMap Caller.token? : Multiset Token) +
    (s.pool.workers.filterMap Worker.token? : Multiset Token) +
    (s.history.filterMap Event.token? : Multiset Token), ?_, fun c engine events => ?_⟩
  · rw [tokens]
    abel
  · have single : [c].filterMap Caller.token? = c.token?.toList := by
      cases known : c.token? <;> simp [known]
    simp only [tokens, joined, List.filterMap_append, ← Multiset.coe_add, single]
    abel

theorem token_of_caller {c : Caller} {token : Token} (mem : c ∈ s.callers)
    (holds : c.token? = some token) : token ∈ s.tokens := by
  simp only [tokens, Multiset.mem_add, Multiset.mem_coe, List.mem_filterMap]
  exact Or.inl (Or.inl (Or.inl ⟨c, mem, holds⟩))

theorem token_of_pending {record : Record} (mem : record ∈ s.engine.queue.pending) :
    (record, .queued) ∈ s.tokens := by
  simp only [tokens, Queue.tokens, Multiset.mem_add, Multiset.mem_coe]
  exact Or.inl (Or.inl (Or.inr (List.mem_map.mpr ⟨record, mem, rfl⟩)))

theorem token_of_worker {w : Worker} {token : Token} (mem : w ∈ s.pool.workers)
    (holds : w.token? = some token) : token ∈ s.tokens := by
  simp only [tokens, Multiset.mem_add, Multiset.mem_coe, List.mem_filterMap]
  exact Or.inl (Or.inr ⟨w, mem, holds⟩)

theorem token_of_event {event : Event} {token : Token} (mem : event ∈ s.history)
    (moved : event.token? = some token) : token ∈ s.tokens := by
  simp only [tokens, Multiset.mem_add, Multiset.mem_coe, List.mem_filterMap]
  exact Or.inr ⟨event, mem, moved⟩

end World

end JobEngine
