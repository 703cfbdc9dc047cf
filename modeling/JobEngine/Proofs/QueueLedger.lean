import JobEngine.Proofs.Conservation
import Mathlib.Data.List.DropRight

/-!
# The queue and its ledger

Whoever holds the queue calls it: records come in, are taken, completed, failed
and buried, and budgets are set, in any order and with any records. Every call
is written into a ledger, together with its answer. The ledger forgets nothing,
and what the queue keeps can be read off it: who waits, what the archives show
and how the next failure is answered.
-/
namespace JobEngine.Queue

inductive Call
  | push (record : Record)
  | dequeue
  | complete (record : Record)
  | fail (record : Record) (e : JobError)
  | deadLetter (record : Record)
  | setThreshold (jobType : String) (maxFails : UInt32)

inductive Answer
  | done
  /-- The record in front, if any waits. -/
  | served (record : Option Record)
  | failed (disposition : Disposition)

def call (q : Queue) : Call → Answer × Queue
  | .push record => (.done, q.append record)
  | .dequeue =>
    match q.take? with
    | some (record, later) => (.served (some record), later)
    | none => (.served none, q)
  | .complete record => (.done, q.complete record)
  | .fail record e =>
    let (later, disposition) := q.fail record e
    (.failed disposition, later)
  | .deadLetter record => (.done, q.bury record none)
  | .setThreshold jobType maxFails => (.done, q.setThreshold jobType maxFails)

theorem typeThreshold_congr {q r : Queue} (same : q.thresholds = r.thresholds)
    (jobType : String) : q.typeThreshold jobType = r.typeThreshold jobType := by
  rw [typeThreshold, typeThreshold, same]

/-! ## Exchanges -/

/-- A call with its answer. -/
abbrev Exchange := Call × Answer

namespace Exchange

/-- The record with one more failure, unless the count is at its largest value. -/
def counted (record : Record) : Record :=
  { record with fails := .ofNat (min (record.fails.toNat + 1) (UInt64.size - 1)) }

/-- The record that goes to the end of the line. -/
def appended? : Exchange → Option Record
  | (.push record, _) => some record
  | (.fail record _, .failed .requeued) => some (counted record)
  | _ => none

def dequeued? : Exchange → Option Record
  | (.dequeue, .served record) => record
  | _ => none

def completed? : Exchange → Option Record
  | (.complete record, _) => some record
  | _ => none

def buried? : Exchange → Option DeadRecord
  | (.fail record e, .failed .dead) => some ⟨counted record, some e.message⟩
  | (.deadLetter record, _) => some ⟨record, none⟩
  | _ => none

/-- The budget that is set for a type. -/
def budget? (jobType : String) : Exchange → Option UInt32
  | (.setThreshold other maxFails, _) => if other = jobType then some maxFails else none
  | _ => none

theorem counted_eq (record : Record) :
    counted record = { record with fails := countFailure record.fails } := by
  have largest : UInt64.size - 1 < 2 ^ 64 := by decide
  have same : UInt64.ofNat (min (record.fails.toNat + 1) (UInt64.size - 1)) =
      countFailure record.fails := by
    apply UInt64.toNat_inj.mp
    rw [toNat_countFailure, UInt64.toNat_ofNat']
    exact Nat.mod_eq_of_lt (Nat.lt_of_le_of_lt (Nat.min_le_right _ _) largest)
  rw [counted, same]

end Exchange

/-- A queue that began empty, and all that it was asked. -/
structure Ledger where
  queue : Queue := {}
  past : List Exchange := []

namespace Ledger

variable {l : Ledger}

def enter (l : Ledger) (c : Call) : Ledger where
  queue := (l.queue.call c).2
  past := l.past ++ [(c, (l.queue.call c).1)]

def of (calls : List Call) : Ledger := calls.foldl enter {}

def appended (l : Ledger) : List Record := l.past.filterMap Exchange.appended?

def dequeued (l : Ledger) : List Record := l.past.filterMap Exchange.dequeued?

def completed (l : Ledger) : List Record := l.past.filterMap Exchange.completed?

def buried (l : Ledger) : List DeadRecord := l.past.filterMap Exchange.buried?

/-- The budget that was set last for a type. -/
def typeBudget (l : Ledger) (jobType : String) : UInt32 :=
  (l.past.filterMap (Exchange.budget? jobType)).getLast?.getD 4

def budget (l : Ledger) (record : Record) : UInt32 :=
  (record.maxFails.filter (0 < ·)).getD (l.typeBudget record.jobType)

/-- Whatever holds of the empty ledger, and after each call if it held before, holds of every
ledger. -/
theorem of_induction {P : Ledger → Prop} (empty : P {}) (call : ∀ l c, P l → P (l.enter c))
    (calls : List Call) : P (of calls) := by
  have run (calls : List Call) (l : Ledger) (held : P l) : P (calls.foldl enter l) := by
    induction calls generalizing l with
    | nil => exact held
    | cons c rest ih => exact ih (l.enter c) (call l c held)
  exact run calls {} empty

theorem map_past (calls : List Call) : (of calls).past.map (·.1) = calls := by
  have grows (calls : List Call) (l : Ledger) :
      (calls.foldl enter l).past.map (·.1) = l.past.map (·.1) ++ calls := by
    induction calls generalizing l with
    | nil => exact (List.append_nil _).symm
    | cons c rest ih =>
      rw [List.foldl_cons, ih, enter, List.map_append, List.append_assoc]
      rfl
  exact grows calls {}

section Enter

variable {c : Call} {answer : Answer} {later : Queue}
  (called : l.queue.call c = (answer, later))

include called

theorem enter_eq : l.enter c = ⟨later, l.past ++ [(c, answer)]⟩ := by
  rw [enter, called]

theorem filterMap_enter {α : Type} (f : Exchange → Option α) :
    (l.enter c).past.filterMap f = l.past.filterMap f ++ (f (c, answer)).toList := by
  rw [enter_eq called, List.filterMap_append]
  cases told : f (c, answer) <;> simp [told]

theorem typeBudget_enter (jobType : String) :
    (l.enter c).typeBudget jobType =
      (Exchange.budget? jobType (c, answer)).getD (l.typeBudget jobType) := by
  rw [typeBudget, filterMap_enter called]
  cases Exchange.budget? jobType (c, answer) with
  | none => rw [Option.toList_none, List.append_nil, Option.getD_none, typeBudget]
  | some maxFails => rw [Option.toList_some, List.getLast?_concat, Option.getD_some,
      Option.getD_some]

end Enter

/-! ## What the queue keeps -/

/-- The queue keeps the end of the line, the newest records of each archive and the last budget of
each type. -/
structure Kept (l : Ledger) : Prop where
  line : l.dequeued ++ l.queue.pending = l.appended
  completed : l.queue.completed = newest completedLimit l.completed
  dead : l.queue.dead = newest deadLimit l.buried
  budgets : ∀ jobType, l.queue.typeThreshold jobType = l.typeBudget jobType

namespace Kept

theorem threshold (kept : l.Kept) (record : Record) :
    l.queue.threshold record = l.budget record := by
  rw [Queue.threshold, kept.budgets, budget, Record.override?]

theorem told {c : Call} {answer : Answer} {later : Queue}
    (called : l.queue.call c = (answer, later))
    (line : l.dequeued ++ (Exchange.dequeued? (c, answer)).toList ++ later.pending =
      l.appended ++ (Exchange.appended? (c, answer)).toList)
    (completed : later.completed =
      newest completedLimit (l.completed ++ (Exchange.completed? (c, answer)).toList))
    (dead : later.dead = newest deadLimit (l.buried ++ (Exchange.buried? (c, answer)).toList))
    (budgets : ∀ jobType, later.typeThreshold jobType =
      (Exchange.budget? jobType (c, answer)).getD (l.typeBudget jobType)) :
    (l.enter c).Kept := by
  have queue : (l.enter c).queue = later := by rw [enter_eq called]
  constructor
  · rw [queue, Ledger.dequeued, Ledger.appended, filterMap_enter called, filterMap_enter called]
    exact line
  · rw [queue, Ledger.completed, filterMap_enter called]
    exact completed
  · rw [queue, Ledger.buried, filterMap_enter called]
    exact dead
  · intro jobType
    rw [queue, typeBudget_enter called]
    exact budgets jobType

/-- A record comes to the end of the line. -/
theorem appended {c : Call} {answer : Answer} {record : Record} (kept : l.Kept)
    (called : l.queue.call c = (answer, l.queue.append record))
    (appended : Exchange.appended? (c, answer) = some record)
    (dequeued : Exchange.dequeued? (c, answer) = none)
    (completed : Exchange.completed? (c, answer) = none)
    (buried : Exchange.buried? (c, answer) = none)
    (budget : ∀ jobType, Exchange.budget? jobType (c, answer) = none) :
    (l.enter c).Kept := by
  refine told called ?_ ?_ ?_ fun jobType => ?_
  · rw [appended, dequeued, Option.toList_none, List.append_nil, ← kept.line, List.append_assoc]
    rfl
  · rw [completed, Option.toList_none, List.append_nil]
    exact kept.completed
  · rw [buried, Option.toList_none, List.append_nil]
    exact kept.dead
  · rw [budget]
    exact kept.budgets jobType

/-- A record is buried. -/
theorem buried {c : Call} {answer : Answer} {record : Record} {lastError : Option String}
    (kept : l.Kept) (called : l.queue.call c = (answer, l.queue.bury record lastError))
    (appended : Exchange.appended? (c, answer) = none)
    (dequeued : Exchange.dequeued? (c, answer) = none)
    (completed : Exchange.completed? (c, answer) = none)
    (buried : Exchange.buried? (c, answer) = some ⟨record, lastError⟩)
    (budget : ∀ jobType, Exchange.budget? jobType (c, answer) = none) :
    (l.enter c).Kept := by
  refine told called ?_ ?_ ?_ fun jobType => ?_
  · rw [appended, dequeued, Option.toList_none, List.append_nil, List.append_nil]
    simpa only [Queue.bury] using kept.line
  · rw [completed, Option.toList_none, List.append_nil]
    simpa only [Queue.bury] using kept.completed
  · rw [buried, Option.toList_some]
    simp only [Queue.bury, kept.dead]
    exact newest_append deadLimit l.buried ⟨record, lastError⟩
  · rw [budget, Option.getD_none, ← kept.budgets]
    exact typeThreshold_congr (thresholds_bury ..) jobType

theorem dequeue (kept : l.Kept) : (l.enter .dequeue).Kept := by
  have line := kept.line
  cases pending : l.queue.pending with
  | nil =>
    have served : l.queue.call .dequeue = (.served none, l.queue) := by
      simp only [call, take?, pending]
    refine told served ?_ ?_ ?_ kept.budgets
    · simpa only [Exchange.dequeued?, Exchange.appended?, Option.toList_none, List.append_nil]
        using line
    · simpa only [Exchange.completed?, Option.toList_none, List.append_nil] using kept.completed
    · simpa only [Exchange.buried?, Option.toList_none, List.append_nil] using kept.dead
  | cons first rest =>
    have served : l.queue.call .dequeue =
        (.served (some first), { l.queue with pending := rest }) := by
      simp only [call, take?, pending]
    rw [pending] at line
    refine told served ?_ ?_ ?_ kept.budgets
    · simpa only [Exchange.dequeued?, Exchange.appended?, Option.toList_none, Option.toList_some,
        List.append_nil, List.append_assoc, List.singleton_append] using line
    · simpa only [Exchange.completed?, Option.toList_none, List.append_nil] using kept.completed
    · simpa only [Exchange.buried?, Option.toList_none, List.append_nil] using kept.dead

theorem complete (kept : l.Kept) (record : Record) : (l.enter (.complete record)).Kept := by
  have called : l.queue.call (.complete record) = (.done, l.queue.complete record) := rfl
  refine told called ?_ ?_ ?_ fun jobType => ?_
  · simpa only [Exchange.dequeued?, Exchange.appended?, Option.toList_none, List.append_nil,
      Queue.complete] using kept.line
  · simp only [Exchange.completed?, Option.toList_some, Queue.complete, kept.completed]
    exact newest_append completedLimit l.completed record
  · simpa only [Exchange.buried?, Option.toList_none, List.append_nil, Queue.complete]
      using kept.dead
  · have unset : Exchange.budget? jobType (.complete record, .done) = none := rfl
    rw [unset, Option.getD_none, ← kept.budgets]
    exact typeThreshold_congr (thresholds_complete ..) jobType

/-- The count that is compared with the threshold is the one that is stored. -/
theorem fail (kept : l.Kept) (record : Record) (e : JobError) :
    (l.enter (.fail record e)).Kept := by
  rcases Nat.lt_or_ge (countFailure record.fails).toNat (l.queue.threshold record).toNat
    with under | spent
  · have failed : l.queue.call (.fail record e) =
        (.failed .requeued, l.queue.append (Exchange.counted record)) := by
      simp only [call, fail_of_lt e under, Exchange.counted_eq]
    exact kept.appended failed rfl rfl rfl rfl fun _ => rfl
  · have failed : l.queue.call (.fail record e) =
        (.failed .dead, l.queue.bury (Exchange.counted record) (some e.message)) := by
      simp only [call, fail_of_le e spent, Exchange.counted_eq]
    exact kept.buried failed rfl rfl rfl rfl fun _ => rfl

theorem setThreshold (kept : l.Kept) (jobType : String) (maxFails : UInt32) :
    (l.enter (.setThreshold jobType maxFails)).Kept := by
  have called : l.queue.call (.setThreshold jobType maxFails) =
      (.done, l.queue.setThreshold jobType maxFails) := rfl
  refine told called ?_ ?_ ?_ fun other => ?_
  · simpa only [Exchange.dequeued?, Exchange.appended?, Option.toList_none, List.append_nil,
      Queue.setThreshold] using kept.line
  · simpa only [Exchange.completed?, Option.toList_none, List.append_nil, Queue.setThreshold]
      using kept.completed
  · simpa only [Exchange.buried?, Option.toList_none, List.append_nil, Queue.setThreshold]
      using kept.dead
  · rw [typeThreshold_setThreshold, Exchange.budget?]
    by_cases same : other = jobType
    · rw [if_pos same, if_pos same.symm, Option.getD_some]
    · rw [if_neg same, if_neg (Ne.symm same), Option.getD_none]
      exact kept.budgets other

theorem enter (kept : l.Kept) (c : Call) : (l.enter c).Kept := by
  cases c with
  | push record => exact kept.appended rfl rfl rfl rfl rfl fun _ => rfl
  | dequeue => exact kept.dequeue
  | complete record => exact kept.complete record
  | fail record e => exact kept.fail record e
  | deadLetter record => exact kept.buried rfl rfl rfl rfl rfl fun _ => rfl
  | setThreshold jobType maxFails => exact kept.setThreshold jobType maxFails

theorem of (calls : List Call) : (Ledger.of calls).Kept := by
  have empty : Ledger.Kept {} := by
    constructor
    · rfl
    · rfl
    · rfl
    · intro jobType
      rfl
  exact of_induction empty (fun _ c kept => kept.enter c) calls

end Kept

end Ledger

theorem newest_reverse {α : Type} (limit : Nat) (items : List α) :
    (newest limit items).reverse = items.reverse.take limit := by
  rw [newest, List.reverse_drop]
  by_cases few : items.length ≤ limit
  · rw [List.take_of_length_le, List.take_of_length_le]
    · rwa [List.length_reverse]
    · rw [List.length_reverse]
      omega
  · congr 1
    omega

theorem length_newest {α : Type} (limit : Nat) (items : List α) :
    (newest limit items).length = min items.length limit := by
  rw [newest, List.length_drop]
  omega

/-- However the queue is called, it answers and shows what the ledger of the calls says. -/
theorem shows_ledger (calls : List Call) :
    let l := Ledger.of calls
    l.past.map (·.1) = calls ∧
    l.dequeued ++ l.queue.pending = l.appended ∧
    (l.queue.call .dequeue).1 = .served l.queue.pending.head? ∧
    l.queue.completed.reverse = l.completed.reverse.take 1000 ∧
    l.queue.dead = l.buried.rtake 1000 ∧
    l.queue.counts = ⟨l.appended.length - l.dequeued.length, min l.completed.length 1000,
      min l.buried.length 1000⟩ ∧
    ∀ record e, (l.queue.call (.fail record e)).1 =
      .failed (if min (record.fails.toNat + 1) (UInt64.size - 1) < (l.budget record).toNat
        then .requeued else .dead) := by
  intro l
  have kept : l.Kept := .of calls
  refine ⟨Ledger.map_past calls, kept.line, ?_, ?_, kept.dead, ?_, ?_⟩
  · cases pending : l.queue.pending with
    | nil => simp only [call, take?, pending, List.head?_nil]
    | cons first rest => simp only [call, take?, pending, List.head?_cons]
  · rw [kept.completed]
    exact newest_reverse completedLimit l.completed
  · have waiting : l.queue.pending.length = l.appended.length - l.dequeued.length := by
      rw [← kept.line, List.length_append]
      omega
    rw [counts, waiting, kept.completed, kept.dead, length_newest, length_newest]
    rfl
  · intro record e
    rw [← kept.threshold, ← toNat_countFailure]
    rcases Nat.lt_or_ge (countFailure record.fails).toNat (l.queue.threshold record).toNat
      with under | spent
    · rw [if_pos under, call, fail_of_lt e under]
    · rw [if_neg (Nat.not_lt.mpr spent), call, fail_of_le e spent]

end JobEngine.Queue
