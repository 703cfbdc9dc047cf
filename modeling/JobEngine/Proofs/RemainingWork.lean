import JobEngine.Proofs.Conservation
import JobEngine.Proofs.RetryBounds
import JobEngine.Proofs.Wakeups
import Mathlib.Data.Multiset.DershowitzManna
import Mathlib.Data.Prod.Lex
import Mathlib.SetTheory.Ordinal.Rank

/-!
# What is left to do

Everything that can go on has a weight: the records by the deliveries they may
still have and the stage of the one they are in, those who look for records and
the rings they answer by little more than nothing. A run of a job weighs as
much as its code can still go on. A step of a worker or of a submitter replaces
what it works on by lighter things, so that the multiset of all weights gets
smaller in the ordering of Dershowitz and Manna.
-/
namespace JobEngine

/-! ## Activities end -/

namespace Activity

/-- What may be left of an activity after one action. -/
inductive Next : Activity → Activity → Prop
  | log (level : Level) (message : String) (next : Activity) : Next next (.log level message next)
  | checkIn (message : String) (next : Activity) : Next next (.checkIn message next)
  | poll (next : Option Command → Activity) (answer : Option Command) :
    Next (next answer) (.poll next)
  | sleep (ms : Nat) (next : Activity) : Next next (.sleep ms next)
  | order (command : Command) (next : Except QueueError Unit → Activity)
    (answer : Except QueueError Unit) : Next (next answer) (.order command next)
  | repositories (next : Except StoreError (List String) → Activity)
    (answer : Except StoreError (List String)) : Next (next answer) (.repositories next)
  | list (repository : String) (next : Except StoreError (List Artifact) → Activity)
    (answer : Except StoreError (List Artifact)) : Next (next answer) (.list repository next)
  | find (digest : String) (next : Except StoreError (Option Artifact) → Activity)
    (answer : Except StoreError (Option Artifact)) : Next (next answer) (.find digest next)
  | delete (repository digest : String) (next : Except StoreError UInt64 → Activity)
    (answer : Except StoreError UInt64) : Next (next answer) (.delete repository digest next)

/-- The induction is on the activity. -/
theorem acc_next (a : Activity) : Acc Next a := by
  induction a with
  | done | fault => exact ⟨_, by rintro b ⟨⟩⟩
  | log _ _ _ ih | checkIn _ _ ih | sleep _ _ ih =>
    refine ⟨_, fun b step => ?_⟩
    cases step
    exact ih
  | poll _ ih | order _ _ ih | repositories _ ih | list _ _ ih | find _ _ ih | delete _ _ _ ih =>
    refine ⟨_, fun b step => ?_⟩
    cases step
    exact ih _

instance : IsWellFounded Activity Next := ⟨⟨acc_next⟩⟩

/-- How long the activity can go on. -/
noncomputable def depth (a : Activity) : Ordinal.{0} := IsWellFounded.rank Next a

end Activity

namespace Delivery

/-- An action of a job ends its run or leaves less to do. -/
theorem act_stage (record : Record) (e : Engine) (log : OpenLog) (rest : Activity) :
    (∃ outcome, (act record e log rest).1 = .ended outcome) ∨
      ∃ log' next, (act record e log rest).1 = .active log' next ∧ next.depth < rest.depth := by
  cases rest with
  | done | fault => exact Or.inl ⟨_, rfl⟩
  | log level message next => exact Or.inr ⟨_, next, rfl, IsWellFounded.rank_lt_of_rel (.log ..)⟩
  | checkIn message next => exact Or.inr ⟨_, next, rfl, IsWellFounded.rank_lt_of_rel (.checkIn ..)⟩
  | sleep ms next => exact Or.inr ⟨_, next, rfl, IsWellFounded.rank_lt_of_rel (.sleep ..)⟩
  | poll next => exact Or.inr ⟨_, _, rfl, IsWellFounded.rank_lt_of_rel (.poll ..)⟩
  | order command next => exact Or.inr ⟨_, _, rfl, IsWellFounded.rank_lt_of_rel (.order ..)⟩
  | repositories next => exact Or.inr ⟨_, _, rfl, IsWellFounded.rank_lt_of_rel (.repositories ..)⟩
  | list repository next => exact Or.inr ⟨_, _, rfl, IsWellFounded.rank_lt_of_rel (.list ..)⟩
  | find digest next => exact Or.inr ⟨_, _, rfl, IsWellFounded.rank_lt_of_rel (.find ..)⟩
  | delete repository digest next =>
    exact Or.inr ⟨_, _, rfl, IsWellFounded.rank_lt_of_rel (.delete ..)⟩

end Delivery

/-! ## Weights -/

/-- First by deliveries and stage, then by what a running job has left to do. -/
abbrev Weight := ℕ ×ₗ Ordinal.{0}

def weigh (n : ℕ) (depth : Ordinal.{0}) : Weight := toLex (n, depth)

theorem weigh_lt {m n : ℕ} {d e : Ordinal.{0}} (less : m < n) : weigh m d < weigh n e :=
  Prod.Lex.toLex_lt_toLex.mpr (Or.inl less)

theorem weigh_add_lt {base m n : ℕ} {d e : Ordinal.{0}} (less : m < n) :
    weigh (base + m) d < weigh (base + n) e :=
  weigh_lt (Nat.add_lt_add_left less base)

theorem weigh_lt_depth {n : ℕ} {d e : Ordinal.{0}} (less : d < e) : weigh n d < weigh n e :=
  Prod.Lex.toLex_lt_toLex.mpr (Or.inr ⟨rfl, less⟩)

/-- Some things are replaced by lighter ones. -/
theorem swap_less {lighter heavier : Multiset Weight} (rest : Multiset Weight)
    (some : heavier ≠ 0) (below : ∀ y ∈ lighter, ∃ z ∈ heavier, y < z) :
    (lighter + rest).IsDershowitzMannaLT (heavier + rest) :=
  ⟨rest, lighter, heavier, some, add_comm _ _, add_comm _ _, below⟩

/-- One thing is replaced by lighter ones. -/
theorem swap_less_one {lighter : Multiset Weight} {heavy : Weight} (rest : Multiset Weight)
    (below : ∀ y ∈ lighter, y < heavy) :
    (lighter + rest).IsDershowitzMannaLT ({heavy} + rest) :=
  swap_less rest (Multiset.singleton_ne_zero heavy)
    fun y mem => ⟨heavy, Multiset.mem_singleton_self heavy, below y mem⟩

theorem lt_of_mem_light {light heavy y : Weight} {extra : Multiset Weight} (few : extra ≤ {light})
    (less : light < heavy) (mem : y ∈ extra) : y < heavy := by
  rwa [Multiset.mem_singleton.mp (Multiset.mem_of_le few mem)]

theorem lt_of_mem_split {part light heavy y : Weight} {extra : Multiset Weight}
    (below : part < heavy) (few : extra ≤ {light}) (less : light < heavy)
    (mem : y ∈ {part} + extra) : y < heavy := by
  rcases Multiset.mem_add.mp mem with first | second
  · rwa [Multiset.mem_singleton.mp first]
  · exact lt_of_mem_light few less second

theorem drop_less (heavy : Weight) (rest : Multiset Weight) :
    rest.IsDershowitzMannaLT ({heavy} + rest) := by
  have none : ∀ y ∈ (0 : Multiset Weight), y < heavy :=
    fun y mem => absurd mem (Multiset.notMem_zero y)
  simpa only [zero_add] using swap_less_one rest none

theorem less_add {fewer more : Multiset Weight} (less : fewer.IsDershowitzMannaLT more)
    (rest : Multiset Weight) : (fewer + rest).IsDershowitzMannaLT (more + rest) := by
  obtain ⟨common, lighter, heavier, some, rfl, rfl, below⟩ := less
  exact ⟨common + rest, lighter, heavier, some, add_right_comm .., add_right_comm .., below⟩

/-- How many deliveries may follow the one that the record is in. -/
def Queue.remaining (q : Queue) (record : Record) : Nat :=
  (q.threshold record).toNat - (countFailure record.fails).toNat

/-- A delivery that may follow outweighs all stages of this one, the record that waits for it and
those who are rung for. -/
noncomputable def Delivery.weight (q : Queue) (d : Delivery) : Weight :=
  let later := 11 * q.remaining d.record
  match d.stage with
  | .fetched => weigh (later + 10) 0
  | .announced => weigh (later + 9) 0
  | .active _ rest => weigh (later + 8) rest.depth
  | .ended _ => weigh (later + 7) 0
  | .reported _ => weigh (later + 6) 0
  | .decided _ => weigh (later + 5) 0

noncomputable def Worker.weight? (q : Queue) : Worker → Option Weight
  | .asking => some (weigh 1 0)
  | .emptyHanded => some (weigh 0 0)
  | .parked | .stopped => none
  | .carrying d => some (d.weight q)
  | .stray _ => some (weigh 10 0)
  | .strayMarked _ => some (weigh 9 0)
  | .ringing => some (weigh 3 0)

noncomputable def Caller.weight? (q : Queue) : Caller → Option Weight
  | .appending record => some (weigh (11 * q.allowance record + 5) 0)
  | .ringing => some (weigh 3 0)
  | .ordering _ _ | .done => none

/-- Each ring that has not been answered. -/
noncomputable def Bell.weights (b : Bell Taker) : Multiset Weight :=
  Multiset.replicate (b.pending.toNat + b.woken.length) (weigh 2 0)

/-- The records that wait and the rings. -/
noncomputable def Engine.weights (q : Queue) (e : Engine) : Multiset Weight :=
  (e.queue.pending : Multiset Record).map (fun record => weigh (11 * q.allowance record + 4) 0) +
    e.bell.weights

noncomputable def World.weights (q : Queue) (s : World) : Multiset Weight :=
  (s.callers.filterMap (Caller.weight? q) : Multiset Weight) + s.engine.weights q +
    (s.pool.workers.filterMap (Worker.weight? q) : Multiset Weight)

/-! ## Rings -/

namespace Bell

variable {b : Bell Taker} {t : Taker}

theorem weights_ring (b : Bell Taker) :
    ∃ extra ≤ ({weigh 2 0} : Multiset Weight), b.ring.weights = extra + b.weights := by
  cases parked : b.parked with
  | nil =>
    cases pending : b.pending with
    | true => exact ⟨0, Multiset.zero_le _, by simp [weights, ring, parked, pending]⟩
    | false =>
      refine ⟨{weigh 2 0}, le_rfl, ?_⟩
      simp [weights, ring, parked, pending, Multiset.replicate_add]
  | cons first rest =>
    refine ⟨{weigh 2 0}, le_rfl, ?_⟩
    simp [weights, ring, parked, ← add_assoc, Multiset.replicate_succ]

/-- Who goes on answers a ring. -/
theorem weights_resume (woken : t ∈ b.woken) :
    b.weights = {weigh 2 0} + (b.resume t).weights := by
  have some := List.length_pos_of_mem woken
  have less : (b.woken.erase t).length + 1 = b.woken.length := by
    rw [List.length_erase_of_mem woken]
    omega
  simp only [weights, resume, ← less, ← add_assoc, Multiset.replicate_succ, Multiset.singleton_add]

/-- Who leaves the line answers no ring, and adds none. -/
theorem weights_leave (b : Bell Taker) (t : Taker) :
    (b.leave t).weights = b.weights ∨ (b.leave t).weights.IsDershowitzMannaLT b.weights := by
  simp only [leave]
  split
  · rename_i woken
    obtain ⟨extra, light, rung⟩ := (b.resume t).weights_ring
    rw [rung, weights_resume woken]
    rcases Multiset.le_singleton.mp light with rfl | rfl
    · exact Or.inr (by simpa only [zero_add] using drop_less _ _)
    · exact Or.inl rfl
  · exact Or.inl rfl

end Bell

/-! ## Steps of workers -/

namespace Queue

variable (q : Queue) (record : Record)

/-- Taking a record uses up one of its deliveries. -/
theorem remaining_lt_allowance : q.remaining record < q.allowance record := by
  have count := toNat_countFailure record.fails
  have word := record.fails.toNat_lt_size
  have budget := (q.threshold record).toNat_lt_size
  have sizes : UInt32.size < UInt64.size := by decide
  simp only [remaining, allowance]
  omega

/-- What is appended again has the deliveries left that were to follow. -/
theorem allowance_counted
    (under : (countFailure record.fails).toNat < (q.threshold record).toNat) :
    q.allowance { record with fails := countFailure record.fails } = q.remaining record := by
  simp only [allowance, remaining, threshold_fails]
  omega

theorem remaining_doomed : q.remaining { record with fails := deadLetterFails } = 0 := by
  have doomed : (countFailure deadLetterFails).toNat = 10000000001 := by decide
  have budget := (q.threshold record).toNat_lt_size
  have small : UInt32.size < 10000000001 := by decide
  simp only [remaining, threshold_fails, doomed]
  omega

end Queue

theorem Engine.weights_congr {q : Queue} {e later : Engine}
    (pending : later.queue.pending = e.queue.pending) (bell : later.bell = e.bell) :
    later.weights q = e.weights q := by
  simp only [weights, pending, bell]

theorem Queue.pending_complete (q : Queue) (record : Record) :
    (q.complete record).pending = q.pending := by
  simp only [complete]

theorem Engine.weights_cons (q : Queue) {e : Engine} {record : Record} {rest : List Record}
    (pending : e.queue.pending = record :: rest) :
    e.weights q = {weigh (11 * q.allowance record + 4) 0} +
      ((rest : Multiset Record).map (fun record => weigh (11 * q.allowance record + 4) 0) +
        e.bell.weights) := by
  rw [weights, pending, ← Multiset.cons_coe, Multiset.map_cons, ← Multiset.singleton_add,
    add_assoc]

theorem Engine.weights_bury (q : Queue) (e : Engine) (record : Record)
    (lastError : Option String) :
    { e with queue := e.queue.bury record lastError }.weights q = e.weights q :=
  weights_congr (Queue.pending_bury ..) rfl

/-- One more record waits. -/
theorem Engine.weights_append (q : Queue) {e later : Engine} {record : Record}
    (pending : later.queue.pending = e.queue.pending ++ [record]) (bell : later.bell = e.bell) :
    later.weights q = {weigh (11 * q.allowance record + 4) 0} + e.weights q := by
  rw [weights, weights, pending, bell, ← Multiset.coe_add, Multiset.map_add, Multiset.coe_singleton,
    Multiset.map_singleton]
  abel

theorem Engine.weights_ring (q : Queue) (e : Engine) :
    ∃ extra ≤ ({weigh 2 0} : Multiset Weight), e.ring.weights q = extra + e.weights q := by
  obtain ⟨extra, light, rung⟩ := e.bell.weights_ring
  refine ⟨extra, light, ?_⟩
  simp only [weights, ring, rung]
  abel

theorem Engine.write_bell (e : Engine) (call : TrackerCall)
    (change : Tracker → Except QueueError Tracker) :
    (e.write call change).2.bell = e.bell := by
  obtain ⟨tracker, written⟩ := write_tracker e call change
  rw [written]

namespace Delivery

/-- Before it is decided a delivery gets lighter with every step. -/
theorem step_weight (d : Delivery) (q : Queue) (terms : Terms) (e : Engine)
    (letters : DeadLetters) (undecided : d.result? = none) :
    (d.step terms e letters).1.weight q < d.weight q := by
  obtain ⟨record, job, stage⟩ := d
  cases stage with
  | fetched => exact weigh_add_lt (by decide)
  | announced =>
    simp only [step, prepare]
    split
    · exact weigh_add_lt (by decide)
    · split <;> exact weigh_add_lt (by decide)
  | active log rest =>
    simp only [step]
    rcases act_stage record e log rest with ⟨outcome, ended⟩ | ⟨log', next, goes, less⟩
    · rw [ended]
      exact weigh_add_lt (by decide)
    · rw [goes]
      exact weigh_lt_depth less
  | ended outcome => exact weigh_add_lt (by decide)
  | reported outcome =>
    simp only [step]
    split
    · simp only [weight, q.remaining_doomed record]
      exact weigh_lt (by omega)
    · exact weigh_add_lt (by decide)
  | decided result => cases undecided

end Delivery

namespace Worker

/-- The worker can take a step by itself. -/
def isAwake : Worker → Bool
  | .parked | .stopped => false
  | _ => true

variable {q : Queue} {e : Engine}

/-- What a worker works on, with all that waits. -/
noncomputable def share (q : Queue) (w : Worker) (e : Engine) : Multiset Weight :=
  (w.weight? q).toList + e.weights q

theorem share_less {w next : Worker} {lighter heavier : Weight} {later : Engine}
    (before : w.weight? q = some heavier) (after : next.weight? q = some lighter)
    (less : lighter < heavier) (same : later.weights q = e.weights q) :
    (next.share q later).IsDershowitzMannaLT (w.share q e) := by
  simp only [share, before, after, same]
  exact swap_less _ (Multiset.singleton_ne_zero heavier) (by simpa using less)

theorem step_less_asking (terms : Terms) (index : Nat) (letters : DeadLetters) :
    let next := Worker.asking.step terms index e letters
    (next.1.share q next.2.1).IsDershowitzMannaLT (Worker.asking.share q e) := by
  cases taken : e.take? with
  | none =>
    simp only [step, taken]
    exact share_less rfl rfl (weigh_lt Nat.one_pos) rfl
  | some pair =>
    obtain ⟨record, later⟩ := pair
    obtain ⟨rest, pending, left, bell⟩ := Engine.take?_bell taken
    obtain ⟨extra, light, rung⟩ : ∃ extra ≤ ({weigh 2 0} : Multiset Weight),
        later.bell.weights = extra + e.bell.weights := by
      rcases bell with ⟨-, same⟩ | rung
      · exact ⟨0, Multiset.zero_le _, by rw [same, zero_add]⟩
      · exact rung ▸ e.bell.weights_ring
    have less := q.remaining_lt_allowance record
    obtain ⟨weight, received, lighter⟩ : ∃ weight,
        (receive later.registry record).weight? q = some weight ∧
          weight < weigh (11 * q.allowance record + 4) 0 := by
      simp only [receive]
      split
      · refine ⟨_, rfl, weigh_lt ?_⟩
        show 11 * q.remaining record + 10 < 11 * q.allowance record + 4
        omega
      · exact ⟨_, rfl, weigh_lt (by omega)⟩
    let others := (rest : Multiset Record).map
      (fun record => weigh (11 * q.allowance record + 4) 0) + e.bell.weights
    have swapped : ({weight} + extra + others).IsDershowitzMannaLT
        ({weigh 1 0} + {weigh (11 * q.allowance record + 4) 0} + others) := by
      have below : weigh 2 0 < weigh (11 * q.allowance record + 4) 0 := weigh_lt (by omega)
      exact swap_less others (by simp) fun y mem => ⟨_, Multiset.mem_add.mpr
        (Or.inr (Multiset.mem_singleton_self _)), lt_of_mem_split lighter light below mem⟩
    have before : Worker.asking.share q e =
        {weigh 1 0} + {weigh (11 * q.allowance record + 4) 0} + others := by
      rw [share, Engine.weights_cons q pending, ← add_assoc]
      rfl
    have after : (receive later.registry record).share q later = {weight} + extra + others := by
      simp only [share, received, Engine.weights, left, rung, others]
      rw [Option.toList_some, Multiset.coe_singleton]
      abel
    simp only [step, taken]
    rw [before, after]
    exact swapped

theorem step_less_emptyHanded (terms : Terms) (index : Nat) (letters : DeadLetters) :
    let next := Worker.emptyHanded.step terms index e letters
    (next.1.share q next.2.1).IsDershowitzMannaLT (Worker.emptyHanded.share q e) := by
  cases remembered : e.bell.pending with
  | true =>
    let later := { e with bell := { e.bell with pending := false } }
    have answered : e.weights q = {weigh 2 0} + later.weights q := by
      simp only [Engine.weights, Bell.weights, remembered, Bool.toNat_true, Bool.toNat_false,
        add_comm 1, zero_add, Multiset.replicate_succ, ← Multiset.singleton_add, later]
      abel
    have next : Worker.emptyHanded.step terms index e letters = (.asking, later, letters) := by
      simp only [step, Bell.park, remembered, if_true]
      rfl
    simp only [next, share, answered]
    rw [← add_assoc]
    refine swap_less _ (by simp [weight?]) fun y mem => ⟨weigh 2 0, by simp, ?_⟩
    rw [Multiset.mem_singleton.mp mem]
    exact weigh_lt (by decide)
  | false =>
    have next : Worker.emptyHanded.step terms index e letters =
        (.parked, { e with bell := { e.bell with parked := e.bell.parked ++ [.worker index] } },
          letters) := by
      simp only [step, Bell.park, remembered, Bool.false_eq_true, if_false, if_true]
    rw [next]
    simp only [share, weight?, Option.toList_none, Multiset.coe_nil, zero_add]
    exact drop_less (weigh 0 0) (e.weights q)

theorem settle_less {record : Record} {job : Job} (result : Except JobError Unit)
    (agree : e.queue.threshold record = q.threshold record) :
    ((settle record result e).1.share q (settle record result e).2).IsDershowitzMannaLT
      (share q (.carrying ⟨record, job, .decided result⟩) e) := by
  cases result with
  | ok =>
    have same : { e with queue := e.queue.complete record }.weights q = e.weights q :=
      Engine.weights_congr (Queue.pending_complete ..) rfl
    exact share_less rfl rfl (weigh_lt (by omega)) same
  | error err =>
    rcases Nat.lt_or_ge (countFailure record.fails).toNat (e.queue.threshold record).toNat
      with under | spent
    · rw [settle_under err under]
      rw [agree] at under
      let later := e.append { record with fails := countFailure record.fails }
      have appended : later.weights q =
          {weigh (11 * q.remaining record + 4) 0} + e.weights q := by
        rw [← q.allowance_counted record under]
        exact Engine.weights_append q rfl rfl
      show (share q .ringing later).IsDershowitzMannaLT _
      rw [share, appended, ← add_assoc]
      have rings : weigh 3 0 < weigh (11 * q.remaining record + 5) 0 := weigh_lt (by omega)
      have waits : weigh (11 * q.remaining record + 4) 0 < weigh (11 * q.remaining record + 5) 0 :=
        weigh_add_lt (by decide)
      exact swap_less_one _ fun y mem => lt_of_mem_split rings le_rfl waits mem
    · rw [settle_spent err spent]
      exact share_less rfl rfl (weigh_lt (by omega)) (Engine.weights_bury q e ..)

theorem step_less {w : Worker} (awake : w.isAwake = true) (terms : Terms) (index : Nat)
    (letters : DeadLetters) (agree : ∀ record, e.queue.threshold record = q.threshold record) :
    let next := w.step terms index e letters
    (next.1.share q next.2.1).IsDershowitzMannaLT (w.share q e) := by
  cases w with
  | asking => exact step_less_asking terms index letters
  | emptyHanded => exact step_less_emptyHanded terms index letters
  | carrying d =>
    simp only [step]
    cases result : d.result? with
    | some result =>
      obtain ⟨record, job, stage⟩ := d
      cases stage <;> cases result
      exact settle_less _ (agree record)
    | none =>
      exact share_less rfl rfl (d.step_weight q terms e letters result)
        (Engine.weights_congr (congrArg _ (d.step_beyond terms e letters).queue)
          (d.step_beyond terms e letters).bell)
  | stray record =>
    exact share_less rfl rfl (weigh_lt (by decide))
      (Engine.weights_congr (congrArg _ (Engine.write_queue ..)) (Engine.write_bell ..))
  | strayMarked record =>
    exact share_less rfl rfl (weigh_lt (by decide)) (Engine.weights_bury q e record none)
  | ringing =>
    obtain ⟨extra, light, rung⟩ := e.weights_ring q
    simp only [step, share]
    have asks : weigh 1 0 < weigh 3 0 := weigh_lt (by decide)
    have ring : weigh 2 0 < weigh 3 0 := weigh_lt (by decide)
    rw [rung, ← add_assoc]
    exact swap_less_one _ fun y mem => lt_of_mem_split asks light ring mem
  | parked | stopped => cases awake

/-- A worker that goes on answers a ring. -/
theorem wake_less {index : Nat} (woken : .worker index ∈ e.bell.woken) :
    (share q .asking { e with bell := e.bell.resume (.worker index) }).IsDershowitzMannaLT
      (share q .parked e) := by
  have answered : e.weights q = {weigh 2 0} +
      { e with bell := e.bell.resume (.worker index) }.weights q := by
    simp only [Engine.weights, Bell.weights_resume woken]
    abel
  have asks : weigh 1 0 < weigh 2 0 := weigh_lt (by decide)
  simp only [share, answered, weight?, Option.toList_none, Multiset.coe_nil, zero_add]
  exact swap_less_one _ fun y mem => lt_of_mem_light le_rfl asks mem

theorem retire_less (e : Engine) :
    (share q .stopped e).IsDershowitzMannaLT (share q .asking e) := by
  simp only [share, weight?, Option.toList_none, Multiset.coe_nil, zero_add]
  exact drop_less (weigh 1 0) (e.weights q)

theorem leave_less (q : Queue) (e : Engine) (index : Nat) :
    let later := { e with bell := e.bell.leave (.worker index) }
    share q .stopped later = share q .parked e ∨
      (share q .stopped later).IsDershowitzMannaLT (share q .parked e) := by
  simp only [share, weight?, Option.toList_none, Multiset.coe_nil, zero_add, Engine.weights]
  rcases e.bell.weights_leave (.worker index) with same | less
  · exact Or.inl (by rw [same])
  · refine Or.inr ?_
    rw [add_comm _ (e.bell.leave _).weights, add_comm _ e.bell.weights]
    exact less_add less _

end Worker

/-! ## Steps of submitters -/

namespace Caller

variable {q : Queue} {e : Engine}

/-- What a caller works on, with all that waits. -/
noncomputable def share (q : Queue) (c : Caller) (e : Engine) : Multiset Weight :=
  (c.weight? q).toList + e.weights q

/-- The caller is about to append a record or to ring. -/
def isSubmitting : Caller → Bool
  | .appending _ | .ringing => true
  | _ => false

theorem step_less {c : Caller} (submitting : c.isSubmitting = true) :
    ((c.step e).1.share q (c.step e).2).IsDershowitzMannaLT (c.share q e) := by
  cases c with
  | appending record =>
    have appended : (e.append record).weights q =
        {weigh (11 * q.allowance record + 4) 0} + e.weights q := Engine.weights_append q rfl rfl
    have rings : weigh 3 0 < weigh (11 * q.allowance record + 5) 0 := weigh_lt (by omega)
    have waits : weigh (11 * q.allowance record + 4) 0 < weigh (11 * q.allowance record + 5) 0 :=
      weigh_add_lt (by decide)
    simp only [step, share]
    rw [appended, ← add_assoc]
    exact swap_less_one _ fun y mem => lt_of_mem_split rings le_rfl waits mem
  | ringing =>
    obtain ⟨extra, light, rung⟩ := e.weights_ring q
    simp only [step, share, weight?, Option.toList_none, Multiset.coe_nil, zero_add]
    rw [rung]
    exact swap_less_one _ fun y mem => lt_of_mem_light light (weigh_lt (by decide)) mem
  | ordering | done => cases submitting

/-- Who sends a command works on nothing that weighs. -/
theorem share_step {c : Caller} (idle : c.isSubmitting = false) :
    (c.step e).1.share q (c.step e).2 = c.share q e := by
  cases c with
  | ordering id command =>
    simp only [step, share]
    congr 1
    exact Engine.weights_congr (congrArg _ (Engine.write_queue ..)) (Engine.write_bell ..)
  | done => rfl
  | appending | ringing => cases idle

end Caller

/-! ## Moves -/

namespace World

variable {q : Queue} {s : World} {index : Nat}

theorem weights_stepped (q : Queue) {w : Worker} (here : s.pool.workers[index]? = some w) :
    ∃ rest : Multiset Weight, s.weights q = w.share q s.engine + rest ∧
      ∀ next engine letters events,
        (s.stepped index next engine letters events).weights q = next.share q engine + rest := by
  obtain ⟨others, before, after⟩ := filterMap_set (Worker.weight? q) here
  refine ⟨(s.callers.filterMap (Caller.weight? q) : Multiset Weight) + others, ?_,
    fun next engine letters events => ?_⟩
  · rw [weights, before, Worker.share]
    abel
  · simp only [weights, stepped, after, Worker.share]
    abel

theorem weights_called (q : Queue) {c : Caller} (here : s.callers[index]? = some c) :
    ∃ rest : Multiset Weight, s.weights q = c.share q s.engine + rest ∧
      ∀ next engine events,
        (s.called index next engine events).weights q = next.share q engine + rest := by
  obtain ⟨others, before, after⟩ := filterMap_set (Caller.weight? q) here
  refine ⟨others + (s.pool.workers.filterMap (Worker.weight? q) : Multiset Weight), ?_,
    fun next engine events => ?_⟩
  · rw [weights, before, Caller.share]
    abel
  · simp only [weights, called, after, Caller.share]
    abel

theorem work_asleep {w : Worker} (here : s.pool.workers[index]? = some w)
    (asleep : w.isAwake = false) : s.work index = s := by
  obtain ⟨bound, rfl⟩ := List.getElem?_eq_some_iff.mp here
  rw [work_eq here]
  cases same : s.pool.workers[index] with
  | parked | stopped =>
    simp only [Worker.step, Worker.events, stepped, List.append_nil, ← same, List.set_getElem_self]
  | _ =>
    rw [same] at asleep
    cases asleep

/-- Someone can go on: a worker that is awake, a worker that was woken, or one who submits. -/
inductive Due (s : World) : Move → Prop
  | work {index : Nat} {w : Worker} (here : s.pool.workers[index]? = some w)
      (awake : w.isAwake = true) : Due s (.work index)
  | wake {index : Nat} (here : s.pool.workers[index]? = some .parked)
      (woken : .worker index ∈ s.engine.bell.woken) : Due s (.wake index)
  | proceed {index : Nat} {c : Caller} (here : s.callers[index]? = some c)
      (submitting : c.isSubmitting = true) : Due s (.proceed index)

theorem setWorker_eq (s : World) (index : Nat) (w : Worker) (bell : Bell Taker) :
    s.setWorker index w bell = s.stepped index w { s.engine with bell } s.pool.letters [] := by
  simp only [setWorker, stepped, List.append_nil]

/-- Who goes on leaves less to do. -/
theorem weights_due (agree : ∀ record, s.engine.queue.threshold record = q.threshold record)
    {move : Move} (due : s.Due move) :
    ((s.apply move).weights q).IsDershowitzMannaLT (s.weights q) := by
  cases due with
  | work here awake =>
    obtain ⟨rest, before, after⟩ := weights_stepped q here
    rw [apply, work_eq here, before, after]
    exact less_add (Worker.step_less awake _ _ _ agree) rest
  | @wake index here woken =>
    obtain ⟨rest, before, after⟩ := weights_stepped q here
    simp only [apply, wake, here, woken, if_true]
    rw [setWorker_eq, before, after]
    exact less_add (Worker.wake_less woken) rest
  | proceed here submitting =>
    obtain ⟨rest, before, after⟩ := weights_called q here
    rw [apply, proceed_eq here, before, after]
    exact less_add (Caller.step_less submitting) rest

/-- More records were created, or there is not more to do. -/
inductive Shrinks (q : Queue) (s later : World) : Prop
  | grown (more : s.issued.length < later.issued.length)
  | same (same : later.weights q = s.weights q)
  | less (less : (later.weights q).IsDershowitzMannaLT (s.weights q))

theorem shrinks_work (agree : ∀ record, s.engine.queue.threshold record = q.threshold record)
    (index : Nat) : s.Shrinks q (s.apply (.work index)) := by
  cases here : s.pool.workers[index]? with
  | none => exact .same (by simp only [apply, work, here])
  | some w =>
    cases awake : w.isAwake with
    | true => exact .less (weights_due agree (.work here awake))
    | false => exact .same (by rw [apply, work_asleep here awake])

theorem shrinks_wake (agree : ∀ record, s.engine.queue.threshold record = q.threshold record)
    (index : Nat) : s.Shrinks q (s.apply (.wake index)) := by
  by_cases due : s.Due (.wake index)
  · exact .less (weights_due agree due)
  · have idle : s.apply (.wake index) = s := by
      simp only [apply, wake]
      split
      · rename_i here
        exact if_neg fun woken => due (.wake here woken)
      · rfl
    exact .same (by rw [idle])

theorem shrinks_retire (q : Queue) (s : World) (index : Nat) :
    s.Shrinks q (s.apply (.retire index)) := by
  simp only [apply, retire]
  split
  · split
    · rename_i here
      obtain ⟨rest, before, after⟩ := weights_stepped q here
      refine .less ?_
      rw [setWorker_eq, before, after]
      exact less_add (Worker.retire_less s.engine) rest
    · rename_i here
      obtain ⟨rest, before, after⟩ := weights_stepped q here
      rcases Worker.leave_less q s.engine index with same | less
      · refine .same ?_
        rw [setWorker_eq, before, after, same]
      · refine .less ?_
        rw [setWorker_eq, before, after]
        exact less_add less rest
    · exact .same rfl
  · exact .same rfl

theorem shrinks_proceed (agree : ∀ record, s.engine.queue.threshold record = q.threshold record)
    (index : Nat) : s.Shrinks q (s.apply (.proceed index)) := by
  cases here : s.callers[index]? with
  | none => exact .same (by simp only [apply, proceed, here])
  | some c =>
    cases submitting : c.isSubmitting with
    | true => exact .less (weights_due agree (.proceed here submitting))
    | false =>
      obtain ⟨rest, before, after⟩ := weights_called q here
      refine .same ?_
      rw [apply, proceed_eq here, before, after, Caller.share_step submitting]

/-- No move leaves more to do, unless a record is created. -/
theorem shrinks_apply (agree : ∀ record, s.engine.queue.threshold record = q.threshold record)
    (move : Move) : s.Shrinks q (s.apply move) := by
  cases move with
  | work index => exact shrinks_work agree index
  | wake index => exact shrinks_wake agree index
  | retire index => exact shrinks_retire q s index
  | proceed index => exact shrinks_proceed agree index
  | submit request id =>
    simp only [apply, submit]
    split
    · exact .same rfl
    · split
      · refine .grown ?_
        simp [issued, joined, Event.created?]
      · exact .same rfl
  | hand record =>
    simp only [apply, hand]
    split
    · exact .same rfl
    · refine .grown ?_
      simp [issued, joined, Event.created?]
  | order id command =>
    simp only [apply, order]
    split
    · refine .same ?_
      have silent : [Caller.ordering id command].filterMap (Caller.weight? q) = [] := rfl
      simp only [weights, joined, List.filterMap_append, silent, List.append_nil]
    · exact .same rfl
  | confirm c =>
    simp only [apply, confirm]
    split
    · have same : (s.engine.markDeadAt c.id c.diedAt).2.weights q = s.engine.weights q :=
        Engine.weights_congr (congrArg _ (Engine.write_queue ..)) (Engine.write_bell ..)
      refine .same ?_
      simp only [weights, same]
    · exact .same rfl
  | pass ms | close | abandon | drop | stock store => exact .same rfl

end World

end JobEngine
