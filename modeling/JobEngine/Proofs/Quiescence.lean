import JobEngine.Proofs.Attendance
import Mathlib.Data.List.GetD

/-!
# Every run comes to rest

A run may go on for ever: clients look at jobs, time passes, workers are asked
to step that cannot. But when only so many records are created, and those who
can go on are not held up for ever, it comes to a state in which every record
is settled. Which of those who can go on is left to the run.
-/
namespace JobEngine

namespace World

variable {origin s : World} {plan : ℕ → Move} {n : ℕ}

/-- After the first `n` moves of a plan. -/
def along (s : World) (plan : ℕ → Move) (n : ℕ) : World := s.run ((List.range n).map plan)

theorem along_succ (s : World) (plan : ℕ → Move) (n : ℕ) :
    s.along plan (n + 1) = (s.along plan n).apply (plan n) := by
  simp only [along, run, List.range_succ, List.map_append, List.map_cons, List.map_nil,
    List.foldl_append, List.foldl_cons, List.foldl_nil]

/-- Again and again one who can go on does, unless no one can. -/
def Unstalled (s : World) (plan : ℕ → Move) : Prop :=
  ∀ n, ∃ k ≥ n, (s.along plan k).Due (plan k) ∨ ∀ move, ¬ (s.along plan k).Due move

theorem issued_apply (s : World) (move : Move) :
    s.issued.length ≤ (s.apply move).issued.length := by
  have told := (s.history_apply move).sublist
  exact ((told.filterMap Event.created?).map (·.id)).length_le

theorem issued_along (s : World) (plan : ℕ → Move) {m n : ℕ} (later : m ≤ n) :
    (s.along plan m).issued.length ≤ (s.along plan n).issued.length :=
  monotone_nat_of_le_succ (f := fun n => (s.along plan n).issued.length)
    (fun n => along_succ s plan n ▸ issued_apply _ (plan n)) later

/-- A worker that sleeps can be asked to step for ever. -/
theorem along_asleep {index : ℕ} {w : Worker}
    (here : (s.along plan n).pool.workers[index]? = some w) (asleep : w.isAwake = false)
    (idle : ∀ k ≥ n, plan k = .work index) {k : ℕ} (later : n ≤ k) :
    s.along plan k = s.along plan n := by
  induction k, later using Nat.le_induction with
  | base => rfl
  | succ k later ih => rw [along_succ, ih, idle k later, apply, work_asleep here asleep]

/-- Where everyone sleeps and there is nothing to ring no one can go on. -/
theorem not_due (asleep : ∀ w ∈ s.pool.workers, w.isAwake = false)
    (woken : s.engine.bell.woken = []) (silent : ∀ c ∈ s.callers, c.isSubmitting = false)
    (move : Move) : ¬ s.Due move := by
  rintro (⟨here, awake⟩ | ⟨-, heard⟩ | ⟨here, submitting⟩)
  · rw [asleep _ (List.mem_of_getElem? here)] at awake
    cases awake
  · rw [woken] at heard
    cases heard
  · rw [silent _ (List.mem_of_getElem? here)] at submitting
    cases submitting

/-! ## The measure -/

/-- The records that may still be created, and what is left to do. -/
noncomputable def remaining (q : Queue) (bound : ℕ) (s : World) : ℕ × Multiset Weight :=
  (bound - s.issued.length, s.weights q)

def Less : ℕ × Multiset Weight → ℕ × Multiset Weight → Prop :=
  Prod.Lex (· < ·) Multiset.IsDershowitzMannaLT

theorem wellFounded_less : WellFounded Less :=
  WellFounded.prod_lex Nat.lt_wfRel.wf Multiset.wellFounded_isDershowitzMannaLT

variable {q : Queue} {bound : ℕ}

theorem remaining_apply (agree : ∀ record, s.engine.queue.threshold record = q.threshold record)
    (move : Move) (bounded : (s.apply move).issued.length ≤ bound) :
    (s.apply move).remaining q bound = s.remaining q bound ∨
      Less ((s.apply move).remaining q bound) (s.remaining q bound) := by
  have grows := s.issued_apply move
  rcases Nat.lt_or_eq_of_le grows with more | none
  · exact Or.inr (Prod.Lex.left _ _ (by omega))
  · simp only [remaining, ← none]
    cases shrinks_apply agree move with
    | grown more => exact absurd none (Nat.ne_of_lt more)
    | same same => exact Or.inl (by rw [same])
    | less less => exact Or.inr (Prod.Lex.right _ less)

theorem remaining_due (agree : ∀ record, s.engine.queue.threshold record = q.threshold record)
    {move : Move} (due : s.Due move) (bounded : (s.apply move).issued.length ≤ bound) :
    Less ((s.apply move).remaining q bound) (s.remaining q bound) := by
  have grows := s.issued_apply move
  rcases Nat.lt_or_eq_of_le grows with more | none
  · exact Prod.Lex.left _ _ (by omega)
  · simp only [remaining, ← none]
    exact Prod.Lex.right _ (weights_due agree due)

/-- No one can go on in the end. The induction is on what remains, and for the moves until the next
of one who can on their number. -/
theorem exists_stuck
    (agree : ∀ n record, (s.along plan n).engine.queue.threshold record = q.threshold record)
    (bounded : ∀ n, (s.along plan n).issued.length ≤ bound) (unstalled : s.Unstalled plan) (n : ℕ) :
    ∃ k ≥ n, ∀ move, ¬ (s.along plan k).Due move := by
  induction left : (s.along plan n).remaining q bound using wellFounded_less.induction
    generalizing n with
  | _ _ fewer =>
    subst left
    obtain ⟨k, later, goes⟩ := unstalled n
    obtain ⟨d, rfl⟩ := Nat.exists_eq_add_of_le later
    clear later
    induction d generalizing n with
    | zero =>
      rw [Nat.add_zero] at goes
      rcases goes with due | stuck
      · have less := remaining_due (agree n) due (along_succ s plan n ▸ bounded (n + 1))
        rw [← along_succ] at less
        obtain ⟨k, later, stuck⟩ := fewer _ less (n + 1) rfl
        exact ⟨k, by omega, stuck⟩
      · exact ⟨n, le_rfl, stuck⟩
    | succ d ih =>
      have step := remaining_apply (agree n) (plan n) (along_succ s plan n ▸ bounded (n + 1))
      rw [← along_succ] at step
      obtain ⟨k, later, stuck⟩ : ∃ k ≥ n + 1, ∀ move, ¬ (s.along plan k).Due move := by
        rcases step with same | less
        · refine ih (n + 1) (same ▸ fewer) ?_
          rwa [Nat.add_right_comm]
        · exact fewer _ less (n + 1) rfl
      exact ⟨k, by omega, stuck⟩

/-! ## Rest -/

/-- The record was moved to one of the archives. -/
def Settled (s : World) (first : Record) : Prop :=
  ∃ record, record.id = first.id ∧ (.completed record ∈ s.history ∨ .buried record ∈ s.history)

/-- Where no record waits or is in hand all are settled. -/
theorem Rested.settled (rested : s.Rested) (taking : s.pool.closing = false)
    (tracked : Tracked origin s) {first : Record} (born : .created first ∈ s.history) :
    s.Settled first := by
  obtain ⟨token, there, own, -⟩ := life_of_told tracked born
  have empty : s.engine.queue.tokens = 0 := by
    rw [Queue.tokens, rested.pending taking]
    rfl
  simp only [tokens, empty, Multiset.mem_add, Multiset.mem_coe, List.mem_filterMap,
    Multiset.notMem_zero, or_false] at there
  rcases there with (⟨c, mem, known⟩ | ⟨w, mem, held⟩) | ⟨event, mem, moved⟩
  · cases c <;> cases known
    exact absurd mem (rested.submitted _)
  · have none := List.filterMap_eq_nil_iff.mp rested.hands w mem
    cases w <;> cases held <;> cases none
  · cases event <;> cases moved
    · exact ⟨_, own, Or.inl mem⟩
    · exact ⟨_, own, Or.inr mem⟩

theorem exists_rested (launched : origin.Launched) (parked : origin.engine.bell.parked = [])
    (woken : origin.engine.bell.woken = []) (unstalled : origin.Unstalled plan)
    (bounded : ∀ n, (origin.along plan n).issued.length ≤ bound) (n : ℕ) :
    ∃ k ≥ n, (origin.along plan k).Rested := by
  have tracked (n : ℕ) : Tracked origin (origin.along plan n) := launched.tracked_run _
  obtain ⟨k, later, stuck⟩ :=
    exists_stuck (fun n => (tracked n).threshold) bounded unstalled n
  have attentive : (origin.along plan k).Attentive :=
    (launched.starts.attentive parked woken).run _
  have staff : (origin.along plan k).pool.workers ≠ [] := by
    rw [← List.length_pos_iff, (tracked k).kept.staff, launched.starts.idle, List.length_replicate]
    exact launched.starts.staffed
  exact ⟨k, later, attentive.rested staff stuck⟩

/-- In every run a record is delivered no more often than its threshold allows, each time with one
more failure, and all records together no more often than their allowances add up to. A run in
which only so many records are created comes to rest, with every record settled and the newest of
the settled records in the archives; a job that may be retried and fails whenever it runs has used
up its deliveries then. -/
theorem retries_bounded (launched : origin.Launched) :
    (∀ (record : Record) (job : Job), origin.engine.registry.find? record.jobType = some job →
      origin.engine.queue.threshold record =
        origin.pool.terms.policy.effectiveBudget job record) ∧
    (∀ moves, let s := origin.run moves
      (∀ first, .created first ∈ s.history →
        let count := (s.deliveries first.id).length
        count ≤ origin.engine.queue.allowance first ∧
          s.deliveries first.id = (List.range count).map first.after ∧
          (s.deliveries first.id).map (·.fails.toNat) =
            (List.range count).map (first.fails.toNat + ·)) ∧
      (s.history.filterMap Event.taken?).length ≤
        ((s.history.filterMap Event.created?).map origin.engine.queue.allowance).sum) ∧
    ∀ plan bound, origin.engine.bell.parked = [] → origin.engine.bell.woken = [] →
      origin.Unstalled plan → (∀ n, (origin.along plan n).issued.length ≤ bound) →
      ∀ n, ∃ k ≥ n, let s := origin.along plan k
        s.Rested ∧ s.engine.queue.Remembers s.history ∧
        (s.pool.closing = false → ∀ first, .created first ∈ s.history →
          s.Settled first ∧
          ∀ job, origin.engine.registry.find? first.jobType = some job → job.shouldRetry = true →
            (∀ outcome ∈ s.outcomes first.id, ∃ e, outcome = .failed e) →
            (s.deliveries first.id).length = origin.engine.queue.allowance first ∧
              ∃ record, .buried record ∈ s.history ∧ record.id = first.id ∧
                record.fails.toNat = max (min (first.fails.toNat + 1) (UInt64.size - 1))
                  (origin.engine.queue.threshold first).toNat) := by
  have starts := launched.starts
  refine ⟨starts.agree, fun moves => ?_, fun plan bound parked woken unstalled bounded n => ?_⟩
  · have tracked := launched.tracked_run moves
    exact ⟨fun first born => deliveries_eq starts tracked born, deliveries_le starts tracked⟩
  · obtain ⟨k, later, rested⟩ := exists_rested launched parked woken unstalled bounded n
    have tracked : Tracked origin (origin.along plan k) := launched.tracked_run _
    refine ⟨k, later, rested, launched.remembers _, fun taking first born => ?_⟩
    have settled := rested.settled taking tracked born
    refine ⟨settled, fun job known retries failed => ?_⟩
    obtain ⟨uncompleted, spent⟩ := exhausted starts tracked born known retries failed
    obtain ⟨record, own, completed | buried⟩ := settled
    · exact absurd own (uncompleted record completed)
    · obtain ⟨often, fails⟩ := spent record buried own
      exact ⟨often, record, buried, own, fails⟩

/-- A record is submitted, and the only worker is asked to step for ever. -/
def tireless (n : ℕ) : Move := firstAttempt.getD n (.work 0)

theorem along_tireless {k : ℕ} (later : 30 ≤ k) :
    (workshop broken).along tireless k = (workshop broken).along tireless 30 := by
  have asleep : ((workshop broken).along tireless 30).pool.workers[0]?.map Worker.isAwake =
      some false := by decide +kernel
  obtain ⟨w, here, asleep⟩ := Option.map_eq_some_iff.mp asleep
  refine along_asleep here asleep (fun k later => ?_) later
  have end_of_attempt : firstAttempt.length ≤ 30 := by decide
  exact List.getD_eq_default _ _ (end_of_attempt.trans later)

theorem unstalled_tireless : (workshop broken).Unstalled tireless := by
  refine fun n => ⟨max n 30, Nat.le_max_left _ _, Or.inr ?_⟩
  rw [along_tireless (Nat.le_max_right _ _)]
  exact not_due (by decide +kernel) (by decide +kernel) (by decide +kernel)

theorem issued_tireless (n : ℕ) : ((workshop broken).along tireless n).issued.length ≤ 1 := by
  have all : ((workshop broken).along tireless 30).issued.length = 1 := by decide +kernel
  rw [← all, ← along_tireless (Nat.le_max_right n 30)]
  exact issued_along _ _ (Nat.le_max_left _ _)

theorem retries_bounded_broken :
    (workshop broken).Launched ∧ ∃ k, let s := (workshop broken).along tireless k
      s.Rested ∧ (s.deliveries (.ofNat 7)).length = 2 ∧
        ∃ record, .buried record ∈ s.history ∧ record.fails.toNat = 2 := by
  let first : Record := ⟨.ofNat 7, "broken", [], 0, none, ⟨0, 0⟩⟩
  have launched := workshop_launched broken
  obtain ⟨-, -, rests⟩ := retries_bounded launched
  obtain ⟨k, later, rested, -, settles⟩ :=
    rests tireless 1 rfl rfl unstalled_tireless issued_tireless 30
  rw [along_tireless later] at rested settles
  have born : .created first ∈ ((workshop broken).along tireless 30).history := by decide +kernel
  have failed : ∀ outcome ∈ ((workshop broken).along tireless 30).outcomes first.id,
      ∃ e, outcome = .failed e := by
    have outcomes : ((workshop broken).along tireless 30).outcomes first.id =
        [.failed (.failed "broken"), .failed (.failed "broken")] := by decide +kernel
    rw [outcomes]
    simp
  have taking : ((workshop broken).along tireless 30).pool.closing = false := by decide +kernel
  obtain ⟨-, dies⟩ := settles taking first born
  obtain ⟨often, record, buried, -, fails⟩ := dies broken rfl rfl failed
  exact ⟨launched, 30, rested, often, record, buried, fails⟩

end World

end JobEngine
