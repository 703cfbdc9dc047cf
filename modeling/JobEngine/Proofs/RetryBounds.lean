import JobEngine.Proofs.StatusCourse
import Mathlib.Algebra.BigOperators.Group.Finset.Basic
import Mathlib.Algebra.Order.BigOperators.Group.List
import Mathlib.Algebra.Order.Group.Nat

/-!
# How often a record is delivered

A failure is counted by the queue and judged by the policy, each against a
budget of its own. The two budgets agree, so every delivery but the last counts
one failure, and as soon as the count reaches the threshold the record dies.
What a job does decides only whether its record is delivered less often.
-/
namespace JobEngine

namespace Queue

/-- How many deliveries of the record the threshold allows. A record that comes with its budget
spent is delivered once. -/
def allowance (q : Queue) (record : Record) : Nat :=
  max 1 ((q.threshold record).toNat - record.fails.toNat)

end Queue

namespace World

/-- The record of the job as it was at each delivery. -/
def deliveries (s : World) (id : JobId) : List Record :=
  (s.history.filter (·.job = id)).filterMap Event.taken?

/-- How the runs of the job ended. -/
def outcomes (s : World) (id : JobId) : List Outcome :=
  (s.history.filter (·.job = id)).filterMap Event.outcome?

end World

/-! ## The attempts of one life -/

namespace Life.Tally

variable {origin : World} {first : Record} {errors : List JobError} {l : Life}

/-- One delivery follows each failure that was retried, and there may be one more. -/
theorem taken (tally : l.Tally origin first errors) :
    ∃ n ≤ errors.length + 1, l.deliveries = (List.range n).map first.after := by
  have stands := tally.stands
  cases here : l.station with
  | appending | queued =>
    rw [here] at stands
    exact ⟨errors.length, Nat.le_succ _, stands.2.1⟩
  | fetched | running | reported | stray | strayMarked =>
    rw [here] at stands
    exact ⟨errors.length + 1, Nat.le_refl _, stands.2.1⟩
  | decided =>
    rw [here] at stands
    obtain ⟨outcome, -, -, taken, -⟩ := stands
    exact ⟨errors.length + 1, Nat.le_refl _, taken⟩
  | completed =>
    rw [here] at stands
    obtain ⟨outcome, -, -, taken, -⟩ := stands
    exact ⟨errors.length + 1, Nat.le_refl _, taken⟩
  | buried =>
    rw [here] at stands
    exact ⟨errors.length + 1, Nat.le_refl _, stands.1⟩

/-- While failures are retried the count is below every largest value. -/
theorem counted (tally : l.Tally origin first errors) (some : errors ≠ []) :
    first.fails.toNat + errors.length < (origin.engine.queue.threshold first).toNat := by
  have under := (tally.retried some).1
  have word := (origin.engine.queue.threshold first).toNat_lt_size
  have sizes : UInt32.size < UInt64.size := by decide
  rw [Record.toNat_fails_after] at under
  omega

theorem allowed (tally : l.Tally origin first errors) :
    errors.length + 1 ≤ origin.engine.queue.allowance first := by
  simp only [Queue.allowance]
  cases errors with
  | nil => exact Nat.le_max_left _ _
  | cons e rest =>
    have counted := tally.counted (List.cons_ne_nil e rest)
    omega

/-- The deliveries show the record as it was first, with one more failure each time. -/
theorem deliveries_eq (tally : l.Tally origin first errors) :
    l.deliveries.length ≤ origin.engine.queue.allowance first ∧
      l.deliveries = (List.range l.deliveries.length).map first.after ∧
      l.deliveries.map (·.fails.toNat) =
        (List.range l.deliveries.length).map (first.fails.toNat + ·) := by
  obtain ⟨n, bound, taken⟩ := tally.taken
  have length : l.deliveries.length = n := by rw [taken, List.length_map, List.length_range]
  rw [length]
  refine ⟨bound.trans tally.allowed, taken, ?_⟩
  rw [taken, List.map_map]
  refine List.map_congr_left fun k mem => ?_
  have less := List.mem_range.mp mem
  have word := first.fails.toNat_lt_size
  simp only [Function.comp_apply, Record.toNat_fails_after]
  cases errors with
  | nil =>
    rw [List.length_nil] at bound
    omega
  | cons e rest =>
    have counted := tally.counted (List.cons_ne_nil e rest)
    have word := (origin.engine.queue.threshold first).toNat_lt_size
    have sizes : UInt32.size < UInt64.size := by decide
    omega

/-- A job that may be retried and fails whenever it runs is not completed. -/
theorem not_completed (tally : l.Tally origin first errors)
    (failed : ∀ outcome ∈ l.outcomes, ∃ e, outcome = .failed e) : l.station ≠ .completed := by
  intro here
  have stands := tally.stands
  rw [here] at stands
  obtain ⟨outcome, result, -, -, ended⟩ := stands
  have mem : outcome ∈ l.outcomes := by rw [ended]; simp
  obtain ⟨e, rfl⟩ := failed outcome mem
  cases result

/-- It dies when its budget is spent, and not before. -/
theorem exhausted (tally : l.Tally origin first errors) {job : Job}
    (known : origin.engine.registry.find? first.jobType = some job)
    (retries : job.shouldRetry = true)
    (failed : ∀ outcome ∈ l.outcomes, ∃ e, outcome = .failed e) (here : l.station = .buried) :
    l.deliveries.length = origin.engine.queue.allowance first ∧
      l.record.fails.toNat = max (min (first.fails.toNat + 1) (UInt64.size - 1))
        (origin.engine.queue.threshold first).toNat := by
  have stands := tally.stands
  rw [here] at stands
  obtain ⟨taken, ⟨unknown, -⟩ | ⟨other, outcome, err, known', -, same, spent, ended⟩⟩ := stands
  · rw [known] at unknown
    cases unknown
  obtain rfl : job = other := Option.some.inj (known.symm.trans known')
  have mem : outcome ∈ l.outcomes := by rw [ended]; simp
  obtain ⟨e, rfl⟩ := failed outcome mem
  rw [Worker.judged_of_retries retries] at same
  have length : l.deliveries.length = errors.length + 1 := by
    rw [taken, List.length_map, List.length_range]
  have count := (first.after errors.length).toNat_fails_after 1
  rw [← same, Record.toNat_fails_after] at count
  have word : first.fails.toNat ≤ UInt64.size - 1 := Nat.le_pred_of_lt first.fails.toNat_lt_size
  simp only [Queue.allowance, length]
  generalize UInt64.size - 1 = top at count word ⊢
  cases errors with
  | nil =>
    rw [List.length_nil] at count ⊢
    omega
  | cons e rest =>
    have counted := tally.counted (List.cons_ne_nil e rest)
    omega

end Life.Tally

/-! ## All records -/

namespace World

variable {origin s : World}

/-- The attempts at a record, told from where it is now. -/
theorem tally_of_token (starts : origin.Starts) (tracked : Tracked origin s) {first : Record}
    (born : .created first ∈ s.history) {token : Token} (there : token ∈ s.tokens)
    (own : token.1.id = first.id) : ∃ errors, (s.life token).Tally origin first errors :=
  (tracked.lived token there).tally starts
    (List.mem_filter.mpr ⟨born, decide_eq_true own.symm⟩)

theorem deliveries_eq (starts : origin.Starts) (tracked : Tracked origin s) {first : Record}
    (born : .created first ∈ s.history) :
    (s.deliveries first.id).length ≤ origin.engine.queue.allowance first ∧
      s.deliveries first.id = (List.range (s.deliveries first.id).length).map first.after ∧
      (s.deliveries first.id).map (·.fails.toNat) =
        (List.range (s.deliveries first.id).length).map (first.fails.toNat + ·) := by
  obtain ⟨token, there, own, -⟩ := life_of_told tracked born
  have own : token.1.id = first.id := own
  obtain ⟨errors, tally⟩ := tally_of_token starts tracked born there own
  rw [← own]
  exact tally.deliveries_eq

/-- A job that may be retried and fails whenever it runs is delivered as often as its budget
allows, and dies with its budget spent. -/
theorem exhausted (starts : origin.Starts) (tracked : Tracked origin s) {first : Record}
    (born : .created first ∈ s.history) {job : Job}
    (known : origin.engine.registry.find? first.jobType = some job)
    (retries : job.shouldRetry = true)
    (failed : ∀ outcome ∈ s.outcomes first.id, ∃ e, outcome = .failed e) :
    (∀ record, .completed record ∈ s.history → record.id ≠ first.id) ∧
      ∀ record, .buried record ∈ s.history → record.id = first.id →
        (s.deliveries first.id).length = origin.engine.queue.allowance first ∧
          record.fails.toNat = max (min (first.fails.toNat + 1) (UInt64.size - 1))
            (origin.engine.queue.threshold first).toNat := by
  constructor
  · intro record moved own
    obtain ⟨errors, tally⟩ :=
      tally_of_token starts tracked born (token_of_event moved rfl) own
    rw [← own] at failed
    exact tally.not_completed failed rfl
  · intro record moved own
    obtain ⟨errors, tally⟩ :=
      tally_of_token starts tracked born (token_of_event moved rfl) own
    rw [← own] at failed ⊢
    exact tally.exhausted known retries failed rfl

theorem deliveries_filter (s : World) (id : JobId) :
    s.deliveries id = (s.history.filterMap Event.taken?).filter (·.id = id) := by
  rw [deliveries, List.filterMap_filter, List.filter_filterMap]
  congr 1
  funext event
  cases event with
  | taken record =>
    by_cases own : record.id = id <;> simp [Event.job, Event.taken?, Option.filter, own]
  | _ => simp [Event.taken?]

/-- All deliveries together are no more than the allowances of all records. -/
theorem deliveries_le (starts : origin.Starts) (tracked : Tracked origin s) :
    (s.history.filterMap Event.taken?).length ≤
      ((s.history.filterMap Event.created?).map origin.engine.queue.allowance).sum := by
  let taken : List JobId := (s.history.filterMap Event.taken?).map (·.id)
  have known : ∀ id ∈ (taken : Multiset JobId), id ∈ s.issued.toFinset := by
    intro id mem
    obtain ⟨record, held, rfl⟩ := List.mem_map.mp (Multiset.mem_coe.mp mem)
    obtain ⟨event, told, same⟩ := List.mem_filterMap.mp held
    have issued := issued_of_told tracked told
    cases event <;> cases same
    exact List.mem_toFinset.mpr issued
  have share (id : JobId) : (taken : Multiset JobId).count id = (s.deliveries id).length := by
    rw [deliveries_filter, Multiset.coe_count, List.count_eq_countP, List.countP_map,
      List.countP_eq_length_filter]
    congr 1
  calc (s.history.filterMap Event.taken?).length
      = Multiset.card (taken : Multiset JobId) := by
        rw [Multiset.coe_card, List.length_map]
    _ = (s.issued.map fun id => (s.deliveries id).length).sum := by
        rw [← Multiset.sum_count_eq_card known, List.sum_toFinset _ tracked.distinct]
        simp only [share]
    _ = ((s.history.filterMap Event.created?).map fun first =>
          (s.deliveries first.id).length).sum := by
        rw [issued, List.map_map]
        rfl
    _ ≤ ((s.history.filterMap Event.created?).map origin.engine.queue.allowance).sum := by
        refine List.sum_le_sum fun first mem => ?_
        obtain ⟨event, told, same⟩ := List.mem_filterMap.mp mem
        cases event <;> cases same
        exact (deliveries_eq starts tracked told).1

end World

end JobEngine
