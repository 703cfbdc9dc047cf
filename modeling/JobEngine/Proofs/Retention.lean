import JobEngine.Proofs.Runs
import Mathlib.Data.List.Induction

/-!
# What the tracker keeps for good

An entry that is not settled is never evicted. When nothing is in flight any
more, the entries that are not settled are those of jobs that died without
their retries having been disabled: their budget was spent or their type was
unknown, so no confirmation was scheduled that would have settled them. They
alone can keep the tracker above its limit.
-/
namespace JobEngine

def Event.dropped? : Event → Option Confirmation
  | .dropped c => some c
  | _ => none

/-! ## Fates -/

namespace Account

theorem undoomed_of_open {story : List Event} (fate : (of story).fate = .open)
    (c : Confirmation) : .doomed c ∉ story := by
  induction story using List.reverseRecOn with
  | nil => simp
  | append_singleton story event ih =>
    rw [of_append] at fate
    cases event with
    | doomed d | confirmed d | dropped d => cases fate
    | _ => simpa using ih fate

theorem mem_of_dropped {story : List Event} {c : Confirmation}
    (fate : (of story).fate = .dropped c) : .dropped c ∈ story := by
  induction story using List.reverseRecOn with
  | nil => cases fate
  | append_singleton story event ih =>
    rw [of_append] at fate
    cases event with
    | dropped d =>
      obtain rfl : d = c := Fate.dropped.inj fate
      simp
    | doomed d | confirmed d => cases fate
    | _ => exact List.mem_append_left _ (ih fate)

end Account

/-- Only a job that was doomed has another fate. -/
theorem Lived.doomed_of_fate {origin : World} {l : Life} (lived : Lived origin l)
    (fate : (Account.of l.story).fate ≠ .open) : ∃ c, .doomed c ∈ l.story := by
  induction lived with
  | submitted => exact absurd rfl fate
  | offered => exact absurd rfl fate
  | handed lived here ih | taken lived here known ih | strayed lived here known ih
  | marked lived here ih | cast lived here ih | began lived here ih | ended outcome lived here ih
  | completed lived here ih | requeued lived here under ih | buried lived here spent ih
  | commanded command lived tracked ih =>
    rw [Account.of_append] at fate
    obtain ⟨c, mem⟩ := ih fate
    exact ⟨c, List.mem_append_left _ mem⟩
  | doomed lived here hopeless ih => exact ⟨_, List.mem_append_right _ (List.mem_singleton_self _)⟩
  | confirmed lived waits due ih =>
    obtain ⟨c, mem⟩ := ih (by simp [(lived.accords.of_waiting waits).1])
    exact ⟨c, List.mem_append_left _ mem⟩
  | @dropped l lived ih =>
    cases waiting : l.waiting with
    | nil =>
      simp only [waiting, List.map_nil, List.append_nil] at fate ⊢
      exact ih fate
    | cons c rest =>
      have waits : c ∈ l.waiting := waiting ▸ List.mem_cons_self
      obtain ⟨d, mem⟩ := ih (by simp [(lived.accords.of_waiting waits).1])
      exact ⟨d, List.mem_append_left _ mem⟩
  | spared lived here hopeful ih | checkedIn message lived here ih
  | evicted lived tracked settled ih | passed ms lived ih => exact ih fate

/-- Of a job that rests, and whose confirmation was not dropped, the entry is settled unless the
job died undoomed. -/
theorem Lived.settled_at_rest {origin : World} {l : Life} (lived : Lived origin l) {s : Stats}
    (tracked : l.entry = some s) (waiting : l.waiting = [])
    (kept : ∀ c, .dropped c ∉ l.story) :
    (l.station = .completed → s.isSettled = true) ∧
      (l.station = .buried → (s.isSettled = false ↔ ∀ c, .doomed c ∉ l.story)) := by
  obtain ⟨entry, waits, fits⟩ := lived.accords
  rw [tracked] at entry
  rw [entry.isSettled]
  constructor
  · intro here
    rw [here] at fits
    rcases fits.2 with status | status <;> simp [Account.settled, status]
  · intro here
    rw [here] at fits
    cases fate : (Account.of l.story).fate with
    | «open» =>
      have unsettled := Account.settled_of_failed (by rw [fate]; rfl) fits
      exact ⟨fun _ => Account.undoomed_of_open fate, fun _ => unsettled⟩
    | doomed c =>
      rw [waiting, fate] at waits
      cases waits
    | confirmed c =>
      have settled : (Account.of l.story).settled = true := by
        rcases fits with status | status <;> simp [Account.settled, status, fate, Fate.diedAt?]
      obtain ⟨d, mem⟩ := lived.doomed_of_fate (by simp [fate])
      simp only [settled, Bool.true_eq_false, false_iff, not_forall, not_not]
      exact ⟨d, mem⟩
    | dropped c => exact absurd (Account.mem_of_dropped fate) (kept c)

namespace World

variable {origin s : World}

/-- Nothing is in flight: no record is about to be appended, waits or is in hand, and every
confirmation was delivered. -/
structure AtRest (s : World) : Prop where
  appended : s.callers.filterMap Caller.token? = []
  taken : s.engine.queue.pending = []
  free : s.pool.workers.filterMap Worker.record? = []
  waiting : s.pool.letters.waiting = []
  kept : s.history.filterMap Event.dropped? = []

/-- The job's record was moved to the dead, but not because its retries were disabled. -/
def DiedUndoomed (s : World) (id : JobId) : Prop :=
  (∃ record, .buried record ∈ s.history ∧ record.id = id) ∧
    ∀ c, .doomed c ∈ s.history → c.id ≠ id

theorem AtRest.archived (rest : s.AtRest) {token : Token} (mem : token ∈ s.tokens) :
    token.2 = .completed ∨ token.2 = .buried ∧ .buried token.1 ∈ s.history := by
  obtain ⟨appended, taken, free, -, -⟩ := rest
  have unheld : s.pool.workers.filterMap Worker.token? = [] := by
    rw [List.filterMap_eq_nil_iff] at free ⊢
    intro w mem
    have none := free w mem
    cases w <;> first | rfl | cases none
  simp only [tokens, Queue.tokens, appended, taken, unheld] at mem
  obtain ⟨event, told, moved⟩ : ∃ event ∈ s.history, Event.token? event = some token := by
    simpa using mem
  cases event <;> cases moved
  · exact Or.inl rfl
  · exact Or.inr ⟨rfl, told⟩

theorem unsettled_at_rest (tracked : Tracked origin s) (rest : s.AtRest) {stats : Stats}
    (mem : stats ∈ s.engine.tracker.entries) :
    stats.isSettled = false ↔ s.DiedUndoomed stats.jobId := by
  have entry : s.engine.tracker.find? stats.jobId = some stats :=
    (Tracker.find?_eq_some tracked.listed).mpr ⟨mem, rfl⟩
  have issued : stats.jobId ∈ s.issued := by
    by_contra new
    rw [(tracked.blank _ new).entry] at entry
    cases entry
  obtain ⟨token, there, own⟩ := tracked.exists_token issued
  rw [← own] at entry ⊢
  have waiting : (s.life token).waiting = [] := by simp [World.life, rest.waiting]
  have kept (c : Confirmation) : .dropped c ∉ (s.life token).story := by
    intro told
    have none := List.filterMap_eq_nil_iff.mp rest.kept _ (List.mem_filter.mp told).1
    cases none
  obtain ⟨completed, buried⟩ :=
    (tracked.lived token there).settled_at_rest entry waiting kept
  have doomed (c : Confirmation) : .doomed c ∈ (s.life token).story ↔
      .doomed c ∈ s.history ∧ c.id = token.1.id := by
    simp only [World.life, List.mem_filter, decide_eq_true_eq]
    rfl
  rcases rest.archived there with here | ⟨here, moved⟩
  · -- a job that was completed was not buried too
    have settled := completed here
    refine ⟨fun unsettled => by simp [settled] at unsettled, ?_⟩
    rintro ⟨⟨record, moved, same⟩, -⟩
    have twin := tracked.token_unique (token_of_event moved rfl) there same
    rw [← twin] at here
    cases here
  · rw [buried here]
    refine ⟨fun undoomed => ⟨⟨_, moved, rfl⟩, fun c told same => ?_⟩, fun died c told => ?_⟩
    · exact undoomed c ((doomed c).mpr ⟨told, same⟩)
    · obtain ⟨told, same⟩ := (doomed c).mp told
      exact died.2 c told same

/-- When nothing is in flight exactly the jobs that died undoomed have entries that are not
settled, and a new entry leaves no more than the limit if these are fewer. -/
theorem tracker_at_rest (launched : origin.Launched) (moves : List Move)
    (rest : (origin.run moves).AtRest) :
    let s := origin.run moves
    (∀ stats ∈ s.engine.tracker.entries,
      stats.isSettled = false ↔ s.DiedUndoomed stats.jobId) ∧
    ∀ id status, s.engine.tracker.find? id = none →
      ((s.engine.setStatus id status).2.tracker.size ≤ trackedLimit ↔
        s.engine.tracker.unsettled < trackedLimit) := by
  intro s
  have tracked := launched.tracked_run moves
  refine ⟨fun stats mem => unsettled_at_rest tracked rest mem, fun id status unknown => ?_⟩
  rw [Engine.setStatus_online tracked.online, Tracker.size_setStatus_new unknown]
  omega

/-- A job that may not fail, and does. -/
def fragile : Job where
  jobType := "fragile"
  maxFails := 1
  shouldRetry := true
  run := fun _ => .fail (.failed "broken")

/-- A record is submitted and worked off. -/
def oneDelivery : List Move :=
  [.submit ⟨"fragile", [], none⟩ (.ofNat 7), .proceed 0, .proceed 0] ++ List.replicate 7 (.work 0)

theorem tracker_at_rest_fragile :
    let s := (workshop fragile).run oneDelivery
    (workshop fragile).Launched ∧ s.AtRest ∧ s.DiedUndoomed (.ofNat 7) ∧
      (s.engine.setStatus (.ofNat 8) .pending).2.tracker.size ≤ trackedLimit := by
  intro s
  have rest : s.AtRest := ⟨rfl, rfl, rfl, rfl, rfl⟩
  obtain ⟨unsettled, bound⟩ := tracker_at_rest (workshop_launched fragile) oneDelivery rest
  obtain ⟨stats, mem, job, open_⟩ : ∃ stats ∈ s.engine.tracker.entries,
      stats.jobId = .ofNat 7 ∧ stats.isSettled = false := by decide +kernel
  exact ⟨workshop_launched fragile, rest, job ▸ (unsettled stats mem).mp open_,
    (bound (.ofNat 8) .pending (by decide +kernel)).mpr (by decide +kernel)⟩

/-- Nothing is in flight, and an entry is not settled. -/
theorem unsettled_for_good :
    let s := (workshop fragile).run oneDelivery
    (workshop fragile).Launched ∧ s.AtRest ∧
      ∃ stats ∈ s.engine.tracker.entries, stats.isSettled = false :=
  ⟨workshop_launched fragile, ⟨rfl, rfl, rfl, rfl, rfl⟩, by decide +kernel⟩

end World

end JobEngine
