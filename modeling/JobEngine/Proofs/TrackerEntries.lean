import JobEngine.Tracker
import Mathlib.Data.List.Nodup

/-!
# The entries of the tracker

What one write does to the entry of its own job and to those of all others. A
new entry may push out settled ones; an entry that is not settled keeps its
place, and so does the new one. The size after a new entry follows from the
number of entries that are not settled.
-/
namespace JobEngine

open Time (Timestamp)

namespace Stats

/-- The entry of a job that was not known. -/
def first (id : JobId) (now : Timestamp) : Stats :=
  { jobId := id, status := .pending, updatedAt := now }

/-- The entry after a status. -/
def mark (s : Stats) (status : Status) (now : Timestamp) : Stats :=
  { s with
    status := status
    updatedAt := now
    command := if status.isOpen then s.command else none }

end Stats

namespace Tracker

variable {t : Tracker} {id other : JobId} {f : Stats → Stats} {entries : List Stats}

/-- No job has two entries. -/
def Listed (t : Tracker) : Prop := (t.entries.map (·.jobId)).Nodup

/-- How many entries are kept whatever else comes. -/
def unsettled (t : Tracker) : Nat := t.entries.countP (!·.isSettled)

theorem find?_eq_some (listed : t.Listed) {s : Stats} :
    t.find? id = some s ↔ s ∈ t.entries ∧ s.jobId = id := by
  constructor
  · intro found
    exact ⟨List.mem_of_find?_eq_some found, by simpa using List.find?_some found⟩
  · rintro ⟨mem, rfl⟩
    obtain ⟨u, found⟩ : ∃ u, t.find? s.jobId = some u :=
      Option.isSome_iff_exists.mp (List.find?_isSome.mpr ⟨s, mem, by simp⟩)
    have same : u.jobId = s.jobId := by simpa using List.find?_some found
    rw [found, List.inj_on_of_nodup_map listed (List.mem_of_find?_eq_some found) mem same]

/-! ## Changes of an entry -/

theorem ids_alter (keeps : ∀ s, (f s).jobId = s.jobId) (entries : List Stats) :
    (alter f id entries).map (·.jobId) = entries.map (·.jobId) := by
  induction entries with
  | nil => rfl
  | cons s rest ih =>
    simp only [alter]
    split
    · simp [keeps]
    · simp [ih]

theorem find?_alter (keeps : ∀ s, (f s).jobId = s.jobId) (entries : List Stats) :
    (alter f id entries).find? (·.jobId = other) =
      if other = id then (entries.find? (·.jobId = id)).map f
      else entries.find? (·.jobId = other) := by
  induction entries with
  | nil => simp [alter]
  | cons s rest ih =>
    simp only [alter]
    by_cases here : s.jobId = id
    · subst here
      by_cases same : s.jobId = other
      · simp [keeps, same]
      · simp [keeps, same, Ne.symm same]
    · by_cases same : other = id
      · subst same
        simp [here, ih]
      · simp only [here, if_false, same, List.find?_cons, ih]

theorem listed_update (keeps : ∀ s, (f s).jobId = s.jobId) {u : Tracker}
    (updated : t.update id f = .ok u) (listed : t.Listed) : u.Listed := by
  simp only [update] at updated
  split at updated
  · obtain rfl := Except.ok.inj updated
    simpa only [Listed, ids_alter keeps] using listed
  · cases updated

theorem find?_update (keeps : ∀ s, (f s).jobId = s.jobId) {u : Tracker}
    (updated : t.update id f = .ok u) (other : JobId) :
    u.find? other = if other = id then (t.find? id).map f else t.find? other := by
  simp only [update] at updated
  split at updated
  · obtain rfl := Except.ok.inj updated
    exact find?_alter keeps t.entries
  · cases updated

/-! ## Eviction -/

theorem dropSettled_sublist (n : Nat) (entries : List Stats) :
    (dropSettled n entries).Sublist entries := by
  fun_induction dropSettled n entries with
  | case1 => exact List.Sublist.refl _
  | case2 => exact List.Sublist.refl _
  | case3 n s rest settled ih => exact ih.cons s
  | case4 n s rest settled ih => exact ih.cons_cons s

theorem mem_dropSettled (n : Nat) {s : Stats} (mem : s ∈ entries) (kept : s.isSettled = false) :
    s ∈ dropSettled n entries := by
  fun_induction dropSettled n entries with
  | case1 => exact mem
  | case2 => exact mem
  | case3 n u rest settled ih =>
    rcases List.mem_cons.mp mem with rfl | mem
    · rw [kept] at settled
      cases settled
    · exact ih mem
  | case4 n u rest settled ih =>
    rcases List.mem_cons.mp mem with rfl | mem
    · exact List.mem_cons_self
    · exact List.mem_cons_of_mem _ (ih mem)

theorem length_dropSettled (n : Nat) (entries : List Stats) :
    (dropSettled n entries).length + min n (entries.countP (·.isSettled)) = entries.length := by
  fun_induction dropSettled n entries with
  | case1 => simp
  | case2 => simp
  | case3 n s rest settled ih =>
    simp only [List.countP_cons, settled, if_true, List.length_cons]
    omega
  | case4 n s rest settled ih =>
    simp only [List.countP_cons, settled, Bool.false_eq_true, if_false, List.length_cons]
    omega

theorem evict_sublist (entries : List Stats) : (evict entries).Sublist entries := by
  simp only [evict]
  split
  · simpa using (dropSettled_sublist (entries.length - trackedLimit) entries.reverse).reverse
  · exact List.Sublist.refl _

theorem mem_evict {s : Stats} (mem : s ∈ entries) (kept : s.isSettled = false) :
    s ∈ evict entries := by
  simp only [evict]
  split
  · exact List.mem_reverse.mpr (mem_dropSettled _ (List.mem_reverse.mpr mem) kept)
  · exact mem

theorem length_evict (entries : List Stats) :
    (evict entries).length =
      max (min trackedLimit entries.length) (entries.countP (!·.isSettled)) := by
  have parts := List.length_eq_countP_add_countP (·.isSettled) (l := entries)
  simp only [Bool.not_eq_true, Bool.decide_eq_false] at parts
  simp only [evict]
  split
  · have dropped := length_dropSettled (entries.length - trackedLimit) entries.reverse
    simp only [List.countP_reverse, List.length_reverse] at dropped ⊢
    omega
  · omega

/-- Only a settled entry can be missed after an eviction. -/
theorem find?_evict (nodup : (entries.map (·.jobId)).Nodup) (other : JobId) :
    find? ⟨evict entries⟩ other = find? ⟨entries⟩ other ∨
      find? ⟨evict entries⟩ other = none ∧
        ∃ s, find? ⟨entries⟩ other = some s ∧ s.isSettled = true := by
  have less := evict_sublist entries
  have listed : Listed ⟨entries⟩ := nodup
  have fewer : Listed ⟨evict entries⟩ := nodup.sublist (less.map _)
  cases found : find? ⟨evict entries⟩ other with
  | some s =>
    obtain ⟨mem, same⟩ := (find?_eq_some fewer).mp found
    exact Or.inl ((find?_eq_some listed).mpr ⟨less.subset mem, same⟩).symm
  | none =>
    cases before : find? ⟨entries⟩ other with
    | none => exact Or.inl rfl
    | some s =>
      refine Or.inr ⟨rfl, s, rfl, ?_⟩
      obtain ⟨mem, same⟩ := (find?_eq_some listed).mp before
      by_contra unsettled
      have still := mem_evict mem (by simpa using unsettled)
      rw [(find?_eq_some fewer).mpr ⟨still, same⟩] at found
      cases found

/-! ## Statuses -/

theorem enroll_known {s : Stats} (known : t.find? id = some s) (now : Timestamp) :
    t.enroll id now = t := by
  simp only [enroll, known]

theorem enroll_unknown (unknown : t.find? id = none) (now : Timestamp) :
    t.enroll id now = ⟨evict (.first id now :: t.entries)⟩ := by
  simp only [enroll, unknown, Stats.first]

theorem setStatus_eq (t : Tracker) (id : JobId) (status : Status) (now : Timestamp) :
    t.setStatus id status now = ⟨alter (·.mark status now) id (t.enroll id now).entries⟩ := rfl

theorem nodup_enrolled (listed : t.Listed) (unknown : t.find? id = none) (now : Timestamp) :
    ((Stats.first id now :: t.entries).map (·.jobId)).Nodup := by
  refine List.nodup_cons.mpr ⟨?_, listed⟩
  intro mem
  obtain ⟨s, mem, same⟩ := List.mem_map.mp mem
  have absent := List.find?_eq_none.mp unknown s mem
  exact absent (by simpa [Stats.first] using same)

theorem listed_enroll (listed : t.Listed) (id : JobId) (now : Timestamp) :
    (t.enroll id now).Listed := by
  cases known : t.find? id with
  | some s => rwa [enroll_known known]
  | none =>
    rw [enroll_unknown known]
    exact (nodup_enrolled listed known now).sublist ((evict_sublist _).map _)

theorem find?_enroll_self (listed : t.Listed) (id : JobId) (now : Timestamp) :
    (t.enroll id now).find? id = some ((t.find? id).getD (.first id now)) := by
  cases known : t.find? id with
  | some s => rw [enroll_known known, known, Option.getD_some]
  | none =>
    have kept : Stats.first id now ∈ (t.enroll id now).entries := by
      rw [enroll_unknown known]
      exact mem_evict List.mem_cons_self rfl
    exact (find?_eq_some (listed_enroll listed id now)).mpr ⟨kept, rfl⟩

theorem find?_enroll_other (listed : t.Listed) (differ : other ≠ id) (now : Timestamp) :
    (t.enroll id now).find? other = t.find? other ∨
      (t.enroll id now).find? other = none ∧
        ∃ s, t.find? other = some s ∧ s.isSettled = true := by
  cases known : t.find? id with
  | some s => exact Or.inl (by rw [enroll_known known])
  | none =>
    have skip : find? ⟨.first id now :: t.entries⟩ other = t.find? other :=
      List.find?_cons_of_neg (decide_eq_false (Ne.symm differ) ▸ Bool.false_ne_true)
    have evicted := find?_evict (nodup_enrolled listed known now) other
    rwa [skip, ← enroll_unknown known] at evicted

theorem listed_setStatus (listed : t.Listed) (id : JobId) (status : Status) (now : Timestamp) :
    (t.setStatus id status now).Listed := by
  have enrolled := listed_enroll listed id now
  simp only [Listed] at enrolled ⊢
  rw [setStatus_eq, ids_alter (by intro s; rfl)]
  exact enrolled

theorem find?_setStatus (t : Tracker) (id other : JobId) (status : Status) (now : Timestamp) :
    (t.setStatus id status now).find? other =
      if other = id then ((t.enroll id now).find? id).map (·.mark status now)
      else (t.enroll id now).find? other :=
  find?_alter (by intro s; rfl) (t.enroll id now).entries

theorem find?_setStatus_self (listed : t.Listed) (id : JobId) (status : Status)
    (now : Timestamp) :
    (t.setStatus id status now).find? id =
      some (((t.find? id).getD (.first id now)).mark status now) := by
  rw [find?_setStatus, if_pos rfl, find?_enroll_self listed, Option.map_some]

theorem find?_setStatus_other (listed : t.Listed) (differ : other ≠ id) (status : Status)
    (now : Timestamp) :
    (t.setStatus id status now).find? other = t.find? other ∨
      (t.setStatus id status now).find? other = none ∧
        ∃ s, t.find? other = some s ∧ s.isSettled = true := by
  rw [find?_setStatus, if_neg differ]
  exact find?_enroll_other listed differ now

/-- With a new entry the tracker is as small as its limit allows, unless more entries than that
are not settled. -/
theorem size_setStatus_new (unknown : t.find? id = none) (status : Status) (now : Timestamp) :
    (t.setStatus id status now).size =
      max (min trackedLimit (t.size + 1)) (t.unsettled + 1) := by
  have altered : (t.setStatus id status now).size = (t.enroll id now).size := by
    have ids : (t.setStatus id status now).entries.map (·.jobId) =
        (t.enroll id now).entries.map (·.jobId) :=
      ids_alter (by intro s; rfl) (t.enroll id now).entries
    have lengths := congrArg List.length ids
    rwa [List.length_map, List.length_map] at lengths
  have counted : (Stats.first id now :: t.entries).countP (!·.isSettled) = t.unsettled + 1 :=
    List.countP_cons_of_pos rfl
  rw [altered, enroll_unknown unknown]
  rw [size, length_evict, counted, List.length_cons, size]

/-! ## Commands -/

/-- No job has a command. -/
def Silent (t : Tracker) : Prop := ∀ s ∈ t.entries, s.command = none

theorem silent_alter (silent : ∀ s ∈ entries, s.command = none)
    (keeps : ∀ s, s.command = none → (f s).command = none) :
    ∀ s ∈ alter f id entries, s.command = none := by
  induction entries with
  | nil =>
    intro s mem
    cases mem
  | cons first rest ih =>
    have others := ih fun s mem => silent s (List.mem_cons_of_mem _ mem)
    simp only [alter]
    split
    · intro s mem
      rcases List.mem_cons.mp mem with rfl | later
      · exact keeps first (silent first List.mem_cons_self)
      · exact silent s (List.mem_cons_of_mem _ later)
    · intro s mem
      rcases List.mem_cons.mp mem with rfl | later
      · exact silent s List.mem_cons_self
      · exact others s later

namespace Silent

theorem command? (silent : t.Silent) (id : JobId) : t.command? id = none := by
  rw [Tracker.command?]
  cases found : t.find? id with
  | none => rfl
  | some s => exact silent s (List.mem_of_find?_eq_some found)

theorem enroll (silent : t.Silent) (id : JobId) (now : Timestamp) : (t.enroll id now).Silent := by
  cases known : t.find? id with
  | some s => rwa [enroll_known known]
  | none =>
    rw [enroll_unknown known]
    intro s mem
    rcases List.mem_cons.mp ((evict_sublist _).subset mem) with rfl | old
    · rfl
    · exact silent s old

theorem setStatus (silent : t.Silent) (id : JobId) (status : Status) (now : Timestamp) :
    (t.setStatus id status now).Silent :=
  silent_alter (silent.enroll id now) fun s none => by simp [none]

theorem checkIn (silent : t.Silent) {u : Tracker} {message : String} {now : Timestamp}
    (updated : t.checkIn id message now = .ok u) : u.Silent := by
  simp only [Tracker.checkIn, update] at updated
  split at updated
  · obtain rfl := Except.ok.inj updated
    exact silent_alter silent fun s none => none
  · cases updated

end Silent

end Tracker

end JobEngine
