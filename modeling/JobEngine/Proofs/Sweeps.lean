import JobEngine.Maintenance.Retention
import JobEngine.Proofs.Collections
import Mathlib.Data.List.Infix

/-!
# What a retention sweep leaves

A sweep decides by rank: which artifacts of the repository go is settled when
it has read the list. It removes them in that order, so a command leaves it
with a first part of the removals done. The artifacts that remain are ranked as
before, hence a later sweep decides on each of them as the first one would
have, and together they remove the same.
-/
namespace JobEngine

namespace Time.Timestamp

variable {a b c : Timestamp}

theorem before_iff :
    a.before b = true ↔ a.second < b.second ∨ a.second = b.second ∧ a.nanos < b.nanos := by
  simp [before]

theorem not_before_trans (first : ¬a.before b) (second : ¬b.before c) : ¬a.before c := by
  rw [before_iff] at *
  omega

theorem not_before_total (a b : Timestamp) : ¬a.before b ∨ ¬b.before a := by
  rw [before_iff, before_iff]
  omega

theorem eq_of_not_before (first : ¬a.before b) (second : ¬b.before a) : a = b := by
  obtain ⟨s, n⟩ := a
  obtain ⟨s', n'⟩ := b
  rw [before_iff] at first second
  simp only [Timestamp.mk.injEq] at *
  omega

end Time.Timestamp

namespace Maintenance.Retention

open Json (Value)

/-! ## Ranks -/

/-- The artifacts, the latest first, and those pushed at one time as they were. -/
structure LatestFirst (artifacts order : List Artifact) : Prop where
  all : order.Perm artifacts
  latest : order.Pairwise fun a b => ¬a.pushedAt.before b.pushedAt
  ties : ∀ t, order.filter (·.pushedAt = t) = artifacts.filter (·.pushedAt = t)

section Sorted

variable {order other : List Artifact}

theorem mem_of_ties
    (ties : ∀ t, order.filter (·.pushedAt = t) = other.filter (·.pushedAt = t)) {a : Artifact}
    (mem : a ∈ order) : a ∈ other := by
  have tied : a ∈ order.filter (·.pushedAt = a.pushedAt) := List.mem_filter.mpr ⟨mem, by simp⟩
  rw [ties] at tied
  exact List.mem_of_mem_filter tied

/-- Two lists in order that agree on every time are the same. -/
theorem eq_of_ties (latest : order.Pairwise fun a b => ¬a.pushedAt.before b.pushedAt)
    (latest' : other.Pairwise fun a b => ¬a.pushedAt.before b.pushedAt)
    (ties : ∀ t, order.filter (·.pushedAt = t) = other.filter (·.pushedAt = t)) :
    order = other := by
  induction order generalizing other with
  | nil => exact (List.eq_nil_iff_forall_not_mem.mpr fun a mem =>
      List.not_mem_nil (mem_of_ties (fun t => (ties t).symm) mem)).symm
  | cons a order ih =>
    have first := mem_of_ties ties List.mem_cons_self
    cases other with
    | nil => cases first
    | cons b other =>
      obtain ⟨least, sorted⟩ := List.pairwise_cons.mp latest
      obtain ⟨least', sorted'⟩ := List.pairwise_cons.mp latest'
      have together : a.pushedAt = b.pushedAt := by
        have first' := mem_of_ties (fun t => (ties t).symm) List.mem_cons_self
        rcases List.mem_cons.mp first with same | later
        · rw [same]
        · rcases List.mem_cons.mp first' with same | later'
          · rw [same]
          · exact Time.Timestamp.eq_of_not_before (least b later') (least' a later)
      have heads := ties a.pushedAt
      simp only [together, List.filter_cons, decide_true, if_true, List.cons.injEq] at heads
      obtain ⟨rfl, -⟩ := heads
      congr 1
      refine ih sorted sorted' fun t => ?_
      have both := ties t
      simp only [List.filter_cons] at both
      split at both
      · exact (List.cons.inj both).2
      · exact both

end Sorted

section LatestFirst

variable {artifacts order other : List Artifact}

theorem LatestFirst.unique (one : LatestFirst artifacts order)
    (another : LatestFirst artifacts other) : order = other :=
  eq_of_ties one.latest another.latest fun t => (one.ties t).trans (another.ties t).symm

theorem LatestFirst.filter (first : LatestFirst artifacts order) (stays : Artifact → Bool) :
    LatestFirst (artifacts.filter stays) (order.filter stays) where
  all := first.all.filter stays
  latest := first.latest.filter stays
  ties t := by
    rw [List.filter_comm, first.ties, List.filter_comm]

theorem latestFirst_ranked (artifacts : List Artifact) :
    LatestFirst artifacts (ranked artifacts) := by
  have transitive (a b c : Artifact) (first : (!a.pushedAt.before b.pushedAt) = true)
      (second : (!b.pushedAt.before c.pushedAt) = true) :
      (!a.pushedAt.before c.pushedAt) = true := by
    simp only [Bool.not_eq_true'] at *
    simpa using Time.Timestamp.not_before_trans (by simpa using first) (by simpa using second)
  have total (a b : Artifact) :
      (!a.pushedAt.before b.pushedAt || !b.pushedAt.before a.pushedAt) = true := by
    simpa using Time.Timestamp.not_before_total a.pushedAt b.pushedAt
  have all : (ranked artifacts).Perm artifacts := List.mergeSort_perm _ _
  refine ⟨all, ?_, fun t => ?_⟩
  · exact (List.pairwise_mergeSort transitive total artifacts).imp fun later => by simpa using later
  · -- Those of one time are in order already, so the sort keeps them as they are.
    have tied : (artifacts.filter (·.pushedAt = t)).Pairwise
        fun a b => (!a.pushedAt.before b.pushedAt) = true := by
      refine List.pairwise_of_forall_mem_list fun a mem b mem' => ?_
      have same : a.pushedAt = b.pushedAt := by
        simp only [List.mem_filter, decide_eq_true_eq] at mem mem'
        rw [mem.2, mem'.2]
      simpa [same] using Time.Timestamp.not_before_total b.pushedAt b.pushedAt
    have kept := (List.sublist_mergeSort transitive total tied List.filter_sublist).filter
      (fun a => a.pushedAt = t)
    rw [List.filter_filter] at kept
    simp only [Bool.and_self] at kept
    exact (kept.eq_of_length (all.filter _).length_eq.symm).symm

theorem ranked_filter (artifacts : List Artifact) (stays : Artifact → Bool) :
    ranked (artifacts.filter stays) = (ranked artifacts).filter stays :=
  (latestFirst_ranked _).unique ((latestFirst_ranked artifacts).filter stays)

end LatestFirst

/-! ## Decisions -/

/-- What is checked in if no removal fails and so many of the artifacts stay. -/
def verdicts (retain : Nat) (order : List Artifact) : List Decision :=
  order.mapIdx fun rank a => ⟨a.digest, a.tags, rank < retain, none⟩

def report (decisions : List Decision) : String :=
  (Value.array (decisions.map Decision.encode)).text

theorem verdicts_cons (retain rank : Nat) (a : Artifact) (rest : List Artifact) :
    verdicts (retain - rank) (a :: rest) =
      ⟨a.digest, a.tags, rank < retain, none⟩ :: verdicts (retain - (rank + 1)) rest := by
  have shifted (i : Nat) : i + 1 < retain - rank ↔ i < retain - (rank + 1) := by omega
  simp only [verdicts, List.mapIdx_cons, shifted, Nat.sub_pos_iff_lt]

theorem doomed_cons (retain rank : Nat) (a : Artifact) (rest : List Artifact) :
    (a :: rest).drop (retain - rank) =
      (if rank < retain then [] else [a]) ++ rest.drop (retain - (rank + 1)) := by
  split
  · have one : retain - rank = retain - (rank + 1) + 1 := by omega
    rw [one, List.drop_succ_cons, List.nil_append]
  · have zero : retain - rank = 0 ∧ retain - (rank + 1) = 0 := by omega
    rw [zero.1, zero.2, List.drop_zero, List.drop_zero, List.singleton_append]

section Decide

variable {params : Params} {store : ArtifactStore} {errand : Errand} {rank : Nat}
  {decisions : List Decision}

/-- Just these artifacts of a repository were removed. -/
structure Removes (store : ArtifactStore) (repository : String) (gone : List Artifact)
    (left : ArtifactStore) (removed : List (String × String)) : Prop where
  left : left = store.without repository gone
  removed : removed = gone.map fun a => (repository, a.digest)

theorem removes_none (store : ArtifactStore) (repository : String) :
    Removes store repository [] store [] :=
  ⟨(store.without_nil repository).symm, rfl⟩

theorem Removes.front {repository : String} {gone also : List Artifact} {later last : Errand}
    (removes : Removes (store.without repository gone) repository also last.left
      (removals last.deeds))
    (clears : later.Clears repository gone last) :
    Removes store repository (gone ++ also) later.left (removals later.deeds) where
  left := by rw [clears.left, removes.left, ArtifactStore.without_without]
  removed := by rw [clears.removes, removes.removed, List.map_append]

/-- An artifact stays or goes by its rank, unless a command comes first. -/
theorem works_decide_cons {a : Artifact} {rest : List Artifact} (sound : store.Sound)
    (held : store.Holds params.repository a)
    (works : (decide params (a :: rest) rank decisions).Works store errand) :
    let gone := letGo params.dryRun (if rank < params.retain.toNat then [] else [a])
    errand.Stops store ∨
      ∃ later last : Errand, errand = later.heard none ∧ later.Clears params.repository gone last ∧
        (decide params rest (rank + 1)
          (⟨a.digest, a.tags, rank < params.retain.toNat, none⟩ :: decisions)).Works
            (store.without params.repository gone) last := by
  unfold decide at works
  rcases works.checkpoint with ⟨later, onward, rfl⟩ | halted
  · right
    by_cases high : rank < params.retain.toNat
    · simp only [high, decide_true, Bool.not_true, Bool.false_and, Bool.false_eq_true, if_false]
        at onward
      simp only [high, if_true, letGo_nil, ArtifactStore.without_nil, decide_true]
      cases onward with
      | @log _ _ _ _ last onward => exact ⟨_, last, rfl, ⟨rfl, rfl, rfl, rfl, rfl⟩, onward⟩
    · simp only [high, decide_false, Bool.not_false, Bool.true_and, Bool.not_eq_true'] at onward
      simp only [high, if_false, decide_false]
      cases dry : params.dryRun with
      | true =>
        rw [dry, if_neg Bool.noConfusion] at onward
        simp only [letGo, if_true, ArtifactStore.without_nil]
        cases onward with
        | @log _ _ _ _ last onward => exact ⟨_, last, rfl, ⟨rfl, rfl, rfl, rfl, rfl⟩, onward⟩
      | false =>
        rw [dry, if_pos rfl] at onward
        cases onward with
        | delete onward =>
          simp only [ArtifactStore.change, sound.delete_held held, Except.map] at onward
          cases onward with
          | @log _ _ _ _ last onward => exact ⟨_, last, rfl, ⟨rfl, rfl, rfl, rfl, rfl⟩, onward⟩
  · exact .inl halted

/-- A sweep goes through the candidates in order. It reports when it has gone through all of them; a
command ends it before one of them. -/
theorem works_decide {candidates : List Artifact} (sound : store.Sound)
    (held : ∀ a ∈ candidates, store.Holds params.repository a) (nodup : candidates.Nodup)
    (works : (decide params candidates rank decisions).Works store errand) :
    let kept := params.retain.toNat - rank
    ∃ past, past <+: candidates ∧
      Removes store params.repository (letGo params.dryRun (past.drop kept)) errand.left
        (removals errand.deeds) ∧
      (past = candidates ∧ errand.Completes candidates.length
          (report (decisions.reverse ++ verdicts kept candidates)) ∨
        past.length < candidates.length ∧ ∃ command, errand.Halts past.length command) := by
  induction candidates generalizing rank decisions store errand with
  | nil =>
    cases works with
    | checkIn works =>
      cases works with
      | done =>
        refine ⟨[], List.prefix_rfl, ?_, .inl ⟨rfl, rfl, rfl, ?_⟩⟩
        · rw [List.drop_nil, letGo_nil]
          exact removes_none _ _
        · rw [verdicts, List.mapIdx_nil, List.append_nil]
          rfl
  | cons a candidates ih =>
    obtain ⟨fresh, nodup⟩ := List.nodup_cons.mp nodup
    rcases works_decide_cons sound (held a List.mem_cons_self) works with
      ⟨command, halts, left, removes⟩ | ⟨later, last, rfl, clears, works⟩
    · refine ⟨[], List.nil_prefix, ?_, .inr ⟨Nat.succ_pos _, command, halts⟩⟩
      rw [left, removes, List.drop_nil, letGo_nil]
      exact removes_none _ _
    · have only (b : Artifact)
          (gone : b ∈ letGo params.dryRun (if rank < params.retain.toNat then [] else [a])) :
          b = a := by
        have doomed := mem_of_mem_letGo gone
        split at doomed
        · cases doomed
        · exact List.mem_singleton.mp doomed
      have still := ArtifactStore.holds_rest held fresh only
      obtain ⟨past, begun, removes, ends⟩ := ih sound.without still nodup works
      have passed := removes.front clears
      rw [← letGo_append, ← doomed_cons] at passed
      refine ⟨a :: past, List.cons_prefix_cons.mpr ⟨rfl, begun⟩, passed, ?_⟩
      rcases ends with ⟨rfl, completes⟩ | ⟨within, command, halts⟩
      · refine .inl ⟨rfl, ?_⟩
        rw [List.reverse_cons, List.append_assoc, List.singleton_append, ← verdicts_cons]
          at completes
        exact (clears.completes completes).heard
      · exact .inr ⟨Nat.succ_lt_succ within, command, (clears.halts halts).heard⟩

end Decide

/-! ## Interrupted sweeps -/

section Split

theorem filter_between {front gone rest : List Artifact} (nodup : (front ++ (gone ++ rest)).Nodup) :
    (front ++ (gone ++ rest)).filter (· ∉ gone) = front ++ rest := by
  have early (a : Artifact) (mem : a ∈ front) : a ∉ gone := fun again =>
    List.disjoint_of_nodup_append nodup mem (List.mem_append_left rest again)
  have late (a : Artifact) (mem : a ∈ rest) : a ∉ gone := fun again =>
    List.disjoint_of_nodup_append (List.nodup_append.mp nodup).2.1 again mem
  have between : gone.filter (· ∉ gone) = [] :=
    List.filter_eq_nil_iff.mpr fun a mem => by simpa using mem
  rw [List.filter_append, List.filter_append, between, List.nil_append,
    List.filter_eq_self.mpr fun a mem => by simpa using early a mem,
    List.filter_eq_self.mpr fun a mem => by simpa using late a mem]

variable {order past : List Artifact} (retain : Nat)

theorem filter_kept (nodup : order.Nodup) :
    order.filter (· ∉ order.drop retain) = order.take retain := by
  have split : order.take retain ++ (order.drop retain ++ []) = order := by simp
  have between := filter_between (split.symm ▸ nodup)
  rwa [split, List.append_nil] at between

/-- A sweep that was interrupted and a later one remove together what one sweep removes. -/
theorem resumed (nodup : order.Nodup) (begun : past <+: order) :
    past.drop retain ++ (order.filter (· ∉ past.drop retain)).drop retain = order.drop retain := by
  obtain ⟨rest, doomed⟩ := begun.drop retain
  have split : order.take retain ++ (past.drop retain ++ rest) = order := by
    rw [doomed, List.take_append_drop]
  have between := filter_between (split.symm ▸ nodup)
  rw [split] at between
  -- If fewer artifacts are kept than could be, none is removed.
  have again : (order.take retain ++ rest).drop retain = rest := by
    rcases le_total retain order.length with enough | few
    · have full : (order.take retain).length = retain := List.length_take_of_le enough
      rw [List.drop_left' full]
    · rw [List.drop_eq_nil_of_le few] at doomed
      obtain ⟨-, rfl⟩ := List.append_eq_nil_iff.mp doomed
      rw [List.append_nil, List.drop_take_self]
  rw [between, again, doomed]

end Split

/-! ## Whole sweeps -/

section Whole

variable {parameters : Parameters} {params : Params} {store : ArtifactStore}
  {artifacts : List Artifact}

theorem ranked_nodup (sound : store.Sound)
    (present : store.list params.repository = .ok artifacts) : (ranked artifacts).Nodup := by
  have distinct := sound.distinct_of_artifacts? (ArtifactStore.list_eq_ok.mp present)
  exact (latestFirst_ranked artifacts).all.nodup_iff.mpr distinct.of_map

theorem run_eq (decoded : Params.decode parameters = .ok params) (id : JobId) (jobType : String)
    (earlier : Nat) : job.run ⟨id, jobType, parameters, earlier⟩ = run params := by
  simp only [job, decoded]

/-- The first checkpoint comes before the list is read. -/
theorem works_run {errand : Errand} (present : store.list params.repository = .ok artifacts)
    (works : (run params).Works store errand) :
    errand.Stops store ∨
      ∃ later : Errand, errand.Clears params.repository [] (later.heard none) ∧
        (decide params (ranked artifacts) 0 []).Works store later := by
  cases works with
  | @log _ _ _ _ errand works =>
    rcases works.checkpoint with ⟨rest, onward, rfl⟩ | ⟨command, halts, left, removes⟩
    · right
      cases onward with
      | list onward =>
        rw [present] at onward
        cases onward with
        | @log _ _ _ _ later onward => exact ⟨later, ⟨rfl, rfl, rfl, rfl, rfl⟩, onward⟩
    · exact .inl ⟨command, ⟨halts.asked, halts.ending, halts.silent⟩, left, removes⟩

/-- A sweep that is alone with the artifacts decides on a first part of them. -/
theorem run_sweeps (sound : store.Sound) (decoded : Params.decode parameters = .ok params)
    (present : store.list params.repository = .ok artifacts) (run : SoleRun job parameters store) :
    let order := ranked artifacts
    let retain := params.retain.toNat
    ∃ n past, past <+: order ∧
      Removes store params.repository (letGo params.dryRun (past.drop retain)) (run.left n)
        (removals (run.deeds n)) ∧
      (past = order ∧ run.Completes n (order.length + 1) (report (verdicts retain order)) ∨
        ∃ before command, before ≤ order.length ∧ past = order.take (before - 1) ∧
          run.Halts n before command) := by
  intro order retain
  have listed := ArtifactStore.list_eq_ok.mp present
  have ranks : order.Perm artifacts := (latestFirst_ranked artifacts).all
  have held (a : Artifact) (mem : a ∈ order) : store.Holds params.repository a :=
    ⟨artifacts, listed, ranks.mem_iff.mp mem⟩
  have nodup : order.Nodup := ranked_nodup sound present
  obtain ⟨n, errand, works, comes⟩ := run.comes_to (run_eq decoded)
  rcases works_run present works with ⟨command, halts, left, removes⟩ | ⟨later, clears, works⟩
  · refine ⟨n, [], List.nil_prefix, ?_, .inr ⟨0, command, Nat.zero_le _, rfl, comes.halts halts⟩⟩
    rw [comes.left, comes.removals, left, removes, List.drop_nil, letGo_nil]
    exact removes_none _ _
  · obtain ⟨past, begun, removes, ends⟩ := works_decide sound held nodup works
    refine ⟨n, past, begun, ?_, ?_⟩
    · rw [comes.left, comes.removals, clears.left, clears.removes]
      exact removes
    · rcases ends with ⟨rfl, completes⟩ | ⟨within, command, halts⟩
      · exact .inl ⟨rfl, comes.completes (clears.completes completes.heard)⟩
      · exact .inr ⟨past.length + 1, command, within, List.prefix_iff_eq_take.mp begun,
          comes.halts (clears.halts halts.heard)⟩

/-- Without those that go the repository lists, as they were stored, those that stay. -/
theorem list_kept (sound : store.Sound)
    (present : store.list params.repository = .ok artifacts) (retain : Nat) :
    let order := ranked artifacts
    let kept := artifacts.filter (· ∈ order.take retain)
    (store.without params.repository (order.drop retain)).list params.repository = .ok kept ∧
      kept.length = min retain artifacts.length := by
  intro order kept
  have listed := ArtifactStore.list_eq_ok.mp present
  have ranks : order.Perm artifacts := (latestFirst_ranked artifacts).all
  have nodup : order.Nodup := ranked_nodup sound present
  have stays (a : Artifact) (mem : a ∈ artifacts) :
      a ∉ order.drop retain ↔ a ∈ order.take retain := by
    rw [← filter_kept retain nodup, List.mem_filter, decide_eq_true_eq]
    exact (and_iff_right (ranks.mem_iff.mpr mem)).symm
  have same : artifacts.filter (· ∉ order.drop retain) = kept :=
    List.filter_congr fun a mem => decide_eq_decide.mpr (stays a mem)
  constructor
  · rw [ArtifactStore.list_eq_ok, ArtifactStore.artifacts?_without listed, same]
  · calc
      kept.length = (order.filter (· ∉ order.drop retain)).length := by
        rw [← same, (ranks.filter _).length_eq]
      _ = min retain artifacts.length := by
        rw [filter_kept retain nodup, List.length_take, ranks.length_eq]

/-- A sweep that finds what an interrupted one left removes the rest. -/
theorem later_sweeps (sound : store.Sound) (decoded : Params.decode parameters = .ok params)
    (real : params.dryRun = false) (present : store.list params.repository = .ok artifacts)
    {past : List Artifact} (begun : past <+: ranked artifacts) {left : ArtifactStore}
    (found : left = store.without params.repository (past.drop params.retain.toNat))
    (later : SoleRun job parameters left) :
    ∃ m, (∃ checkpoints text, later.Completes m checkpoints text ∧ later.left m =
        store.without params.repository ((ranked artifacts).drop params.retain.toNat)) ∨
      ∃ before command, later.Halts m before command := by
  subst found
  have listed := ArtifactStore.list_eq_ok.mp present
  have rest : (store.without params.repository (past.drop params.retain.toNat)).list
      params.repository = .ok (artifacts.filter (· ∉ past.drop params.retain.toNat)) :=
    ArtifactStore.list_eq_ok.mpr (ArtifactStore.artifacts?_without listed)
  obtain ⟨m, again, -, removes, ends⟩ := run_sweeps sound.without decoded rest later
  refine ⟨m, ?_⟩
  rcases ends with ⟨rfl, completes⟩ | ⟨before, command, -, -, halts⟩
  · refine .inl ⟨_, _, completes, ?_⟩
    rw [removes.left, real, letGo, if_neg Bool.false_ne_true, ArtifactStore.without_without,
      ranked_filter, resumed _ (ranked_nodup sound present) begun]
  · exact .inr ⟨before, command, halts⟩

/-- A sweep that meets no command leaves the artifacts that rank high enough and reports on all; one
that meets a command has removed those of lower rank that it passed. Whoever sweeps later leaves
what one sweep leaves. -/
theorem sweep_exact (sound : store.Sound) (decoded : Params.decode parameters = .ok params)
    (real : params.dryRun = false) (present : store.list params.repository = .ok artifacts)
    (run : SoleRun job parameters store) :
    let order := ranked artifacts
    let retain := params.retain.toNat
    let kept := artifacts.filter (· ∈ order.take retain)
    let swept := store.without params.repository (order.drop retain)
    LatestFirst artifacts order ∧ kept.length = min retain artifacts.length ∧
      (∀ a ∈ order.take retain, ∀ b ∈ order.drop retain, ¬a.pushedAt.before b.pushedAt) ∧
      swept.list params.repository = .ok kept ∧ swept.names = store.names ∧
      (∀ other, other ≠ params.repository → swept.list other = store.list other) ∧
      ∃ n, (run.Completes n (artifacts.length + 1) (report (verdicts retain order)) ∧
            run.left n = swept ∨
          ∃ before command, before ≤ artifacts.length ∧ run.Halts n before command ∧
            run.left n =
              store.without params.repository ((order.take (before - 1)).drop retain)) ∧
        ∀ later : SoleRun job parameters (run.left n), ∃ m,
          (∃ checkpoints text, later.Completes m checkpoints text ∧ later.left m = swept) ∨
            ∃ before command, later.Halts m before command := by
  intro order retain kept swept
  have first := latestFirst_ranked artifacts
  obtain ⟨stored, exact⟩ := list_kept sound present retain
  have older : ∀ a ∈ order.take retain, ∀ b ∈ order.drop retain,
      ¬a.pushedAt.before b.pushedAt := by
    have sorted := first.latest
    rw [← List.take_append_drop retain (ranked artifacts), List.pairwise_append] at sorted
    exact sorted.2.2
  have others (other : String) (differs : other ≠ params.repository) :
      swept.list other = store.list other := by
    rw [ArtifactStore.list, ArtifactStore.artifacts?_without_other differs, ArtifactStore.list]
  refine ⟨first, exact, older, stored, ArtifactStore.names_prune _ _, others, ?_⟩
  obtain ⟨n, past, begun, removes, ends⟩ := run_sweeps sound decoded present run
  have left : run.left n = store.without params.repository (past.drop retain) := by
    rw [removes.left, real]
    rfl
  refine ⟨n, ?_, later_sweeps sound decoded real present begun left⟩
  rw [first.all.length_eq] at ends
  rcases ends with ⟨rfl, completes⟩ | ⟨before, command, within, rfl, halts⟩
  · exact .inl ⟨completes, left⟩
  · exact .inr ⟨before, command, within, halts, left⟩

/-- Two of the artifacts were pushed at one time. -/
def pushes : List Artifact := [
  ⟨"team/web", "sha256:a", ["v1"], .ofMillis 1000, 40⟩,
  ⟨"team/web", "sha256:b", ["v2"], .ofMillis 2000, 40⟩,
  ⟨"team/web", "sha256:c", [], .ofMillis 2000, 2⟩]

theorem sweep_exact_pushes :
    let store : ArtifactStore := .built (pushes.map .insert)
    let parameters : Parameters :=
      [("repository", .string "team/web"), ("retain", .number (.whole 2))]
    let params : Params := ⟨"team/web", 2, false⟩
    let run := SoleRun.quiet job parameters { clock := 0, store } rfl
    let order := ranked pushes
    store.Sound ∧ Params.decode parameters = .ok params ∧ store.list "team/web" = .ok pushes ∧
      ∃ n, run.Completes n 4 (report (verdicts 2 order)) ∧
          run.left n = store.without "team/web" (order.drop 2) ∨
        ∃ before command, before ≤ 3 ∧ run.Halts n before command ∧
          run.left n = store.without "team/web" ((order.take (before - 1)).drop 2) := by
  intro store parameters params run order
  have sound : store.Sound := ArtifactStore.sound_built _
  have decoded : Params.decode parameters = .ok params := rfl
  have present : store.list "team/web" = .ok pushes := by decide +kernel
  obtain ⟨-, -, -, -, -, -, n, ends, -⟩ := sweep_exact sound decoded rfl present run
  exact ⟨sound, decoded, present, n, ends⟩

example : (ranked pushes).map (·.digest) = ["sha256:b", "sha256:c", "sha256:a"] := by cbv

end Whole

end Maintenance.Retention

end JobEngine
