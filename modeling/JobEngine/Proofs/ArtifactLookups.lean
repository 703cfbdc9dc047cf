import JobEngine.Proofs.ArtifactTables

/-!
# Artifacts under their names

An artifact is found under its repository and its digest. An insertion changes
what is found under one such name, and so does a removal; under all others the
artifacts stay as they are. No change takes a repository away.
-/
namespace JobEngine

namespace StoreChange

/-- The repository and the digest under which something changes. -/
def key : StoreChange → String × String
  | .insert a => (a.repository, a.digest)
  | .delete repository digest => (repository, digest)

/-- What is found there afterwards. -/
def brings : StoreChange → Option Artifact
  | .insert a => some a
  | .delete _ _ => none

end StoreChange

namespace ArtifactStore

/-- The artifact of a repository with a digest. -/
def lookup? (store : ArtifactStore) (repository digest : String) : Option Artifact :=
  (store.artifacts? repository).bind (·.find? (·.digest = digest))

section Rows

variable {repository other : String} {artifacts : List Artifact}
  {rows : List (String × List Artifact)}

theorem artifacts?_cons (name : String) (first : List Artifact) :
    artifacts? ⟨(name, first) :: rows⟩ other =
      if name = other then some first else artifacts? ⟨rows⟩ other := by
  by_cases same : name = other <;> simp [artifacts?, same]

theorem artifacts?_setArtifacts :
    artifacts? ⟨setArtifacts repository artifacts rows⟩ other =
      if repository = other then some artifacts else artifacts? ⟨rows⟩ other := by
  induction rows with
  | nil => rw [setArtifacts, artifacts?_cons]
  | cons head rest ih =>
    obtain ⟨name, old⟩ := head
    rw [setArtifacts]
    split
    · rename_i same
      subst same
      rw [artifacts?_cons, artifacts?_cons]
      split <;> rfl
    · rename_i differs
      split
      · rw [artifacts?_cons]
      · rw [artifacts?_cons, artifacts?_cons, ih]
        by_cases here : name = other
        · subst here
          rw [if_pos rfl, if_pos rfl, if_neg differs]
        · rw [if_neg here, if_neg here]

end Rows

variable {store : ArtifactStore} {repository digest : String}

theorem lookup?_eq_find? (store : ArtifactStore) (repository digest : String) :
    store.lookup? repository digest =
      (store.held repository).find? (·.digest = digest) := by
  rw [lookup?, held]
  cases store.artifacts? repository <;> rfl

theorem lookup?_of_list {artifacts : List Artifact}
    (listed : store.list repository = .ok artifacts) (digest : String) :
    store.lookup? repository digest = artifacts.find? (·.digest = digest) := by
  rw [lookup?, list_eq_ok.mp listed, Option.bind_some]

/-- What is listed is found under its digest. -/
theorem Sound.lookup?_of_mem (sound : store.Sound) {artifacts : List Artifact}
    (listed : store.list repository = .ok artifacts) {a : Artifact} (mem : a ∈ artifacts) :
    store.lookup? repository a.digest = some a := by
  rw [lookup?_of_list listed]
  exact find?_keyed (sound.distinct_of_artifacts? (list_eq_ok.mp listed)) mem

theorem digest_of_lookup? {a : Artifact} (found : store.lookup? repository digest = some a) :
    a.digest = digest := by
  obtain ⟨artifacts, -, first⟩ := Option.bind_eq_some_iff.mp found
  simpa using List.find?_some first

theorem mem_names_iff : repository ∈ store.names ↔ (store.artifacts? repository).isSome := by
  rw [artifacts?, Option.isSome_map, List.find?_isSome, names, List.mem_map]
  simp only [decide_eq_true_eq]

theorem list_of_mem_names (known : repository ∈ store.names) :
    ∃ artifacts, store.list repository = .ok artifacts := by
  obtain ⟨artifacts, listed⟩ := Option.isSome_iff_exists.mp (mem_names_iff.mp known)
  exact ⟨artifacts, list_eq_ok.mpr listed⟩

theorem mem_names_of_list {artifacts : List Artifact}
    (listed : store.list repository = .ok artifacts) : repository ∈ store.names :=
  List.mem_map_of_mem (row_of_artifacts? (list_eq_ok.mp listed))

theorem holds_of_lookup? {a : Artifact} (found : store.lookup? repository digest = some a) :
    store.Holds repository a := by
  obtain ⟨artifacts, listed, first⟩ := Option.bind_eq_some_iff.mp found
  exact ⟨artifacts, listed, List.mem_of_find?_eq_some first⟩

/-! ## Changes -/

/-- A removal takes out what is found under the name. -/
theorem Sound.delete_found (sound : store.Sound) {a : Artifact}
    (found : store.lookup? repository digest = some a) :
    store.delete repository digest = .ok (a.size, store.without repository [a]) := by
  obtain rfl := digest_of_lookup? found
  exact sound.delete_held (holds_of_lookup? found)

/-- A removal that finds nothing is refused. -/
theorem delete_missing (missing : store.lookup? repository digest = none) :
    store.delete repository digest =
      .error (if repository ∈ store.names then .artifactNotFound digest
        else .repositoryNotFound repository) := by
  rw [lookup?] at missing
  cases listed : store.artifacts? repository with
  | none => simp [delete, mem_names_iff, listed]
  | some artifacts =>
    rw [listed, Option.bind_some] at missing
    simp [delete, mem_names_iff, listed, missing]

theorem change_missing (missing : store.lookup? repository digest = none) :
    store.change (.delete repository digest) = store := by
  rw [change, delete_missing missing]

theorem Sound.change_found (sound : store.Sound) {a : Artifact}
    (found : store.lookup? repository digest = some a) :
    store.change (.delete repository digest) = store.without repository [a] := by
  rw [ArtifactStore.change, sound.delete_found found]

theorem find?_others {items : List Artifact} {gone digest : String} (differs : gone ≠ digest) :
    (items.filter (·.digest ≠ gone)).find? (·.digest = digest) =
      items.find? (·.digest = digest) := by
  rw [List.find?_filter]
  congr 1
  funext b
  by_cases found : b.digest = digest
  · simp [found, Ne.symm differs]
  · simp [found]

theorem held_insert (store : ArtifactStore) (a : Artifact) (repository : String) :
    (store.insert a).held repository =
      if a.repository = repository then
        (store.held repository).filter (·.digest ≠ a.digest) ++ [a]
      else store.held repository := by
  rw [held, insert, artifacts?_setArtifacts]
  split
  · rename_i here
    subst here
    rfl
  · rfl

theorem Sound.held_delete (sound : store.Sound) (repository digest other : String) :
    (store.change (.delete repository digest)).held other =
      if repository = other then (store.held other).filter (·.digest ≠ digest)
      else store.held other := by
  cases found : store.lookup? repository digest with
  | none =>
    rw [change_missing found]
    split
    · rename_i here
      subst here
      rw [lookup?_eq_find?, List.find?_eq_none] at found
      exact (List.filter_eq_self.mpr fun b mem => by simpa using found b mem).symm
    · rfl
  | some a =>
    rw [sound.change_found found]
    split
    · rename_i here
      subst here
      obtain ⟨artifacts, listed, mem⟩ := holds_of_lookup? found
      have distinct := sound.distinct_of_artifacts? listed
      rw [held, held, artifacts?_without listed, listed, Option.getD_some, Option.getD_some]
      refine List.filter_congr fun b mem' => decide_eq_decide.mpr (not_congr ?_)
      rw [← digest_of_lookup? found, List.mem_singleton]
      exact ⟨congrArg _, List.inj_on_of_nodup_map distinct mem' mem⟩
    · rename_i elsewhere
      rw [held, artifacts?_without_other (Ne.symm elsewhere), held]

/-- A change takes the artifact under its name away and puts what it brings at the end. -/
theorem Sound.held_change (sound : store.Sound) (c : StoreChange) (repository : String) :
    (store.change c).held repository =
      if c.key.1 = repository then
        (store.held repository).filter (·.digest ≠ c.key.2) ++ c.brings.toList
      else store.held repository := by
  cases c with
  | insert a => exact held_insert store a repository
  | delete other digest =>
    rw [StoreChange.brings, Option.toList_none, List.append_nil]
    exact sound.held_delete other digest repository

theorem Sound.lookup?_change (sound : store.Sound) (c : StoreChange) (repository digest : String) :
    (store.change c).lookup? repository digest =
      if c.key = (repository, digest) then c.brings else store.lookup? repository digest := by
  have brought : c.brings.toList.find? (·.digest = digest) =
      if c.key.2 = digest then c.brings else none := by
    cases c with
    | insert a =>
      by_cases same : a.digest = digest <;> simp [StoreChange.brings, StoreChange.key, same]
    | delete => simp [StoreChange.brings]
  rw [lookup?_eq_find?, lookup?_eq_find?, sound.held_change]
  by_cases here : c.key.1 = repository
  · rw [if_pos here, List.find?_append, brought]
    by_cases same : c.key.2 = digest
    · have gone : ((store.held repository).filter (·.digest ≠ c.key.2)).find?
          (·.digest = digest) = none := by
        rw [same, List.find?_eq_none]
        intro b mem
        simpa using (List.mem_filter.mp mem).2
      rw [gone, Option.none_or, if_pos same, if_pos (Prod.ext here same)]
    · rw [find?_others same, if_neg same, Option.or_none,
        if_neg fun both => same (congrArg Prod.snd both)]
  · rw [if_neg here, if_neg fun both => here (congrArg Prod.fst both)]

theorem mem_names_setArtifacts {artifacts : List Artifact} {rows : List (String × List Artifact)}
    {name : String} :
    name ∈ (setArtifacts repository artifacts rows).map (·.1) ↔
      name = repository ∨ name ∈ rows.map (·.1) := by
  induction rows with
  | nil => simp [setArtifacts]
  | cons head rest ih =>
    obtain ⟨first, old⟩ := head
    rw [setArtifacts]
    split
    · rename_i same
      subst same
      simp
    · split
      · simp
      · rw [List.map_cons, List.map_cons, List.mem_cons, List.mem_cons, ih, or_left_comm]

/-- Repositories stay, and an insertion adds its own. -/
theorem mem_names_change {name : String} (c : StoreChange) :
    name ∈ (store.change c).names ↔
      name ∈ store.names ∨ ∃ a, c.brings = some a ∧ a.repository = name := by
  cases c with
  | insert a =>
    rw [change, insert, names, mem_names_setArtifacts, or_comm, eq_comm]
    simp [StoreChange.brings, names]
  | delete repository digest =>
    simp only [StoreChange.brings, reduceCtorEq, false_and, exists_false, or_false]
    cases found : store.lookup? repository digest with
    | none => rw [change_missing found]
    | some a =>
      obtain ⟨artifacts, listed, first⟩ := Option.bind_eq_some_iff.mp found
      have known : repository ∈ store.names := mem_names_of_list (list_eq_ok.mpr listed)
      simp only [change, delete, listed, first]
      rw [names, mem_names_setArtifacts]
      exact or_iff_right_of_imp fun here => here ▸ known

end ArtifactStore

end JobEngine
