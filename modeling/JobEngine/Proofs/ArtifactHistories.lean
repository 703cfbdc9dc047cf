import JobEngine.Proofs.ArtifactLookups
import Mathlib.Data.Finmap
import Mathlib.Data.Finset.Sort

/-!
# The artifact store as a finite map

A store that was empty at first is determined by the changes made to it. An
insertion binds an artifact to its repository and digest, a removal frees them.
This makes a finite map, and all that the store answers is read off it, except
for the order of a listing: there the artifacts stand as they were inserted,
each at the place of its latest insertion.
-/
namespace JobEngine

/-- Artifacts under a repository and a digest. -/
abbrev ArtifactMap := Finmap fun _ : String × String => Artifact

namespace StoreChange

/-- The repositories into which something was ever inserted. -/
def named (changes : List StoreChange) : List String :=
  (changes.filterMap brings).map (·.repository)

/-- The inserted artifacts that no later change has replaced or removed, in the order of their
insertions. -/
def surviving : List StoreChange → List Artifact
  | [] => []
  | c :: later =>
    if later.any (·.key = c.key) then surviving later else c.brings.toList ++ surviving later

def enter (map : ArtifactMap) (c : StoreChange) : ArtifactMap :=
  match c.brings with
  | some a => map.insert c.key a
  | none => map.erase c.key

/-- What is bound to each name in the end. -/
def contents (changes : List StoreChange) : ArtifactMap := changes.foldl enter ∅

variable {c : StoreChange} {changes : List StoreChange} {repository : String}

theorem key_of_brings {a : Artifact} (brings : c.brings = some a) :
    c.key = (a.repository, a.digest) := by
  cases c <;> cases brings
  rfl

theorem lookup_enter (map : ArtifactMap) (c : StoreChange) (name : String × String) :
    (enter map c).lookup name = if c.key = name then c.brings else map.lookup name := by
  rw [enter]
  by_cases same : c.key = name
  · rw [if_pos same, ← same]
    split
    · rename_i a brings
      rw [Finmap.lookup_insert, brings]
    · rename_i brings
      rw [Finmap.lookup_erase, brings]
  · rw [if_neg same]
    split
    · exact Finmap.lookup_insert_of_ne _ (Ne.symm same)
    · exact Finmap.lookup_erase_ne (Ne.symm same)

theorem contents_concat (changes : List StoreChange) (c : StoreChange) :
    contents (changes ++ [c]) = enter (contents changes) c := by
  rw [contents, List.foldl_append]
  rfl

theorem mem_named_concat :
    repository ∈ named (changes ++ [c]) ↔
      repository ∈ named changes ∨ ∃ a, c.brings = some a ∧ a.repository = repository := by
  rw [named, List.filterMap_append, List.map_append, List.mem_append, ← named]
  cases brings : c.brings <;> simp [brings, eq_comm]

/-- A further change takes out what stood under its name, and what it brings comes last. -/
theorem surviving_concat (changes : List StoreChange) (c : StoreChange) :
    surviving (changes ++ [c]) =
      (surviving changes).filter (fun a => (a.repository, a.digest) ≠ c.key) ++
        c.brings.toList := by
  induction changes with
  | nil => simp [surviving]
  | cons first later ih =>
    have own : first.brings.toList.filter (fun a => (a.repository, a.digest) ≠ c.key) =
        if c.key = first.key then [] else first.brings.toList := by
      cases brings : first.brings with
      | none => simp
      | some a =>
        rw [key_of_brings brings]
        by_cases same : c.key = (a.repository, a.digest)
        · simp [same]
        · simp [same, Ne.symm same]
    rw [List.cons_append, surviving, surviving, ih]
    simp only [List.any_append, List.any_cons, List.any_nil, Bool.or_false, Bool.or_eq_true,
      decide_eq_true_eq]
    by_cases touched : later.any (·.key = first.key) = true
    · rw [if_pos (.inl touched), if_pos touched]
    · rw [if_neg touched, List.filter_append, own, List.append_assoc]
      by_cases same : c.key = first.key
      · rw [if_pos (.inr same), if_pos same, List.nil_append]
      · rw [if_neg (not_or.mpr ⟨touched, same⟩), if_neg same]

/-- In a repository the digest alone is the name, and changes made elsewhere do not count. -/
theorem surviving_concat_in (changes : List StoreChange) (c : StoreChange) (repository : String) :
    (surviving (changes ++ [c])).filter (·.repository = repository) =
      if c.key.1 = repository then
        ((surviving changes).filter (·.repository = repository)).filter (·.digest ≠ c.key.2) ++
          c.brings.toList
      else (surviving changes).filter (·.repository = repository) := by
  have brought : c.brings.toList.filter (·.repository = repository) =
      if c.key.1 = repository then c.brings.toList else [] := by
    cases brings : c.brings with
    | none => simp
    | some a => simp [key_of_brings brings, List.filter_cons]
  rw [surviving_concat, List.filter_append, brought, List.filter_filter]
  split
  · rename_i here
    rw [List.filter_filter]
    congr 1
    refine List.filter_congr fun a _ => ?_
    by_cases own : a.repository = repository <;> simp [own, Prod.ext_iff, here]
  · rename_i elsewhere
    rw [List.append_nil]
    refine List.filter_congr fun a _ => ?_
    by_cases own : a.repository = repository <;> simp [own, Prod.ext_iff, Ne.symm elsewhere]

end StoreChange

namespace ArtifactStore

open StoreChange

variable {store : ArtifactStore} {repository digest : String} {a : Artifact}

/-! ## Listing and searching -/

theorem list_eq (store : ArtifactStore) (repository : String) :
    store.list repository =
      if repository ∈ store.names then .ok (store.held repository)
      else .error (.repositoryNotFound repository) := by
  rw [list, held]
  cases listed : store.artifacts? repository <;> simp [mem_names_iff, listed]

theorem row_of_lookup? (found : store.lookup? repository digest = some a) :
    ∃ row ∈ store.repositories,
      row.1 = repository ∧ row.2.find? (·.digest = digest) = some a := by
  obtain ⟨artifacts, listed, first⟩ := Option.bind_eq_some_iff.mp found
  exact ⟨(repository, artifacts), row_of_artifacts? listed, rfl, first⟩

/-- Each artifact carries the name of the repository that holds it. -/
def Housed (store : ArtifactStore) : Prop :=
  ∀ row ∈ store.repositories, ∀ a ∈ row.2, a.repository = row.1

/-- The search for a digest ends at the first repository that has it. -/
theorem Sound.least_of_find? (sound : store.Sound) (housed : store.Housed)
    (found : store.find? digest = some a) :
    store.lookup? a.repository digest = some a ∧
      ∀ other b, store.lookup? other digest = some b → a.repository ≤ other := by
  rw [find?, List.find?_flatMap, List.findSome?_eq_some_iff] at found
  obtain ⟨before, row, after, rows, here, passed⟩ := found
  have mem : row ∈ store.repositories := by simp [rows]
  have home := housed row mem a (List.mem_of_find?_eq_some here)
  rw [home]
  constructor
  · rw [lookup?, sound.artifacts?_of_row mem, Option.bind_some, here]
  · intro other b held
    obtain ⟨place, listed, rfl, there⟩ := row_of_lookup? held
    have ascending := sound.ascending
    rw [names, rows, List.map_append, List.map_cons, List.pairwise_append,
      List.pairwise_cons] at ascending
    obtain ⟨-, ⟨least, -⟩, -⟩ := ascending
    rw [rows, List.mem_append, List.mem_cons] at listed
    rcases listed with earlier | rfl | later
    · rw [passed place earlier] at there
      cases there
    · exact le_rfl
    · exact (least place.1 (List.mem_map_of_mem later)).le

theorem Sound.find?_eq_some (sound : store.Sound) (housed : store.Housed) :
    store.find? digest = some a ↔ store.lookup? a.repository digest = some a ∧
      ∀ other b, store.lookup? other digest = some b → a.repository ≤ other := by
  constructor
  · exact sound.least_of_find? housed
  · rintro ⟨held, least⟩
    obtain ⟨b, found⟩ : ∃ b, store.find? digest = some b := by
      obtain ⟨row, mem, -, first⟩ := row_of_lookup? held
      have listed : a ∈ store.repositories.flatMap (·.2) :=
        List.mem_flatMap.mpr ⟨row, mem, List.mem_of_find?_eq_some first⟩
      have own : a.digest = digest := digest_of_lookup? held
      exact Option.isSome_iff_exists.mp (List.find?_isSome.mpr ⟨a, listed, by simpa using own⟩)
    obtain ⟨also, first⟩ := sound.least_of_find? housed found
    have same : a.repository = b.repository := le_antisymm (least _ b also) (first _ a held)
    rw [found, ← also, ← same, held]

/-! ## The store and its history -/

/-- The store shows what the changes leave. -/
structure Reflects (store : ArtifactStore) (changes : List StoreChange) : Prop where
  sound : store.Sound
  names : ∀ repository, repository ∈ store.names ↔ repository ∈ named changes
  held : ∀ repository,
    store.held repository = (surviving changes).filter (·.repository = repository)
  lookup : ∀ repository digest,
    store.lookup? repository digest = (contents changes).lookup (repository, digest)

namespace Reflects

variable {changes : List StoreChange}

theorem empty : Reflects {} [] where
  sound := sound_built []
  names _ := Iff.rfl
  held _ := rfl
  lookup _ _ := rfl

theorem change (reflects : store.Reflects changes) (c : StoreChange) :
    (store.change c).Reflects (changes ++ [c]) where
  sound := reflects.sound.change c
  names repository := by
    rw [mem_names_change, mem_named_concat, reflects.names]
  held repository := by
    rw [reflects.sound.held_change, surviving_concat_in, reflects.held]
  lookup repository digest := by
    rw [reflects.sound.lookup?_change, contents_concat, lookup_enter, reflects.lookup]

theorem built (changes : List StoreChange) : (built changes).Reflects changes := by
  induction changes using List.reverseRecOn with
  | nil => exact empty
  | append_singleton changes c ih =>
    rw [ArtifactStore.built, List.foldl_append]
    exact ih.change c

theorem housed (reflects : store.Reflects changes) : store.Housed := by
  intro row mem a listed
  have all : store.held row.1 = row.2 := by
    rw [ArtifactStore.held, reflects.sound.artifacts?_of_row mem, Option.getD_some]
  rw [← all, reflects.held] at listed
  simpa using (List.mem_filter.mp listed).2

theorem mem_surviving_iff (reflects : store.Reflects changes) :
    a ∈ surviving changes ↔ (contents changes).lookup (a.repository, a.digest) = some a := by
  have listed : a ∈ store.held a.repository ↔ a ∈ surviving changes := by
    simp [reflects.held, List.mem_filter]
  rw [← reflects.lookup, lookup?_eq_find?, ← listed]
  constructor
  · exact find?_keyed (reflects.sound.distinct_held a.repository)
  · exact List.mem_of_find?_eq_some

end Reflects

/-- The store answers from the map that its changes leave. A repository lists what survives in it,
at the place of its latest insertion. A removal takes one artifact, or is refused and takes none. A
digest is searched for in the order of the names, and a repository keeps its name when it is
emptied. -/
theorem refines_map (changes : List StoreChange) :
    let store := built changes
    let map := contents changes
    (∀ row ∈ store.repositories,
        (row.2.map (·.digest)).Nodup ∧ ∀ a ∈ row.2, a.repository = row.1) ∧
      (∀ repository digest, store.lookup? repository digest = map.lookup (repository, digest)) ∧
      (∀ a, a ∈ surviving changes ↔ map.lookup (a.repository, a.digest) = some a) ∧
      (∀ repository, store.list repository =
        if repository ∈ named changes then
          .ok ((surviving changes).filter (·.repository = repository))
        else .error (.repositoryNotFound repository)) ∧
      (∀ repository digest,
        match map.lookup (repository, digest) with
        | some a =>
          store.delete repository digest = .ok (a.size, store.without repository [a])
        | none =>
          store.delete repository digest =
              .error (if repository ∈ named changes then .artifactNotFound digest
                else .repositoryNotFound repository) ∧
            store.change (.delete repository digest) = store) ∧
      (∀ digest a, store.find? digest = some a ↔
        map.lookup (a.repository, digest) = some a ∧
          ∀ repository b, map.lookup (repository, digest) = some b → a.repository ≤ repository) ∧
      store.names = (named changes).toFinset.sort := by
  intro store map
  have reflects : store.Reflects changes := .built changes
  have sound := reflects.sound
  have named_iff := reflects.names
  refine ⟨fun row mem => ⟨sound.distinct row mem, reflects.housed row mem⟩, reflects.lookup,
    fun a => reflects.mem_surviving_iff, ?_, ?_, ?_, ?_⟩
  · intro repository
    simp only [list_eq, named_iff, reflects.held]
  · intro repository digest
    rw [← reflects.lookup]
    cases found : store.lookup? repository digest with
    | some a => exact sound.delete_found found
    | none =>
      refine ⟨?_, change_missing found⟩
      simp only [delete_missing found, named_iff]
  · intro digest a
    rw [sound.find?_eq_some reflects.housed]
    simp only [reflects.lookup]
    rfl
  · have same : (named changes).toFinset = store.names.toFinset := by
      ext repository
      simp only [List.mem_toFinset, named_iff]
    rw [same, (List.toFinset_sort _ sound.names_nodup).mpr]
    exact sound.ascending.imp le_of_lt

example :
    let a : Artifact := ⟨"team/web", "sha256:a", [], .ofMillis 1000, 40⟩
    let b : Artifact := { a with digest := "sha256:b" }
    let tagged : Artifact := { a with tags := ["v1"] }
    surviving [.insert a, .insert b, .insert tagged] = [b, tagged] ∧
      surviving [.insert a, .insert b, .delete "team/web" "sha256:a", .insert a] = [b, a] := by
  decide +kernel

end ArtifactStore

end JobEngine
