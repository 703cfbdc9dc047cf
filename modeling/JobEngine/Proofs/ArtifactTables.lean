import JobEngine.Artifact
import Mathlib.Data.List.Nodup
import Mathlib.Data.String.Basic

/-!
# The artifact store as a table

The repositories stand in the order of their names, and no digest occurs twice
in a repository. Whatever is inserted or removed, it stays so. In such a store
a removal finds every artifact that is listed, and takes out that one and no
other.
-/
namespace JobEngine

inductive StoreChange
  | insert (a : Artifact)
  | delete (repository digest : String)
deriving DecidableEq, Repr

namespace ArtifactStore

/-- A removal that finds nothing changes nothing. -/
def change (store : ArtifactStore) : StoreChange → ArtifactStore
  | .insert a => store.insert a
  | .delete repository digest =>
    match store.delete repository digest with
    | .ok (_, left) => left
    | .error _ => store

/-- What the changes make of an empty store. -/
def built (changes : List StoreChange) : ArtifactStore := changes.foldl change {}

structure Sound (store : ArtifactStore) : Prop where
  ascending : store.names.Pairwise (· < ·)
  distinct : ∀ row ∈ store.repositories, (row.2.map (·.digest)).Nodup

/-- Without some of the artifacts. The repositories stay. -/
def prune (store : ArtifactStore) (gone : String → Artifact → Bool) : ArtifactStore :=
  ⟨store.repositories.map fun row => (row.1, row.2.filter fun a => !gone row.1 a)⟩

/-- Without these artifacts of one repository. -/
def without (store : ArtifactStore) (repository : String) (gone : List Artifact) : ArtifactStore :=
  store.prune fun name a => name = repository && a ∈ gone

/-- The artifacts of a repository, none if it is unknown. -/
def held (store : ArtifactStore) (repository : String) : List Artifact :=
  (store.artifacts? repository).getD []

def Holds (store : ArtifactStore) (repository : String) (a : Artifact) : Prop :=
  ∃ artifacts, store.artifacts? repository = some artifacts ∧ a ∈ artifacts

/-! ## Looking up -/

/-- An item with a key of its own is the first one with it. -/
theorem find?_keyed {α κ : Type} [DecidableEq κ] {key : α → κ} {items : List α}
    (distinct : (items.map key).Nodup) {item : α} (mem : item ∈ items) :
    items.find? (fun other => key other = key item) = some item := by
  obtain ⟨first, found⟩ : ∃ first, items.find? (fun other => key other = key item) = some first :=
    Option.isSome_iff_exists.mp (List.find?_isSome.mpr ⟨item, mem, by simp⟩)
  have same : key first = key item := by simpa using List.find?_some found
  rw [found, List.inj_on_of_nodup_map distinct (List.mem_of_find?_eq_some found) mem same]

theorem Sound.names_nodup {store : ArtifactStore} (sound : store.Sound) : store.names.Nodup :=
  sound.ascending.imp ne_of_lt

theorem row_of_artifacts? {store : ArtifactStore} {repository : String}
    {artifacts : List Artifact} (found : store.artifacts? repository = some artifacts) :
    (repository, artifacts) ∈ store.repositories := by
  obtain ⟨row, first, rfl⟩ := Option.map_eq_some_iff.mp found
  have name : row.1 = repository := by simpa using List.find?_some first
  exact name ▸ List.mem_of_find?_eq_some first

theorem Sound.artifacts?_of_row {store : ArtifactStore} (sound : store.Sound)
    {row : String × List Artifact} (mem : row ∈ store.repositories) :
    store.artifacts? row.1 = some row.2 := by
  rw [artifacts?, find?_keyed sound.names_nodup mem]
  rfl

theorem Sound.distinct_of_artifacts? {store : ArtifactStore} (sound : store.Sound)
    {repository : String} {artifacts : List Artifact}
    (found : store.artifacts? repository = some artifacts) :
    (artifacts.map (·.digest)).Nodup :=
  sound.distinct _ (row_of_artifacts? found)

theorem Sound.distinct_held {store : ArtifactStore} (sound : store.Sound) (repository : String) :
    ((store.held repository).map (·.digest)).Nodup := by
  rw [held]
  cases found : store.artifacts? repository with
  | none => exact List.nodup_nil
  | some artifacts => exact sound.distinct_of_artifacts? found

theorem list_eq_ok {store : ArtifactStore} {repository : String} {artifacts : List Artifact} :
    store.list repository = .ok artifacts ↔ store.artifacts? repository = some artifacts := by
  unfold list
  cases store.artifacts? repository <;> simp

/-! ## Pruning -/

section Prune

variable (store : ArtifactStore) (gone also : String → Artifact → Bool)

@[simp] theorem names_prune : (store.prune gone).names = store.names := by
  simp [names, prune, Function.comp_def]

theorem prune_prune :
    (store.prune gone).prune also = store.prune fun name a => gone name a || also name a := by
  simp [prune, Function.comp_def, Bool.and_comm]

variable {store gone also}

theorem prune_congr (same : ∀ row ∈ store.repositories, ∀ a ∈ row.2,
    gone row.1 a = also row.1 a) : store.prune gone = store.prune also := by
  unfold prune
  congr 1
  refine List.map_congr_left fun row mem => ?_
  congr 1
  refine List.filter_congr fun a held => ?_
  rw [same row mem a held]

theorem prune_eq_self (none : ∀ row ∈ store.repositories, ∀ a ∈ row.2, gone row.1 a = false) :
    store.prune gone = store := by
  have stays : store.prune gone = store.prune fun _ _ => false := prune_congr none
  rw [stays, prune]
  simp

theorem artifacts?_prune (repository : String) :
    (store.prune gone).artifacts? repository =
      (store.artifacts? repository).map (·.filter fun a => !gone repository a) := by
  simp only [artifacts?, prune, List.find?_map, Option.map_map, Function.comp_def]
  cases found : store.repositories.find? (·.1 = repository) with
  | none => rfl
  | some row =>
    have name : row.1 = repository := by simpa using List.find?_some found
    simp [name]

theorem Sound.prune (sound : store.Sound) : (store.prune gone).Sound where
  ascending := by
    rw [names_prune]
    exact sound.ascending
  distinct := by
    intro row mem
    obtain ⟨old, known, rfl⟩ := List.mem_map.mp mem
    exact (sound.distinct old known).sublist (List.filter_sublist.map _)

end Prune

section Without

variable {store : ArtifactStore} {repository : String} {gone : List Artifact}

@[simp] theorem without_nil (store : ArtifactStore) (repository : String) :
    store.without repository [] = store :=
  prune_eq_self fun _ _ _ _ => by simp

theorem without_without (store : ArtifactStore) (repository : String) (gone also : List Artifact) :
    (store.without repository gone).without repository also =
      store.without repository (gone ++ also) := by
  rw [without, without, prune_prune, without]
  refine prune_congr fun row _ a _ => ?_
  by_cases same : row.1 = repository <;> simp [same]

theorem artifacts?_without {artifacts : List Artifact}
    (found : store.artifacts? repository = some artifacts) :
    (store.without repository gone).artifacts? repository =
      some (artifacts.filter fun a => a ∉ gone) := by
  simp [without, artifacts?_prune, found]

theorem artifacts?_without_other {other : String} (differs : other ≠ repository) :
    (store.without repository gone).artifacts? other = store.artifacts? other := by
  simp [without, artifacts?_prune, differs]

theorem Sound.without (sound : store.Sound) : (store.without repository gone).Sound := sound.prune

theorem Holds.without {a : Artifact} (held : store.Holds repository a) (stays : a ∉ gone) :
    (store.without repository gone).Holds repository a := by
  obtain ⟨artifacts, found, mem⟩ := held
  refine ⟨_, artifacts?_without found, List.mem_filter.mpr ⟨mem, ?_⟩⟩
  simpa using stays

/-- If at most the first of several artifacts goes, the others are still held. -/
theorem holds_rest {a : Artifact} {rest : List Artifact}
    (held : ∀ b ∈ a :: rest, store.Holds repository b) (fresh : a ∉ rest)
    (only : ∀ b ∈ gone, b = a) :
    ∀ b ∈ rest, (store.without repository gone).Holds repository b := by
  intro b mem
  refine (held b (List.mem_cons_of_mem _ mem)).without fun goes => ?_
  exact fresh (only b goes ▸ mem)

end Without

/-! ## Replacing the artifacts of a repository -/

section Rows

variable {repository : String} {artifacts : List Artifact} {rows : List (String × List Artifact)}

theorem mem_setArtifacts {row : String × List Artifact}
    (mem : row ∈ setArtifacts repository artifacts rows) :
    row = (repository, artifacts) ∨ row ∈ rows := by
  induction rows with
  | nil => simpa [setArtifacts] using mem
  | cons head rest ih =>
    obtain ⟨name, old⟩ := head
    simp only [setArtifacts] at mem
    split at mem
    · rename_i same
      subst same
      rcases List.mem_cons.mp mem with new | kept
      · exact .inl new
      · exact .inr (List.mem_cons_of_mem _ kept)
    · split at mem
      · exact List.mem_cons.mp mem
      · rcases List.mem_cons.mp mem with first | later
        · exact .inr (first ▸ List.mem_cons_self)
        · exact (ih later).imp id (List.mem_cons_of_mem _)

theorem ascending_setArtifacts (ascending : (rows.map (·.1)).Pairwise (· < ·)) :
    ((setArtifacts repository artifacts rows).map (·.1)).Pairwise (· < ·) := by
  induction rows with
  | nil => simp [setArtifacts]
  | cons head rest ih =>
    obtain ⟨name, old⟩ := head
    obtain ⟨least, ordered⟩ := List.pairwise_cons.mp ascending
    simp only [setArtifacts]
    split
    · rename_i same
      subst same
      exact ascending
    · rename_i other
      split
      · rename_i earlier
        refine List.pairwise_cons.mpr ⟨fun later mem => ?_, ascending⟩
        rcases List.mem_cons.mp mem with rfl | mem
        · exact earlier
        · exact earlier.trans (least later mem)
      · rename_i notEarlier
        have after : name < repository := lt_of_le_of_ne (not_lt.mp notEarlier) (Ne.symm other)
        refine List.pairwise_cons.mpr ⟨fun later mem => ?_, ih ordered⟩
        obtain ⟨row, held, rfl⟩ := List.mem_map.mp mem
        rcases mem_setArtifacts held with rfl | kept
        · exact after
        · exact least row.1 (List.mem_map_of_mem kept)

/-- A known repository is replaced in its place. -/
theorem setArtifacts_known (ascending : (rows.map (·.1)).Pairwise (· < ·))
    (known : repository ∈ rows.map (·.1)) :
    setArtifacts repository artifacts rows =
      rows.map fun row => if row.1 = repository then (repository, artifacts) else row := by
  induction rows with
  | nil => cases known
  | cons head rest ih =>
    obtain ⟨name, old⟩ := head
    obtain ⟨least, ordered⟩ := List.pairwise_cons.mp ascending
    rw [setArtifacts, List.map_cons]
    by_cases same : repository = name
    · subst same
      have others :
          rest.map (fun row => if row.1 = repository then (repository, artifacts) else row) =
            rest := by
        refine (List.map_congr_left fun row mem => if_neg ?_).trans rest.map_id
        exact (least row.1 (List.mem_map_of_mem mem)).ne'
      simp only [if_true, others]
    · have later : repository ∈ rest.map (·.1) := by
        simpa [same] using known
      have notEarlier : ¬repository < name := (least repository later).not_gt
      rw [if_neg same, if_neg notEarlier, if_neg (Ne.symm same), ih ordered later]

end Rows

theorem Sound.setArtifacts {store : ArtifactStore} (sound : store.Sound) {repository : String}
    {artifacts : List Artifact} (distinct : (artifacts.map (·.digest)).Nodup) :
    Sound ⟨setArtifacts repository artifacts store.repositories⟩ where
  ascending := ascending_setArtifacts sound.ascending
  distinct := by
    intro row mem
    rcases mem_setArtifacts mem with rfl | kept
    · exact distinct
    · exact sound.distinct row kept

/-! ## Insertions and removals -/

theorem Sound.insert {store : ArtifactStore} (sound : store.Sound) (a : Artifact) :
    (store.insert a).Sound := by
  have old : ((store.held a.repository).map (·.digest)).Nodup := sound.distinct_held a.repository
  refine sound.setArtifacts ?_
  rw [List.map_append]
  refine List.Nodup.append (old.sublist (List.filter_sublist.map _)) (List.nodup_singleton _) ?_
  simp [List.disjoint_singleton]

/-- A digest that occurs once is taken out by taking out all that have it. -/
theorem eraseP_digest {artifacts : List Artifact} (distinct : (artifacts.map (·.digest)).Nodup)
    (digest : String) :
    artifacts.eraseP (·.digest = digest) =
      artifacts.filter fun a => !decide (a.digest = digest) := by
  induction artifacts with
  | nil => rfl
  | cons a rest ih =>
    obtain ⟨fresh, distinct⟩ := List.nodup_cons.mp distinct
    have differs (b : Artifact) (mem : b ∈ rest) : b.digest ≠ a.digest := by
      intro again
      exact fresh (List.mem_map.mpr ⟨b, mem, again⟩)
    by_cases same : a.digest = digest
    · subst same
      have others : rest.filter (fun b => !decide (b.digest = a.digest)) = rest := by
        rw [List.filter_eq_self]
        intro b mem
        simpa using differs b mem
      simp [others]
    · simp [same, ih distinct]

/-- What is held is found, and nothing else goes. -/
theorem Sound.delete_held {store : ArtifactStore} (sound : store.Sound) {repository : String}
    {a : Artifact} (held : store.Holds repository a) :
    store.delete repository a.digest = .ok (a.size, store.without repository [a]) := by
  obtain ⟨artifacts, found, mem⟩ := held
  have distinct := sound.distinct_of_artifacts? found
  have row := row_of_artifacts? found
  have known : repository ∈ store.repositories.map (·.1) := List.mem_map_of_mem row
  unfold delete
  rw [found]
  simp only [find?_keyed distinct mem, eraseP_digest distinct,
    setArtifacts_known sound.ascending known]
  congr 3
  refine List.map_congr_left fun other listed => ?_
  by_cases same : other.1 = repository
  · obtain rfl : other = (repository, artifacts) :=
      List.inj_on_of_nodup_map sound.names_nodup listed row same
    have alike (b : Artifact) (mem' : b ∈ artifacts) : b.digest = a.digest ↔ b = a :=
      ⟨List.inj_on_of_nodup_map distinct mem' mem, congrArg Artifact.digest⟩
    simp only [if_true, decide_true, Bool.true_and, List.mem_singleton, Prod.mk.injEq, true_and]
    refine List.filter_congr fun b mem' => ?_
    simp only [alike b mem']
  · simp [same]

theorem Sound.delete {store left : ArtifactStore} (sound : store.Sound)
    {repository digest : String} {bytes : UInt64}
    (deleted : store.delete repository digest = .ok (bytes, left)) : left.Sound := by
  unfold ArtifactStore.delete at deleted
  split at deleted
  · cases deleted
  · rename_i artifacts found
    split at deleted
    · cases deleted
    · simp only [Except.ok.injEq, Prod.mk.injEq] at deleted
      obtain ⟨-, rfl⟩ := deleted
      exact sound.setArtifacts
        ((sound.distinct_of_artifacts? found).sublist (List.eraseP_sublist.map _))

theorem Sound.change {store : ArtifactStore} (sound : store.Sound) (c : StoreChange) :
    (store.change c).Sound := by
  cases c with
  | insert a => exact sound.insert a
  | delete repository digest =>
    simp only [ArtifactStore.change]
    split
    · rename_i bytes left deleted
      exact sound.delete deleted
    · exact sound

theorem sound_built (changes : List StoreChange) : (built changes).Sound := by
  have empty : Sound {} := ⟨List.Pairwise.nil, by simp⟩
  have run (store : ArtifactStore) (sound : store.Sound) : (changes.foldl change store).Sound := by
    induction changes generalizing store with
    | nil => exact sound
    | cons c rest ih => exact ih (store.change c) (sound.change c)
  exact run {} empty

end ArtifactStore

end JobEngine
