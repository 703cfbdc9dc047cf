import JobEngine.Maintenance.Collection
import JobEngine.Proofs.SoleRuns
import Mathlib.Data.List.Flatten
import Mathlib.Data.List.Perm.Basic

/-!
# What a collection leaves

A collection goes through the repositories in the order of their names. In each
it finds the untagged artifacts and, unless it is a dry run, removes just these,
since no removal fails while nobody else changes the store. A command ends it
before the next repository, so the work is done up to a repository and not at
all from there on, and whoever collects later takes it up there. Only a sum of
bytes that does not fit ends it within a repository.
-/
namespace JobEngine

namespace ArtifactStore

/-- The untagged artifacts of a repository. -/
def untaggedIn (store : ArtifactStore) (repository : String) : List Artifact :=
  ((store.artifacts? repository).getD []).filter (·.isUntagged)

def untagged (store : ArtifactStore) : List Artifact :=
  (store.repositories.flatMap (·.2)).filter (·.isUntagged)

/-- Without these artifacts, each of them with its repository. -/
def less (store : ArtifactStore) (items : List (String × Artifact)) : ArtifactStore :=
  store.prune fun name a => (name, a) ∈ items

/-- Without the untagged artifacts of some repositories. -/
def tidied (store : ArtifactStore) (repositories : List String) : ArtifactStore :=
  store.prune fun name a => name ∈ repositories && a.isUntagged

section

variable {store : ArtifactStore}

@[simp] theorem less_nil (store : ArtifactStore) : store.less [] = store :=
  prune_eq_self fun _ _ _ _ => by simp

theorem less_less (store : ArtifactStore) (items more : List (String × Artifact)) :
    (store.less items).less more = store.less (items ++ more) := by
  rw [less, less, prune_prune, less]
  exact prune_congr fun _ _ _ _ => by simp

theorem without_eq_less (store : ArtifactStore) (repository : String) (gone : List Artifact) :
    store.without repository gone = store.less (gone.map (repository, ·)) :=
  prune_congr fun row _ a _ => by simp [and_comm, eq_comm]

theorem Sound.untaggedIn_row (sound : store.Sound) {row : String × List Artifact}
    (mem : row ∈ store.repositories) :
    store.untaggedIn row.1 = row.2.filter (·.isUntagged) := by
  rw [untaggedIn, sound.artifacts?_of_row mem, Option.getD_some]

theorem Sound.untagged_eq (sound : store.Sound) :
    store.names.flatMap store.untaggedIn = store.untagged := by
  rw [names, List.flatMap_map, untagged, List.filter_flatMap]
  exact List.flatMap_congr fun row mem => sound.untaggedIn_row mem

@[simp] theorem names_tidied (store : ArtifactStore) (repositories : List String) :
    (store.tidied repositories).names = store.names := names_prune _ _

theorem tidied_tidied (store : ArtifactStore) (first second : List String) :
    (store.tidied first).tidied second = store.tidied (first ++ second) := by
  rw [tidied, tidied, prune_prune, tidied]
  refine prune_congr fun row _ a _ => ?_
  by_cases early : row.1 ∈ first <;> simp [early]

theorem tidied_congr {first second : List String} (same : ∀ name, name ∈ first ↔ name ∈ second) :
    store.tidied first = store.tidied second := by
  simp only [tidied, same]

/-- What is left when all repositories are tidied. -/
theorem repositories_tidied (store : ArtifactStore) :
    (store.tidied store.names).repositories =
      store.repositories.map fun row => (row.1, row.2.filter fun a => !a.isUntagged) := by
  refine List.map_congr_left fun row mem => ?_
  have known : row.1 ∈ store.names := List.mem_map_of_mem mem
  simp only [known, decide_true, Bool.true_and]

theorem untaggedIn_tidied {repository : String} {repositories : List String}
    (tidy : repository ∈ repositories) :
    (store.tidied repositories).untaggedIn repository = [] := by
  rw [untaggedIn, tidied, artifacts?_prune]
  cases store.artifacts? repository <;> simp [tidy]

/-- Repositories are tidied by taking their untagged artifacts. -/
theorem Sound.less_untagged (sound : store.Sound) (names : List String) :
    store.less (names.flatMap fun name => (store.untaggedIn name).map (name, ·)) =
      store.tidied names := by
  rw [less, tidied]
  refine prune_congr fun row mem a held => ?_
  have found : a ∈ store.untaggedIn row.1 ↔ a.isUntagged = true := by
    rw [sound.untaggedIn_row mem, List.mem_filter]
    exact and_iff_right held
  have listed : (row.1, a) ∈ names.flatMap (fun name => (store.untaggedIn name).map (name, ·)) ↔
      row.1 ∈ names ∧ a.isUntagged = true := by
    simp [found]
  simp only [listed, Bool.decide_and, Bool.decide_eq_true]

/-- Whatever goes, what is untagged then was untagged before. -/
theorem untagged_prune (store : ArtifactStore) (gone : String → Artifact → Bool) :
    (store.prune gone).untagged.Sublist store.untagged := by
  refine List.Sublist.filter _ ?_
  rw [prune, List.flatMap_map]
  exact List.Sublist.flatMap_right _ fun row _ => List.filter_sublist

theorem untaggedIn_without_other {repository other : String} {gone : List Artifact}
    (differs : other ≠ repository) :
    (store.without repository gone).untaggedIn other = store.untaggedIn other := by
  rw [untaggedIn, artifacts?_without_other differs, untaggedIn]

end

end ArtifactStore

namespace Maintenance

/-- Of what is to go, what does. -/
def letGo {α : Type} (dryRun : Bool) (doomed : List α) : List α := if dryRun then [] else doomed

section LetGo

variable {α β : Type} {dryRun : Bool}

@[simp] theorem letGo_nil (dryRun : Bool) : letGo dryRun ([] : List α) = [] := by
  cases dryRun <;> rfl

theorem letGo_append (dryRun : Bool) (doomed more : List α) :
    letGo dryRun (doomed ++ more) = letGo dryRun doomed ++ letGo dryRun more := by
  cases dryRun <;> rfl

theorem letGo_map (dryRun : Bool) (f : α → β) (doomed : List α) :
    letGo dryRun (doomed.map f) = (letGo dryRun doomed).map f := by
  cases dryRun <;> rfl

theorem mem_of_mem_letGo {doomed : List α} {a : α} (mem : a ∈ letGo dryRun doomed) :
    a ∈ doomed := by
  cases dryRun with
  | false => exact mem
  | true => cases mem

end LetGo

/-- The name under which an artifact is removed. -/
def removalName (item : String × Artifact) : String × String := (item.1, item.2.digest)

namespace Collection

/-! ## Bytes -/

def bytes (artifacts : List Artifact) : Nat :=
  artifacts.foldr (fun a total => a.size.toNat + total) 0

theorem bytes_cons (a : Artifact) (artifacts : List Artifact) :
    bytes (a :: artifacts) = a.size.toNat + bytes artifacts := rfl

theorem bytes_append (artifacts more : List Artifact) :
    bytes (artifacts ++ more) = bytes artifacts + bytes more := by
  induction artifacts with
  | nil => simp [bytes]
  | cons a artifacts ih =>
    rw [List.cons_append, bytes_cons, bytes_cons, ih]
    omega

theorem bytes_le_of_subperm {artifacts more : List Artifact} (among : artifacts.Subperm more) :
    bytes artifacts ≤ bytes more := by
  obtain ⟨order, same, within⟩ := among
  have rearranged : bytes order = bytes artifacts := same.foldr_eq' (fun _ _ _ _ _ => by omega) 0
  rw [← rearranged]
  clear same rearranged
  induction within with
  | slnil => exact le_refl _
  | cons a within ih =>
    rw [bytes_cons]
    omega
  | cons_cons a within ih =>
    rw [bytes_cons, bytes_cons]
    omega

/-- After `total` other bytes those of the last of these artifacts do not fit any more; those of the
others do. -/
def Overfills (total : Nat) (artifacts : List Artifact) : Prop :=
  ∃ before last, artifacts = before ++ [last] ∧ total + bytes before < 2 ^ 64 ∧
    2 ^ 64 ≤ total + bytes artifacts

theorem Overfills.after {total : Nat} {front artifacts : List Artifact}
    (overfills : Overfills (total + bytes front) artifacts) :
    Overfills total (front ++ artifacts) := by
  obtain ⟨before, last, rfl, fits, full⟩ := overfills
  refine ⟨front ++ before, last, (List.append_assoc ..).symm, ?_, ?_⟩
  · rwa [bytes_append, ← Nat.add_assoc]
  · rwa [bytes_append, ← Nat.add_assoc]

theorem not_overfills {total : Nat} {artifacts all : List Artifact} (begun : artifacts <+: all)
    (fits : total + bytes all < 2 ^ 64) : ¬Overfills total artifacts := by
  rintro ⟨before, last, -, -, full⟩
  have less := bytes_le_of_subperm begun.sublist.subperm
  omega

/-! ## Reports -/

namespace Report

/-- The report after so many more repositories and these more artifacts. -/
def plus (r : Report) (repositories : Nat) (artifacts : List Artifact) : Report :=
  { r with
    repositories := r.repositories + repositories
    deleted := r.deleted + artifacts.length
    freedBytes := r.freedBytes + .ofNat (bytes artifacts) }

variable (r : Report) (n m : Nat) (artifacts more : List Artifact)

@[simp] theorem plus_nothing : r.plus 0 [] = r := by
  simp [plus, bytes]

@[simp] theorem dryRun_plus : (r.plus n artifacts).dryRun = r.dryRun := rfl

theorem plus_plus : (r.plus n artifacts).plus m more = r.plus (n + m) (artifacts ++ more) := by
  simp [plus, bytes_append, UInt64.ofNat_add, Nat.add_assoc, UInt64.add_assoc]

/-- As long as they fit the bytes are those of all that was counted. -/
theorem freedBytes_plus {r : Report} {artifacts : List Artifact}
    (fits : r.freedBytes.toNat + bytes artifacts < 2 ^ 64) :
    (r.plus n artifacts).freedBytes.toNat = r.freedBytes.toNat + bytes artifacts := by
  have small : bytes artifacts % 2 ^ 64 = bytes artifacts := Nat.mod_eq_of_lt (by omega)
  rw [plus, UInt64.toNat_add, UInt64.toNat_ofNat', small, Nat.mod_eq_of_lt fits]

theorem add_eq (a : Artifact) : r.add a.size = r.plus 0 [a] := by
  simp [add, plus, bytes]

theorem countArtifact_fits {bytes : UInt64} (next : Report → Activity)
    (fits : r.freedBytes.toNat + bytes.toNat < 2 ^ 64) :
    r.countArtifact bytes next = next (r.add bytes) := if_pos fits

theorem countArtifact_full {bytes : UInt64} (next : Report → Activity)
    (full : 2 ^ 64 ≤ r.freedBytes.toNat + bytes.toNat) :
    r.countArtifact bytes next = .fault (.crash overflow) := if_neg (not_lt.mpr full)

theorem countRepository_eq : r.countRepository = r.plus 1 [] := by
  simp [countRepository, plus, bytes]

end Report

/-! ## One repository -/

section Sweep

variable {repository : String} {next : Report → Activity} {report : Report} {store : ArtifactStore}
  {errand : Errand}

/-- A tagged artifact is passed over. An untagged one goes, except in a dry run, and is counted; the
collection crashes if its bytes do not fit any more. -/
theorem works_sweep_cons {a : Artifact} {rest : List Artifact} (sound : store.Sound)
    (held : store.Holds repository a)
    (works : (sweep repository next (a :: rest) report).Works store errand) :
    let found := [a].filter (·.isUntagged)
    let left := store.without repository (letGo report.dryRun found)
    ∃ later, errand.Clears repository (letGo report.dryRun found) later ∧
      (report.freedBytes.toNat + bytes found < 2 ^ 64 ∧
          (sweep repository next rest (report.plus 0 found)).Works left later ∨
        Overfills report.freedBytes.toNat found ∧
          (Activity.fault (.crash overflow)).Works left later) := by
  unfold sweep at works
  have small : report.freedBytes.toNat < 2 ^ 64 := report.freedBytes.toNat_lt
  cases tagged : a.isUntagged with
  | false =>
    have nothing : [a].filter (·.isUntagged) = [] := by simp [tagged]
    simp only [tagged, Bool.not_false, if_true] at works
    simp only [nothing, letGo_nil, Report.plus_nothing, ArtifactStore.without_nil]
    exact ⟨errand, .refl errand repository, .inl ⟨small, works⟩⟩
  | true =>
    have one : [a].filter (·.isUntagged) = [a] := by simp [tagged]
    simp only [tagged, Bool.not_true, Bool.false_eq_true, if_false] at works
    rw [one]
    have counted := lt_or_ge (report.freedBytes.toNat + a.size.toNat) (2 ^ 64)
    cases dry : report.dryRun with
    | true =>
      rw [dry, if_pos rfl] at works
      cases works with
      | @log _ _ _ _ later works =>
        refine ⟨later, ⟨rfl, rfl, rfl, rfl, rfl⟩, ?_⟩
        rw [letGo, if_pos rfl, ArtifactStore.without_nil]
        rcases counted with fits | full
        · rw [report.countArtifact_fits _ fits, Report.add_eq] at works
          exact .inl ⟨fits, works⟩
        · rw [report.countArtifact_full _ full] at works
          exact .inr ⟨⟨[], a, rfl, small, full⟩, works⟩
    | false =>
      simp only [dry, Bool.false_eq_true, if_false] at works
      cases works with
      | @delete _ _ _ _ later works =>
        simp only [ArtifactStore.change, sound.delete_held held, Except.map] at works
        rcases counted with fits | full
        · rw [report.countArtifact_fits _ fits, Report.add_eq] at works
          cases works with
          | @log _ _ _ _ later works =>
            exact ⟨later, ⟨rfl, rfl, rfl, rfl, rfl⟩, .inl ⟨fits, works⟩⟩
        · rw [report.countArtifact_full _ full] at works
          exact ⟨later, ⟨rfl, rfl, rfl, rfl, rfl⟩, .inr ⟨⟨[], a, rfl, small, full⟩, works⟩⟩

/-- A collection goes through all that a repository lists, or it crashes on the way. -/
theorem works_sweep {candidates : List Artifact} (sound : store.Sound)
    (held : ∀ a ∈ candidates, store.Holds repository a) (nodup : candidates.Nodup)
    (works : (sweep repository next candidates report).Works store errand) :
    let found := candidates.filter (·.isUntagged)
    let left gone := store.without repository (letGo report.dryRun gone)
    (report.freedBytes.toNat + bytes found < 2 ^ 64 ∧
        ∃ later, errand.Clears repository (letGo report.dryRun found) later ∧
          (next (report.plus 0 found)).Works (left found) later) ∨
      ∃ gone later, gone <+: found ∧ Overfills report.freedBytes.toNat gone ∧
        errand.Clears repository (letGo report.dryRun gone) later ∧
        (Activity.fault (.crash overflow)).Works (left gone) later := by
  induction candidates generalizing report store errand with
  | nil =>
    simp only [List.filter_nil, letGo_nil, Report.plus_nothing, ArtifactStore.without_nil]
    exact .inl ⟨report.freedBytes.toNat_lt, errand, .refl errand repository, works⟩
  | cons a candidates ih =>
    obtain ⟨fresh, nodup⟩ := List.nodup_cons.mp nodup
    obtain ⟨later, first, goes⟩ := works_sweep_cons sound (held a List.mem_cons_self) works
    have split : (a :: candidates).filter (·.isUntagged) =
        [a].filter (·.isUntagged) ++ candidates.filter (·.isUntagged) :=
      List.filter_append [a] candidates
    rw [split]
    rcases goes with ⟨fits, works⟩ | ⟨overfills, works⟩
    · have only (b : Artifact) (gone : b ∈ letGo report.dryRun ([a].filter (·.isUntagged))) :
          b = a :=
        List.mem_singleton.mp (List.mem_of_mem_filter (mem_of_mem_letGo gone))
      have still := ArtifactStore.holds_rest held fresh only
      have rest := ih sound.without still nodup works
      simp only [Report.plus_plus, Report.freedBytes_plus 0 fits, Report.dryRun_plus,
        ArtifactStore.without_without, ← letGo_append] at rest
      rcases rest with ⟨fits, last, second, works⟩ | ⟨gone, last, begun, overfills, second, works⟩
      · refine .inl ⟨?_, last, ?_, works⟩
        · rwa [bytes_append, ← Nat.add_assoc]
        · rw [letGo_append]
          exact first.trans second
      · refine .inr ⟨_, last, (List.prefix_append_right_inj _).mpr begun, overfills.after, ?_, works⟩
        rw [letGo_append]
        exact first.trans second
    · exact .inr ⟨_, later, List.prefix_append .., overfills, first, works⟩

end Sweep

/-! ## All repositories -/

section Collect

variable {deleteUntagged : Bool} {report : Report} {store : ArtifactStore} {errand : Errand}

/-- What a collection finds in a repository. -/
def found (deleteUntagged : Bool) (store : ArtifactStore) (repository : String) : List Artifact :=
  if deleteUntagged then store.untaggedIn repository else []

/-- What a collection finds in these repositories, each artifact with its repository. -/
def findings (deleteUntagged : Bool) (store : ArtifactStore) (names : List String) :
    List (String × Artifact) :=
  names.flatMap fun name => (found deleteUntagged store name).map (name, ·)

theorem findings_cons (repository : String) (others : List String) :
    findings deleteUntagged store (repository :: others) =
      (found deleteUntagged store repository).map (repository, ·) ++
        findings deleteUntagged store others := List.flatMap_cons

theorem findings_map_snd (names : List String) :
    (findings deleteUntagged store names).map Prod.snd =
      names.flatMap (found deleteUntagged store) := by
  rw [findings, List.map_flatMap]
  refine List.flatMap_congr fun name _ => ?_
  rw [List.map_map]
  exact List.map_id _

/-- Just these artifacts have been dealt with: unless it is a dry run they were removed, one after
the other, and nothing else is gone. -/
structure Disposes (dryRun : Bool) (store : ArtifactStore) (items : List (String × Artifact))
    (left : ArtifactStore) (removed : List (String × String)) : Prop where
  left : left = store.less (letGo dryRun items)
  removed : removed = (letGo dryRun items).map removalName

theorem disposes_none (dryRun : Bool) (store : ArtifactStore) :
    Disposes dryRun store [] store [] where
  left := by rw [letGo_nil, ArtifactStore.less_nil]
  removed := by rw [letGo_nil, List.map_nil]

/-- Some artifacts of one repository first, and then the others. -/
theorem Disposes.cons {dryRun : Bool} {repository : String} {gone : List Artifact}
    {items : List (String × Artifact)} {later last : Errand}
    (clears : later.Clears repository (letGo dryRun gone) last)
    (disposes : Disposes dryRun (store.without repository (letGo dryRun gone)) items last.left
      (removals last.deeds)) :
    Disposes dryRun store (gone.map (repository, ·) ++ items) later.left
      (removals later.deeds) where
  left := by
    rw [clears.left, disposes.left, ArtifactStore.without_eq_less, ArtifactStore.less_less,
      letGo_append, letGo_map]
  removed := by
    rw [clears.removes, disposes.removed, letGo_append, letGo_map, List.map_append, List.map_map]
    rfl

/-- How a collection of these repositories comes to its end, and what it has dealt with by then. -/
inductive Course (deleteUntagged : Bool) (store : ArtifactStore) (names : List String)
    (report : Report) (errand : Errand) : List (String × Artifact) → Prop
  | whole
      (fits : report.freedBytes.toNat +
        bytes (names.flatMap (found deleteUntagged store)) < 2 ^ 64)
      (completes : errand.Completes names.length
        (report.plus names.length (names.flatMap (found deleteUntagged store))).encode.text) :
      Course deleteUntagged store names report errand (findings deleteUntagged store names)
  /-- A command was met at the checkpoint after these repositories. -/
  | halted {past : List String} {command : Command} (begun : past <+: names)
      (within : past.length < names.length) (halts : errand.Halts past.length command) :
      Course deleteUntagged store names report errand (findings deleteUntagged store past)
  /-- The bytes did not fit any more. -/
  | overfull {items : List (String × Artifact)} {checkpoints : Nat}
      (begun : items <+: findings deleteUntagged store names)
      (overfills : Overfills report.freedBytes.toNat (items.map Prod.snd))
      (within : checkpoints ≤ names.length) (crashes : errand.Crashes checkpoints overflow) :
      Course deleteUntagged store names report errand items

/-- The other repositories are as they were. -/
theorem found_without {repository other : String} {gone : List Artifact}
    (differs : other ≠ repository) :
    found deleteUntagged (store.without repository gone) other =
      found deleteUntagged store other := by
  rw [found, ArtifactStore.untaggedIn_without_other differs, found]

theorem found_others {repository : String} {others : List String} (fresh : repository ∉ others)
    (gone : List Artifact) {name : String} (mem : name ∈ others) :
    found deleteUntagged (store.without repository gone) name =
      found deleteUntagged store name := by
  refine found_without ?_
  rintro rfl
  exact fresh mem

theorem findings_others {repository : String} {others names : List String}
    (fresh : repository ∉ others) (gone : List Artifact) (among : names ⊆ others) :
    findings deleteUntagged (store.without repository gone) names =
      findings deleteUntagged store names :=
  List.flatMap_congr fun name mem => by rw [found_others fresh gone (among mem)]

/-- One more repository in front, which was searched. -/
theorem Course.cons {repository : String} {others : List String} (fresh : repository ∉ others)
    {gone : List Artifact} {later last : Errand} {items : List (String × Artifact)}
    (fits : report.freedBytes.toNat + bytes (found deleteUntagged store repository) < 2 ^ 64)
    (clears : later.Clears repository gone last)
    (course : Course deleteUntagged (store.without repository gone) others
      (report.plus 1 (found deleteUntagged store repository)) last items) :
    Course deleteUntagged store (repository :: others) report (later.heard none)
      ((found deleteUntagged store repository).map (repository, ·) ++ items) := by
  have counted := Report.freedBytes_plus 1 fits
  cases course with
  | whole fits completes =>
    have same : others.flatMap (found deleteUntagged (store.without repository gone)) =
        others.flatMap (found deleteUntagged store) :=
      List.flatMap_congr fun name mem => found_others fresh gone mem
    rw [counted, same, Nat.add_assoc, ← bytes_append] at fits
    rw [same, Report.plus_plus, Nat.add_comm 1] at completes
    rw [findings_others fresh gone (List.Subset.refl others), ← findings_cons]
    exact .whole fits (clears.completes completes).heard
  | @halted past command begun within halts =>
    rw [findings_others fresh gone begun.subset, ← findings_cons]
    exact .halted (List.cons_prefix_cons.mpr ⟨rfl, begun⟩) (Nat.succ_lt_succ within)
      (clears.halts halts).heard
  | overfull begun overfills within crashes =>
    rw [findings_others fresh gone (List.Subset.refl others)] at begun
    rw [counted] at overfills
    refine .overfull ?_ ?_ (Nat.succ_le_succ within) (clears.crashes crashes).heard
    · rw [findings_cons]
      exact (List.prefix_append_right_inj _).mpr begun
    · rw [List.map_append, List.map_map]
      exact (List.map_id (found deleteUntagged store repository)).symm ▸ overfills.after

/-- A repository is counted and searched, unless a command comes first. The collection crashes in it
if the bytes do not fit any more. -/
theorem works_collect_cons {repository : String} {rest : List String} (sound : store.Sound)
    (known : repository ∈ store.names)
    (works : (collect deleteUntagged (repository :: rest) report).Works store errand) :
    let found := found deleteUntagged store repository
    let left gone := store.without repository (letGo report.dryRun gone)
    errand.Stops store ∨ ∃ later last : Errand, errand = later.heard none ∧
      (report.freedBytes.toNat + bytes found < 2 ^ 64 ∧
          later.Clears repository (letGo report.dryRun found) last ∧
          (collect deleteUntagged rest (report.plus 1 found)).Works (left found) last ∨
        ∃ gone, gone <+: found ∧ Overfills report.freedBytes.toNat gone ∧
          later.Clears repository (letGo report.dryRun gone) last ∧
          (Activity.fault (.crash overflow)).Works (left gone) last) := by
  unfold collect at works
  rcases works.checkpoint with ⟨later, onward, rfl⟩ | halted
  · right
    cases deleteUntagged with
    | false =>
      have nothing : found false store repository = [] := rfl
      simp only [Bool.false_eq_true, if_false, Report.countRepository_eq] at onward
      refine ⟨later, later, rfl, .inl ⟨report.freedBytes.toNat_lt, ?_, ?_⟩⟩
      · rw [nothing, letGo_nil]
        exact .refl later repository
      · simp only [nothing, letGo_nil, ArtifactStore.without_nil]
        exact onward
    | true =>
      obtain ⟨row, mem, rfl⟩ := List.mem_map.mp known
      have listed := sound.artifacts?_of_row mem
      have held (a : Artifact) (mem : a ∈ row.2) : store.Holds row.1 a := ⟨row.2, listed, mem⟩
      have nodup : row.2.Nodup := (sound.distinct row mem).of_map _
      have all : found true store row.1 = row.2.filter (·.isUntagged) := sound.untaggedIn_row mem
      have fresh : (report.plus 1 []).freedBytes = report.freedBytes := by simp [Report.plus, bytes]
      simp only [if_true, Report.countRepository_eq] at onward
      cases onward with
      | list onward =>
        rw [ArtifactStore.list_eq_ok.mpr listed] at onward
        have swept := works_sweep sound held nodup onward
        simp only [fresh, Report.plus_plus, Report.dryRun_plus] at swept
        rw [all]
        rcases swept with ⟨fits, last, clears, onward⟩ | ⟨gone, last, begun, overfills, crash⟩
        · exact ⟨later, last, rfl, .inl ⟨fits, clears, onward⟩⟩
        · exact ⟨later, last, rfl, .inr ⟨gone, begun, overfills, crash⟩⟩
  · exact .inl halted

/-- A collection goes through the repositories in order, one after the other. -/
theorem works_collect {names : List String} (sound : store.Sound) (nodup : names.Nodup)
    (known : ∀ name ∈ names, name ∈ store.names)
    (works : (collect deleteUntagged names report).Works store errand) :
    ∃ items, Disposes report.dryRun store items errand.left (removals errand.deeds) ∧
      Course deleteUntagged store names report errand items := by
  induction names generalizing report store errand with
  | nil =>
    cases works with
    | checkIn works =>
      cases works with
      | done =>
        refine ⟨_, disposes_none _ _, .whole report.freedBytes.toNat_lt ⟨rfl, rfl, ?_⟩⟩
        rw [List.length_nil, List.flatMap_nil, Report.plus_nothing]
        rfl
  | cons repository others ih =>
    obtain ⟨fresh, nodup⟩ := List.nodup_cons.mp nodup
    rcases works_collect_cons sound (known repository List.mem_cons_self) works with
      ⟨command, halts, left, removes⟩ |
      ⟨later, last, rfl, ⟨fits, clears, works⟩ | ⟨gone, begun, overfills, clears, works⟩⟩
    · refine ⟨_, ?_, .halted List.nil_prefix (Nat.succ_pos _) halts⟩
      rw [left, removes]
      exact disposes_none _ _
    · have still (name : String) (mem : name ∈ others) :
          name ∈ (store.without repository
            (letGo report.dryRun (found deleteUntagged store repository))).names := by
        rw [ArtifactStore.without, ArtifactStore.names_prune]
        exact known name (List.mem_cons_of_mem _ mem)
      obtain ⟨items, disposes, course⟩ := ih sound.without nodup still works
      have dealt := disposes.cons clears
      exact ⟨_, dealt, course.cons fresh fits clears⟩
    · obtain ⟨crashes, left, removes⟩ := works.crashes
      have rest := disposes_none report.dryRun
        (store.without repository (letGo report.dryRun gone))
      have dealt := Disposes.cons clears (by rwa [left, removes])
      rw [List.append_nil] at dealt
      refine ⟨_, dealt, .overfull ?_ ?_ (Nat.succ_le_succ (Nat.zero_le _))
        (clears.crashes crashes).heard⟩
      · rw [findings_cons]
        exact (begun.map _).trans (List.prefix_append ..)
      · rw [List.map_map]
        exact (List.map_id gone).symm ▸ overfills

end Collect

/-! ## Whole collections -/

section Whole

variable {parameters : Parameters} {params : Params} {store : ArtifactStore}

/-- What a collection of the whole store finds. -/
def doomed (params : Params) (store : ArtifactStore) : List Artifact :=
  if params.deleteUntagged then store.untagged else []

/-- What a collection reports that has gone through the whole store. -/
def summary (params : Params) (store : ArtifactStore) : Report where
  repositories := store.names.length
  deleted := (doomed params store).length
  freedBytes := .ofNat (bytes (doomed params store))
  dryRun := params.dryRun

theorem found_all (sound : store.Sound) (params : Params) :
    store.names.flatMap (found params.deleteUntagged store) = doomed params store := by
  unfold doomed
  cases params.deleteUntagged with
  | false => exact List.flatMap_eq_nil_iff.mpr fun _ _ => rfl
  | true => exact sound.untagged_eq

theorem not_overfull (sound : store.Sound) {items : List (String × Artifact)}
    (fits : bytes (doomed params store) < 2 ^ 64)
    (begun : items <+: findings params.deleteUntagged store store.names) :
    ¬Overfills 0 (items.map Prod.snd) := by
  have among := begun.map Prod.snd
  rw [findings_map_snd, found_all sound] at among
  exact not_overfills among (by omega)

theorem plus_doomed (params : Params) (store : ArtifactStore) :
    ({ dryRun := params.dryRun } : Report).plus store.names.length (doomed params store) =
      summary params store := by
  simp [Report.plus, summary]

/-- The same of a collection that is alone with the artifacts. -/
theorem run_collects (sound : store.Sound) (decoded : Params.decode parameters = .ok params)
    (run : SoleRun job parameters store) :
    ∃ n errand items, run.ComesTo n errand ∧
      Disposes params.dryRun store items (run.left n) (removals (run.deeds n)) ∧
      Course params.deleteUntagged store store.names { dryRun := params.dryRun } errand items := by
  have runs (id : JobId) (jobType : String) (earlier : Nat) :
      job.run ⟨id, jobType, parameters, earlier⟩ = Collection.run params := by
    simp only [job, decoded]
  obtain ⟨n, errand, works, comes⟩ := run.comes_to runs
  cases works with
  | repositories works =>
    obtain ⟨items, disposes, course⟩ :=
      works_collect sound sound.names_nodup (fun _ mem => mem) works
    rw [← comes.left, ← comes.removals] at disposes
    exact ⟨n, errand, items, comes, disposes, course⟩

theorem findings_kept (store : ArtifactStore) (names : List String) :
    findings false store names = [] :=
  List.flatMap_eq_nil_iff.mpr fun _ _ => rfl

/-- Nothing is found in repositories that were tidied before. -/
theorem findings_tidied {first names : List String} (deleteUntagged : Bool)
    (within : names ⊆ first) : findings deleteUntagged (store.tidied first) names = [] :=
  List.flatMap_eq_nil_iff.mpr fun name mem => by
    rw [found, ArtifactStore.untaggedIn_tidied (within mem), ite_self, List.map_nil]

theorem less_findings (sound : store.Sound) (names : List String) :
    store.less (findings true store names) = store.tidied names :=
  sound.less_untagged names

/-- A collection that finds nothing removes nothing, and either it completes or it is halted. -/
theorem course_of_none {names : List String} {deleteUntagged : Bool} {report : Report}
    {errand : Errand} {items : List (String × Artifact)}
    (none : findings deleteUntagged store names = [])
    (course : Course deleteUntagged store names report errand items) :
    items = [] ∧ (errand.Completes names.length (report.plus names.length []).encode.text ∨
      ∃ before command, before < names.length ∧ errand.Halts before command) := by
  have nothing : names.flatMap (found deleteUntagged store) = [] := by
    rw [← findings_map_snd, none, List.map_nil]
  cases course with
  | whole fits completes =>
    rw [nothing] at completes
    exact ⟨none, .inl completes⟩
  | halted begun within halts =>
    have sub := begun.sublist.flatMap fun name => (found deleteUntagged store name).map (name, ·)
    exact ⟨List.sublist_nil.mp (none ▸ sub), .inr ⟨_, _, within, halts⟩⟩
  | overfull begun overfills =>
    obtain rfl := List.prefix_nil.mp (none ▸ begun)
    exact absurd overfills (not_overfills List.prefix_rfl report.freedBytes.toNat_lt)

/-- A collection that finds everything collected removes nothing. -/
theorem collected_again (sound : store.Sound) (decoded : Params.decode parameters = .ok params)
    (again : SoleRun job parameters (store.tidied store.names)) :
    ∃ m, again.Ends m ∧ removals (again.deeds m) = [] ∧
      again.left m = store.tidied store.names := by
  have tidy : (store.tidied store.names).Sound := sound.prune
  obtain ⟨m, errand, items, comes, disposes, course⟩ := run_collects tidy decoded again
  rw [ArtifactStore.names_tidied] at course
  obtain ⟨rfl, ends⟩ := course_of_none (findings_tidied _ (List.Subset.refl _)) course
  refine ⟨m, ?_, ?_, ?_⟩
  · rcases ends with completes | ⟨before, command, -, halts⟩
    · exact .inl ⟨_, _, comes.completes completes⟩
    · exact .inr ⟨before, command, comes.halts halts⟩
  · rw [disposes.removed, letGo_nil, List.map_nil]
  · rw [disposes.left, letGo_nil, ArtifactStore.less_nil]

/-- A collection that finds the first repositories collected does the others. -/
theorem later_collects (sound : store.Sound) (decoded : Params.decode parameters = .ok params)
    (untagged : params.deleteUntagged = true) (real : params.dryRun = false)
    (bounded : bytes store.untagged < 2 ^ 64) {past : List String} (begun : past <+: store.names)
    (later : SoleRun job parameters (store.tidied past)) :
    ∃ m, (∃ report, later.Completes m store.names.length report ∧
        later.left m = store.tidied store.names) ∨
      ∃ before command, later.Halts m before command := by
  have tidy : (store.tidied past).Sound := sound.prune
  obtain ⟨m, errand, items, comes, disposes, course⟩ := run_collects tidy decoded later
  refine ⟨m, ?_⟩
  cases course with
  | whole fits completes =>
    rw [ArtifactStore.names_tidied] at completes
    refine .inl ⟨_, comes.completes completes, ?_⟩
    have both (name : String) : name ∈ past ++ (store.tidied past).names ↔ name ∈ store.names := by
      rw [List.mem_append, ArtifactStore.names_tidied]
      exact or_iff_right_of_imp fun mem => begun.subset mem
    calc
      later.left m = (store.tidied past).tidied (store.tidied past).names := by
        rw [disposes.left, untagged, real]
        exact less_findings tidy _
      _ = store.tidied (past ++ (store.tidied past).names) := ArtifactStore.tidied_tidied ..
      _ = store.tidied store.names := ArtifactStore.tidied_congr both
  | halted begun within halts => exact .inr ⟨_, _, comes.halts halts⟩
  | overfull begun overfills =>
    have less : bytes (store.tidied past).untagged ≤ bytes store.untagged :=
      bytes_le_of_subperm (store.untagged_prune _).subperm
    have fits : bytes (doomed params (store.tidied past)) < 2 ^ 64 := by
      rw [doomed, if_pos untagged]
      omega
    exact absurd overfills (not_overfull tidy fits begun)

/-- Where untagged artifacts are not to be removed none is. -/
theorem keeps_all (sound : store.Sound) (decoded : Params.decode parameters = .ok params)
    (kept : params.deleteUntagged = false) (run : SoleRun job parameters store) :
    ∃ n, removals (run.deeds n) = [] ∧ run.left n = store ∧
      (run.Completes n store.names.length
          (Report.mk store.names.length 0 0 params.dryRun).encode.text ∨
        ∃ before command, before < store.names.length ∧ run.Halts n before command) := by
  obtain ⟨n, errand, items, comes, disposes, course⟩ := run_collects sound decoded run
  rw [kept] at course
  obtain ⟨rfl, ends⟩ := course_of_none (findings_kept store store.names) course
  refine ⟨n, ?_, ?_, ?_⟩
  · rw [disposes.removed, letGo_nil, List.map_nil]
  · rw [disposes.left, letGo_nil, ArtifactStore.less_nil]
  · rcases ends with completes | ⟨before, command, within, halts⟩
    · have blank : ({ dryRun := params.dryRun } : Report).plus store.names.length [] =
          Report.mk store.names.length 0 0 params.dryRun := by
        simp [Report.plus, bytes]
      rw [blank] at completes
      exact .inl (comes.completes completes)
    · exact .inr ⟨before, command, within, comes.halts halts⟩

/-- A collection that meets no command reports on all repositories and untagged artifacts and leaves
the tagged ones, and whoever collects then finds nothing to remove. One that meets a command has
collected the repositories before the checkpoint, and a later one does the rest. Where untagged
artifacts are not to be removed none is. -/
theorem collection_exact (decoded : Params.decode parameters = .ok params)
    (changes : List StoreChange) (run : SoleRun job parameters (.built changes)) :
    let store := ArtifactStore.built changes
    let all := store.names
    (params.deleteUntagged = true → params.dryRun = false → bytes store.untagged < 2 ^ 64 → ∃ n,
      (∃ report : Report, run.Completes n all.length report.encode.text ∧
        report.repositories = all.length ∧ report.deleted = store.untagged.length ∧
        report.freedBytes.toNat = bytes store.untagged ∧ report.dryRun = false ∧
        run.left n = store.tidied all ∧ (run.left n).repositories =
          store.repositories.map (fun row => (row.1, row.2.filter fun a => !a.isUntagged)) ∧
        ∀ again : SoleRun job parameters (run.left n), ∃ m, again.Ends m ∧
          removals (again.deeds m) = [] ∧ again.left m = run.left n) ∨
      ∃ before command, before < all.length ∧ run.Halts n before command ∧
        run.left n = store.tidied (all.take before) ∧
        ∀ later : SoleRun job parameters (run.left n), ∃ m,
          (∃ report, later.Completes m all.length report ∧ later.left m = store.tidied all) ∨
            ∃ before command, later.Halts m before command) ∧
    (params.deleteUntagged = false → ∃ n, removals (run.deeds n) = [] ∧ run.left n = store ∧
      (run.Completes n all.length (Report.mk all.length 0 0 params.dryRun).encode.text ∨
        ∃ before command, before < all.length ∧ run.Halts n before command)) := by
  intro store all
  have sound : store.Sound := ArtifactStore.sound_built changes
  refine ⟨fun untagged real bounded => ?_, fun kept => keeps_all sound decoded kept run⟩
  have all_doomed : doomed params store = store.untagged := if_pos untagged
  obtain ⟨n, errand, items, comes, disposes, course⟩ := run_collects sound decoded run
  refine ⟨n, ?_⟩
  cases course with
  | whole fits completes =>
    left
    rw [found_all sound, plus_doomed] at completes
    have left : run.left n = store.tidied all := by
      rw [disposes.left, untagged, real]
      exact less_findings sound all
    have deleted : (summary params store).deleted = store.untagged.length :=
      congrArg List.length all_doomed
    have freed : (summary params store).freedBytes.toNat = bytes store.untagged := by
      rw [summary, all_doomed]
      exact UInt64.toNat_ofNat_of_lt' bounded
    refine ⟨summary params store, comes.completes completes, rfl, deleted, freed, real, left,
      ?_, ?_⟩
    · rw [left]
      exact store.repositories_tidied
    · rw [left]
      exact collected_again sound decoded
  | @halted past command begun within halts =>
    right
    have left : run.left n = store.tidied past := by
      rw [disposes.left, untagged, real]
      exact less_findings sound past
    have before : past = all.take past.length := List.prefix_iff_eq_take.mp begun
    refine ⟨past.length, command, within, comes.halts halts, before ▸ left, ?_⟩
    rw [left]
    exact later_collects sound decoded untagged real bounded begun
  | overfull begun overfills =>
    exact absurd overfills (not_overfull sound (all_doomed ▸ bounded) begun)

/-- Both repositories have an untagged artifact, and these have one digest. -/
def stock : List StoreChange := [
  .insert ⟨"team/web", "sha256:a", ["v1"], .ofMillis 1000, 40⟩,
  .insert ⟨"team/web", "sha256:b", [], .ofMillis 2000, 2⟩,
  .insert ⟨"team/api", "sha256:b", [], .ofMillis 3000, 2⟩]

theorem collection_exact_stock :
    let store := ArtifactStore.built stock
    let run := SoleRun.quiet job [] { clock := 0, store } rfl
    Params.decode [] = .ok {} ∧ bytes store.untagged < 2 ^ 64 ∧ ∃ n,
      (∃ report : Report, run.Completes n 2 report.encode.text ∧ report.deleted = 2 ∧
        report.freedBytes.toNat = 4 ∧ run.left n = store.tidied ["team/api", "team/web"]) ∨
      ∃ before command, before < 2 ∧ run.Halts n before command ∧
        run.left n = store.tidied (["team/api", "team/web"].take before) := by
  intro store run
  have decoded : Params.decode [] = .ok {} := rfl
  have names : store.names = ["team/api", "team/web"] := by decide +kernel
  have untagged : store.untagged.length = 2 ∧ bytes store.untagged = 4 := by decide +kernel
  have bounded : bytes store.untagged < 2 ^ 64 := by
    rw [untagged.2]
    decide
  obtain ⟨n, exact⟩ := (collection_exact decoded stock run).1 rfl rfl bounded
  refine ⟨decoded, bounded, n, ?_⟩
  rw [← names]
  rcases exact with ⟨report, completes, -, deleted, freed, -, left, -, -⟩ |
    ⟨before, command, within, halts, left, -⟩
  · exact .inl ⟨report, completes, deleted.trans untagged.1, freed.trans untagged.2, left⟩
  · exact .inr ⟨before, command, within, halts, left⟩

end Whole

end Collection

end Maintenance

end JobEngine
