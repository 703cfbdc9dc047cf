import JobEngine.Proofs.Purges

/-!
# Collections while artifacts are pushed

A collection removes by its digest what was untagged when it listed the
repository. Whoever pushes the same digest in between replaces the artifact, and
the removal takes the new one, whatever its tags are. If nothing is pushed under
that name between the listing and the removal, what goes is what was listed.
-/
namespace JobEngine

namespace SharedRun

section Pushes

variable {ι : Type} (run : SharedRun ι)

/-- The artifact is pushed in turn `n`. -/
def Pushes (n : Nat) (a : Artifact) : Prop := run.turns n = .change (.insert a)

/-- Before turn `n`, turn `k` was the last to push something under the name, and pushed this. -/
structure PushedLast (k n : Nat) (repository digest : String) (a : Artifact) : Prop where
  before : k < n
  pushes : run.Pushes k a
  name : a.repository = repository ∧ a.digest = digest
  since : ∀ l b, k < l → l < n → run.Pushes l b → ¬(b.repository = repository ∧ b.digest = digest)

variable {run}

theorem PushedLast.unique {k l n : Nat} {repository digest : String} {a b : Artifact}
    (first : run.PushedLast k n repository digest a)
    (second : run.PushedLast l n repository digest b) : a = b := by
  rcases lt_trichotomy k l with before | rfl | after
  · exact absurd second.name (first.since l b before second.before second.pushes)
  · exact StoreChange.insert.inj (Turn.change.inj (first.pushes.symm.trans second.pushes))
  · exact absurd first.name (second.since k a after first.before first.pushes)

end Pushes

variable {ι : Type} [DecidableEq ι] {run : SharedRun ι} {i : ι} {n : Nat}
  {repository digest : String} {a b : Artifact}

theorem Pushes.touches (pushes : run.Pushes n a) : run.Touches n a.repository a.digest := by
  refine ⟨.insert a, ?_, rfl⟩
  rw [change?, pushes]

/-- Deliveries push nothing. -/
theorem pushes_of_change (change : run.change? n = some (.insert a)) : run.Pushes n a := by
  rw [change?] at change
  cases turn : run.turns n with
  | change c =>
    rw [turn] at change
    obtain rfl := Option.some.inj change
    exact turn
  | step i =>
    rw [turn] at change
    obtain ⟨access, -, changes⟩ := Option.bind_eq_some_iff.mp change
    cases access <;> cases changes

theorem Reads.pushes_later {artifacts : List Artifact} {k : Nat}
    (reads : run.Reads i n repository artifacts) (pushes : run.Pushes k a) (later : n ≤ k) :
    n < k := by
  refine lt_of_le_of_ne later ?_
  rintro rfl
  cases reads.makes.turn.symm.trans pushes

/-- What is found was there already, and nothing has been pushed over it, or it was pushed last. -/
theorem OnOneStore.pushed_or_kept {j : Nat} (one : run.OnOneStore) (later : j ≤ n)
    (there : (run.store j).lookup? repository digest = some b)
    (found : (run.store n).lookup? repository digest = some a) :
    (a = b ∧ ∀ k c, j ≤ k → k < n → run.Pushes k c →
        ¬(c.repository = repository ∧ c.digest = digest)) ∨
      ∃ k, j ≤ k ∧ run.PushedLast k n repository digest a := by
  rcases one.lookup?_last later repository digest with
    ⟨untouched, same⟩ | ⟨k, c, after, last, brought⟩
  · left
    rw [same, there] at found
    refine ⟨(Option.some.inj found).symm, fun k c after before pushes name => ?_⟩
    exact untouched k after before (name.1 ▸ name.2 ▸ pushes.touches)
  · right
    rw [brought] at found
    cases c with
    | delete => cases found
    | insert c =>
      obtain rfl := Option.some.inj found
      refine ⟨k, after, last.before, pushes_of_change last.change, Prod.mk.inj last.key,
        fun l b since before pushes name => ?_⟩
      exact last.since l since before (name.1 ▸ name.2 ▸ pushes.touches)

end SharedRun

namespace Maintenance.Collection

open SharedRun

variable {ι : Type} [DecidableEq ι] {run : SharedRun ι} {i : ι} {parameters : Parameters}
  {params : Params}

/-- What a collection removes it has listed as untagged before, whatever others do meanwhile. If
nothing was pushed under its name since, it is what was listed, else it is what was pushed last. So
it is tagged just if that was. -/
theorem removes_listed (decoded : Params.decode parameters = .ok params) (one : run.OnOneStore)
    (calls : run.Calls i job parameters) {n : Nat} {repository : String} {a : Artifact}
    (removes : run.Removes i n repository a) :
    ∃ j artifacts b, j < n ∧ run.Reads i j repository artifacts ∧ b ∈ artifacts ∧
      b.isUntagged = true ∧ b.digest = a.digest ∧
      ((a = b ∧ ∀ k c, j < k → k < n → run.Pushes k c →
          ¬(c.repository = repository ∧ c.digest = a.digest)) ∨
        ∃ k, j < k ∧ run.PushedLast k n repository a.digest a) ∧
      (a.isUntagged = false ↔ ∃ k c, j < k ∧ run.PushedLast k n repository a.digest c ∧
        c.isUntagged = false) := by
  obtain ⟨b, digest, j, due⟩ := (purging_collection decoded calls).due one removes.makes
  obtain ⟨artifacts, reads, chosen⟩ := due.listed
  obtain ⟨mem, untagged⟩ := mem_purge.mp chosen
  have there := (one.sound_at j).lookup?_of_mem reads.answer mem
  rw [digest] at there
  refine ⟨j, artifacts, b, due.before, reads, mem, untagged, digest, ?_⟩
  rcases one.pushed_or_kept due.before.le there removes.found with
    ⟨rfl, none⟩ | ⟨k, after, last⟩
  · refine ⟨.inl ⟨rfl, fun k c after before => none k c after.le before⟩, ?_⟩
    rw [untagged]
    refine ⟨fun tagged => absurd tagged Bool.noConfusion, ?_⟩
    rintro ⟨k, c, after, last, -⟩
    exact absurd last.name (none k c after.le last.before last.pushes)
  · have since := reads.pushes_later last.pushes after
    refine ⟨.inr ⟨k, since, last⟩, fun tagged => ⟨k, a, since, last, tagged⟩, ?_⟩
    rintro ⟨l, c, -, also, tagged⟩
    rwa [last.unique also]

/-! ## A push in between -/

def listedOnly : Artifact := ⟨"team/web", "sha256:a", [], .ofMillis 1000, 40⟩

def taggedNow : Artifact := { listedOnly with tags := ["v1"] }

/-- The repository, the command and the listing are read, then someone tags the artifact by pushing
it again, then the collection goes on. -/
def crossed : SharedRun Unit :=
  let record : Record := .ofRequest ⟨"gc", [], none⟩ (.ofNat 1) (.ofMillis 0)
  let turns : Nat → Turn Unit
    | 3 => .change (.insert taggedNow)
    | _ => .step ()
  .quiet ⟨⟨defaultMaxFails⟩, .recorder⟩ (fun _ => .called job record .recorder 0) turns
    { clock := 0, store := .built [.insert listedOnly] } { grace := 0 }

theorem crossed_onOneStore : crossed.OnOneStore :=
  onOneStore_quiet _ _ _ _ rfl (ArtifactStore.sound_built _)

theorem crossed_calls : crossed.Calls () job [] := ⟨_, _, _, rfl, rfl⟩

theorem crossed_removes : crossed.Removes () 4 "team/web" taggedNow where
  makes := by
    refine ⟨rfl, ?_⟩
    rw [crossed, hand_quiet]
    decide +kernel
  found := by decide +kernel

theorem removes_listed_crossed :
    Params.decode [] = .ok {} ∧ crossed.OnOneStore ∧ crossed.Calls () job [] ∧
      crossed.Removes () 4 "team/web" taggedNow ∧
      ∃ j k c, j < k ∧ crossed.PushedLast k 4 "team/web" "sha256:a" c ∧ c.isUntagged = false := by
  have decoded : Params.decode [] = .ok {} := rfl
  obtain ⟨j, -, -, -, -, -, -, -, -, course⟩ :=
    removes_listed decoded crossed_onOneStore crossed_calls crossed_removes
  obtain ⟨k, c, after, last, tagged⟩ := course.mp rfl
  exact ⟨decoded, crossed_onOneStore, crossed_calls, crossed_removes, j, k, c, after, last, tagged⟩

/-- All that others do is to push, and the collection removes a tagged artifact. -/
theorem removes_tagged :
    crossed.OnOneStore ∧ crossed.Calls () job [] ∧
      (∀ n c, crossed.turns n = .change c → c = .insert taggedNow) ∧
      crossed.Removes () 4 "team/web" taggedNow ∧ taggedNow.isUntagged = false := by
  refine ⟨crossed_onOneStore, crossed_calls, fun n c change => ?_, crossed_removes, rfl⟩
  simp only [crossed, quiet] at change
  split at change
  · exact (Turn.change.inj change).symm
  · cases change

end Maintenance.Collection

end JobEngine
