import JobEngine.Proofs.Sweeps

/-!
# What a dry run foretells

A dry run decides as the real run does and removes nothing. What it reports is
read off the list, what a real run reports comes from the removals; the two
agree because no removal fails and each answers the size that was listed. For
the same reason a collection that crashes on its bytes does so in a dry run too.
-/
namespace JobEngine

namespace SoleRun

variable {job : Job} {parameters : Parameters} {store : ArtifactStore}

/-- After `n` steps the run is over. If it met no command this is how it ended and what it checked
in. -/
def Tells (run : SoleRun job parameters store) (n : Nat) (outcome : Outcome)
    (reports : List String) : Prop :=
  run.stage n = .ended outcome ∧ (∀ command ∈ run.asked n, command = none) ∧
      checkIns (run.deeds n) = reports ∨
    ∃ before command, run.Halts n before command

/-- The artifacts are left alone. -/
structure Spares (run : SoleRun job parameters store) (n : Nat) : Prop where
  left : run.left n = store
  removes : removals (run.deeds n) = []

theorem Completes.tells {run : SoleRun job parameters store} {n checkpoints : Nat} {report : String}
    (completes : run.Completes n checkpoints report) : run.Tells n .succeeded [report] := by
  refine .inl ⟨completes.stage, fun command mem => ?_, completes.reports⟩
  rw [completes.asked] at mem
  exact List.eq_of_mem_replicate mem

theorem Crashes.tells {run : SoleRun job parameters store} {n checkpoints : Nat} {crash : Crash}
    (crashes : run.Crashes n checkpoints crash) : run.Tells n (.failed (.ofCrash crash)) [] := by
  refine .inl ⟨crashes.stage, fun command mem => ?_, crashes.silent⟩
  rw [crashes.asked] at mem
  exact List.eq_of_mem_replicate mem

end SoleRun

namespace Maintenance

variable {parameters : Parameters} {store : ArtifactStore}

namespace Collection

variable {params : Params}

/-- How a collection that meets no command ends and what it reports. -/
def foretold (params : Params) (store : ArtifactStore) : Outcome × List Report :=
  if bytes (doomed params store) < 2 ^ 64 then (.succeeded, [summary params store])
  else (.failed (.ofCrash overflow), [])

/-- What differs is the word that it is a dry run. -/
theorem foretold_dryRun (params : Params) (dryRun : Bool) (store : ArtifactStore) :
    foretold { params with dryRun } store =
      ((foretold params store).1, (foretold params store).2.map ({ · with dryRun })) := by
  unfold foretold
  have same : doomed { params with dryRun } store = doomed params store := rfl
  rw [same]
  split <;> rfl

/-- A collection reports what it found, whether it removes that or not. -/
theorem run_tells (sound : store.Sound) (decoded : Params.decode parameters = .ok params)
    (run : SoleRun job parameters store) :
    ∃ n, run.Tells n (foretold params store).1 ((foretold params store).2.map (·.encode.text)) ∧
      (params.dryRun = true → run.Spares n) := by
  obtain ⟨n, errand, items, comes, disposes, course⟩ := run_collects sound decoded run
  refine ⟨n, ?_, fun dry => ?_⟩
  · cases course with
    | whole fits completes =>
      rw [found_all sound, plus_doomed] at completes
      have fits : bytes (doomed params store) < 2 ^ 64 := by
        rw [found_all sound] at fits
        exact (Nat.le_add_left _ _).trans_lt fits
      rw [foretold, if_pos fits]
      exact (comes.completes completes).tells
    | halted begun within halts => exact .inr ⟨_, _, comes.halts halts⟩
    | overfull begun overfills within crashes =>
      rw [foretold, if_neg fun fits => not_overfull sound fits begun overfills]
      exact (comes.crashes crashes).tells
  · rw [dry] at disposes
    exact ⟨disposes.left.trans store.less_nil, disposes.removed⟩

end Collection

namespace Retention

variable {params : Params}

/-- A sweep of a repository that is not there fails and checks nothing in. -/
theorem run_absent {err : StoreError} (decoded : Params.decode parameters = .ok params)
    (absent : store.list params.repository = .error err) (run : SoleRun job parameters store) :
    ∃ n, run.Tells n (.ofFault (.error err.toJobError)) [] ∧ run.Spares n := by
  obtain ⟨n, errand, works, comes⟩ := run.comes_to (run_eq decoded)
  cases works with
  | log works =>
    rcases works.checkpoint with ⟨rest, onward, rfl⟩ | ⟨command, halts, left, removes⟩
    · cases onward with
      | list onward =>
        rw [absent] at onward
        cases onward with
        | fault f =>
          refine ⟨n, .inl ⟨comes.stage, ?_, comes.checkIns⟩, comes.left, comes.removals⟩
          rw [comes.asked]
          exact List.forall_mem_singleton.mpr rfl
    · refine ⟨n, .inr ⟨0, command, comes.halts ⟨halts.asked, halts.ending, halts.silent⟩⟩, ?_, ?_⟩
      · exact comes.left.trans left
      · exact comes.removals.trans removes

/-- How a sweep that meets no command ends and what it checks in. -/
def foretold (params : Params) (store : ArtifactStore) : Outcome × List String :=
  match store.list params.repository with
  | .ok artifacts =>
    (.succeeded, [report (verdicts params.retain.toNat (ranked artifacts))])
  | .error err => (.ofFault (.error err.toJobError), [])

/-- A sweep reports what it decided, whether it removes anything or not. -/
theorem run_tells (sound : store.Sound) (decoded : Params.decode parameters = .ok params)
    (run : SoleRun job parameters store) :
    ∃ n, run.Tells n (foretold params store).1 (foretold params store).2 ∧
      (params.dryRun = true → run.Spares n) := by
  unfold foretold
  cases present : store.list params.repository with
  | error err =>
    obtain ⟨n, tells, spares⟩ := run_absent decoded present run
    exact ⟨n, tells, fun _ => spares⟩
  | ok artifacts =>
    obtain ⟨n, past, -, removes, ends⟩ := run_sweeps sound decoded present run
    refine ⟨n, ?_, fun dry => ?_⟩
    · rcases ends with ⟨-, completes⟩ | ⟨before, command, -, -, halts⟩
      · exact completes.tells
      · exact .inr ⟨before, command, halts⟩
    · rw [dry, letGo, if_pos rfl] at removes
      exact ⟨removes.left.trans (store.without_nil _), removes.removed⟩

end Retention

/-- A dry run changes nothing and, as long as neither meets a command, ends as the real run on the
same artifacts does and tells what that tells: a collection but for the word that it was a dry run, a
sweep to the letter. -/
theorem dry_run_foretells (changes : List StoreChange) :
    let store := ArtifactStore.built changes
    (∀ (params : Collection.Params) (dryParameters realParameters : Parameters),
      Collection.Params.decode dryParameters = .ok { params with dryRun := true } →
      Collection.Params.decode realParameters = .ok { params with dryRun := false } →
      let told := Collection.foretold params store
      let reports (dryRun : Bool) :=
        told.2.map fun report => { report with dryRun }.encode.text
      (∀ dry : SoleRun Collection.job dryParameters store, ∃ n, dry.Spares n ∧
          dry.Tells n told.1 (reports true)) ∧
        ∀ real : SoleRun Collection.job realParameters store, ∃ n,
          real.Tells n told.1 (reports false)) ∧
    (∀ (params : Retention.Params) (dryParameters realParameters : Parameters),
      Retention.Params.decode dryParameters = .ok { params with dryRun := true } →
      Retention.Params.decode realParameters = .ok { params with dryRun := false } →
      let told := Retention.foretold params store
      (∀ dry : SoleRun Retention.job dryParameters store, ∃ n, dry.Spares n ∧
          dry.Tells n told.1 told.2) ∧
        ∀ real : SoleRun Retention.job realParameters store, ∃ n,
          real.Tells n told.1 told.2) := by
  intro store
  have sound : store.Sound := ArtifactStore.sound_built changes
  constructor
  · intro params dryParameters realParameters decodedDry decodedReal told reports
    refine ⟨fun dry => ?_, fun real => ?_⟩
    · obtain ⟨n, tells, spares⟩ := Collection.run_tells sound decodedDry dry
      rw [Collection.foretold_dryRun, List.map_map] at tells
      exact ⟨n, spares rfl, tells⟩
    · obtain ⟨n, tells, -⟩ := Collection.run_tells sound decodedReal real
      rw [Collection.foretold_dryRun, List.map_map] at tells
      exact ⟨n, tells⟩
  · intro params dryParameters realParameters decodedDry decodedReal told
    refine ⟨fun dry => ?_, fun real => ?_⟩
    · obtain ⟨n, tells, spares⟩ := Retention.run_tells sound decodedDry dry
      exact ⟨n, spares rfl, tells⟩
    · obtain ⟨n, tells, -⟩ := Retention.run_tells sound decodedReal real
      exact ⟨n, tells⟩

theorem dry_run_foretells_stock :
    let store : ArtifactStore := .built Collection.stock
    let newest : Parameters :=
      [("repository", .string "team/web"), ("retain", .number (.whole 1))]
    let params : Retention.Params := { repository := "team/web", retain := 1 }
    let rehearsal := newest ++ [("dry_run", .bool true)]
    let engine : Engine := { clock := 0, store }
    let report (dryRun : Bool) := (Collection.Report.mk 2 2 4 dryRun).encode.text
    let told := Retention.foretold params store
    Collection.Params.decode [("dry_run", .bool true)] = .ok { dryRun := true } ∧
      Collection.Params.decode [] = .ok {} ∧
      Retention.Params.decode rehearsal = .ok { params with dryRun := true } ∧
      Retention.Params.decode newest = .ok params ∧
      (∃ n, (SoleRun.quiet Collection.job [("dry_run", .bool true)] engine rfl).Tells n .succeeded
        [report true]) ∧
      (∃ n, (SoleRun.quiet Collection.job [] engine rfl).Tells n .succeeded [report false]) ∧
      (∃ n, (SoleRun.quiet Retention.job rehearsal engine rfl).Tells n told.1 told.2) ∧
      ∃ n, (SoleRun.quiet Retention.job newest engine rfl).Tells n told.1 told.2 := by
  intro store newest params rehearsal engine report told
  have dryCollection : Collection.Params.decode [("dry_run", .bool true)] =
      .ok { dryRun := true } := rfl
  have collection : Collection.Params.decode [] = .ok {} := rfl
  have drySweep : Retention.Params.decode rehearsal = .ok { params with dryRun := true } := rfl
  have sweep : Retention.Params.decode newest = .ok params := rfl
  obtain ⟨collects, sweeps⟩ := dry_run_foretells Collection.stock
  obtain ⟨foretells, holds⟩ := collects {} _ _ dryCollection collection
  have all : Collection.foretold {} store = (.succeeded, [.mk 2 2 4 false]) := by decide +kernel
  rw [all] at foretells holds
  obtain ⟨n, -, dry⟩ := foretells (.quiet Collection.job _ engine rfl)
  obtain ⟨foretells', holds'⟩ := sweeps params _ _ drySweep sweep
  obtain ⟨n', -, dry'⟩ := foretells' (.quiet Retention.job _ engine rfl)
  exact ⟨dryCollection, collection, drySweep, sweep, ⟨n, dry⟩, holds _, ⟨n', dry'⟩, holds' _⟩

end Maintenance

end JobEngine
