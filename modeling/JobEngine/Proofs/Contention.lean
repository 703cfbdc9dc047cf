import JobEngine.Proofs.Purges

/-!
# A collection and a sweep side by side

Both remove what they have listed before. Of two removals of one artifact only
the first finds it. A sweep notes that and goes on. A collection gives up, so it
fails just if the sweep has removed an untagged artifact that the collection had
listed already.
-/
namespace JobEngine.Maintenance

open SharedRun

inductive Party
  | collection
  | sweep
deriving DecidableEq

variable {run : SharedRun Party} {collecting : Collection.Params} {sweeping : Retention.Params}

/-- A collection and a sweep have the artifacts to themselves, of less than 2⁶⁴ bytes in all. Both go
on again and again, meet no commands, and the repository that is swept is there. -/
structure SideBySide (run : SharedRun Party) (collecting : Collection.Params)
    (sweeping : Retention.Params) : Prop where
  one : run.OnOneStore
  only : run.OnlySteps
  fits : Collection.bytes ((run.store 0).repositories.flatMap (·.2)) < 2 ^ 64
  fair : ∀ party, run.Fair party
  silent : ∀ n party, (run.met n).1.heard (run.start party).record.id = none
  collects : ∃ parameters, Collection.Params.decode parameters = .ok collecting ∧
    run.Calls .collection Collection.job parameters
  sweeps : ∃ parameters, Retention.Params.decode parameters = .ok sweeping ∧
    run.Calls .sweep Retention.job parameters
  present : sweeping.repository ∈ (run.store 0).names

/-- The sweep removes an untagged artifact that the collection has listed. -/
def Anticipated (run : SharedRun Party) (a : Artifact) : Prop :=
  ∃ j m repository artifacts, j < m ∧ run.Reads .collection j repository artifacts ∧
    a ∈ artifacts ∧ a.isUntagged = true ∧ run.Removes .sweep m repository a

namespace SideBySide

variable {n : Nat} {outcome : Outcome} {a : Artifact} {repository : String}
  {artifacts : List Artifact}

section

variable (beside : SideBySide run collecting sweeping)

include beside

theorem collection : run.Purging .collection (Collection.purge collecting.dryRun) := by
  obtain ⟨parameters, decoded, calls⟩ := beside.collects
  exact purging_collection decoded calls

theorem sweep : run.Purging .sweep (Retention.purge sweeping.retain.toNat sweeping.dryRun) := by
  obtain ⟨parameters, decoded, calls⟩ := beside.sweeps
  exact purging_retention decoded calls beside.present

/-- The artifacts of a ledger were all there at first. -/
theorem not_overfull {items : List (String × Artifact)} (ledger : run.Ledger n items)
    (way : Purge) : ¬2 ^ 64 ≤ way.weight (items.map Prod.snd) := by
  let all := (run.store 0).repositories.flatMap fun row => row.2.map (row.1, ·)
  have among : items ⊆ all := by
    rintro ⟨repository, a⟩ mem
    obtain ⟨k, -, found⟩ := ledger.found _ mem
    obtain ⟨artifacts, listed, held⟩ := ArtifactStore.holds_of_lookup?
      (beside.only.found_earlier beside.one (Nat.zero_le k) found)
    have row := ArtifactStore.row_of_artifacts? listed
    exact List.mem_flatMap.mpr ⟨_, row, List.mem_map_of_mem held⟩
  have each : all.map Prod.snd = (run.store 0).repositories.flatMap (·.2) := by
    rw [List.map_flatMap]
    refine List.flatMap_congr fun row _ => ?_
    rw [List.map_map]
    exact List.map_id _
  obtain ⟨order, same, within⟩ := List.subperm_of_subset ledger.distinct.of_map among
  have less : Collection.bytes (items.map Prod.snd) ≤ Collection.bytes (all.map Prod.snd) :=
    Collection.bytes_le_of_subperm ⟨order.map Prod.snd, same.map _, within.map _⟩
  rw [each] at less
  have fits := beside.fits
  unfold Purge.weight
  split <;> omega

/-- All that may befall a purge is that it misses an artifact. -/
theorem missing {party : Party} {way : Purge} {f : Fault} (trouble : run.Trouble party way n f) :
    way.dry = false ∧ way.tolerant = false ∧ ∃ k repository a, run.Due party way k repository a ∧
      (run.store k).lookup? repository a.digest = none ∧
      f = .error (StoreError.artifactNotFound a.digest).toJobError := by
  cases trouble with
  | commanded before turn heard =>
    rw [beside.silent] at heard
    cases heard
  | missing real strict before due makes gone => exact ⟨real, strict, _, _, _, due, gone, rfl⟩
  | overfull ledger full => exact absurd full (beside.not_overfull ledger way)

theorem sweep_succeeds (ends : (run.hand n .sweep).stage = .ended outcome) :
    outcome = .succeeded := by
  rcases beside.sweep.ended beside.one ends with ⟨succeeded, -⟩ | ⟨f, -, trouble⟩
  · exact succeeded
  · cases (beside.missing trouble).2.1

/-- The sweep finds nothing any more where the collection has removed something. -/
theorem not_anticipated {j m : Nat} (settled : run.Settled .collection
    (Collection.purge collecting.dryRun) j n repository a) :
    ¬run.Removes .sweep m repository a := by
  obtain ⟨k, -, -, makes, found⟩ := settled
  intro removes
  obtain ⟨b, there⟩ := found rfl
  obtain rfl := beside.only.found_once beside.one removes.makes removes.found makes there
  cases (makes.same removes.makes).1

/-- What the collection misses was removed by the sweep. -/
theorem anticipated_of_missing
    (due : run.Due .collection (Collection.purge collecting.dryRun) n repository a)
    (gone : (run.store n).lookup? repository a.digest = none) : Anticipated run a := by
  obtain ⟨j, due⟩ := due
  obtain ⟨artifacts, reads, chosen⟩ := due.listed
  obtain ⟨mem, untagged⟩ := Collection.mem_purge.mp chosen
  have there := (beside.one.sound_at j).lookup?_of_mem reads.answer mem
  obtain ⟨party, m, after, before, removes⟩ :=
    beside.only.removed_between beside.one due.before.le there gone
  have later : j < m := by
    refine lt_of_le_of_ne after ?_
    rintro rfl
    cases (reads.makes.same removes.makes).2
  cases party with
  | collection => exact absurd removes.makes (due.untried m later before)
  | sweep => exact ⟨j, m, repository, artifacts, later, reads, mem, untagged, removes⟩

theorem collection_outcome (ends : (run.hand n .collection).stage = .ended outcome) :
    (outcome = .succeeded ∧ (collecting.dryRun = false → ∀ a, ¬Anticipated run a)) ∨
      collecting.dryRun = false ∧ ∃ a, Anticipated run a ∧
        outcome = .failed (StoreError.artifactNotFound a.digest).toJobError := by
  rcases beside.collection.ended beside.one ends with ⟨succeeded, settled⟩ | ⟨f, rfl, trouble⟩
  · refine .inl ⟨succeeded, fun real a anticipated => ?_⟩
    obtain ⟨j, m, repository, artifacts, -, reads, mem, untagged, removes⟩ := anticipated
    have early : j < n := reads.makes.before (by rw [ends]; rfl)
    have chosen : a ∈ (Collection.purge collecting.dryRun).chooses artifacts :=
      Collection.mem_purge.mpr ⟨mem, untagged⟩
    exact beside.not_anticipated (settled real j repository artifacts early reads a chosen) removes
  · obtain ⟨real, -, k, repository, a, due, gone, rfl⟩ := beside.missing trouble
    exact .inr ⟨real, a, beside.anticipated_of_missing due gone, rfl⟩

/-- A collection that succeeds leaves nothing of what it had to remove. -/
theorem listed_gone (ends : (run.hand n .collection).stage = .ended .succeeded)
    (real : collecting.dryRun = false) {j : Nat}
    (reads : run.Reads .collection j repository artifacts) (mem : a ∈ artifacts)
    (untagged : a.isUntagged = true) {later : Nat} (after : n ≤ later) :
    (run.store later).lookup? repository a.digest = none := by
  rcases beside.collection.ended beside.one ends with ⟨-, settled⟩ | ⟨f, failed, trouble⟩
  · have early : j < n := reads.makes.before (by rw [ends]; rfl)
    obtain ⟨k, -, before, makes, -⟩ :=
      settled real j repository artifacts early reads a (Collection.mem_purge.mpr ⟨mem, untagged⟩)
    have gone := makes.gone beside.one
    by_contra found
    obtain ⟨b, found⟩ := Option.ne_none_iff_exists'.mp found
    rw [beside.only.found_earlier beside.one (by omega) found] at gone
    cases gone
  · obtain ⟨-, -, k, repository, a, -, -, rfl⟩ := beside.missing trouble
    cases failed

/-- What is tagged is not removed by the collection. -/
theorem tagged_stays (removes : run.Removes .collection n repository a) : a.isUntagged = true := by
  obtain ⟨b, digest, j, due⟩ := beside.collection.due beside.one removes.makes
  obtain ⟨artifacts, reads, chosen⟩ := due.listed
  obtain ⟨mem, untagged⟩ := Collection.mem_purge.mp chosen
  have there := (beside.one.sound_at j).lookup?_of_mem reads.answer mem
  have same := beside.only.found_earlier beside.one due.before.le removes.found
  rw [digest, same] at there
  exact Option.some.inj there ▸ untagged

/-- What ranks high enough is not removed by the sweep. -/
theorem retained_stays {j : Nat} (reads : run.Reads .sweep j repository artifacts)
    (removes : run.Removes .sweep n repository a) :
    a ∉ (Retention.ranked artifacts).take sweeping.retain.toNat := by
  obtain ⟨b, digest, k, due⟩ := beside.sweep.due beside.one removes.makes
  obtain ⟨listed, again, chosen⟩ := due.listed
  obtain rfl : j = k := le_antisymm (beside.sweep.reads_once beside.one again reads)
    (beside.sweep.reads_once beside.one reads again)
  obtain rfl := Except.ok.inj (reads.answer.symm.trans again.answer)
  have ranks := (Retention.latestFirst_ranked artifacts).all
  have distinct := (beside.one.sound_at j).distinct_of_artifacts?
    (ArtifactStore.list_eq_ok.mp reads.answer)
  rw [← (ranks.map _).nodup_iff] at distinct
  intro retained
  obtain rfl : b = a := List.inj_on_of_nodup_map distinct (List.mem_of_mem_drop chosen)
    (List.mem_of_mem_take retained) digest
  exact List.disjoint_take_drop distinct.of_map le_rfl retained chosen

/-- A tagged artifact that the sweep retains stays. -/
theorem retained_found {j : Nat} (reads : run.Reads .sweep j repository artifacts)
    (retained : a ∈ (Retention.ranked artifacts).take sweeping.retain.toNat)
    (tagged : a.isUntagged = false) {later : Nat} (after : j ≤ later) :
    (run.store later).lookup? repository a.digest = some a := by
  have ranks := (Retention.latestFirst_ranked artifacts).all
  have mem : a ∈ artifacts := ranks.mem_iff.mp (List.mem_of_mem_take retained)
  have there := (beside.one.sound_at j).lookup?_of_mem reads.answer mem
  cases found : (run.store later).lookup? repository a.digest with
  | some b =>
    rw [← there, beside.only.found_earlier beside.one after found]
  | none =>
    obtain ⟨party, m, -, -, removes⟩ :=
      beside.only.removed_between beside.one after there found
    cases party with
    | collection =>
      have untagged := beside.tagged_stays removes
      rw [tagged] at untagged
      cases untagged
    | sweep => exact absurd retained (beside.retained_stays reads removes)

end

end SideBySide

/-- Both come to an end, and the sweep succeeds. A collection that removes anything at all succeeds
just if the sweep has removed no untagged artifact that the collection had listed, and else it fails
as it misses one. If it has succeeded, all that it listed as untagged is gone. What the sweep
retains and what is tagged is still there. -/
theorem side_by_side (beside : SideBySide run collecting sweeping) :
    ∃ n m outcome, (run.hand n .collection).stage = .ended outcome ∧
      (run.hand m .sweep).stage = .ended .succeeded ∧
      ((outcome = .succeeded ∧ (collecting.dryRun = false → ∀ a, ¬Anticipated run a)) ∨
        collecting.dryRun = false ∧ ∃ a, Anticipated run a ∧
          outcome = .failed (StoreError.artifactNotFound a.digest).toJobError) ∧
      ∀ later, n ≤ later → m ≤ later →
        (outcome = .succeeded → collecting.dryRun = false → ∀ j repository artifacts,
          run.Reads .collection j repository artifacts → ∀ a ∈ artifacts, a.isUntagged = true →
            (run.store later).lookup? repository a.digest = none) ∧
        ∀ j repository artifacts, run.Reads .sweep j repository artifacts →
          ∀ a ∈ (Retention.ranked artifacts).take sweeping.retain.toNat, a.isUntagged = false →
            (run.store later).lookup? repository a.digest = some a := by
  obtain ⟨n, outcome, collected⟩ := beside.collection.ends (beside.fair .collection)
  obtain ⟨m, swept, ends⟩ := beside.sweep.ends (beside.fair .sweep)
  obtain rfl := beside.sweep_succeeds ends
  refine ⟨n, m, outcome, collected, ends, beside.collection_outcome collected,
    fun later after also => ⟨?_, fun j repository artifacts reads a retained tagged => ?_⟩⟩
  · rintro rfl real j repository artifacts reads a mem untagged
    exact beside.listed_gone collected real reads mem untagged after
  · have early : j < m := reads.makes.before (by rw [ends]; rfl)
    exact beside.retained_found reads retained tagged (by omega)

/-! ## A collection that is anticipated -/

def outdated : Artifact := ⟨"team/web", "sha256:a", [], .ofMillis 1000, 40⟩

/-- The collection lists its repository, the sweep does all that it has to do, and then the
collection goes on. -/
def contended : SharedRun Party :=
  let keepNone : Parameters :=
    [("repository", .string "team/web"), ("retain", .number (.whole 0))]
  let start : Party → Delivery
    | .collection => .called Collection.job
      (.ofRequest ⟨"gc", [], none⟩ (.ofNat 1) (.ofMillis 0)) .recorder 0
    | .sweep => .called Retention.job
      (.ofRequest ⟨"retention.sweep", keepNone, none⟩ (.ofNat 2) (.ofMillis 0)) .recorder 0
  let turns (n : Nat) : Turn Party :=
    if n < 3 then .step .collection
    else if n < 12 then .step .sweep
    else .step (if n % 2 = 0 then .collection else .sweep)
  .quiet ⟨⟨defaultMaxFails⟩, .recorder⟩ start turns
    { clock := 0, store := .built [.insert outdated] } { grace := 0 }

theorem contended_onOneStore : contended.OnOneStore :=
  onOneStore_quiet _ _ _ _ rfl (ArtifactStore.sound_built _)

theorem contended_collects : contended.Calls .collection Collection.job [] := ⟨_, _, _, rfl, rfl⟩

theorem contended_sweeps : ∃ parameters,
    Retention.Params.decode parameters = .ok ⟨"team/web", 0, false⟩ ∧
      contended.Calls .sweep Retention.job parameters :=
  ⟨_, rfl, _, _, _, rfl, rfl⟩

theorem contended_present : "team/web" ∈ (contended.store 0).names := by decide +kernel

theorem contended_beside :
    SideBySide contended {} ⟨"team/web", 0, false⟩ where
  one := contended_onOneStore
  only n := by
    simp only [contended, quiet]
    split
    · exact ⟨_, rfl⟩
    · split <;> exact ⟨_, rfl⟩
  fair party n := by
    cases party with
    | collection =>
      refine ⟨2 * (n + 7), by omega, ?_⟩
      simp only [contended, quiet]
      rw [if_neg (by omega), if_neg (by omega), if_pos (by omega)]
    | sweep =>
      refine ⟨2 * (n + 7) + 1, by omega, ?_⟩
      simp only [contended, quiet]
      rw [if_neg (by omega), if_neg (by omega), if_neg (by omega)]
  fits := by decide +kernel
  silent n party := by
    refine heard_quiet _ _ _ _ (fun s mem => by cases mem) (fun n party => ?_) n _
    cases party with
    | collection =>
      exact (purging_collection rfl contended_collects).obeys contended_onOneStore n
    | sweep =>
      obtain ⟨parameters, decoded, calls⟩ := contended_sweeps
      exact (purging_retention decoded calls contended_present).obeys contended_onOneStore n
  collects := ⟨[], rfl, contended_collects⟩
  sweeps := contended_sweeps
  present := contended_present

theorem contended_anticipated : Anticipated contended outdated := by
  refine ⟨2, 8, "team/web", [outdated], by omega, ⟨⟨rfl, ?_⟩, by decide +kernel⟩,
    List.mem_cons_self, rfl, ⟨rfl, ?_⟩, by decide +kernel⟩
  all_goals
    rw [contended, hand_quiet]
    decide +kernel

theorem side_by_side_contended :
    SideBySide contended {} ⟨"team/web", 0, false⟩ ∧ ∃ n m a,
      (contended.hand m .sweep).stage = .ended .succeeded ∧ Anticipated contended a ∧
      (contended.hand n .collection).stage =
        .ended (.failed (StoreError.artifactNotFound a.digest).toJobError) := by
  obtain ⟨n, m, outcome, collected, swept, which, -⟩ := side_by_side contended_beside
  rcases which with ⟨-, none⟩ | ⟨-, a, anticipated, rfl⟩
  · exact absurd contended_anticipated (none rfl outdated)
  · exact ⟨contended_beside, n, m, a, swept, anticipated, collected⟩

/-- The collection fails because of the sweep. -/
theorem collection_fails :
    SideBySide contended {} ⟨"team/web", 0, false⟩ ∧
      (contended.hand 15 .collection).stage =
        .ended (.failed (.failed "artifact not found: sha256:a")) := by
  refine ⟨contended_beside, Stage.eq_ended ?_⟩
  rw [contended, hand_quiet]
  decide +kernel

end JobEngine.Maintenance
