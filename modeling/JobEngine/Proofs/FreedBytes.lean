import JobEngine.Proofs.Collections

/-!
# The bytes a collection frees

The size of an artifact is any number of 64 bits, and nothing bounds how many
artifacts there are. A collection adds the sizes up in 64 bits, and what it
reports is their sum as long as that fits. A collection whose sum does not fit
crashes where it is, with a part of its work done and nothing reported.
-/
namespace JobEngine.Maintenance.Collection

variable {parameters : Parameters} {params : Params}

/-- A collection that meets no command completes just if the bytes of what it finds are less than
2⁶⁴. It then reports how many artifacts and bytes it found, and these are removed unless it is a dry
run. Otherwise it crashes at the first artifact with which the sum reaches 2⁶⁴; this one has been
dealt with like those before it, the others are left, and nothing is reported. -/
theorem reports_or_overflows (decoded : Params.decode parameters = .ok params)
    (changes : List StoreChange) (run : SoleRun job parameters (.built changes)) :
    let store := ArtifactStore.built changes
    let found := findings params.deleteUntagged store store.names
    let size (items : List (String × Artifact)) := bytes (items.map Prod.snd)
    ∃ n,
      (size found < 2 ^ 64 ∧
        Disposes params.dryRun store found (run.left n) (removals (run.deeds n)) ∧
        ∃ report : Report, run.Completes n store.names.length report.encode.text ∧
          report.repositories = store.names.length ∧ report.deleted = found.length ∧
          report.freedBytes.toNat = size found ∧ report.dryRun = params.dryRun) ∨
      (∃ before last after checkpoints, found = before ++ last :: after ∧
        size before < 2 ^ 64 ∧ 2 ^ 64 ≤ size (before ++ [last]) ∧
        Disposes params.dryRun store (before ++ [last]) (run.left n) (removals (run.deeds n)) ∧
        checkpoints ≤ store.names.length ∧ run.Crashes n checkpoints overflow) ∨
      ∃ before command, before < store.names.length ∧ run.Halts n before command := by
  intro store found size
  have sound : store.Sound := ArtifactStore.sound_built changes
  have all : found.map Prod.snd = doomed params store :=
    (findings_map_snd store.names).trans (found_all sound params)
  have fresh : ({ dryRun := params.dryRun } : Report).freedBytes.toNat = 0 := rfl
  obtain ⟨n, errand, items, comes, disposes, course⟩ := run_collects sound decoded run
  refine ⟨n, ?_⟩
  cases course with
  | whole fits completes =>
    left
    rw [found_all sound, plus_doomed] at completes
    rw [fresh, Nat.zero_add, found_all sound, ← all] at fits
    have deleted : (summary params store).deleted = found.length := by
      rw [summary, ← all, List.length_map]
    have freed : (summary params store).freedBytes.toNat = size found := by
      rw [summary, ← all]
      exact UInt64.toNat_ofNat_of_lt' fits
    exact ⟨fits, disposes, _, comes.completes completes, rfl, deleted, freed, rfl⟩
  | halted begun within halts => exact .inr (.inr ⟨_, _, within, comes.halts halts⟩)
  | @overfull _ checkpoints begun overfills within crashes =>
    right
    left
    obtain ⟨after, whole⟩ := begun
    obtain ⟨front, final, split, fits, full⟩ := overfills
    obtain ⟨before, rest, rfl, rfl, single⟩ := List.map_eq_append_iff.mp split
    obtain ⟨last, rfl, -⟩ := List.map_eq_singleton_iff.mp single
    rw [fresh, Nat.zero_add] at fits full
    rw [List.append_assoc] at whole
    exact ⟨before, last, after, checkpoints, whole.symm, fits, full, disposes, within,
      comes.crashes crashes⟩

/-- Two artifacts that nobody has tagged, of as many bytes as 64 bits can count and of one more. -/
def bulky : List StoreChange := [
  .insert ⟨"team/web", "sha256:a", [], .ofMillis 1000, 18446744073709551615⟩,
  .insert ⟨"team/web", "sha256:b", [], .ofMillis 2000, 1⟩]

theorem reports_or_overflows_bulky :
    let store := ArtifactStore.built bulky
    let run := SoleRun.quiet job [] { clock := 0, store } rfl
    Params.decode [] = .ok {} ∧ ∃ n,
      (∃ checkpoints ≤ 1, run.Crashes n checkpoints overflow) ∨
      ∃ before command, before < 1 ∧ run.Halts n before command := by
  intro store run
  have decoded : Params.decode [] = .ok {} := rfl
  have all : bytes ((findings true store store.names).map Prod.snd) = 2 ^ 64 := by decide +kernel
  obtain ⟨n, ⟨fits, -⟩ | ⟨-, -, -, checkpoints, -, -, -, -, within, crashes⟩ | halts⟩ :=
    reports_or_overflows decoded bulky run
  · exact absurd all fits.ne
  · exact ⟨decoded, n, .inl ⟨checkpoints, within, crashes⟩⟩
  · exact ⟨decoded, n, .inr halts⟩

/-- A collection that meets no command removes 2⁶⁴ bytes, crashes and reports nothing. -/
theorem overflow_unreported :
    let store := ArtifactStore.built bulky
    let run := SoleRun.quiet job [] { clock := 0, store } rfl
    bytes store.untagged = 2 ^ 64 ∧ run.Crashes 7 1 overflow ∧
      removals (run.deeds 7) = [("team/web", "sha256:a"), ("team/web", "sha256:b")] ∧
      (run.left 7).size = 0 := by
  intro store run
  refine ⟨by decide +kernel, ⟨Stage.eq_ended ?_, ?_, ?_⟩, ?_, ?_⟩ <;> decide +kernel

end JobEngine.Maintenance.Collection
