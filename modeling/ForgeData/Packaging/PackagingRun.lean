import ForgeData.Packaging.OverlapGroups
import ForgeData.Packaging.Passes

/-!
# A packaging run that succeeds

Grouping is the only part of a run that can refuse the samples: it does so if a sample has no source
range, or if the samples do not all belong to one session. Whenever it succeeds, the groups are
assigned, the audit passes, and the second pass writes the files.
-/

namespace ForgeData

open Python

variable {R π : Type} [PyFloat R]

/-! ## Grouping -/

/-- What the grouping mode needs: source ranges, or a single session. -/
def Groupable (mode : String) (sessionIds : List String) (records : List SampleRecord) : Prop :=
  if mode = "source_overlap" then Ranged records else sessionIds.length = 1

/-- **Grouping** succeeds on what the mode needs, and keeps the records in their order. -/
theorem exists_assignGroups (env : PackagingEnv π) (transformedSha256 : String) {mode : String}
    (hmode : mode = "source_overlap" ∨ mode = "session") {sessionIds : List String}
    {records : List SampleRecord} (h : Groupable mode sessionIds records) :
    ∃ grouped, assignGroups env mode transformedSha256 sessionIds records = .ok grouped ∧
      grouped.map Prod.fst = records := by
  rw [Groupable] at h
  rw [assignGroups]
  split at h
  · next hoverlap =>
    rw [if_pos hoverlap, assignSourceOverlapGroups_eq h]
    refine ⟨_, rfl, ?_⟩
    rw [labelGroups, List.map_flatMap]
    refine Eq.trans (List.flatMap_congr fun g _ ↦ ?_) (groups_overlapGroups h).pending
    simp [OpenGroup.flush, Function.comp_def]
  · next hoverlap =>
    obtain ⟨sessionId, rfl⟩ := List.length_eq_one_iff.1 h
    rw [if_neg hoverlap, if_pos (hmode.resolve_left hoverlap)]
    exact ⟨_, rfl, by simp [Function.comp_def]⟩

/-- Without it, grouping refuses the samples. -/
theorem exists_missingGroups (env : PackagingEnv π) (transformedSha256 : String) {mode : String}
    {sessionIds : List String} {records : List SampleRecord}
    (h : ¬ Groupable mode sessionIds records) :
    ∃ message, assignGroups env mode transformedSha256 sessionIds records
      = .error (.missingGroupMetadata message) := by
  rw [Groupable] at h
  rw [assignGroups]
  split at h
  · next hoverlap =>
    rw [if_pos hoverlap]
    exact exists_missingGroupMetadata _ _ h
  · next hoverlap =>
    rw [if_neg hoverlap]
    split
    · rw [assignSessionGroups]
      · exact ⟨_, rfl⟩
      · rintro sessionId rfl
        exact h rfl
    · exact ⟨_, rfl⟩

/-! ## The run -/

section

variable {env : PackagingEnv π} {profile : PackagingProfile} {config : PackagingConfig R}
  {transformedSha256 : String} {sessionIds : List String} {lines : List (Option (Sample π))}
  {records : List SampleRecord} {grouped : List (SampleRecord × String)}

/-- A run over grouped records that succeeds, with what it has computed on the way. -/
structure PackagedRun (env : PackagingEnv π) (profile : PackagingProfile)
    (config : PackagingConfig R) (transformedSha256 : String) (sessionIds : List String)
    (lines : List (Option (Sample π))) (records : List SampleRecord)
    (grouped : List (SampleRecord × String)) (groupToSplit : Dict String Split)
    (d : Dict ℕ Assignment) (result : PackagingResult R) (staged : StagedSplits π) : Prop where
  indexed : Indexed lines records grouped groupToSplit d
  written : WriteInv env d (lines.filterMap id).zipIdx staged
  run : packageRecords env profile config transformedSha256 sessionIds lines records
    = .ok (result, staged)
  assigned : assignSplits env.sha256 config.split profile.profileName profile.profileVersion
    (countGroups grouped).1 (countGroups grouped).2 = .ok groupToSplit
  sourceSamples : result.sourceSamples = records.length
  entries : result.splitManifestEntries = splitEntry env staged d
  splitIndexSha256 : result.splitIndexSha256 = env.sha256 staged.splitIndexDigest
  splitIndexSizeBytes : result.splitIndexSizeBytes = staged.splitIndexSize
  parquetEntries : result.parquetEntries
    = optionalExports env config.exports staged (splitEntry env staged d)

theorem exists_assignSplits (sha256 : String → Sha256Digest) {split : SplitConfig R}
    (hstrategy : split.strategy = "group_hash" ∨ split.strategy = "sequential")
    (profileName profileVersion : String) (groupIds : List String) (counts : Dict String ℕ) :
    ∃ groupToSplit,
      assignSplits sha256 split profileName profileVersion groupIds counts = .ok groupToSplit := by
  rw [assignSplits]
  rcases hstrategy with h | h
  · exact ⟨_, if_pos h⟩
  · exact ⟨_, by rw [if_neg (by simp [h]), if_pos h]⟩

omit [PyFloat R] in
/-- No chain of the grouped records crosses two splits; without source ranges there is none. -/
theorem countCrossSplitOverlaps_grouped {groupToSplit : Dict String Split}
    (hgrouped : assignGroups env config.groupingMode transformedSha256 sessionIds records
      = .ok grouped)
    (hgroups : ∀ p ∈ grouped, ∃ s, groupToSplit.get? p.2 = some s) :
    countCrossSplitOverlaps (if config.groupingMode = "source_overlap" then
      overlapRanges groupToSplit grouped else []) = 0 := by
  split
  · next hoverlap =>
    rw [assignGroups, if_pos hoverlap] at hgrouped
    by_cases h : Ranged records
    · rw [assignSourceOverlapGroups_eq h] at hgrouped
      cases hgrouped
      exact countCrossSplitOverlaps_overlapGroups h hgroups
    · obtain ⟨message, hrefused⟩ := exists_missingGroupMetadata env.sha256 transformedSha256 h
      rw [hrefused] at hgrouped
      cases hgrouped
  · rfl

/-- **Once the records are grouped the run succeeds.** -/
theorem exists_packageRecords (hread : ReadInv lines records)
    (hstrategy : config.split.strategy = "group_hash" ∨ config.split.strategy = "sequential")
    (hgrouped : assignGroups env config.groupingMode transformedSha256 sessionIds records
      = .ok grouped) (hrecorded : grouped.map Prod.fst = records) :
    ∃ groupToSplit d result staged, PackagedRun env profile config transformedSha256 sessionIds
      lines records grouped groupToSplit d result staged := by
  obtain ⟨groupToSplit, hsplit⟩ := exists_assignSplits env.sha256 hstrategy profile.profileName
    profile.profileVersion (countGroups grouped).1 (countGroups grouped).2
  have hgroups : ∀ p ∈ grouped, ∃ s, groupToSplit.get? p.2 = some s := fun p hp ↦
    exists_get?_of_assignSplits hsplit (mem_countGroups hp)
  obtain ⟨d, hd, hindexed⟩ := exists_indexed hread hrecorded hgroups
  obtain ⟨staged, hstaged, hwrite⟩ := exists_writeSplits env (d := d) lines fun i hi ↦ by
    rw [← hindexed.length_eq] at hi
    obtain ⟨_, -, hget⟩ := hindexed.get?_index hi
    exact ⟨_, hget⟩
  have haudit := hindexed.audit (countCrossSplitOverlaps_grouped hgrouped hgroups)
  obtain ⟨result, hrun, hsource, hentries, hsha, hsize, hparquet⟩ : ∃ result,
      packageRecords env profile config transformedSha256 sessionIds lines records
        = .ok (result, staged) ∧
      result.sourceSamples = records.length ∧
      result.splitManifestEntries = splitEntry env staged d ∧
      result.splitIndexSha256 = env.sha256 staged.splitIndexDigest ∧
      result.splitIndexSizeBytes = staged.splitIndexSize ∧
      result.parquetEntries
        = optionalExports env config.exports staged (splitEntry env staged d) := by
    rw [packageRecords, hgrouped]
    dsimp only [bind, Except.bind]
    rw [hsplit]
    dsimp only
    rw [hd]
    dsimp only
    rw [haudit]
    dsimp only
    rw [hstaged]
    exact ⟨_, rfl, rfl, rfl, rfl, rfl, rfl⟩
  exact ⟨groupToSplit, d, result, staged, hindexed, hwrite, hrun, hsplit, hsource, hentries, hsha,
    hsize, hparquet⟩

end

end ForgeData
