import ForgeData.Packaging.PackagingRun

/-!
# No sample leaks into another split

From cleaned rows to split files: the windows arrive ordered by their first source row, so grouping
by source overlap never lets two overlapping samples get different group ids, a group id determines
the split, and the second pass writes each sample where its own record was assigned.

Nothing is assumed of the hash, so two groups may share an id, and nothing of float arithmetic, so
the ratios may be anything the profile lets through.
-/

namespace ForgeData

open Python

variable {R ρ π : Type} [PyFloat R]

/-! ## Samples of the transformation stage -/

/-- The source row lies in the sample's inclusive range. -/
def Sample.Covers (s : Sample π) (row : ℤ) : Prop :=
  (∃ start ∈ s.sourceRowStart, start ≤ row) ∧ ∃ stop ∈ s.sourceRowEnd, row ≤ stop

/-- Samples as the transformation stage writes them: ordered by their first source row, and complete
with a range and an id. -/
structure WellOrdered (samples : List (Sample π)) : Prop where
  starts : samples.Pairwise fun a b ↦
    ∀ s ∈ a.sourceRowStart, ∀ t ∈ b.sourceRowStart, s ≤ t
  ranges : ∀ s ∈ samples, s.sourceRowStart.isSome ∧ s.sourceRowEnd.isSome
  ids : ∀ s ∈ samples, ∃ sampleId, s.sampleId = some sampleId ∧ sampleId ≠ ""

theorem computeSampleId_ne_empty (sha256 : String → Sha256Digest)
    (cleanedSha256 configHash : String) (windowIndex startEpochUs endEpochUs : ℤ) :
    computeSampleId sha256 cleanedSha256 configHash windowIndex startEpochUs endEpochUs ≠ "" := by
  intro h
  have hlen := congrArg String.length h
  simp only [computeSampleId, String.length_append] at hlen
  have : (toString "sample_").length = 7 := rfl
  have : ("" : String).length = 0 := rfl
  omega

theorem processRows_wellOrdered {sha256 : String → Sha256Digest}
    {extract : WindowItem ρ → Except String π} {cleanedSha256 configHash : String}
    {config : WindowConfig R} {rows : List (ℤ × ρ)} {samples : List (Sample π)}
    (h : processRows sha256 extract cleanedSha256 configHash config rows = .ok samples) :
    WellOrdered samples := by
  rw [processRows, bind_eq_ok_iff] at h
  obtain ⟨g, hg, h⟩ := h
  rw [bind_eq_ok_iff] at h
  obtain ⟨samples', hsamples, h⟩ := h
  split at h
  · next hraised =>
    obtain rfl : samples' = samples := Except.ok.inj h
    have hordered := configuredWindows_ordered (rowStream_increasingIndices rows) hg hraised
    have hwritten := forall₂_of_mapM_eq_ok hsamples
    -- a sample takes over the bounds of its window, and its id is never empty
    have hsample {i : ℕ} (hi : i < samples'.length) : ∃ hi' : i < g.yields.length,
        samples'[i].sourceRowStart = some g.yields[i].firstRow.rowIndex ∧
        samples'[i].sourceRowEnd = some g.yields[i].lastRow.rowIndex ∧
        ∃ sampleId, samples'[i].sampleId = some sampleId ∧ sampleId ≠ "" := by
      have hi' : i < g.yields.length := hwritten.length_eq ▸ hi
      refine ⟨hi', ?_⟩
      have hw := (List.forall₂_iff_get.1 hwritten).2 i hi' hi
      rw [sampleOfWindow] at hw
      split at hw
      · cases hw
      · have hs := Except.ok.inj hw
        simp only [List.get_eq_getElem] at hs
        rw [← hs]
        exact ⟨rfl, rfl, _, rfl, computeSampleId_ne_empty _ _ _ _ _ _⟩
    refine ⟨List.pairwise_iff_getElem.2 fun i j hi hj hij ↦ ?_, fun s hs ↦ ?_, fun s hs ↦ ?_⟩
    · obtain ⟨hi', hstart, -⟩ := hsample hi
      obtain ⟨hj', hstart', -⟩ := hsample hj
      rw [hstart, hstart']
      rintro s ⟨⟩ t ⟨⟩
      exact List.pairwise_iff_getElem.1 hordered.starts i j hi' hj' hij
    · obtain ⟨i, hi, rfl⟩ := List.getElem_of_mem hs
      obtain ⟨_, hstart, hstop, -⟩ := hsample hi
      simp [hstart, hstop]
    · obtain ⟨i, hi, rfl⟩ := List.getElem_of_mem hs
      obtain ⟨_, -, -, hid⟩ := hsample hi
      exact hid
  · cases h

/-! ## From samples to records -/

theorem ReadInv.startsBy {lines : List (Option (Sample π))} {records : List SampleRecord}
    (h : ReadInv lines records) (hs : WellOrdered (lines.filterMap id)) :
    records.Pairwise StartsBy := by
  refine List.pairwise_iff_getElem.2 fun i j hi hj hij ↦ ?_
  obtain ⟨hi', ⟨-, hstart, -⟩, -⟩ := h.getElem hi
  obtain ⟨hj', ⟨-, hstart', -⟩, -⟩ := h.getElem hj
  rw [StartsBy, ← hstart, ← hstart']
  exact List.pairwise_iff_getElem.1 hs.starts i j hi' hj' hij

theorem not_endsBefore {a b : Sample π} {r r' : SampleRecord} (ha : a.Recorded r)
    (hb : b.Recorded r') {row : ℤ} (hrow : a.Covers row) (hrow' : b.Covers row) :
    ¬ EndsBefore r r' := by
  obtain ⟨-, stop, hstop, hle⟩ := hrow
  obtain ⟨⟨start, hstart, hge⟩, -⟩ := hrow'
  intro h
  have := h stop (ha.2.2 ▸ hstop) start (hb.2.1 ▸ hstart)
  omega

/-! ## The middle of the run -/

section

variable {env : PackagingEnv π} {profile : PackagingProfile} {config : PackagingConfig R}
  {transformedSha256 : String} {sessionIds : List String} {lines : List (Option (Sample π))}
  {records : List SampleRecord}

/-- What a run over the given records has established by the time the files are written: besides what
every run has, that overlapping records share a group. -/
structure Assigned (lines : List (Option (Sample π))) (records : List SampleRecord)
    (grouped : List (SampleRecord × String)) (groupToSplit : Dict String Split)
    (d : Dict ℕ Assignment) : Prop extends Indexed lines records grouped groupToSplit d where
  safe : OverlapSafe grouped

namespace Assigned

variable {grouped : List (SampleRecord × String)} {groupToSplit : Dict String Split}
  {d : Dict ℕ Assignment}

/-- **Overlapping samples share a group**, and so their assignments name the same split. -/
theorem split_eq (h : Assigned lines records grouped groupToSplit d)
    {i j : ℕ} {a b : Sample π} (ha : (lines.filterMap id)[i]? = some a)
    (hb : (lines.filterMap id)[j]? = some b) {row : ℤ} (hrow : a.Covers row)
    (hrow' : b.Covers row) :
    ∃ x y : Assignment, d.get? i = some x ∧ d.get? j = some y ∧ x.2.2 = y.2.2 := by
  obtain ⟨hi, rfl⟩ := List.getElem?_eq_some_iff.1 ha
  obtain ⟨hj, rfl⟩ := List.getElem?_eq_some_iff.1 hb
  rw [← h.length_eq] at hi hj
  obtain ⟨_, hreci, hgeti⟩ := h.get?_index hi
  obtain ⟨_, hrecj, hgetj⟩ := h.get?_index hj
  have hgroup : grouped[i].2 = grouped[j].2 := by
    rcases Nat.lt_trichotomy i j with hij | rfl | hij
    · exact (List.pairwise_iff_getElem.1 h.safe i j hi hj hij).resolve_right
        (not_endsBefore hreci hrecj hrow hrow')
    · rfl
    · exact ((List.pairwise_iff_getElem.1 h.safe j i hj hi hij).resolve_right
        (not_endsBefore hrecj hreci hrow' hrow)).symm
  exact ⟨_, _, hgeti, hgetj, by simp only [assignmentOf, hgroup]⟩

end Assigned

/-- **The run over the records succeeds**, and writes the files the assignments call for. -/
theorem packageRecords_spec (env : PackagingEnv π) (profile : PackagingProfile)
    (transformedSha256 : String) (sessionIds : List String) (hmode : config.groupingMode = "source_overlap")
    (hread : ReadInv lines records) (hs : WellOrdered (lines.filterMap id))
    (hstrategy : config.split.strategy = "group_hash" ∨ config.split.strategy = "sequential") :
    ∃ grouped groupToSplit d result staged,
      Assigned lines records grouped groupToSplit d ∧
      WriteInv env d (lines.filterMap id).zipIdx staged ∧
      packageRecords env profile config transformedSha256 sessionIds lines records
        = .ok (result, staged) := by
  have hranges : Ranged records := fun r hr ↦ by
    obtain ⟨i, hi, rfl⟩ := List.getElem_of_mem hr
    obtain ⟨hi', ⟨-, hstart, hstop⟩, -⟩ := hread.getElem hi
    rw [← hstart, ← hstop]
    exact hs.ranges _ (List.getElem_mem hi')
  have hgroup : assignGroups env config.groupingMode transformedSha256 sessionIds records
      = .ok (labelGroups env.sha256 transformedSha256 (overlapGroups records)) := by
    rw [assignGroups, if_pos hmode, assignSourceOverlapGroups_eq hranges]
  obtain ⟨hrecorded, hsafe⟩ := assignSourceOverlapGroups_safe (hread.startsBy hs)
    (assignSourceOverlapGroups_eq hranges)
  obtain ⟨groupToSplit, d, result, staged, hrun⟩ :=
    exists_packageRecords hread hstrategy hgroup hrecorded
  exact ⟨_, groupToSplit, d, result, staged, ⟨hrun.indexed, hsafe⟩, hrun.written, hrun.run⟩

end

/-- **Leakage safety.** Two samples whose source ranges share a row are written to the same split,
whatever the window and split configuration and whatever the hash; and packaging the samples of a
transformation run does succeed unless two of them got the same id. -/
theorem overlapping_samples_same_split {sha256 : String → Sha256Digest}
    {extract : WindowItem ρ → Except String π} {cleanedSha256 configHash : String}
    {window : WindowConfig R} {rows : List (ℤ × ρ)} {samples : List (Sample π)}
    (hsamples : processRows sha256 extract cleanedSha256 configHash window rows = .ok samples)
    (env : PackagingEnv π) {config : PackagingConfig R}
    (hconfig : defaultMlPackage.validateConfig config = .ok ())
    (hmode : config.groupingMode = "source_overlap")
    (transformedSha256 : String) (sessionIds : List String) :
    ((samples.map Sample.sampleId).Nodup →
      ∃ out, runPackaging env defaultMlPackage config transformedSha256 sessionIds
        (samples.map some) = .ok out) ∧
    ∀ result staged, runPackaging env defaultMlPackage config transformedSha256 sessionIds
        (samples.map some) = .ok (result, staged) →
      ∀ (i j : ℕ) (a b : Sample π) (row : ℤ), samples[i]? = some a → samples[j]? = some b →
        a.Covers row → b.Covers row →
        ∃ x y : SplitIndexRecord, staged.splitIndex[i]? = some x ∧
          staged.splitIndex[j]? = some y ∧ x.split = y.split ∧
          a ∈ staged.files x.split ∧ b ∈ staged.files y.split := by
  have hlines : (samples.map some).filterMap id = samples := by simp [List.filterMap_map]
  have hs : WellOrdered ((samples.map some).filterMap id) := by
    rw [hlines]
    exact processRows_wellOrdered hsamples
  have hstrategy := strategy_of_validateConfig hconfig
  constructor
  -- distinct ids are all that reading the samples asks for
  · intro hdistinct
    obtain ⟨records, hrecords⟩ :=
      exists_readSampleRecords hs.ids (by rwa [hlines])
    rw [runPackaging, hrecords]
    dsimp only [bind, Except.bind]
    split
    · exact ⟨_, rfl⟩
    · obtain ⟨_, _, _, result, staged, -, -, hrun⟩ := packageRecords_spec env
        defaultMlPackage transformedSha256 sessionIds hmode (readSampleRecords_inv hrecords) hs
        hstrategy
      exact ⟨_, hrun⟩
  · intro result staged hrun i j a b row ha hb hrow hrow'
    rw [runPackaging, bind_eq_ok_iff] at hrun
    obtain ⟨records, hrecords, hrun⟩ := hrun
    have hread := readSampleRecords_inv hrecords
    split at hrun
    · next hnil =>
      have hlen := hread.recorded.length_eq
      rw [hlines, hnil] at hlen
      obtain rfl := List.length_eq_zero_iff.1 hlen
      cases ha
    · obtain ⟨grouped, groupToSplit, d, result', staged', hassigned, hwrite, hrun'⟩ :=
        packageRecords_spec env defaultMlPackage transformedSha256 sessionIds hmode hread hs
          hstrategy
      obtain ⟨-, rfl⟩ := Prod.mk.inj (Except.ok.inj (hrun'.symm.trans hrun))
      rw [← hlines] at ha hb
      -- samples that share a row are in one group, and a group has one split
      obtain ⟨x, y, hx, hy, hxy⟩ := hassigned.split_eq ha hb hrow hrow'
      obtain ⟨r, hr, hrx, har⟩ := hwrite.getElem? ha hx
      obtain ⟨r', hr', hry, hbr⟩ := hwrite.getElem? hb hy
      exact ⟨r, r', hr, hr', by rw [hrx, hry, hxy], har, hbr⟩

/-- Packaging with a hash that is constant: every group gets the same id. -/
def constantHashEnv : PackagingEnv Unit where
  sha256 := fun _ ↦ zeroDigest
  serializeSample := fun _ ↦ ""
  serializeIndex := fun _ ↦ ""
  artifactUri := fun filename ↦ filename
  exportParquet := fun _ ↦ (zeroDigest, 0)

/-- Three rows cut into windows of two rows: the two windows share the middle row. -/
theorem overlapping_samples_same_split_three_rows :
    let samples : List (Sample Unit) :=
      [⟨some "sample_90000000000000000000000000000000", some 0, some 1, ()⟩,
        ⟨some "sample_a0000000000000000000000000000000", some 1, some 2, ()⟩]
    let config : PackagingConfig ℚ :=
      { split := { trainRatio := 1 / 2, validationRatio := 1 / 2, testRatio := 0 } }
    ∃ result staged,
      runPackaging constantHashEnv defaultMlPackage config "t" [] (samples.map some)
        = .ok (result, staged) ∧
      ∃ x y : SplitIndexRecord, staged.splitIndex[0]? = some x ∧ staged.splitIndex[1]? = some y ∧
        x.split = y.split := by
  intro samples config
  have hsamples : processRows (R := ℚ)
      (fun s ↦ ⟨Fin.ofNat 16 s.length :: List.replicate 63 0, rfl⟩)
      (fun _ : WindowItem Unit ↦ .ok ()) "c" "h" { size := some 2, stride := some 1 }
      [(0, ()), (1, ()), (10, ())] = .ok samples := by rfl
  have hconfig : defaultMlPackage.validateConfig config = .ok () := by decide +kernel
  obtain ⟨hok, hsame⟩ :=
    overlapping_samples_same_split hsamples constantHashEnv hconfig rfl "t" []
  obtain ⟨⟨result, staged⟩, hrun⟩ := hok (by decide)
  obtain ⟨x, y, hx, hy, hxy, -⟩ := hsame result staged hrun 0 1 _ _ 1 rfl rfl
    ⟨⟨0, rfl, by decide⟩, 1, rfl, by decide⟩ ⟨⟨1, rfl, by decide⟩, 2, rfl, by decide⟩
  exact ⟨result, staged, hrun, x, y, hx, hy, hxy⟩

end ForgeData
