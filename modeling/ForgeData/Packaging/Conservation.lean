import ForgeData.Packaging.PackagingRun

/-!
# Packaging conserves samples

Everything that is written in the second pass is determined by the assignments: line by line the split
index repeats them, and a split's file holds the samples whose line names the split. So the index
fixes the files, and the counts, sizes and digests of the manifest are those of the files.
-/

namespace ForgeData

open Python

variable {R π : Type} [PyFloat R]

/-! ## Partitions of a list -/

theorem map_filter_eq_zip {α β γ : Type} {P : α → Bool} {Q : β → Bool} {f : α → γ} {l : List α}
    {l' : List β} (h : List.Forall₂ (fun a b ↦ P a = Q b) l l') :
    (l.filter P).map f = (((l.map f).zip l').filter fun p ↦ Q p.2).map Prod.fst := by
  induction h with
  | nil => rfl
  | @cons a b l l' hab _ ih =>
    rw [List.map_cons, List.zip_cons_cons, List.filter_cons, List.filter_cons, hab]
    split
    · rw [List.map_cons, List.map_cons, ih]
    · exact ih

theorem length_filter_zip {α β : Type} {Q : β → Bool} {l : List α} {l' : List β}
    (h : l.length = l'.length) :
    ((l.zip l').filter fun p ↦ Q p.2).length = l'.countP Q := by
  have hsnd : (l.zip l').map Prod.snd = l' := List.map_snd_zip h.ge
  rw [← List.countP_eq_length_filter]
  conv_rhs => rw [← hsnd, List.countP_map]
  rfl

theorem sum_countP_split {β : Type} (splitOf : β → Split) (l : List β) :
    (Split.all.map fun split ↦ l.countP fun b ↦ splitOf b = split).sum = l.length := by
  induction l with
  | nil => rfl
  | cons b l ih =>
    simp only [Split.all, List.map_cons, List.map_nil, List.sum_cons, List.sum_nil,
      List.countP_cons, List.length_cons] at ih ⊢
    cases splitOf b <;> simp <;> omega

/-! ## What is conserved -/

/-- What a run has written and recorded for the samples of the file. -/
structure Conserves (env : PackagingEnv π) (samples : List (Sample π)) (result : PackagingResult R)
    (staged : StagedSplits π) : Prop where
  /-- The split index has one line for each sample, in source order. -/
  splitIndex : List.Forall₂ (fun s r ↦ s.sampleId = some r.sampleId ∧
    s.sourceRowStart = r.sourceRowStart ∧ s.sourceRowEnd = r.sourceRowEnd) samples staged.splitIndex
  /-- A split's file holds the samples whose line names the split, in source order. -/
  files : ∀ split, staged.files split
    = ((samples.zip staged.splitIndex).filter fun p ↦ p.2.split = split).map Prod.fst
  /-- The manifest records what the files contain. -/
  samplesRecorded : ∀ split,
    (result.splitManifestEntries split).samples = (staged.files split).length
  sha256 : ∀ split, (result.splitManifestEntries split).sha256 = env.sha256 (staged.text env split)
  sizeBytes : ∀ split,
    (result.splitManifestEntries split).sizeBytes = (staged.text env split).utf8ByteSize
  splitIndexSha256 : result.splitIndexSha256 = env.sha256 (staged.indexText env)
  splitIndexSizeBytes : result.splitIndexSizeBytes = (staged.indexText env).utf8ByteSize
  /-- So do the entries of the exported files, if there are any. -/
  parquet : ∀ entries ∈ result.parquetEntries, ∀ split,
    (entries split).samples = (staged.files split).length ∧
      ((entries split).sha256, (entries split).sizeBytes)
        = env.exportParquet (staged.text env split)
  /-- The counts of the splits sum to the number of samples. -/
  sourceSamples : result.sourceSamples = samples.length
  total : (Split.all.map fun split ↦ (result.splitManifestEntries split).samples).sum
    = result.sourceSamples

section

variable {env : PackagingEnv π} {profile : PackagingProfile} {config : PackagingConfig R}
  {transformedSha256 : String} {sessionIds : List String} {lines : List (Option (Sample π))}
  {records : List SampleRecord} {grouped : List (SampleRecord × String)}
  {groupToSplit : Dict String Split} {d : Dict ℕ Assignment} {result : PackagingResult R}
  {staged : StagedSplits π}

omit [PyFloat R] in
/-- **The two passes agree**: the lines of the split index are the assignments, in order. -/
theorem Indexed.splitIndex_eq (h : Indexed lines records grouped groupToSplit d)
    (hwrite : WriteInv env d (lines.filterMap id).zipIdx staged) :
    staged.splitIndex.map (fun r ↦ (r.sampleId, r.groupId, r.split))
      = grouped.map (assignmentOf groupToSplit) := by
  have hlength : staged.splitIndex.length = grouped.length := by
    rw [← hwrite.splitIndex.length_eq, List.length_zipIdx, h.length_eq]
  refine List.ext_getElem (by simpa using hlength) fun i hi hi' ↦ ?_
  rw [List.length_map] at hi hi'
  obtain ⟨hi₁, -, hget⟩ := h.get?_index hi'
  have hi₂ : i < (lines.filterMap id).zipIdx.length := by simpa using hi₁
  have hline := ((List.forall₂_iff_get.1 hwrite.splitIndex).2 i hi₂ hi).1
  simp only [List.get_eq_getElem, List.getElem_zipIdx, Nat.zero_add] at hline
  rw [List.getElem_map, List.getElem_map]
  exact Option.some.inj (hline.symm.trans hget)

omit [PyFloat R] in
/-- Each line of the split index repeats what its sample says. -/
theorem Indexed.forall₂_splitIndex (h : Indexed lines records grouped groupToSplit d)
    (hwrite : WriteInv env d (lines.filterMap id).zipIdx staged) :
    List.Forall₂ (fun s r ↦ s.sampleId = some r.sampleId ∧ s.sourceRowStart = r.sourceRowStart ∧
      s.sourceRowEnd = r.sourceRowEnd) (lines.filterMap id) staged.splitIndex := by
  have hlength : (lines.filterMap id).length = staged.splitIndex.length := by
    rw [← hwrite.splitIndex.length_eq, List.length_zipIdx]
  refine List.forall₂_iff_get.2 ⟨hlength, fun i hi hi' ↦ ?_⟩
  have hi₁ : i < grouped.length := by rwa [h.length_eq]
  have hi₂ : i < (lines.filterMap id).zipIdx.length := by simpa using hi
  obtain ⟨_, ⟨hid, _, _⟩, _⟩ := h.get?_index hi₁
  have hline := (List.forall₂_iff_get.1 hwrite.splitIndex).2 i hi₂ hi'
  simp only [List.get_eq_getElem, List.getElem_zipIdx, Nat.zero_add] at hline
  have hassigned := congrArg (·[i]?) (h.splitIndex_eq hwrite)
  simp only [List.getElem?_map, List.getElem?_eq_getElem hi', List.getElem?_eq_getElem hi₁,
    Option.map_some, assignmentOf, Option.some.injEq, Prod.mk.injEq] at hassigned
  simp only [List.get_eq_getElem]
  exact ⟨by rw [hid, hassigned.1], hline.2.1.symm, hline.2.2.symm⟩

omit [PyFloat R] in
theorem WriteInv.files_eq (h : WriteInv env d (lines.filterMap id).zipIdx staged) (split : Split) :
    staged.files split = (((lines.filterMap id).zip staged.splitIndex).filter
      fun p ↦ p.2.split = split).map Prod.fst := by
  have hsplits : List.Forall₂ (fun p (r : SplitIndexRecord) ↦
      decide ((d.get? p.2).map (·.2.2) = some split) = decide (r.split = split))
      (lines.filterMap id).zipIdx staged.splitIndex :=
    h.splitIndex.imp fun p r hpr ↦ by simp [hpr.1]
  rw [h.files, map_filter_eq_zip hsplits, List.zipIdx_map_fst]

/-- **A run that succeeds conserves the samples.** -/
theorem PackagedRun.conserves (h : PackagedRun env profile config transformedSha256 sessionIds lines
    records grouped groupToSplit d result staged) :
    Conserves env (lines.filterMap id) result staged := by
  have hlength : (lines.filterMap id).length = staged.splitIndex.length := by
    rw [← h.written.splitIndex.length_eq, List.length_zipIdx]
  have hassigned := h.indexed.splitIndex_eq h.written
  have hcount : ∀ split, (splitEntry env staged d split).samples
      = staged.splitIndex.countP fun r ↦ r.split = split := by
    intro split
    have hvalues : d.values = staged.splitIndex.map fun r ↦ (r.sampleId, r.groupId, r.split) := by
      rw [hassigned, Dict.values, h.indexed.items, List.map_map]
      rfl
    rw [splitEntry, hvalues, List.countP_map]
    rfl
  have hfiles : ∀ split, (splitEntry env staged d split).samples = (staged.files split).length := by
    intro split
    rw [hcount, h.written.files_eq, List.length_map]
    exact (length_filter_zip (Q := fun r ↦ r.split = split) hlength).symm
  have hsource : result.sourceSamples = (lines.filterMap id).length := by
    rw [h.sourceSamples, h.indexed.reading.recorded.length_eq]
  refine ⟨h.indexed.forall₂_splitIndex h.written, h.written.files_eq, ?_, ?_, ?_, ?_, ?_, ?_, hsource,
    ?_⟩
  · intro split
    rw [h.entries, hfiles]
  · intro split
    rw [h.entries, splitEntry, h.written.digests]
  · intro split
    rw [h.entries, splitEntry, h.written.sizes]
  · rw [h.splitIndexSha256, h.written.splitIndexDigest]
  · rw [h.splitIndexSizeBytes, h.written.splitIndexSize]
  · intro entries hentries split
    rw [h.parquetEntries, optionalExports] at hentries
    split at hentries
    · cases hentries
      exact ⟨hfiles split, rfl⟩
    · cases hentries
  · rw [h.entries, hsource, hlength, ← sum_countP_split SplitIndexRecord.split]
    simp only [hcount]

/-- The package of a source without samples. -/
theorem conserves_finalizeEmptyResult (env : PackagingEnv π) (config : PackagingConfig R) :
    Conserves env [] (finalizeEmptyResult env config).1 (finalizeEmptyResult env config).2 where
  splitIndex := .nil
  files _ := rfl
  samplesRecorded _ := rfl
  sha256 _ := rfl
  sizeBytes _ := rfl
  splitIndexSha256 := rfl
  splitIndexSizeBytes := rfl
  parquet entries hentries split := by
    rw [finalizeEmptyResult, optionalExports] at hentries
    split at hentries
    · cases hentries
      exact ⟨rfl, rfl⟩
    · cases hentries
  sourceSamples := rfl
  total := rfl

/-! ## Every file of samples -/

/-- What the configured grouping needs to know about the samples: their source ranges, or that they
come from a single session. -/
def GroupsKnown (mode : String) (sessionIds : List String) (samples : List (Sample π)) : Prop :=
  if mode = "source_overlap" then ∀ s ∈ samples, s.sourceRowStart.isSome ∧ s.sourceRowEnd.isSome
  else sessionIds.length = 1

omit [PyFloat R] in
theorem ReadInv.groupable_iff (h : ReadInv lines records) (mode : String)
    (sessionIds : List String) :
    Groupable mode sessionIds records ↔ GroupsKnown mode sessionIds (lines.filterMap id) := by
  rw [Groupable, GroupsKnown]
  split
  · constructor
    · intro hranged s hs
      obtain ⟨i, hi, rfl⟩ := List.getElem_of_mem hs
      obtain ⟨_, ⟨-, hstart, hstop⟩, -⟩ := h.getElem (h.recorded.length_eq ▸ hi)
      rw [hstart, hstop]
      exact hranged _ (List.getElem_mem _)
    · intro hknown r hr
      obtain ⟨i, hi, rfl⟩ := List.getElem_of_mem hr
      obtain ⟨hi', ⟨-, hstart, hstop⟩, -⟩ := h.getElem hi
      rw [← hstart, ← hstop]
      exact hknown _ (List.getElem_mem hi')
  · exact Iff.rfl

theorem groupingMode_of_validateConfig {u : Unit}
    (h : defaultMlPackage.validateConfig config = .ok u) :
    config.groupingMode = "source_overlap" ∨ config.groupingMode = "session" := by
  rw [PackagingProfile.validateConfig] at h
  split at h
  · cases h
  · split at h
    · cases h
    · next hmem => simpa [defaultMlPackage, or_iff_not_imp_left] using hmem

end

/-- **Packaging conserves samples.** A file whose samples have pairwise different nonempty ids is
packaged without loss: the split index has a line for every sample, each sample is in the file that
its line names and in no other, and the manifest records what the files contain. Only a file that the
grouping mode cannot group is refused, and then nothing is packaged. -/
theorem packaging_conserves_samples (env : PackagingEnv π) {config : PackagingConfig R}
    (hconfig : defaultMlPackage.validateConfig config = .ok ()) (transformedSha256 : String)
    (sessionIds : List String) {lines : List (Option (Sample π))}
    (hids : ∀ s ∈ lines.filterMap id, ∃ sampleId, s.sampleId = some sampleId ∧ sampleId ≠ "")
    (hdistinct : ((lines.filterMap id).map Sample.sampleId).Nodup) :
    (lines.filterMap id = [] ∨ GroupsKnown config.groupingMode sessionIds (lines.filterMap id) →
      ∃ result staged, runPackaging env defaultMlPackage config transformedSha256 sessionIds lines
        = .ok (result, staged) ∧ Conserves env (lines.filterMap id) result staged) ∧
    (¬(lines.filterMap id = [] ∨ GroupsKnown config.groupingMode sessionIds (lines.filterMap id)) →
      ∃ message, runPackaging env defaultMlPackage config transformedSha256 sessionIds lines
        = .error (.missingGroupMetadata message)) := by
  obtain ⟨records, hrecords⟩ := exists_readSampleRecords hids hdistinct
  have hread := readSampleRecords_inv hrecords
  have hempty : records = [] ↔ lines.filterMap id = [] := by
    rw [← List.length_eq_zero_iff, ← hread.recorded.length_eq, List.length_eq_zero_iff]
  rw [runPackaging, hrecords]
  dsimp only [bind, Except.bind]
  by_cases hnil : records = []
  · rw [if_pos hnil]
    refine ⟨fun _ ↦ ⟨_, _, rfl, ?_⟩, fun h ↦ absurd (.inl (hempty.1 hnil)) h⟩
    rw [hempty.1 hnil]
    exact conserves_finalizeEmptyResult env config
  · rw [if_neg hnil, ← hempty, ← hread.groupable_iff]
    have hmode := groupingMode_of_validateConfig hconfig
    constructor
    · intro hgroupable
      obtain ⟨grouped, hgrouped, hrecorded⟩ :=
        exists_assignGroups env transformedSha256 hmode (hgroupable.resolve_left hnil)
      obtain ⟨groupToSplit, d, result, staged, hrun⟩ := exists_packageRecords
        hread (strategy_of_validateConfig hconfig) hgrouped hrecorded
      exact ⟨result, staged, hrun.run, hrun.conserves⟩
    · intro hrefused
      obtain ⟨message, hmessage⟩ := exists_missingGroups env transformedSha256
        (mt .inr hrefused)
      refine ⟨message, ?_⟩
      rw [packageRecords, hmessage]
      rfl

/-- An environment that writes a sample as its id, with a digest that only knows lengths. -/
def listingEnv : PackagingEnv Unit where
  sha256 := fun s ↦ ⟨Fin.ofNat 16 s.length :: List.replicate 63 0, rfl⟩
  serializeSample := fun s ↦ s.sampleId.getD "" ++ "\n"
  serializeIndex := fun r ↦ r.sampleId ++ " " ++ r.split.name ++ "\n"
  artifactUri := fun filename ↦ filename
  exportParquet := fun text ↦ (zeroDigest, text.utf8ByteSize)

/-- Two samples with a blank line between them. -/
theorem packaging_conserves_samples_two :
    let lines : List (Option (Sample Unit)) :=
      [some ⟨some "a", some 0, some 9, ()⟩, none, some ⟨some "b", some 10, some 19, ()⟩]
    let config : PackagingConfig ℚ :=
      { split := { trainRatio := 1 / 2, validationRatio := 1 / 2, testRatio := 0 } }
    ∃ result staged, runPackaging listingEnv defaultMlPackage config "t" [] lines
      = .ok (result, staged) ∧ Conserves listingEnv (lines.filterMap id) result staged :=
  (packaging_conserves_samples listingEnv (by decide +kernel) "t" [] (by simp) (by decide)).1
    (.inr (by simp [GroupsKnown]))

end ForgeData
