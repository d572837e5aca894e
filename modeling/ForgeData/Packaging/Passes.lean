import ForgeData.Packaging.Service

/-!
# The two passes over the transformed file

The first pass turns the `i`-th sample into a record with index `i`; the second finds the assignment
of the `i`-th sample under index `i`. Between them the records are grouped and the groups assigned,
which keeps their order. So the assignment the second pass finds for a sample is the one its own
record was given, and the files are the samples in source order, each in the file of its split.
-/

namespace ForgeData

open Python

variable {π : Type}

/-! ## Reading -/

/-- What a record keeps of a sample. -/
def Sample.Recorded (sample : Sample π) (r : SampleRecord) : Prop :=
  sample.sampleId = some r.sampleId ∧ sample.sourceRowStart = r.sourceRowStart ∧
    sample.sourceRowEnd = r.sourceRowEnd

/-- The invariant of the first pass: the records are those of the samples read, numbered from 0,
with distinct ids. -/
structure ReadInv (pre : List (Option (Sample π))) (records : List SampleRecord) : Prop where
  recorded : List.Forall₂ Sample.Recorded (pre.filterMap id) records
  indices : records.map SampleRecord.index = List.range records.length
  distinct : (records.map SampleRecord.sampleId).Nodup

theorem ReadInv.concat {pre : List (Option (Sample π))} {records : List SampleRecord}
    (h : ReadInv pre records) {sample : Sample π} {sampleId : String}
    (hid : sample.sampleId = some sampleId) (hnew : sampleId ∉ records.map SampleRecord.sampleId) :
    ReadInv (pre ++ [some sample]) (records ++
      [⟨records.length, sampleId, sample.sourceRowStart, sample.sourceRowEnd⟩]) where
  recorded := by
    rw [List.filterMap_append]
    exact List.rel_append h.recorded (.cons ⟨hid, rfl, rfl⟩ .nil)
  indices := by
    rw [List.map_append, h.indices, List.length_append, List.length_singleton, List.range_succ]
    rfl
  distinct := by
    rw [List.map_append]
    refine List.nodup_append.2 ⟨h.distinct, List.nodup_singleton _, fun a ha b hb hab ↦ hnew ?_⟩
    rwa [show sampleId = a from (hab.trans (List.mem_singleton.1 hb)).symm]

theorem ReadInv.blank {pre : List (Option (Sample π))} {records : List SampleRecord}
    (h : ReadInv pre records) : ReadInv (pre ++ [none]) records where
  recorded := by simpa using h.recorded
  indices := h.indices
  distinct := h.distinct

theorem ReadInv.step {pre : List (Option (Sample π))} {records records' : List SampleRecord}
    {line : Option (Sample π)} (h : ReadInv pre records)
    (hstep : readStep records line = .ok records') : ReadInv (pre ++ [line]) records' := by
  rcases line with _ | sample
  · rw [← Except.ok.inj hstep]
    exact h.blank
  · rw [readStep] at hstep
    split at hstep
    · cases hstep
    · next sampleId hid =>
      split at hstep
      · cases hstep
      · split at hstep
        · cases hstep
        · next hnew =>
          rw [← Except.ok.inj hstep]
          exact h.concat hid hnew

/-- **First pass.** -/
theorem readSampleRecords_inv {lines : List (Option (Sample π))} {records : List SampleRecord}
    (h : readSampleRecords lines = .ok records) : ReadInv lines records :=
  foldlM_invariant (fun _ ih hstep ↦ ih.step hstep) ⟨.nil, rfl, .nil⟩ h

/-- Samples with distinct nonempty ids are read without an error. -/
theorem exists_readSampleRecords {lines : List (Option (Sample π))}
    (hids : ∀ s ∈ (lines.filterMap id), ∃ sampleId, s.sampleId = some sampleId ∧ sampleId ≠ "")
    (hdistinct : ((lines.filterMap id).map Sample.sampleId).Nodup) :
    ∃ records, readSampleRecords lines = .ok records := by
  suffices h : ∃ records, lines.foldlM readStep [] = .ok records ∧ ReadInv lines records from
    h.imp fun _ h ↦ h.1
  refine foldlM_total (fun {pre line post records} hl ih ↦ ?_) ⟨.nil, rfl, .nil⟩
  rcases line with _ | sample
  · exact ⟨records, rfl, ih.blank⟩
  · obtain ⟨sampleId, hid, hne⟩ := hids sample (by simp [hl])
    have hnew : sampleId ∉ records.map SampleRecord.sampleId := fun hmem ↦ by
      obtain ⟨r, hr, hrid⟩ := List.mem_map.1 hmem
      obtain ⟨i, hi, rfl⟩ := List.getElem_of_mem hr
      have hi' := ih.recorded.length_eq ▸ hi
      have hsr := (List.forall₂_iff_get.1 ih.recorded).2 i hi' hi
      rw [hl, List.filterMap_append, List.map_append, List.nodup_append] at hdistinct
      refine hdistinct.2.2 _ (List.mem_map_of_mem (List.getElem_mem hi')) sample.sampleId
        (List.mem_map_of_mem (by simp)) ?_
      rw [hid, ← hrid]
      exact hsr.1
    exact ⟨_, by rw [readStep, hid]; simp only [if_neg hne, if_neg hnew], ih.concat hid hnew⟩

/-! ## Assigning -/

/-- The assignment of a grouped record. Every group has a split, so the default is never used. -/
def assignmentOf (groupToSplit : Dict String Split) (p : SampleRecord × String) : Assignment :=
  (p.1.sampleId, p.2, (groupToSplit.get? p.2).getD .train)

theorem mem_countGroups {grouped : List (SampleRecord × String)} {p : SampleRecord × String}
    (hp : p ∈ grouped) : p.2 ∈ (countGroups grouped).1 := by
  refine foldl_invariant (I := fun pre (s : List String × Dict String ℕ) ↦ ∀ p ∈ pre, p.2 ∈ s.1)
    (fun {pre q post s} _ ih p hp ↦ ?_) (fun _ h ↦ absurd h List.not_mem_nil) p hp
  dsimp only [addToSet]
  rcases List.mem_append.1 hp with hp | hp
  · split
    · exact ih p hp
    · exact List.mem_append_left _ (ih p hp)
  · rw [List.mem_singleton.1 hp]
    split
    · assumption
    · exact List.mem_append_right _ (List.mem_singleton_self _)

/-- When every group has a split and the indices are distinct, the dictionary holds each grouped
record's assignment under the record's index, in order. -/
theorem exists_indexAssignments {groupToSplit : Dict String Split}
    {grouped : List (SampleRecord × String)}
    (hgroups : ∀ p ∈ grouped, ∃ s, groupToSplit.get? p.2 = some s)
    (hindices : (grouped.map (·.1.index)).Nodup) :
    ∃ d, indexAssignments groupToSplit grouped = .ok d ∧
      d.items = grouped.map fun p ↦ (p.1.index, assignmentOf groupToSplit p) := by
  refine foldlM_total (I := fun pre (d : Dict ℕ Assignment) ↦
    d.items = pre.map fun p ↦ (p.1.index, assignmentOf groupToSplit p))
    (fun {pre p post d} hl ih ↦ ?_) rfl
  obtain ⟨split, hsplit⟩ := hgroups p (by simp [hl])
  have hnew : p.1.index ∉ d.keys := fun hmem ↦ by
    rw [Dict.keys, ih, List.map_map, List.mem_map] at hmem
    obtain ⟨q, hq, hqp⟩ := hmem
    rw [hl, List.map_append, List.nodup_append] at hindices
    exact hindices.2.2 _ (List.mem_map_of_mem hq) _ (List.mem_map_of_mem (List.mem_cons_self ..))
      hqp
  refine ⟨d.set p.1.index (p.1.sampleId, p.2, split), by simp [hsplit], ?_⟩
  rw [Dict.items_set_of_notMem hnew, ih, List.map_append, List.map_singleton, assignmentOf, hsplit]
  rfl

theorem ReadInv.getElem {lines : List (Option (Sample π))} {records : List SampleRecord}
    (h : ReadInv lines records) {i : ℕ} (hi : i < records.length) :
    ∃ hi' : i < (lines.filterMap id).length,
      (lines.filterMap id)[i].Recorded records[i] ∧ records[i].index = i := by
  have hi' := h.recorded.length_eq ▸ hi
  refine ⟨hi', (List.forall₂_iff_get.1 h.recorded).2 i hi' hi, ?_⟩
  have := congrArg (·[i]?) h.indices
  simpa [hi] using this

theorem ReadInv.indices_nodup {lines : List (Option (Sample π))} {records : List SampleRecord}
    (h : ReadInv lines records) : (records.map SampleRecord.index).Nodup := by
  rw [h.indices]
  exact List.nodup_range

/-- What every run has established once the records are grouped and the groups assigned: each record's
assignment is found under its index. -/
structure Indexed (lines : List (Option (Sample π))) (records : List SampleRecord)
    (grouped : List (SampleRecord × String)) (groupToSplit : Dict String Split)
    (d : Dict ℕ Assignment) : Prop where
  recorded : grouped.map Prod.fst = records
  groups : ∀ p ∈ grouped, ∃ s, groupToSplit.get? p.2 = some s
  items : d.items = grouped.map fun p ↦ (p.1.index, assignmentOf groupToSplit p)
  reading : ReadInv lines records

section

variable {lines : List (Option (Sample π))} {records : List SampleRecord}
  {grouped : List (SampleRecord × String)} {groupToSplit : Dict String Split}
  {d : Dict ℕ Assignment}

theorem exists_indexed (hread : ReadInv lines records) (hrecorded : grouped.map Prod.fst = records)
    (hgroups : ∀ p ∈ grouped, ∃ s, groupToSplit.get? p.2 = some s) :
    ∃ d, indexAssignments groupToSplit grouped = .ok d ∧
      Indexed lines records grouped groupToSplit d := by
  have hnodup : (grouped.map (·.1.index)).Nodup := by
    have := hread.indices_nodup
    rwa [← hrecorded, List.map_map] at this
  obtain ⟨d, hd, hitems⟩ := exists_indexAssignments hgroups hnodup
  exact ⟨d, hd, hrecorded, hgroups, hitems, hread⟩

namespace Indexed

theorem length_eq (h : Indexed lines records grouped groupToSplit d) :
    grouped.length = (lines.filterMap id).length := by
  rw [h.reading.recorded.length_eq, ← h.recorded, List.length_map]

/-- The assignment found under index `i` is that of the `i`-th grouped record, which records the
`i`-th sample. -/
theorem get?_index (h : Indexed lines records grouped groupToSplit d) {i : ℕ}
    (hi : i < grouped.length) :
    ∃ hi' : i < (lines.filterMap id).length, (lines.filterMap id)[i].Recorded grouped[i].1 ∧
      d.get? i = some (assignmentOf groupToSplit grouped[i]) := by
  have hi₁ : i < records.length := by rwa [← h.recorded, List.length_map]
  obtain ⟨hi', hrec, hindex⟩ := h.reading.getElem hi₁
  have hget : records[i] = grouped[i].1 := by
    simp only [← h.recorded, List.getElem_map]
  refine ⟨hi', hget ▸ hrec, Dict.get?_eq_some_iff.2 ?_⟩
  rw [h.items, List.mem_map]
  exact ⟨grouped[i], List.getElem_mem hi, by rw [← hget, hindex]⟩

theorem sortedAssignments (h : Indexed lines records grouped groupToSplit d) :
    (d.items.insertionSort (·.1 ≤ ·.1)).map Prod.snd = grouped.map (assignmentOf groupToSplit) := by
  have hsorted : d.items.Pairwise (·.1 ≤ ·.1) := by
    have hindices := h.reading.indices
    rw [← h.recorded, List.map_map] at hindices
    rw [h.items, List.pairwise_map]
    refine List.Pairwise.of_map (f := SampleRecord.index ∘ Prod.fst) (S := (· ≤ ·))
      (fun _ _ h ↦ h) ?_
    rw [hindices]
    exact List.pairwise_le_range
  rw [List.Pairwise.insertionSort_eq hsorted, h.items, List.map_map]
  rfl

theorem audit (h : Indexed lines records grouped groupToSplit d) {ranges : List (ℤ × ℤ × Split)}
    (hranges : countCrossSplitOverlaps ranges = 0) :
    runLeakageChecks ((d.items.insertionSort (·.1 ≤ ·.1)).map Prod.snd) records.length ranges
      = .ok ⟨0, 0, 0, true⟩ := by
  have hlength : records.length = (grouped.map (assignmentOf groupToSplit)).length := by
    rw [List.length_map, ← h.recorded, List.length_map]
  rw [h.sortedAssignments, hlength]
  refine runLeakageChecks_eq_ok (fun g ↦ (groupToSplit.get? g).getD .train) ?_ ?_ hranges
  · have hdistinct := h.reading.distinct
    rw [← h.recorded, List.map_map] at hdistinct
    rwa [List.map_map]
  · intro a ha
    obtain ⟨p, -, rfl⟩ := List.mem_map.1 ha
    rfl

end Indexed

end

/-! ## Writing -/

/-- The invariant of the second pass: the split index has one line for each sample so far, carrying
the assignment found under its index, a split's file holds the samples assigned to it, and what has
been fed to the hashers and counted is what has been written. -/
structure WriteInv (env : PackagingEnv π) (d : Dict ℕ Assignment) (pre : List (Sample π × ℕ))
    (staged : StagedSplits π) : Prop where
  splitIndex : List.Forall₂ (fun p r ↦ d.get? p.2 = some (r.sampleId, r.groupId, r.split) ∧
    r.sourceRowStart = p.1.sourceRowStart ∧ r.sourceRowEnd = p.1.sourceRowEnd)
    pre staged.splitIndex
  files : ∀ split, staged.files split
    = (pre.filter fun p ↦ (d.get? p.2).map (·.2.2) = some split).map Prod.fst
  digests : ∀ split, staged.digests split = staged.text env split
  sizes : ∀ split, staged.sizes split = (staged.text env split).utf8ByteSize
  splitIndexDigest : staged.splitIndexDigest = staged.indexText env
  splitIndexSize : staged.splitIndexSize = (staged.indexText env).utf8ByteSize

theorem join_append_singleton (texts : List String) (t : String) :
    String.join (texts ++ [t]) = String.join texts ++ t := by
  simp [String.join, List.foldl_append]

theorem WriteInv.init (env : PackagingEnv π) (d : Dict ℕ Assignment) :
    WriteInv env d [] (.init π) where
  splitIndex := .nil
  files _ := rfl
  digests _ := rfl
  sizes _ := rfl
  splitIndexDigest := rfl
  splitIndexSize := rfl

theorem WriteInv.step {env : PackagingEnv π} {d : Dict ℕ Assignment} {pre : List (Sample π × ℕ)}
    {staged : StagedSplits π} (h : WriteInv env d pre staged) {p : Sample π × ℕ} {a : Assignment}
    (ha : d.get? p.2 = some a) :
    ∃ staged', writeStep env d staged p = .ok staged' ∧ WriteInv env d (pre ++ [p]) staged' := by
  obtain ⟨sampleId, groupId, split⟩ := a
  refine ⟨_, by rw [writeStep, ha], ?_, fun split' ↦ ?_, fun split' ↦ ?_, fun split' ↦ ?_, ?_, ?_⟩
  · exact List.rel_append h.splitIndex (.cons ⟨ha, rfl, rfl⟩ .nil)
  · rw [List.filter_append, List.map_append, ← h.files split']
    by_cases hs : split' = split
    · subst hs
      simp [ha]
    · simp [ha, hs, Ne.symm hs]
  · have hold := h.digests split'
    rw [StagedSplits.text] at hold ⊢
    by_cases hs : split' = split
    · subst hs
      simp only [Function.update_self, List.map_append, List.map_singleton, join_append_singleton,
        hold]
    · simp only [Function.update_of_ne hs, hold]
  · have hold := h.sizes split'
    rw [StagedSplits.text] at hold ⊢
    by_cases hs : split' = split
    · subst hs
      simp only [Function.update_self, List.map_append, List.map_singleton, join_append_singleton,
        hold, String.utf8ByteSize_append]
    · simp only [Function.update_of_ne hs, hold]
  · have hold := h.splitIndexDigest
    rw [StagedSplits.indexText] at hold ⊢
    simp only [List.map_append, List.map_singleton, join_append_singleton, hold]
  · have hold := h.splitIndexSize
    rw [StagedSplits.indexText] at hold ⊢
    simp only [List.map_append, List.map_singleton, join_append_singleton, hold,
      String.utf8ByteSize_append]

/-- The `i`-th sample's line of the split index names the split assigned under index `i`, and the
sample is in that split's file. -/
theorem WriteInv.getElem? {env : PackagingEnv π} {d : Dict ℕ Assignment}
    {samples : List (Sample π)} {staged : StagedSplits π}
    (h : WriteInv env d samples.zipIdx staged) {i : ℕ} {a : Sample π} (ha : samples[i]? = some a) {x : Assignment} (hx : d.get? i = some x) :
    ∃ r, staged.splitIndex[i]? = some r ∧ r.split = x.2.2 ∧ a ∈ staged.files r.split := by
  obtain ⟨hi, rfl⟩ := List.getElem?_eq_some_iff.1 ha
  have hi₁ : i < samples.zipIdx.length := by simpa using hi
  have hi₂ := h.splitIndex.length_eq ▸ hi₁
  have hline := (List.forall₂_iff_get.1 h.splitIndex).2 i hi₁ hi₂
  have hzip : samples.zipIdx.get ⟨i, hi₁⟩ = (samples[i], i) := by simp
  rw [hzip, hx] at hline
  have hsplit : x.2.2 = staged.splitIndex[i].split := by
    rw [Option.some.inj hline.1]
    rfl
  refine ⟨_, List.getElem?_eq_getElem hi₂, hsplit.symm, ?_⟩
  rw [h.files, List.mem_map]
  refine ⟨(samples[i], i), List.mem_filter.2 ⟨?_, ?_⟩, rfl⟩
  · exact List.mk_mem_zipIdx_iff_getElem?.2 ha
  · simp [hx, hsplit]

/-- **Second pass**: it succeeds when every index has an assignment. -/
theorem exists_writeSplits (env : PackagingEnv π) {d : Dict ℕ Assignment}
    (lines : List (Option (Sample π)))
    (hd : ∀ i < (lines.filterMap id).length, ∃ a, d.get? i = some a) :
    ∃ staged, writeSplits env d lines = .ok staged ∧
      WriteInv env d (lines.filterMap id).zipIdx staged := by
  refine foldlM_total (fun {pre p post staged} hl ih ↦ ?_) (.init env d)
  have hp : p ∈ (lines.filterMap id).zipIdx := by
    rw [hl]
    exact List.mem_append_right _ (List.mem_cons_self ..)
  obtain ⟨a, ha⟩ := hd p.2 (by simpa using List.snd_lt_of_mem_zipIdx hp)
  exact ih.step ha

theorem writeInv_of_writeSplits {env : PackagingEnv π} {d : Dict ℕ Assignment}
    {lines : List (Option (Sample π))} {staged : StagedSplits π}
    (h : writeSplits env d lines = .ok staged) :
    WriteInv env d (lines.filterMap id).zipIdx staged := by
  refine foldlM_invariant (fun {pre p post staged staged'} _ ih hstep ↦ ?_) (.init env d) h
  rcases ha : d.get? p.2 with _ | a
  · rw [writeStep, ha] at hstep
    cases hstep
  · obtain ⟨staged'', hstep', hinv⟩ := ih.step ha
    rw [hstep] at hstep'
    cases hstep'
    exact hinv

end ForgeData
