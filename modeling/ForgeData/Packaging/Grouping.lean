import ForgeData.Python.Digest
import ForgeData.Python.Loop
import ForgeData.Transformation.Service

/-!
# Leakage groups

Every sample is put in a group before any split is decided, and a whole group goes to one split.
Grouping by source overlap makes one pass over the samples and keeps only the running maximum of
the current group's end rows. That is enough when the samples arrive ordered by their first row:
a sample that starts beyond the maximum cannot overlap anything seen so far, and neither can
anything after it.

`OverlapSafe` states the outcome without mentioning group identity across the whole file: of two
samples, either they carry the same group id, or the earlier one ends before the later one starts.
It holds whatever the hash does, so equal ids of different groups do no harm.
-/

namespace ForgeData

open Python

/-- What packaging keeps of a sample in its first pass. -/
structure SampleRecord where
  index : ℕ
  sampleId : String
  sourceRowStart : Option ℤ
  sourceRowEnd : Option ℤ
  deriving DecidableEq, Repr

inductive PackagingError where
  | missingSampleId (message : String)
  | duplicateSampleId (message : String)
  | missingGroupMetadata (message : String)
  | unsupportedSplitStrategy (message : String)
  | unsupportedGroupingMode (message : String)
  | unsupportedExportFormat (message : String)
  | invalidSplitRatios (message : String)
  | sampleCountMismatch (message : String)
  | leakageInvariantViolation (duplicateSampleIds crossSplitGroups crossSplitOverlaps : ℕ)
  | keyError
  deriving DecidableEq, Repr

section

variable (sha256 : String → Sha256Digest) (transformedSha256 : String)

def computeGroupId (groupMinRow groupMaxRow : ℤ) : String :=
  let digest := sha256 s!"{transformedSha256}:{groupMinRow}:{groupMaxRow}"
  s!"grp_{digest.take 16}"

def computeSessionGroupId (sessionId : String) : String :=
  let digest := sha256 s!"{transformedSha256}:session:{sessionId}"
  s!"grp_{digest.take 16}"

/-- The group being collected: its records, and its first start and largest end so far. -/
structure OpenGroup where
  pending : List SampleRecord
  currentMin : ℤ
  currentMax : ℤ

/-- The local variables of `assign_source_overlap_groups`; `current` is absent before the first
sample, and from then on there is always a group being collected. -/
structure GroupingState where
  results : List (SampleRecord × String)
  current : Option OpenGroup

/-- The records of a finished group, each with the group's id. -/
def OpenGroup.flush (g : OpenGroup) : List (SampleRecord × String) :=
  g.pending.map fun record ↦
    (record, computeGroupId sha256 transformedSha256 g.currentMin g.currentMax)

/-- `flush()`. -/
def GroupingState.flush (s : GroupingState) : List (SampleRecord × String) :=
  s.results ++ (s.current.map (OpenGroup.flush sha256 transformedSha256)).getD []

/-- One pass through the loop body of `assign_source_overlap_groups`. -/
def groupStep (s : GroupingState) (record : SampleRecord) : Except PackagingError GroupingState :=
  match record.sourceRowStart, record.sourceRowEnd with
  | some start, some stop =>
    match s.current with
    | some g =>
      if start ≤ g.currentMax then
        .ok ⟨s.results, some ⟨g.pending ++ [record], g.currentMin, max g.currentMax stop⟩⟩
      else .ok ⟨s.flush sha256 transformedSha256, some ⟨[record], start, stop⟩⟩
    | none => .ok ⟨s.flush sha256 transformedSha256, some ⟨[record], start, stop⟩⟩
  | _, _ => .error (.missingGroupMetadata
      s!"Sample at index {record.index} (sample_id='{record.sampleId}') is missing metadata.source_row_start/source_row_end, required for grouping.mode='source_overlap'")

def assignSourceOverlapGroups (records : List SampleRecord) :
    Except PackagingError (List (SampleRecord × String)) := do
  let s ← records.foldlM (groupStep sha256 transformedSha256) ⟨[], none⟩
  return s.flush sha256 transformedSha256

def assignSessionGroups (records : List SampleRecord) (sessionIds : List String) :
    Except PackagingError (List (SampleRecord × String)) :=
  match sessionIds with
  | [sessionId] =>
    .ok (records.map fun record ↦ (record, computeSessionGroupId sha256 transformedSha256 sessionId))
  | _ => .error (.missingGroupMetadata
      s!"grouping.mode='session' requires exactly one distinct session_id in this transformation's lineage; found {sessionIds.length}. Per-sample session attribution is not available from lineage alone for multi-session runs.")

end

/-! ## Samples that do not overlap -/

/-- `a` ends before `b` starts. -/
def EndsBefore (a b : SampleRecord) : Prop :=
  ∀ e ∈ a.sourceRowEnd, ∀ s ∈ b.sourceRowStart, e < s

/-- `a` does not start after `b`. -/
def StartsBy (a b : SampleRecord) : Prop :=
  ∀ s ∈ a.sourceRowStart, ∀ t ∈ b.sourceRowStart, s ≤ t

/-- Of two samples, either they carry the same label or the earlier one ends before the later one
starts. -/
def OverlapSafe {γ : Type} (labelled : List (SampleRecord × γ)) : Prop :=
  labelled.Pairwise fun a b ↦ a.2 = b.2 ∨ EndsBefore a.1 b.1

/-! ## The invariant -/

section

variable (sha256 : String → Sha256Digest) (transformedSha256 : String)

/-- The invariant of the grouping loop, after the records `pre`. -/
structure GroupingInv (pre : List SampleRecord) (s : GroupingState) : Prop where
  records : (s.flush sha256 transformedSha256).map Prod.fst = pre
  safe : OverlapSafe s.results
  /-- What has been flushed ends before the group being collected starts. -/
  flushed : ∀ a ∈ s.results, ∃ g ∈ s.current, ∀ e ∈ a.1.sourceRowEnd, e < g.currentMin
  /-- The group being collected starts with one of its records, which all start at or after it. -/
  currentMin : ∀ g ∈ s.current, (∀ r ∈ g.pending, ∀ t ∈ r.sourceRowStart, g.currentMin ≤ t) ∧
    ∃ r ∈ pre, r.sourceRowStart = some g.currentMin
  currentMax : ∀ g ∈ s.current, ∀ r ∈ g.pending, ∀ e ∈ r.sourceRowEnd, e ≤ g.currentMax

end

variable {sha256 : String → Sha256Digest} {transformedSha256 : String}

theorem GroupingInv.init : GroupingInv sha256 transformedSha256 [] ⟨[], none⟩ where
  records := rfl
  safe := List.Pairwise.nil
  flushed := by simp
  currentMin := by simp
  currentMax := by simp

/-- Flushing keeps labelled samples safe: the group being collected gets one id, and what was
flushed before ends before it. -/
theorem GroupingInv.flush_safe {pre : List SampleRecord} {s : GroupingState}
    (h : GroupingInv sha256 transformedSha256 pre s) :
    OverlapSafe (s.flush sha256 transformedSha256) := by
  rcases hc : s.current with _ | g
  · simpa [GroupingState.flush, hc] using h.safe
  · simp only [GroupingState.flush, hc, Option.map_some, Option.getD_some]
    refine List.pairwise_append.2 ⟨h.safe, ?_, fun a ha b hb ↦ .inr fun e he t ht ↦ ?_⟩
    · exact List.pairwise_map.2 (List.pairwise_of_forall fun _ _ ↦ .inl rfl)
    · obtain ⟨g', hg', hlt⟩ := h.flushed a ha
      obtain rfl : g = g' := by simpa [hc] using hg'
      obtain ⟨r, hr, rfl⟩ := List.mem_map.1 hb
      exact (hlt e he).trans_le ((h.currentMin g hc).1 r hr t ht)

/-- A record that cannot extend the group being collected starts after everything before it has
ended. -/
theorem GroupingInv.flush_ends {pre : List SampleRecord} {s : GroupingState}
    (h : GroupingInv sha256 transformedSha256 pre s) {start : ℤ}
    (hstart : ∀ r ∈ pre, ∀ t ∈ r.sourceRowStart, t ≤ start)
    (hbreak : ∀ g ∈ s.current, g.currentMax < start) :
    ∀ a ∈ s.flush sha256 transformedSha256, ∀ e ∈ a.1.sourceRowEnd, e < start := by
  intro a ha e he
  rcases List.mem_append.1 ha with ha | ha
  · obtain ⟨g, hg, hlt⟩ := h.flushed a ha
    obtain ⟨r, hr, hmin⟩ := (h.currentMin g hg).2
    exact (hlt e he).trans_le (hstart r hr _ hmin)
  · rcases hc : s.current with _ | g
    · simp [hc] at ha
    · simp only [hc, Option.map_some, Option.getD_some] at ha
      obtain ⟨r, hr, rfl⟩ := List.mem_map.1 ha
      exact (h.currentMax g hc r hr e he).trans_lt (hbreak g hc)

/-- Starting a new group with a record beyond everything seen so far. -/
theorem GroupingInv.openGroup {pre : List SampleRecord} {s : GroupingState}
    (h : GroupingInv sha256 transformedSha256 pre s) {record : SampleRecord} {start stop : ℤ}
    (hrecord : record.sourceRowStart = some start) (hstop : record.sourceRowEnd = some stop)
    (hstart : ∀ r ∈ pre, ∀ t ∈ r.sourceRowStart, t ≤ start)
    (hbreak : ∀ g ∈ s.current, g.currentMax < start) :
    GroupingInv sha256 transformedSha256 (pre ++ [record])
      ⟨s.flush sha256 transformedSha256, some ⟨[record], start, stop⟩⟩ where
  records := by
    rw [GroupingState.flush, List.map_append, h.records]
    rfl
  safe := h.flush_safe
  flushed := fun a ha ↦ ⟨_, rfl, h.flush_ends hstart hbreak a ha⟩
  currentMin := by
    rintro g ⟨⟩
    exact ⟨by simp [hrecord], record, by simp, hrecord⟩
  currentMax := by
    rintro g ⟨⟩
    simp [hstop]

/-- **The step lemma**: one record preserves the invariant, if no earlier record starts after it. -/
theorem GroupingInv.step {pre : List SampleRecord} {s s' : GroupingState} {record : SampleRecord}
    (h : GroupingInv sha256 transformedSha256 pre s) (hstarts : ∀ r ∈ pre, StartsBy r record)
    (hstep : groupStep sha256 transformedSha256 s record = .ok s') :
    GroupingInv sha256 transformedSha256 (pre ++ [record]) s' := by
  rw [groupStep] at hstep
  split at hstep
  · next start stop hrecord hstop =>
    have hstart : ∀ r ∈ pre, ∀ t ∈ r.sourceRowStart, t ≤ start := fun r hr t ht ↦
      hstarts r hr t ht start hrecord
    split at hstep
    · next g hg =>
      split at hstep
      -- the record overlaps the open group, which grows
      · next hle =>
        obtain rfl := Except.ok.inj hstep
        obtain ⟨hmin, r₀, hr₀, hr₀min⟩ := h.currentMin g hg
        exact {
          records := by
            rw [← h.records]
            simp [GroupingState.flush, OpenGroup.flush, hg, Function.comp_def]
          safe := h.safe
          flushed := fun a ha ↦ by
            obtain ⟨g', hg', hlt⟩ := h.flushed a ha
            obtain rfl : g = g' := Option.some.inj (hg.symm.trans hg')
            exact ⟨_, rfl, hlt⟩
          currentMin := by
            rintro g' ⟨⟩
            refine ⟨fun r hr t ht ↦ ?_, r₀, by simp [hr₀], hr₀min⟩
            rcases List.mem_append.1 hr with hr | hr
            · exact hmin r hr t ht
            · rw [List.mem_singleton.1 hr, hrecord] at ht
              exact Option.some.inj ht ▸ hstart r₀ hr₀ _ hr₀min
          currentMax := by
            rintro g' ⟨⟩ r hr e he
            rcases List.mem_append.1 hr with hr | hr
            · exact (h.currentMax g hg r hr e he).trans (le_max_left ..)
            · rw [List.mem_singleton.1 hr, hstop] at he
              exact Option.some.inj he ▸ le_max_right .. }
      -- it starts after the open group has ended: that group is closed and a new one opened
      · next hgt =>
        obtain rfl := Except.ok.inj hstep
        exact h.openGroup hrecord hstop hstart fun g' hg' ↦ by
          obtain rfl : g = g' := Option.some.inj (hg.symm.trans hg')
          exact not_le.1 hgt
    · next hg =>
      obtain rfl := Except.ok.inj hstep
      exact h.openGroup hrecord hstop hstart fun g' hg' ↦ by simp [hg] at hg'
  · cases hstep

/-- **The run lemma**: over samples ordered by their first row, grouping labels every record, in
order, so that records with different labels do not overlap. -/
theorem assignSourceOverlapGroups_safe {records : List SampleRecord}
    (hsorted : records.Pairwise StartsBy) {grouped : List (SampleRecord × String)}
    (h : assignSourceOverlapGroups sha256 transformedSha256 records = .ok grouped) :
    grouped.map Prod.fst = records ∧ OverlapSafe grouped := by
  rw [assignSourceOverlapGroups, bind_eq_ok_iff] at h
  obtain ⟨s, hloop, hs⟩ := h
  obtain rfl := Except.ok.inj hs
  have hinv : GroupingInv sha256 transformedSha256 records s :=
    foldlM_invariant (fun {pre r post s s'} hrecords ih hstep ↦ by
      rw [hrecords] at hsorted
      exact ih.step (fun b hb ↦ (List.pairwise_append.1 hsorted).2.2 b hb r
        (List.mem_cons_self ..)) hstep) .init hloop
  exact ⟨hinv.records, hinv.flush_safe⟩

end ForgeData
