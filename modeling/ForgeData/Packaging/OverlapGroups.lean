import ForgeData.Packaging.Service
import Mathlib.Data.List.Chain

/-!
# Leakage groups without the hash

The id of a leakage group mixes what the group is, its first and last source row, with the digest of
the whole transformed file. Here the same loop is run without the digest: it keeps the groups
themselves, the newest first. Every result of `assign_source_overlap_groups` is the flattened list of
these groups, and nothing is assumed of the order of the samples.

## Two scans, one rule

The audit re-derives the overlap chains from the ranges alone, by the rule that the grouping loop
uses: a range joins the chain if it starts at or before the largest end seen in it. So its chains are
the groups, and since a group has one id and an id one split, it finds nothing.
-/

namespace ForgeData

open Python

/-! ## The groups -/

/-- `record` joins the newest group or starts one of its own. A record without a source range, which
the code refuses, is left out. -/
def addRecord (groups : List OpenGroup) (record : SampleRecord) : List OpenGroup :=
  match record.sourceRowStart, record.sourceRowEnd with
  | some start, some stop =>
    match groups with
    | g :: finished =>
      if start ≤ g.currentMax then
        ⟨g.pending ++ [record], g.currentMin, max g.currentMax stop⟩ :: finished
      else ⟨[record], start, stop⟩ :: g :: finished
    | [] => [⟨[record], start, stop⟩]
  | _, _ => groups

/-- The groups of the records, the newest first. -/
def overlapGroups (records : List SampleRecord) : List OpenGroup := records.foldl addRecord []

/-- A group is built up record by record, each of which starts within what is covered so far. -/
inductive IsGroup : OpenGroup → Prop
  | single {record : SampleRecord} {start stop : ℤ} (hstart : record.sourceRowStart = some start)
      (hstop : record.sourceRowEnd = some stop) : IsGroup ⟨[record], start, stop⟩
  | extend {g : OpenGroup} {record : SampleRecord} {start stop : ℤ} (hg : IsGroup g)
      (hstart : record.sourceRowStart = some start) (hstop : record.sourceRowEnd = some stop)
      (hle : start ≤ g.currentMax) :
      IsGroup ⟨g.pending ++ [record], g.currentMin, max g.currentMax stop⟩

/-- The groups of the records, and what separates them: each one starts beyond the rows of the one
before. -/
structure Groups (records : List SampleRecord) (groups : List OpenGroup) : Prop where
  pending : groups.reverse.flatMap OpenGroup.pending = records
  isGroup : ∀ g ∈ groups, IsGroup g
  separated : groups.IsChain fun g' g ↦ g.currentMax < g'.currentMin

/-- Every record has a source range. -/
def Ranged (records : List SampleRecord) : Prop :=
  ∀ r ∈ records, r.sourceRowStart.isSome ∧ r.sourceRowEnd.isSome

theorem Ranged.exists_range {records : List SampleRecord} (h : Ranged records) {r : SampleRecord}
    (hr : r ∈ records) :
    ∃ start stop, r.sourceRowStart = some start ∧ r.sourceRowEnd = some stop := by
  obtain ⟨start, hstart⟩ := Option.isSome_iff_exists.1 (h r hr).1
  obtain ⟨stop, hstop⟩ := Option.isSome_iff_exists.1 (h r hr).2
  exact ⟨start, stop, hstart, hstop⟩

theorem addRecord_cases {record : SampleRecord} {start stop : ℤ}
    (hstart : record.sourceRowStart = some start) (hstop : record.sourceRowEnd = some stop)
    (groups : List OpenGroup) :
    (∃ g finished, groups = g :: finished ∧ start ≤ g.currentMax ∧ addRecord groups record
        = ⟨g.pending ++ [record], g.currentMin, max g.currentMax stop⟩ :: finished) ∨
      (∀ g ∈ groups.head?, g.currentMax < start) ∧
        addRecord groups record = ⟨[record], start, stop⟩ :: groups := by
  rw [addRecord, hstart, hstop]
  rcases groups with _ | ⟨g, finished⟩
  · exact .inr ⟨by simp, rfl⟩
  · by_cases hle : start ≤ g.currentMax
    · exact .inl ⟨g, finished, rfl, hle, if_pos hle⟩
    · refine .inr ⟨?_, if_neg hle⟩
      rintro g' ⟨⟩
      exact not_le.1 hle

/-- One more record. -/
theorem Groups.addRecord {records : List SampleRecord} {groups : List OpenGroup}
    {record : SampleRecord} {start stop : ℤ} (h : Groups records groups)
    (hstart : record.sourceRowStart = some start) (hstop : record.sourceRowEnd = some stop) :
    Groups (records ++ [record]) (addRecord groups record) := by
  rcases addRecord_cases hstart hstop groups with ⟨g, finished, rfl, hle, hadd⟩ | ⟨hgt, hadd⟩
  · rw [hadd]
    refine ⟨?_, ?_, ?_⟩
    · rw [← h.pending]
      simp
    · intro g' hg'
      rcases List.mem_cons.1 hg' with rfl | hg'
      · exact .extend (h.isGroup g List.mem_cons_self) hstart hstop hle
      · exact h.isGroup g' (List.mem_cons_of_mem _ hg')
    · have hchain := h.separated
      rw [List.isChain_cons] at hchain ⊢
      exact hchain
  · rw [hadd]
    refine ⟨?_, ?_, ?_⟩
    · rw [← h.pending]
      simp
    · intro g' hg'
      rcases List.mem_cons.1 hg' with rfl | hg'
      · exact .single hstart hstop
      · exact h.isGroup g' hg'
    · rw [List.isChain_cons]
      exact ⟨hgt, h.separated⟩

/-- **The groups** of records with source ranges. -/
theorem groups_overlapGroups {records : List SampleRecord} (h : Ranged records) :
    Groups records (overlapGroups records) := by
  refine foldl_invariant (I := Groups) (fun {pre r post groups} hrecords hgroups ↦ ?_)
    ⟨rfl, by simp, by simp⟩
  obtain ⟨start, stop, hstart, hstop⟩ := h.exists_range (r := r) (by simp [hrecords])
  exact hgroups.addRecord hstart hstop

/-! ## The code's loop -/

variable {sha256 : String → Sha256Digest} {transformedSha256 : String}

/-- The groups collected by the loop, labelled with their ids. -/
def labelGroups (sha256 : String → Sha256Digest) (transformedSha256 : String)
    (groups : List OpenGroup) : List (SampleRecord × String) :=
  groups.reverse.flatMap (OpenGroup.flush sha256 transformedSha256)

/-- The state of the code's loop holds the groups: the newest one is being collected, and the others
have been flushed. -/
structure GroupingState.Holds (sha256 : String → Sha256Digest) (transformedSha256 : String)
    (s : GroupingState) (groups : List OpenGroup) : Prop where
  current : s.current = groups.head?
  results : s.results = labelGroups sha256 transformedSha256 groups.tail

theorem GroupingState.Holds.flush {s : GroupingState} {groups : List OpenGroup}
    (h : s.Holds sha256 transformedSha256 groups) :
    s.flush sha256 transformedSha256 = labelGroups sha256 transformedSha256 groups := by
  rw [GroupingState.flush, h.current, h.results]
  rcases groups with _ | ⟨g, finished⟩
  · rfl
  · simp [labelGroups]

theorem GroupingState.Holds.step {s : GroupingState} {groups : List OpenGroup}
    {record : SampleRecord} {start stop : ℤ} (h : s.Holds sha256 transformedSha256 groups)
    (hstart : record.sourceRowStart = some start) (hstop : record.sourceRowEnd = some stop) :
    ∃ s', groupStep sha256 transformedSha256 s record = .ok s' ∧
      s'.Holds sha256 transformedSha256 (addRecord groups record) := by
  have hflush := h.flush
  rw [groupStep, hstart, hstop]
  rcases addRecord_cases hstart hstop groups with ⟨g, finished, rfl, hle, hadd⟩ | ⟨hgt, hadd⟩
  · have hcurrent : s.current = some g := h.current
    rw [hcurrent, hadd]
    simp only
    rw [if_pos hle]
    exact ⟨_, rfl, rfl, h.results⟩
  · rw [hadd]
    rcases hcurrent : s.current with _ | g
    · exact ⟨_, rfl, rfl, hflush⟩
    · have hgt : ¬ start ≤ g.currentMax := not_le.2 (hgt g (h.current.symm.trans hcurrent))
      simp only
      rw [if_neg hgt]
      exact ⟨_, rfl, rfl, hflush⟩

/-- **The code labels the groups**: it succeeds on records with source ranges, in whatever order. -/
theorem assignSourceOverlapGroups_eq {records : List SampleRecord} (h : Ranged records) :
    assignSourceOverlapGroups sha256 transformedSha256 records
      = .ok (labelGroups sha256 transformedSha256 (overlapGroups records)) := by
  have hloop : ∃ s, records.foldlM (groupStep sha256 transformedSha256) ⟨[], none⟩ = .ok s ∧
      s.Holds sha256 transformedSha256 (overlapGroups records) := by
    refine foldlM_total (I := fun pre (s : GroupingState) ↦ s.Holds sha256 transformedSha256 (overlapGroups pre))
      (fun {pre r post s} hrecords hs ↦ ?_) ⟨rfl, rfl⟩
    obtain ⟨start, stop, hstart, hstop⟩ := h.exists_range (r := r) (by simp [hrecords])
    rw [overlapGroups, List.foldl_append]
    exact hs.step hstart hstop
  obtain ⟨s, hs, hholds⟩ := hloop
  rw [assignSourceOverlapGroups, hs, ← hholds.flush]
  rfl

variable (sha256 transformedSha256) in
/-- A record without a source range is refused. -/
theorem exists_missingGroupMetadata {records : List SampleRecord} (h : ¬ Ranged records) :
    ∃ message, assignSourceOverlapGroups sha256 transformedSha256 records
      = .error (.missingGroupMetadata message) := by
  rcases hloop : records.foldlM (groupStep sha256 transformedSha256) ⟨[], none⟩ with e | s
  · obtain ⟨pre, record, post, s, -, -, hstep⟩ := exists_of_foldlM_eq_error hloop
    rw [groupStep] at hstep
    split at hstep
    · split at hstep
      · split at hstep <;> cases hstep
      · cases hstep
    · cases hstep
      exact ⟨_, by rw [assignSourceOverlapGroups, hloop]; rfl⟩
  · refine absurd (fun r hr ↦ ?_) h
    have hall : ∀ r ∈ records, r.sourceRowStart.isSome ∧ r.sourceRowEnd.isSome :=
      foldlM_invariant (I := fun pre _ ↦ ∀ r ∈ pre, r.sourceRowStart.isSome ∧ r.sourceRowEnd.isSome)
        (fun {pre record post s s'} _ hpre hstep r hr ↦ by
          rcases List.mem_append.1 hr with hr | hr
          · exact hpre r hr
          · rw [List.mem_singleton.1 hr]
            rw [groupStep] at hstep
            split at hstep
            · next hstart hstop => simp [hstart, hstop]
            · cases hstep) (by simp) hloop
    exact hall r hr

/-! ## The audit of the groups -/

/-- The ranges of a group's records, all with the group's split. -/
def OpenGroup.ranges (split : Split) (g : OpenGroup) : List (ℤ × ℤ × Split) :=
  g.pending.filterMap fun r ↦
    match r.sourceRowStart, r.sourceRowEnd with
    | some start, some stop => some (start, stop, split)
    | _, _ => none

/-- A whole group is one chain, which closes the chain before it. -/
theorem IsGroup.foldl_chainStep {g : OpenGroup} (h : IsGroup g) (split : Split) {s : ChainState}
    (hclose : s.close = 0) (hbefore : ∀ m ∈ s.currentMaxEnd, m < g.currentMin) :
    (g.ranges split).foldl chainStep s = ⟨0, some g.currentMax, [split]⟩ := by
  induction h with
  | @single record start stop hstart hstop =>
    simp only [OpenGroup.ranges, List.filterMap_cons, List.filterMap_nil, hstart, hstop,
      List.foldl_cons, List.foldl_nil]
    rw [chainStep, hclose]
    rcases hmax : s.currentMaxEnd with _ | m
    · rfl
    · exact if_neg (not_le.2 (hbefore m hmax))
  | @extend g record start stop hg hstart hstop hle ih =>
    have hlast : OpenGroup.ranges split ⟨g.pending ++ [record], g.currentMin, max g.currentMax stop⟩
        = g.ranges split ++ [(start, stop, split)] := by
      simp [OpenGroup.ranges, List.filterMap_append, hstart, hstop]
    rw [hlast, List.foldl_append, ih hbefore, List.foldl_cons, List.foldl_nil, chainStep]
    simp only
    rw [if_pos hle, addToSet, if_pos (List.mem_singleton_self _)]

/-- After all groups the scan stands in the chain of the newest one. -/
theorem foldl_chainStep_groups (splitOf : OpenGroup → Split) {groups : List OpenGroup}
    (hgroup : ∀ g ∈ groups, IsGroup g)
    (hseparated : groups.IsChain fun g' g ↦ g.currentMax < g'.currentMin) :
    (groups.reverse.flatMap fun g ↦ g.ranges (splitOf g)).foldl chainStep ⟨0, none, []⟩
      = ⟨0, groups.head?.map OpenGroup.currentMax, (groups.head?.map splitOf).toList⟩ := by
  induction groups with
  | nil => rfl
  | cons g finished ih =>
    rw [List.isChain_cons] at hseparated
    have hfinished := ih (fun g' hg' ↦ hgroup g' (List.mem_cons_of_mem _ hg')) hseparated.2
    rw [List.reverse_cons, List.flatMap_append, List.foldl_append, hfinished]
    simp only [List.flatMap_cons, List.flatMap_nil, List.append_nil]
    refine (hgroup g List.mem_cons_self).foldl_chainStep (splitOf g) ?_ ?_
    · rw [ChainState.close]
      rcases finished with _ | ⟨g', finished⟩ <;> rfl
    · intro m hm
      obtain ⟨g', hg', rfl⟩ := Option.map_eq_some_iff.1 hm
      exact hseparated.1 g' hg'

/-- **The audit finds no chain in two splits**, whatever the order of the samples. -/
theorem countCrossSplitOverlaps_overlapGroups {groupToSplit : Dict String Split}
    {records : List SampleRecord} (h : Ranged records)
    (hsplit : ∀ p ∈ labelGroups sha256 transformedSha256 (overlapGroups records),
      ∃ s, groupToSplit.get? p.2 = some s) :
    countCrossSplitOverlaps (overlapRanges groupToSplit
      (labelGroups sha256 transformedSha256 (overlapGroups records))) = 0 := by
  have hgroups := groups_overlapGroups h
  generalize overlapGroups records = groups at hgroups hsplit
  let splitOf (g : OpenGroup) : Split :=
    (groupToSplit.get? (computeGroupId sha256 transformedSha256 g.currentMin g.currentMax)).getD
      .train
  have hranges : overlapRanges groupToSplit (labelGroups sha256 transformedSha256 groups)
      = groups.reverse.flatMap fun g ↦ g.ranges (splitOf g) := by
    rw [overlapRanges, labelGroups, List.filterMap_flatMap]
    refine List.flatMap_congr fun g hg ↦ ?_
    rw [OpenGroup.flush, List.filterMap_map, OpenGroup.ranges]
    refine List.filterMap_congr fun r hr ↦ ?_
    have hmem : (r, computeGroupId sha256 transformedSha256 g.currentMin g.currentMax)
        ∈ labelGroups sha256 transformedSha256 groups :=
      List.mem_flatMap.2 ⟨g, hg, List.mem_map_of_mem hr⟩
    obtain ⟨s, hs⟩ := hsplit _ hmem
    simp only [Function.comp, splitOf, hs, Option.getD_some]
    rcases r.sourceRowStart with _ | start <;> rcases r.sourceRowEnd with _ | stop <;> rfl
  rw [countCrossSplitOverlaps, hranges,
    foldl_chainStep_groups splitOf hgroups.isGroup hgroups.separated, ChainState.close]
  rcases groups with _ | ⟨g, finished⟩ <;> rfl

end ForgeData
