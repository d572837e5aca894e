import ForgeData.Packaging.Conservation
import ForgeData.Packaging.LeakageSafety

/-!
# Splits of a file that has grown

Further samples are appended to a file, whose rows overlap none of the old ones. The leakage groups
of the old samples then stay what they are: the newest group may take in samples that lie within its
rows, but neither of its bounds moves. The split of a group is a function of its id alone.

But the id is computed from the bounds *and the digest of the whole file*, which changes with every
sample. So whether an old sample stays where it was depends on where two unrelated hashes fall.
-/

namespace ForgeData

open Python

variable {R π : Type} [PyFloat R]

/-! ## The group of a record -/

/-- What a leakage group is, apart from the file that it occurs in. -/
inductive LeakageGroup where
  | rows (minRow maxRow : ℤ)
  | session (sessionId : String)
  deriving DecidableEq, Repr

/-- The group's id in the transformed file with the given digest. -/
def LeakageGroup.id (sha256 : String → Sha256Digest) (transformedSha256 : String) :
    LeakageGroup → String
  | rows minRow maxRow => computeGroupId sha256 transformedSha256 minRow maxRow
  | session sessionId => computeSessionGroupId sha256 transformedSha256 sessionId

/-- The groups, oldest first, repeated for each of their records. -/
def recordRows (groups : List OpenGroup) : List LeakageGroup :=
  groups.reverse.flatMap fun g ↦ g.pending.map fun _ ↦ .rows g.currentMin g.currentMax

/-- The leakage group of each record, in source order. -/
def recordGroups (mode : String) (sessionIds : List String) (records : List SampleRecord) :
    List LeakageGroup :=
  if mode = "source_overlap" then recordRows (overlapGroups records)
  else records.flatMap fun _ ↦ sessionIds.map .session

theorem map_snd_labelGroups (sha256 : String → Sha256Digest) (transformedSha256 : String)
    (groups : List OpenGroup) :
    (labelGroups sha256 transformedSha256 groups).map Prod.snd
      = (recordRows groups).map (LeakageGroup.id sha256 transformedSha256) := by
  rw [labelGroups, recordRows, List.map_flatMap, List.map_flatMap]
  refine List.flatMap_congr fun g _ ↦ ?_
  rw [OpenGroup.flush, List.map_map, List.map_map]
  rfl

/-- **The labels are the ids of the records' groups.** -/
theorem map_snd_assignGroups {env : PackagingEnv π} {mode transformedSha256 : String}
    {sessionIds : List String} {records : List SampleRecord}
    {grouped : List (SampleRecord × String)}
    (h : assignGroups env mode transformedSha256 sessionIds records = .ok grouped) :
    grouped.map Prod.snd
      = (recordGroups mode sessionIds records).map (LeakageGroup.id env.sha256 transformedSha256) := by
  rw [assignGroups] at h
  rw [recordGroups]
  split at h
  · next hoverlap =>
    rw [if_pos hoverlap]
    by_cases hranged : Ranged records
    · rw [assignSourceOverlapGroups_eq hranged] at h
      cases h
      exact map_snd_labelGroups _ _ _
    · obtain ⟨message, hrefused⟩ := exists_missingGroupMetadata env.sha256 transformedSha256 hranged
      rw [hrefused] at h
      cases h
  · next hoverlap =>
    rw [if_neg hoverlap]
    split at h
    · rcases sessionIds with _ | ⟨sessionId, _ | ⟨other, rest⟩⟩
      · cases h
      · cases h
        rw [List.map_map, List.map_flatMap, List.map_eq_flatMap]
        rfl
      · cases h
    · cases h

/-! ## Growth leaves the groups alone -/

theorem IsGroup.exists_max {g : OpenGroup} (h : IsGroup g) :
    ∃ r ∈ g.pending, r.sourceRowEnd = some g.currentMax := by
  induction h with
  | @single record start stop hstart hstop => exact ⟨record, List.mem_singleton_self _, hstop⟩
  | @extend g record start stop hg hstart hstop hle ih =>
    obtain ⟨r, hr, hmax⟩ := ih
    rcases le_total g.currentMax stop with hend | hend
    · exact ⟨record, by simp, by rw [hstop, max_eq_right hend]⟩
    · exact ⟨r, by simp [hr], by rw [hmax, max_eq_left hend]⟩

/-- The source row lies in the record's range. -/
def SampleRecord.Covers (r : SampleRecord) (row : ℤ) : Prop :=
  (∃ start ∈ r.sourceRowStart, start ≤ row) ∧ ∃ stop ∈ r.sourceRowEnd, row ≤ stop

/-- What a file has to be like, and what is appended to it, for its groups to stay. -/
structure GrowsApart (records more : List SampleRecord) : Prop where
  /-- The old ranges do not end before they start. -/
  valid : ∀ r ∈ records, ∀ start ∈ r.sourceRowStart, ∀ stop ∈ r.sourceRowEnd, start ≤ stop
  /-- The new ranges share no row with them. -/
  apart : ∀ r ∈ records, ∀ r' ∈ more, ∀ row, ¬(r.Covers row ∧ r'.Covers row)

theorem GrowsApart.stop_le {records more : List SampleRecord} (h : GrowsApart records more)
    {g : OpenGroup} (hg : IsGroup g) (hpending : ∀ r ∈ g.pending, r ∈ records)
    (hranged : Ranged records) {r' : SampleRecord} (hr' : r' ∈ more) {start stop : ℤ}
    (hstart : r'.sourceRowStart = some start) (hstop : r'.sourceRowEnd = some stop)
    (hle : start ≤ g.currentMax) : stop ≤ g.currentMax := by
  obtain ⟨r, hr, hmax⟩ := hg.exists_max
  obtain ⟨first, last, hfirst, hlast⟩ := hranged.exists_range (hpending r hr)
  obtain rfl : last = g.currentMax := Option.some.inj (hlast.symm.trans hmax)
  have hvalid := h.valid r (hpending r hr) first hfirst _ hlast
  by_contra hgt
  -- Otherwise the largest row of the group lies in both ranges.
  refine h.apart r (hpending r hr) r' hr' g.currentMax ⟨⟨⟨first, hfirst, hvalid⟩, ?_⟩, ?_, ?_⟩
  · exact ⟨_, hlast, le_rfl⟩
  · exact ⟨start, hstart, hle⟩
  · exact ⟨stop, hstop, (not_le.1 hgt).le⟩

/-- **Growth leaves the groups alone**: the groups of the old records are those they had. -/
theorem recordRows_append {records more : List SampleRecord} (h : GrowsApart records more)
    (hranged : Ranged records) (hmore : Ranged more) :
    ∃ new, recordRows (overlapGroups (records ++ more))
      = recordRows (overlapGroups records) ++ new := by
  have hgroups := groups_overlapGroups hranged
  rw [overlapGroups, List.foldl_append]
  change ∃ new, recordRows (more.foldl addRecord (overlapGroups records)) = _
  generalize overlapGroups records = groups at hgroups
  rcases groups with _ | ⟨g, finished⟩
  · exact ⟨_, rfl⟩
  have hpending : ∀ r ∈ g.pending, r ∈ records := by
    intro r hr
    rw [← hgroups.pending]
    exact List.mem_flatMap.2 ⟨g, by simp, hr⟩
  have hfold : ∃ later extra, more.foldl addRecord (g :: finished)
      = later ++ ⟨g.pending ++ extra, g.currentMin, g.currentMax⟩ :: finished := by
    refine foldl_invariant (I := fun _ (state : List OpenGroup) ↦ ∃ later extra, state
      = later ++ ⟨g.pending ++ extra, g.currentMin, g.currentMax⟩ :: finished)
      (fun {pre r' post state} hsplit hstate ↦ ?_) ⟨[], [], by simp⟩
    obtain ⟨later, extra, rfl⟩ := hstate
    have hr' : r' ∈ more := by simp [hsplit]
    obtain ⟨start, stop, hstart, hstop⟩ := hmore.exists_range hr'
    rcases addRecord_cases hstart hstop
      (later ++ ⟨g.pending ++ extra, g.currentMin, g.currentMax⟩ :: finished) with
      ⟨newest, rest, heq, hle, hadd⟩ | ⟨-, hadd⟩
    · rw [hadd]
      rcases later with _ | ⟨g', later⟩
      · rw [List.nil_append, List.cons.injEq] at heq
        obtain ⟨rfl, rfl⟩ := heq
        have hmax : max g.currentMax stop = g.currentMax :=
          max_eq_left (h.stop_le (hgroups.isGroup g List.mem_cons_self) hpending hranged hr' hstart
            hstop hle)
        exact ⟨[], extra ++ [r'], by simp [hmax]⟩
      · rw [List.cons_append, List.cons.injEq] at heq
        obtain ⟨rfl, rfl⟩ := heq
        exact ⟨_ :: later, extra, rfl⟩
    · exact ⟨⟨[r'], start, stop⟩ :: later, extra, hadd⟩
  obtain ⟨later, extra, hfold⟩ := hfold
  rw [hfold]
  refine ⟨(extra.map fun _ ↦ .rows g.currentMin g.currentMax) ++ recordRows later, ?_⟩
  simp only [recordRows, List.reverse_append, List.reverse_cons, List.flatMap_append,
    List.flatMap_cons, List.flatMap_nil, List.map_append, List.append_assoc, List.append_nil]

theorem recordGroups_append {records more : List SampleRecord} (h : GrowsApart records more)
    (mode : String) (sessionIds : List String)
    (hranged : mode = "source_overlap" → Ranged records ∧ Ranged more) :
    ∃ new, recordGroups mode sessionIds (records ++ more)
      = recordGroups mode sessionIds records ++ new := by
  rw [recordGroups, recordGroups]
  split
  · next hoverlap =>
    obtain ⟨hrecords, hmore⟩ := hranged hoverlap
    exact recordRows_append h hrecords hmore
  · exact ⟨_, List.flatMap_append⟩

/-! ## The splits of a run -/

section

variable {env : PackagingEnv π} {profile : PackagingProfile} {config : PackagingConfig R}
  {transformedSha256 : String} {sessionIds : List String} {lines more : List (Option (Sample π))}
  {records : List SampleRecord}

theorem get?_assignGroupHashSplits (sha256 : String → Sha256Digest) (split : SplitConfig R)
    (profileName profileVersion : String) {groupIds : List String} {g : String}
    (hg : g ∈ groupIds) :
    (assignGroupHashSplits sha256 split profileName profileVersion groupIds).get? g
      = some (groupHashSplit sha256 split profileName profileVersion g) := by
  refine foldl_invariant (I := fun pre (assignment : Dict String Split) ↦ ∀ g ∈ pre,
    assignment.get? g = some (groupHashSplit sha256 split profileName profileVersion g))
    (fun {pre g' post assignment} _ hpre g hg ↦ ?_) (fun _ h ↦ absurd h List.not_mem_nil) g hg
  rw [Dict.get?_set]
  split
  · next heq => rw [heq]
  · next hne => exact hpre g ((List.mem_append.1 hg).resolve_right (hne ∘ List.mem_singleton.1))

/-- **The split of every sample** is the split of its group's id. -/
theorem map_split_splitIndex {result : PackagingResult R} {staged : StagedSplits π}
    (hconfig : defaultMlPackage.validateConfig config = .ok ())
    (hstrategy : config.split.strategy = "group_hash")
    (hread : readSampleRecords lines = .ok records)
    (hrun : runPackaging env defaultMlPackage config transformedSha256 sessionIds lines
      = .ok (result, staged)) :
    staged.splitIndex.map SplitIndexRecord.split
      = (recordGroups config.groupingMode sessionIds records).map fun g ↦
        groupHashSplit env.sha256 config.split defaultMlPackage.profileName
          defaultMlPackage.profileVersion (g.id env.sha256 transformedSha256) := by
  rw [runPackaging, hread] at hrun
  dsimp only [bind, Except.bind] at hrun
  -- a file without samples has no groups, and its index is empty
  by_cases hnil : records = []
  · rw [if_pos hnil] at hrun
    obtain ⟨-, rfl⟩ := Prod.mk.inj (Except.ok.inj hrun)
    rw [hnil, recordGroups]
    split <;> rfl
  · rw [if_neg hnil] at hrun
    by_cases hgroupable : Groupable config.groupingMode sessionIds records
    · obtain ⟨grouped, hgrouped, hrecorded⟩ := exists_assignGroups env transformedSha256
        (groupingMode_of_validateConfig hconfig) hgroupable
      obtain ⟨groupToSplit, d, result', staged', hpackaged⟩ := exists_packageRecords
        (readSampleRecords_inv hread) (.inl hstrategy) hgrouped hrecorded
      obtain ⟨-, rfl⟩ := Prod.mk.inj (Except.ok.inj (hpackaged.run.symm.trans hrun))
      have hassigned := hpackaged.assigned
      rw [assignSplits, if_pos hstrategy] at hassigned
      have hlines := congrArg (List.map fun a : Assignment ↦ a.2.2)
        (hpackaged.indexed.splitIndex_eq hpackaged.written)
      rw [List.map_map, List.map_map] at hlines
      -- from the index to the groups, to their hashes, to their ids
      calc staged'.splitIndex.map SplitIndexRecord.split
          = grouped.map fun p ↦ (groupToSplit.get? p.2).getD .train := hlines
        _ = grouped.map fun p ↦ groupHashSplit env.sha256 config.split
              defaultMlPackage.profileName defaultMlPackage.profileVersion p.2 := by
            refine List.map_congr_left fun p hp ↦ ?_
            rw [← Except.ok.inj hassigned, get?_assignGroupHashSplits _ _ _ _ (mem_countGroups hp),
              Option.getD_some]
        _ = (grouped.map Prod.snd).map (groupHashSplit env.sha256 config.split
              defaultMlPackage.profileName defaultMlPackage.profileVersion) := by
            rw [List.map_map]
            rfl
        _ = _ := by
            rw [map_snd_assignGroups hgrouped, List.map_map]
            rfl
    · obtain ⟨message, hrefused⟩ := exists_missingGroups env transformedSha256 hgroupable
      rw [packageRecords, hrefused] at hrun
      cases hrun

omit [PyFloat R] in
/-- Reading a file that has been appended to reads the old records first. -/
theorem readSampleRecords_append (hread : readSampleRecords lines = .ok records)
    {records' : List SampleRecord} (hread' : readSampleRecords (lines ++ more) = .ok records') :
    ∃ added, records' = records ++ added ∧
      List.Forall₂ Sample.Recorded (more.filterMap id) added := by
  rw [readSampleRecords, List.foldlM_append, bind_eq_ok_iff] at hread'
  obtain ⟨records₀, hread₀, hmore⟩ := hread'
  rw [readSampleRecords] at hread
  obtain rfl := Except.ok.inj (hread.symm.trans hread₀)
  refine foldlM_invariant (I := fun pre state ↦ ∃ added, state = records ++ added ∧
    List.Forall₂ Sample.Recorded (pre.filterMap id) added)
    (fun {pre line post state state'} _ hstate hstep ↦ ?_) ⟨[], by simp⟩ hmore
  obtain ⟨added, rfl, hadded⟩ := hstate
  rcases line with _ | sample
  · cases hstep
    exact ⟨added, rfl, by simpa using hadded⟩
  · rw [readStep] at hstep
    split at hstep
    · cases hstep
    · next sampleId hid =>
      split at hstep
      · cases hstep
      · split at hstep
        · cases hstep
        · cases hstep
          refine ⟨added ++ [⟨_, sampleId, sample.sourceRowStart, sample.sourceRowEnd⟩],
            List.append_assoc .., ?_⟩
          rw [List.filterMap_append]
          exact List.rel_append hadded (.cons ⟨hid, rfl, rfl⟩ .nil)

end

/-! ## Stability -/

theorem Sample.Recorded.covers_iff {s : Sample π} {r : SampleRecord} (h : s.Recorded r) (row : ℤ) :
    r.Covers row ↔ s.Covers row := by
  rw [SampleRecord.Covers, Sample.Covers, h.2.1, h.2.2]

theorem groupable_of_runPackaging {env : PackagingEnv π} {profile : PackagingProfile}
    {config : PackagingConfig R} {transformedSha256 : String} {sessionIds : List String}
    {lines : List (Option (Sample π))} {records : List SampleRecord}
    {result : PackagingResult R} {staged : StagedSplits π}
    (hread : readSampleRecords lines = .ok records)
    (hrun : runPackaging env profile config transformedSha256 sessionIds lines
      = .ok (result, staged)) :
    records = [] ∨ Groupable config.groupingMode sessionIds records := by
  by_contra! hrefuse
  obtain ⟨hne, hgroupable⟩ := hrefuse
  rw [runPackaging, hread] at hrun
  dsimp only [bind, Except.bind] at hrun
  obtain ⟨message, hrefused⟩ := exists_missingGroups env transformedSha256 hgroupable
  rw [if_neg hne, packageRecords, hrefused] at hrun
  cases hrun

/-- Every record that is grouped has a group. -/
theorem length_recordGroups {mode : String} {sessionIds : List String}
    {records : List SampleRecord} (h : records = [] ∨ Groupable mode sessionIds records) :
    (recordGroups mode sessionIds records).length = records.length := by
  rcases h with rfl | h
  · rw [recordGroups]
    split <;> rfl
  · rw [Groupable] at h
    rw [recordGroups]
    split at h
    · next hoverlap =>
      rw [if_pos hoverlap, recordRows, List.length_flatMap]
      conv_rhs => rw [← (groups_overlapGroups h).pending, List.length_flatMap]
      simp only [List.length_map]
    · next hoverlap =>
      obtain ⟨sessionId, rfl⟩ := List.length_eq_one_iff.1 h
      rw [if_neg hoverlap, List.map_singleton, ← List.map_eq_flatMap, List.length_map]

theorem forall_getElem?_append_iff {α β : Type} (f f' : α → β) (l new : List α) :
    (∀ i < l.length, ((l ++ new).map f')[i]? = (l.map f)[i]?) ↔ ∀ a ∈ l, f' a = f a := by
  constructor
  · intro h a ha
    obtain ⟨i, hi, rfl⟩ := List.getElem_of_mem ha
    have hi' := h i hi
    rw [List.getElem?_map, List.getElem?_map, List.getElem?_append_left hi,
      List.getElem?_eq_getElem hi] at hi'
    exact Option.some.inj hi'
  · intro h i hi
    rw [List.getElem?_map, List.getElem?_map, List.getElem?_append_left hi,
      List.getElem?_eq_getElem hi, Option.map_some, Option.map_some, h _ (List.getElem_mem hi)]

/-- **When an old sample stays.** A file is packaged, and packaged again with the same configuration
after samples have been appended that overlap none of its own. Every old sample is assigned to the
split it had exactly if, for each of its leakage groups, the ids that the two digests of the whole
file give the group fall in the same split. -/
theorem groupHash_stable_iff (env : PackagingEnv π) {config : PackagingConfig R}
    (hconfig : defaultMlPackage.validateConfig config = .ok ())
    (hstrategy : config.split.strategy = "group_hash") {oldSha256 newSha256 : String}
    {sessionIds : List String} {lines more : List (Option (Sample π))} {records : List SampleRecord}
    (hvalid : ∀ s ∈ lines.filterMap id,
      ∀ start ∈ s.sourceRowStart, ∀ stop ∈ s.sourceRowEnd, start ≤ stop)
    (hapart : ∀ s ∈ lines.filterMap id, ∀ s' ∈ more.filterMap id, ∀ row,
      ¬(s.Covers row ∧ s'.Covers row))
    (hread : readSampleRecords lines = .ok records)
    {result result' : PackagingResult R} {staged staged' : StagedSplits π}
    (hrun : runPackaging env defaultMlPackage config oldSha256 sessionIds lines
      = .ok (result, staged))
    (hrun' : runPackaging env defaultMlPackage config newSha256 sessionIds (lines ++ more)
      = .ok (result', staged')) :
    (∀ i < (lines.filterMap id).length, (staged'.splitIndex.map SplitIndexRecord.split)[i]?
        = (staged.splitIndex.map SplitIndexRecord.split)[i]?) ↔
      ∀ g ∈ recordGroups config.groupingMode sessionIds records,
        groupHashSplit env.sha256 config.split defaultMlPackage.profileName
            defaultMlPackage.profileVersion (g.id env.sha256 newSha256)
          = groupHashSplit env.sha256 config.split defaultMlPackage.profileName
            defaultMlPackage.profileVersion (g.id env.sha256 oldSha256) := by
  obtain ⟨records', hread', -⟩ := bind_eq_ok_iff.1 hrun'
  obtain ⟨added, rfl, hadded⟩ := readSampleRecords_append hread hread'
  have hrecorded := (readSampleRecords_inv hread).recorded
  have hgrows : GrowsApart records added := by
    constructor
    · intro r hr start hstart stop hstop
      obtain ⟨s, hs, hsr⟩ := exists_of_forall₂_right hrecorded hr
      exact hvalid s hs start (hsr.2.1 ▸ hstart) stop (hsr.2.2 ▸ hstop)
    · intro r hr r' hr' row
      obtain ⟨s, hs, hsr⟩ := exists_of_forall₂_right hrecorded hr
      obtain ⟨s', hs', hsr'⟩ := exists_of_forall₂_right hadded hr'
      rw [hsr.covers_iff, hsr'.covers_iff]
      exact hapart s hs s' hs' row
  -- with overlap grouping, a sample without a range would have made the second run fail
  have hranged : config.groupingMode = "source_overlap" → Ranged records ∧ Ranged added := by
    intro hmode
    have hall : Ranged (records ++ added) := by
      rcases groupable_of_runPackaging hread' hrun' with hnil | hgroupable
      · rw [hnil]
        exact fun r hr ↦ absurd hr List.not_mem_nil
      · rwa [Groupable, if_pos hmode] at hgroupable
    exact ⟨fun r hr ↦ hall r (List.mem_append_left _ hr),
      fun r hr ↦ hall r (List.mem_append_right _ hr)⟩
  obtain ⟨new, hnew⟩ := recordGroups_append hgrows config.groupingMode sessionIds hranged
  have hold := map_split_splitIndex hconfig hstrategy hread hrun
  have hsplits := map_split_splitIndex hconfig hstrategy hread' hrun'
  have hlength : (lines.filterMap id).length
      = (recordGroups config.groupingMode sessionIds records).length := by
    rw [length_recordGroups (groupable_of_runPackaging hread hrun), hrecorded.length_eq]
  -- the old groups come first in the new file, so it is enough to compare prefixes
  rw [hsplits, hold, hnew, hlength]
  exact forall_getElem?_append_iff _ _ _ new

/-! ### A file that grows by one sample -/

/-- The digest of the file of the first two samples. -/
def oldFileSha256 : String := "251b39478a70ace141b5ea7d0e6c15f329ec584fdf800cda40727e1b2529f04b"

/-- The digest of the file of all three samples. -/
def grownFileSha256 : String := "0def9f89240d9602aea178f81794b2fd663e9b0010a21efb9541a35485e29c40"

/-- What SHA-256 is of the texts that are hashed to assign the samples of the two files. -/
def recordedDigests : List (String × String) :=
  [(oldFileSha256 ++ ":0:9", "4647f2d3a6b1475d1b1763d19691e8ffbbbaa124b02f9821916b369e0b13c258"),
    ("grp_4647f2d3a6b1475d:0:default_ml_package:1.0.0",
      "2926c139174f8e3a9bc8782d78364abdad43422f27bdfa8a0ad5f3faa79d1e03"),
    (oldFileSha256 ++ ":10:19", "c7b11ae18d1e9a9541d36d7d00e5eaf4d4d0208f3d3abb7a194b9b4c5c8f1e7d"),
    ("grp_c7b11ae18d1e9a95:0:default_ml_package:1.0.0",
      "fc315ec615a4abf3287110f1494dc713ce8a4e502f9a2f7b3e814ad27cdd636f"),
    (grownFileSha256 ++ ":0:9", "7af44e33988e936cafdb177795ea11b44d54058baac7c06a4a71263854117756"),
    ("grp_7af44e33988e936c:0:default_ml_package:1.0.0",
      "c6adc11cb9c1b7b2b926c134c1b9e2d68e6f6adbccb4653422430784e5b1c137"),
    (grownFileSha256 ++ ":10:19", "fe98e982a775c041a9fa0635a368c70ff6745633d8f3438b5d9e6c4b1585eb5c"),
    ("grp_fe98e982a775c041:0:default_ml_package:1.0.0",
      "6bf39a34c2e1f07720ed90846aa7fda99c556c0017d1aa99f386e2d5ec5b551f"),
    (grownFileSha256 ++ ":20:29", "727eb70a240646c2ef105c1230b13f0e479d535dc67eaf083a022d63dd7f34a7"),
    ("grp_727eb70a240646c2:0:default_ml_package:1.0.0",
      "031ad7ca1a91bedd6d455bd076098258a7f3234319639f6524daa4a294914a72")]

/-- An environment with these digests. -/
def recordedEnv : PackagingEnv Unit :=
  { constantHashEnv with sha256 := fun s ↦ digestOfHex ((recordedDigests.lookup s).getD "") }

/-- Two samples without a common row. -/
def oldLines : List (Option (Sample Unit)) :=
  [some ⟨some "sample_00", some 0, some 9, ()⟩, some ⟨some "sample_01", some 10, some 19, ()⟩]

/-- A third sample, beyond the rows of the others. -/
def addedLines : List (Option (Sample Unit)) := [some ⟨some "sample_02", some 20, some 29, ()⟩]

/-- One half for training, the other for validation, with the default strategy, mode and seed. -/
def halvesConfig : PackagingConfig ℚ :=
  { split := { trainRatio := 1 / 2, validationRatio := 1 / 2, testRatio := 0 } }

/-- The splits of the samples of a file, in source order. -/
def packagedSplits (transformedSha256 : String) (lines : List (Option (Sample Unit))) :
    Except PackagingError (List Split) :=
  (runPackaging recordedEnv defaultMlPackage halvesConfig transformedSha256 [] lines).map
    fun out ↦ out.2.splitIndex.map SplitIndexRecord.split

theorem packagedSplits_old : packagedSplits oldFileSha256 oldLines = .ok [.train, .validation] := by
  decide +kernel

theorem packagedSplits_grown : packagedSplits grownFileSha256 (oldLines ++ addedLines)
    = .ok [.validation, .train, .train] := by
  decide +kernel

theorem exists_of_packagedSplits {transformedSha256 : String} {lines : List (Option (Sample Unit))}
    {splits : List Split} (h : packagedSplits transformedSha256 lines = .ok splits) :
    ∃ result staged, runPackaging recordedEnv defaultMlPackage halvesConfig transformedSha256 []
      lines = .ok (result, staged) := by
  rw [packagedSplits] at h
  rcases hrun : runPackaging recordedEnv defaultMlPackage halvesConfig transformedSha256 [] lines
    with e | ⟨result, staged⟩
  · rw [hrun] at h
    cases h
  · exact ⟨result, staged, rfl⟩

theorem addedLines_apart : ∀ s ∈ oldLines.filterMap id, ∀ s' ∈ addedLines.filterMap id, ∀ row,
    ¬(s.Covers row ∧ s'.Covers row) := by
  rintro s hs s' hs' row ⟨⟨-, stop, hstop, hle⟩, ⟨start, hstart, hge⟩, -⟩
  simp only [oldLines, addedLines, List.filterMap_cons, List.filterMap_nil, id,
    List.mem_cons, List.not_mem_nil, or_false] at hs hs'
  subst hs'
  cases hstart
  rcases hs with rfl | rfl <;> cases hstop <;> omega

/-- The condition decides the fate of the two old samples. -/
theorem groupHash_stable_iff_thirdSample : ∃ staged staged' : StagedSplits Unit,
    (∀ i < 2, (staged'.splitIndex.map SplitIndexRecord.split)[i]?
        = (staged.splitIndex.map SplitIndexRecord.split)[i]?) ↔
      ∀ g ∈ recordGroups "source_overlap" []
          [⟨0, "sample_00", some 0, some 9⟩, ⟨1, "sample_01", some 10, some 19⟩],
        groupHashSplit recordedEnv.sha256 halvesConfig.split "default_ml_package" "1.0.0"
            (g.id recordedEnv.sha256 grownFileSha256)
          = groupHashSplit recordedEnv.sha256 halvesConfig.split "default_ml_package" "1.0.0"
            (g.id recordedEnv.sha256 oldFileSha256) := by
  obtain ⟨result, staged, hrun⟩ := exists_of_packagedSplits packagedSplits_old
  obtain ⟨result', staged', hrun'⟩ := exists_of_packagedSplits packagedSplits_grown
  refine ⟨staged, staged', ?_⟩
  refine groupHash_stable_iff recordedEnv (by decide +kernel) rfl ?_ addedLines_apart (by rfl) hrun
    hrun'
  intro s hs start hstart stop hstop
  simp only [oldLines, List.filterMap_cons, List.filterMap_nil, id, List.mem_cons,
    List.not_mem_nil, or_false] at hs
  rcases hs with rfl | rfl <;> cases hstart <;> cases hstop <;> decide

/-- **The old samples change places** when a third one is appended that shares no row with them. -/
theorem growth_moves_samples :
    defaultMlPackage.validateConfig halvesConfig = .ok () ∧
    (∀ s ∈ oldLines.filterMap id, ∀ s' ∈ addedLines.filterMap id, ∀ row,
      ¬(s.Covers row ∧ s'.Covers row)) ∧
    packagedSplits oldFileSha256 oldLines = .ok [.train, .validation] ∧
    packagedSplits grownFileSha256 (oldLines ++ addedLines)
      = .ok [.validation, .train, .train] :=
  ⟨by decide +kernel, addedLines_apart, packagedSplits_old, packagedSplits_grown⟩

end ForgeData
