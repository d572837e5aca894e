import ForgeData.Graph.IntervalSweep
import ForgeData.Packaging.Growth

/-!
# Groups are connected components

The grouping loop keeps the largest end of the group it collects, and the audit, written apart from it,
the largest end of its chain. Both are the sweep over intervals of `Graph.IntervalSweep`, so both draw
the borders of the connected components of the overlap relation.
-/

namespace ForgeData

open Python Graph Relation

/-! ## The audit -/

/-- The ranges of a chain carry more than one split. -/
def CarriesSplits (chain : List (ℤ × ℤ × Split)) : Prop := ∃ x ∈ chain, ∃ y ∈ chain, x.2.2 ≠ y.2.2

instance (chain : List (ℤ × ℤ × Split)) : Decidable (CarriesSplits chain) :=
  inferInstanceAs (Decidable (∃ x ∈ chain, ∃ y ∈ chain, x.2.2 ≠ y.2.2))

/-- The audit's scan, and the chains of the ranges so far, the newest first. -/
inductive ScanStands (s : ChainState) : List (List (ℤ × ℤ × Split)) → Prop
  | start : s = ⟨0, none, []⟩ → ScanStands s []
  | chain {b done m} : s.currentMaxEnd = some m → (∃ x ∈ b, x.2.1 = m) → (∀ x ∈ b, x.2.1 ≤ m) →
      s.currentSplits.Nodup → (∀ split, split ∈ s.currentSplits ↔ ∃ x ∈ b, x.2.2 = split) →
      s.violations = done.countP CarriesSplits → ScanStands s (b :: done)

theorem one_lt_length_iff {l : List Split} (h : l.Nodup) :
    1 < l.length ↔ ∃ x ∈ l, ∃ y ∈ l, x ≠ y := by
  rcases l with _ | ⟨a, _ | ⟨b, rest⟩⟩
  · simp
  · simp
  · refine iff_of_true (by simp) ⟨a, by simp, b, by simp, ?_⟩
    rintro rfl
    simp at h

/-- Closing a chain counts it if it carries more than one split. -/
theorem ScanStands.close {s : ChainState} {chains : List (List (ℤ × ℤ × Split))}
    (h : ScanStands s chains) : s.close = chains.countP CarriesSplits := by
  cases h with
  | start hs =>
    rw [hs]
    rfl
  | @chain b done m _ _ _ hnodup hsplits hviolations =>
    have hmulti : 1 < s.currentSplits.length ↔ CarriesSplits b := by
      rw [one_lt_length_iff hnodup]
      constructor
      · rintro ⟨_, hx, _, hy, hne⟩
        obtain ⟨x, hxb, rfl⟩ := (hsplits _).1 hx
        obtain ⟨y, hyb, rfl⟩ := (hsplits _).1 hy
        exact ⟨x, hxb, y, hyb, hne⟩
      · rintro ⟨x, hxb, y, hyb, hne⟩
        exact ⟨_, (hsplits _).2 ⟨x, hxb, rfl⟩, _, (hsplits _).2 ⟨y, hyb, rfl⟩, hne⟩
    rw [ChainState.close, List.countP_cons, hviolations]
    by_cases hcarries : CarriesSplits b
    · rw [if_pos (hmulti.2 hcarries), if_pos (decide_eq_true hcarries)]
    · rw [if_neg (mt hmulti.1 hcarries), if_neg (by simpa using hcarries), Nat.add_zero]

theorem mem_addToSet {α : Type} [DecidableEq α] {a x : α} {l : List α} :
    x ∈ addToSet a l ↔ x = a ∨ x ∈ l := by
  rw [addToSet]
  split
  · next hmem => exact ⟨.inr, fun h ↦ h.elim (fun heq ↦ heq ▸ hmem) id⟩
  · rw [List.mem_append, List.mem_singleton, or_comm]

theorem nodup_addToSet {α : Type} [DecidableEq α] {a : α} {l : List α} (h : l.Nodup) :
    (addToSet a l).Nodup := by
  rw [addToSet]
  split
  · exact h
  · next hmem =>
    refine List.nodup_append.2 ⟨h, List.nodup_singleton a, fun x hx y hy heq ↦ hmem ?_⟩
    rw [← List.mem_singleton.1 hy, ← heq]
    exact hx

theorem ScanStands.opened {s : ChainState} {chains : List (List (ℤ × ℤ × Split))}
    (h : ScanStands s chains) (range : ℤ × ℤ × Split) :
    ScanStands ⟨s.close, some range.2.1, [range.2.2]⟩ ([range] :: chains) :=
  .chain rfl ⟨range, List.mem_singleton_self _, rfl⟩
    (fun x hx ↦ by rw [List.mem_singleton.1 hx]) (List.nodup_singleton _)
    (fun split ↦ by simp [eq_comm]) h.close

/-- **The step lemma**: the scan moves as the sweep does. -/
theorem ScanStands.step {s : ChainState} {chains : List (List (ℤ × ℤ × Split))}
    (h : ScanStands s chains) (range : ℤ × ℤ × Split) :
    ScanStands (chainStep s range) (sweepStep Prod.fst (·.2.1) chains range) := by
  have hopened := h.opened range
  cases h with
  | start hs =>
    subst hs
    exact hopened
  | @chain b done m hmax hattained hbound hnodup hsplits hviolations =>
    have hreach : (∃ x ∈ b, range.1 ≤ x.2.1) ↔ range.1 ≤ m := by
      obtain ⟨x, hx, hxm⟩ := hattained
      exact ⟨fun ⟨y, hy, hle⟩ ↦ hle.trans (hbound y hy), fun hle ↦ ⟨x, hx, hxm ▸ hle⟩⟩
    rw [sweepStep_cons, chainStep, hmax]
    dsimp only
    by_cases hle : range.1 ≤ m
    · rw [if_pos hle, if_pos (hreach.2 hle)]
      refine .chain rfl ?_ (fun x hx ↦ ?_) (nodup_addToSet hnodup) (fun split ↦ ?_) hviolations
      · rcases le_total m range.2.1 with hm | hm
        · exact ⟨range, by simp, (max_eq_right hm).symm⟩
        · obtain ⟨x, hx, hxm⟩ := hattained
          exact ⟨x, List.mem_append_left _ hx, by rw [hxm, max_eq_left hm]⟩
      · rcases List.mem_append.1 hx with hx | hx
        · exact (hbound x hx).trans (le_max_left _ _)
        · rw [List.mem_singleton.1 hx]
          exact le_max_right _ _
      · rw [mem_addToSet, hsplits]
        constructor
        · rintro (rfl | ⟨x, hx, rfl⟩)
          · exact ⟨range, by simp, rfl⟩
          · exact ⟨x, List.mem_append_left _ hx, rfl⟩
        · rintro ⟨x, hx, rfl⟩
          rcases List.mem_append.1 hx with hx | hx
          · exact .inr ⟨x, hx, rfl⟩
          · exact .inl (by rw [List.mem_singleton.1 hx])
    · rw [if_neg hle, if_neg (mt hreach.1 hle)]
      exact hopened

/-- **The audit counts the blocks of the sweep that carry more than one split**, in whatever order the
ranges are. -/
theorem countCrossSplitOverlaps_eq (ranges : List (ℤ × ℤ × Split)) :
    countCrossSplitOverlaps ranges = (sweep Prod.fst (·.2.1) ranges).countP CarriesSplits := by
  have hscan : ScanStands (ranges.foldl chainStep ⟨0, none, []⟩) (sweepBack Prod.fst (·.2.1) ranges) := by
    suffices h : ∀ s chains, ScanStands s chains →
        ScanStands (ranges.foldl chainStep s) (ranges.foldl (sweepStep Prod.fst (·.2.1)) chains) from
      h _ _ (.start rfl)
    induction ranges with
    | nil => exact fun s chains h ↦ h
    | cons range ranges ih => exact fun s chains h ↦ ih _ _ (h.step range)
  rw [countCrossSplitOverlaps, hscan.close, sweep, List.countP_reverse]

/-! ## The groups -/

/-- `source_row_start`, of a record that has one. -/
def SampleRecord.start (r : SampleRecord) : ℤ := r.sourceRowStart.getD 0

/-- `source_row_end`, of a record that has one. -/
def SampleRecord.stop (r : SampleRecord) : ℤ := r.sourceRowEnd.getD 0

/-- The first start of a block. -/
def blockStart (block : List SampleRecord) : ℤ := (block.head?.map SampleRecord.start).getD 0

/-- The largest end of a block. -/
def blockStop : List SampleRecord → ℤ
  | [] => 0
  | r :: rest => rest.foldl (fun m x ↦ max m x.stop) r.stop

/-- The group that a block of records makes. -/
def groupOf (block : List SampleRecord) : OpenGroup := ⟨block, blockStart block, blockStop block⟩

theorem blockStart_concat {block : List SampleRecord} (h : block ≠ []) (r : SampleRecord) :
    blockStart (block ++ [r]) = blockStart block := by
  obtain ⟨x, rest, rfl⟩ := List.exists_cons_of_ne_nil h
  rfl

theorem blockStop_concat {block : List SampleRecord} (h : block ≠ []) (r : SampleRecord) :
    blockStop (block ++ [r]) = max (blockStop block) r.stop := by
  obtain ⟨x, rest, rfl⟩ := List.exists_cons_of_ne_nil h
  rw [List.cons_append, blockStop, List.foldl_append]
  rfl

/-- The largest end is attained, and bounds all. -/
theorem blockStop_spec {block : List SampleRecord} (h : block ≠ []) :
    (∃ x ∈ block, x.stop = blockStop block) ∧ ∀ x ∈ block, x.stop ≤ blockStop block := by
  induction block using List.reverseRecOn with
  | nil => exact absurd rfl h
  | append_singleton block r ih =>
    rcases eq_or_ne block [] with rfl | hne
    · exact ⟨⟨r, by simp, rfl⟩, fun x hx ↦ by rw [List.mem_singleton.1 hx]; rfl⟩
    · obtain ⟨⟨x, hx, hattained⟩, hbound⟩ := ih hne
      rw [blockStop_concat hne]
      refine ⟨?_, fun y hy ↦ ?_⟩
      · rcases le_total (blockStop block) r.stop with hle | hle
        · exact ⟨r, by simp, (max_eq_right hle).symm⟩
        · exact ⟨x, List.mem_append_left _ hx, by rw [hattained, max_eq_left hle]⟩
      · rcases List.mem_append.1 hy with hy | hy
        · exact (hbound y hy).trans (le_max_left _ _)
        · rw [List.mem_singleton.1 hy]
          exact le_max_right _ _

/-- One record joins the groups as it is swept into the blocks. -/
theorem addRecord_map_groupOf {blocks : List (List SampleRecord)} (hne : ∀ b ∈ blocks, b ≠ [])
    {r : SampleRecord} {start stop : ℤ} (hstart : r.sourceRowStart = some start)
    (hstop : r.sourceRowEnd = some stop) :
    addRecord (blocks.map groupOf) r
      = (sweepStep SampleRecord.start SampleRecord.stop blocks r).map groupOf := by
  have hrstart : r.start = start := by rw [SampleRecord.start, hstart, Option.getD_some]
  have hrstop : r.stop = stop := by rw [SampleRecord.stop, hstop, Option.getD_some]
  have hsingle : groupOf [r] = ⟨[r], start, stop⟩ := by
    rw [← hrstart, ← hrstop]
    rfl
  rw [addRecord, hstart, hstop]
  rcases blocks with _ | ⟨b, done⟩
  · exact congrArg (fun g ↦ [g]) hsingle.symm
  · have hb := hne b List.mem_cons_self
    obtain ⟨⟨x, hx, hattained⟩, hbound⟩ := blockStop_spec hb
    have hreach : (∃ x ∈ b, r.start ≤ x.stop) ↔ start ≤ (groupOf b).currentMax := by
      rw [hrstart]
      constructor
      · rintro ⟨y, hy, hle⟩
        exact hle.trans (hbound y hy)
      · exact fun hle ↦ ⟨x, hx, hattained ▸ hle⟩
    rw [sweepStep_cons, List.map_cons]
    dsimp only
    by_cases hle : start ≤ (groupOf b).currentMax
    · rw [if_pos hle, if_pos (hreach.2 hle), List.map_cons]
      congr 1
      rw [groupOf, groupOf, blockStart_concat hb, blockStop_concat hb, hrstop]
    · rw [if_neg hle, if_neg (mt hreach.1 hle), List.map_cons, List.map_cons, hsingle]

/-- **The groups are the blocks of the sweep**, in whatever order the records are. -/
theorem overlapGroups_eq {records : List SampleRecord} (h : Ranged records) :
    overlapGroups records
      = (sweepBack SampleRecord.start SampleRecord.stop records).map groupOf := by
  suffices hgen : ∀ blocks : List (List SampleRecord), (∀ b ∈ blocks, b ≠ []) →
      records.foldl addRecord (blocks.map groupOf)
        = (records.foldl (sweepStep SampleRecord.start SampleRecord.stop) blocks).map groupOf from
    hgen [] (List.forall_mem_nil _)
  induction records with
  | nil => exact fun blocks _ ↦ rfl
  | cons r records ih =>
    intro blocks hne
    obtain ⟨start, stop, hstart, hstop⟩ := h.exists_range (r := r) List.mem_cons_self
    rw [List.foldl_cons, List.foldl_cons, addRecord_map_groupOf hne hstart hstop]
    exact ih (fun x hx ↦ h x (List.mem_cons_of_mem _ hx)) _ (ne_nil_of_mem_sweepStep hne r)

/-! ## Components -/

/-- Records with source ranges in the order of their starts, none of which ends before it starts. -/
structure OrderedRanges (records : List SampleRecord) : Prop where
  ranged : Ranged records
  sorted : records.Pairwise fun a b ↦ a.start ≤ b.start
  valid : ∀ r ∈ records, r.start ≤ r.stop

/-- The samples at two positions share a source row. -/
def OverlapAt (records : List SampleRecord) (i j : ℕ) : Prop :=
  ∃ a b, records[i]? = some a ∧ records[j]? = some b ∧ ∃ row, a.Covers row ∧ b.Covers row

/-- The list of the connected components of a relation on the positions below `n`. -/
structure IsComponents (n : ℕ) (r : ℕ → ℕ → Prop) (components : List (List ℕ)) : Prop where
  flatten : components.flatten = List.range n
  nonempty : ∀ c ∈ components, c ≠ []
  mem_iff : ∀ c ∈ components, ∀ i ∈ c, ∀ j, j ∈ c ↔ ReflTransGen r i j

/-- The blocks of the records with their positions. -/
def overlapBlocks (records : List SampleRecord) : List (List (SampleRecord × ℕ)) :=
  sweep (fun p ↦ p.1.start) (fun p ↦ p.1.stop) records.zipIdx

theorem flatten_overlapBlocks (records : List SampleRecord) :
    (overlapBlocks records).flatten = records.zipIdx :=
  flatten_sweep _

/-- The positions of each block. -/
def overlapComponents (records : List SampleRecord) : List (List ℕ) :=
  (overlapBlocks records).map (List.map Prod.snd)

theorem flatten_overlapComponents (records : List SampleRecord) :
    (overlapComponents records).flatten = List.range records.length := by
  rw [overlapComponents, ← List.map_flatten, flatten_overlapBlocks, List.zipIdx_map_snd,
    List.range_eq_range']

theorem SampleRecord.covers_iff {records : List SampleRecord} (h : Ranged records) {r : SampleRecord}
    (hr : r ∈ records) {row : ℤ} : r.Covers row ↔ r.start ≤ row ∧ row ≤ r.stop := by
  obtain ⟨start, stop, hstart, hstop⟩ := h.exists_range hr
  simp [SampleRecord.Covers, SampleRecord.start, SampleRecord.stop, hstart, hstop]

namespace OrderedRanges

variable {records : List SampleRecord} (h : OrderedRanges records)

include h

/-- Two inclusive ranges share a row exactly if they meet. -/
theorem exists_covers_iff {a b : SampleRecord} (ha : a ∈ records) (hb : b ∈ records) :
    (∃ row, a.Covers row ∧ b.Covers row) ↔
      Overlap SampleRecord.start SampleRecord.stop a b := by
  have hva := h.valid a ha
  have hvb := h.valid b hb
  constructor
  · rintro ⟨row, hrow, hrow'⟩
    rw [SampleRecord.covers_iff h.ranged ha] at hrow
    rw [SampleRecord.covers_iff h.ranged hb] at hrow'
    exact ⟨hrow.1.trans hrow'.2, hrow'.1.trans hrow.2⟩
  · rintro ⟨hab, hba⟩
    refine ⟨max a.start b.start, ?_, ?_⟩
    · rw [SampleRecord.covers_iff h.ranged ha]
      exact ⟨le_max_left _ _, max_le hva hba⟩
    · rw [SampleRecord.covers_iff h.ranged hb]
      exact ⟨le_max_right _ _, max_le hab hvb⟩

theorem swept : Swept (fun p : SampleRecord × ℕ ↦ p.1.start) (fun p ↦ p.1.stop) records.zipIdx
    (sweepBack (fun p : SampleRecord × ℕ ↦ p.1.start) (fun p ↦ p.1.stop) records.zipIdx) := by
  refine swept_sweepBack ?_ fun p hp ↦ ?_
  · have hmap : (records.zipIdx.map Prod.fst).Pairwise fun a b ↦ a.start ≤ b.start := by
      rw [List.zipIdx_map_fst]
      exact h.sorted
    rw [List.pairwise_map] at hmap
    exact hmap
  · exact h.valid p.1 (List.mem_of_getElem? (List.mem_zipIdx_iff_getElem?.1 hp))

/-- Chains of positions are chains of records with their positions. -/
theorem reflTransGen_overlapIn_iff {p : SampleRecord × ℕ} (hp : p ∈ records.zipIdx) {j : ℕ} :
    ReflTransGen (OverlapAt records) p.2 j ↔ ∃ r, (r, j) ∈ records.zipIdx ∧
      ReflTransGen (OverlapIn (fun p ↦ p.1.start) (fun p ↦ p.1.stop) records.zipIdx) p (r, j) := by
  constructor
  · intro hchain
    induction hchain with
    | refl => exact ⟨p.1, hp, .refl⟩
    | @tail i j _ hstep ih =>
      obtain ⟨r, hr, hchain⟩ := ih
      obtain ⟨a, b, ha, hb, hrow⟩ := hstep
      obtain rfl : r = a := Option.some.inj ((List.mem_zipIdx_iff_getElem?.1 hr).symm.trans ha)
      have hb' : (b, j) ∈ records.zipIdx := List.mem_zipIdx_iff_getElem?.2 hb
      refine ⟨b, hb', hchain.tail ⟨hr, hb', ?_⟩⟩
      exact (h.exists_covers_iff (List.mem_of_getElem? ha) (List.mem_of_getElem? hb)).1 hrow
  · rintro ⟨r, -, hchain⟩
    refine ReflTransGen.lift (p := OverlapAt records) Prod.snd (fun q q' hstep ↦ ?_) p (r, j) hchain
    obtain ⟨hq, hq', hover⟩ := hstep
    have ha := List.mem_zipIdx_iff_getElem?.1 hq
    have hb := List.mem_zipIdx_iff_getElem?.1 hq'
    exact ⟨q.1, q'.1, ha, hb,
      (h.exists_covers_iff (List.mem_of_getElem? ha) (List.mem_of_getElem? hb)).2 hover⟩

/-- **The blocks are the connected components.** -/
theorem isComponents :
    IsComponents records.length (OverlapAt records) (overlapComponents records) := by
  have hswept := h.swept
  refine ⟨?_, fun c hc ↦ ?_, fun c hc i hi j ↦ ?_⟩
  · exact flatten_overlapComponents records
  · obtain ⟨b, hb, rfl⟩ := List.mem_map.1 hc
    exact fun hnil ↦ hswept.nonempty b (List.mem_reverse.1 hb) (List.map_eq_nil_iff.1 hnil)
  · obtain ⟨b, hb, rfl⟩ := List.mem_map.1 hc
    have hb' := List.mem_reverse.1 hb
    obtain ⟨p, hp, rfl⟩ := List.mem_map.1 hi
    have hpz : p ∈ records.zipIdx := hswept.mem.2 ⟨b, hb', hp⟩
    rw [h.reflTransGen_overlapIn_iff hpz, List.mem_map]
    constructor
    · rintro ⟨q, hq, rfl⟩
      exact ⟨q.1, hswept.mem.2 ⟨b, hb', hq⟩, (hswept.mem_iff hb' hp).1 hq⟩
    · rintro ⟨r, -, hchain⟩
      exact ⟨(r, j), (hswept.mem_iff hb' hp).2 hchain, rfl⟩

end OrderedRanges

/-! ## Ids and splits of components -/

/-- The first rows of the samples of a component. -/
def startsOf (records : List SampleRecord) (c : List ℕ) : Set ℤ :=
  {x | ∃ i ∈ c, ∃ r, records[i]? = some r ∧ r.sourceRowStart = some x}

/-- The last rows of the samples of a component. -/
def stopsOf (records : List SampleRecord) (c : List ℕ) : Set ℤ :=
  {x | ∃ i ∈ c, ∃ r, records[i]? = some r ∧ r.sourceRowEnd = some x}

/-- No two ranges from a start to an end in these records get one id. -/
def CollisionFree (sha256 : String → Sha256Digest) (transformedSha256 : String)
    (records : List SampleRecord) : Prop :=
  ∀ a ∈ records, ∀ b ∈ records, ∀ a' ∈ records, ∀ b' ∈ records,
    computeGroupId sha256 transformedSha256 a.start b.stop
      = computeGroupId sha256 transformedSha256 a'.start b'.stop → a.start = a'.start ∧ b.stop = b'.stop

/-- The ranges of the samples, each with the split of its position. -/
def rangesWithSplits (records : List SampleRecord) (splitOf : ℕ → Split) : List (ℤ × ℤ × Split) :=
  records.zipIdx.map fun p ↦ (p.1.start, p.1.stop, splitOf p.2)

/-- The id of a block. -/
def blockId (sha256 : String → Sha256Digest) (transformedSha256 : String)
    (b : List (SampleRecord × ℕ)) : String :=
  computeGroupId sha256 transformedSha256 (blockStart (b.map Prod.fst)) (blockStop (b.map Prod.fst))

theorem getElem?_map_fst_of_mem {β : Type} {n : ℕ} {l : List (β × ℕ)}
    (h : l.map Prod.snd = List.range n) {p : β × ℕ} (hp : p ∈ l) :
    (l.map Prod.fst)[p.2]? = some p.1 := by
  obtain ⟨k, hk, rfl⟩ := List.getElem_of_mem hp
  have hget := congrArg (fun l ↦ l[k]?) h
  have hlen : k < n := by
    have := congrArg List.length h
    rw [List.length_map, List.length_range] at this
    omega
  simp only [List.getElem?_map, List.getElem?_eq_getElem hk, Option.map_some,
    List.getElem?_range hlen, Option.some.injEq] at hget
  rw [hget, List.getElem?_map, List.getElem?_eq_getElem hk, Option.map_some]

theorem sweep_records (records : List SampleRecord) :
    sweep SampleRecord.start SampleRecord.stop records
      = (overlapBlocks records).map (List.map Prod.fst) := by
  conv_lhs => rw [← List.zipIdx_map_fst 0 records]
  rw [sweep_map]
  rfl

theorem labelGroups_eq (sha256 : String → Sha256Digest) (transformedSha256 : String)
    {records : List SampleRecord} (h : Ranged records) :
    labelGroups sha256 transformedSha256 (overlapGroups records)
      = (overlapBlocks records).flatMap fun b ↦
          b.map fun p ↦ (p.1, blockId sha256 transformedSha256 b) := by
  rw [labelGroups, overlapGroups_eq h, ← List.map_reverse]
  change ((sweep SampleRecord.start SampleRecord.stop records).map groupOf).flatMap _ = _
  rw [sweep_records, List.map_map, List.flatMap_map]
  refine List.flatMap_congr fun b _ ↦ ?_
  simp only [Function.comp, OpenGroup.flush, groupOf, List.map_map]
  rfl

/-- The label at a position of a block. -/
theorem getElem?_labelGroups (sha256 : String → Sha256Digest) (transformedSha256 : String)
    {records : List SampleRecord} (h : Ranged records) {b : List (SampleRecord × ℕ)}
    (hb : b ∈ overlapBlocks records) {p : SampleRecord × ℕ} (hp : p ∈ b) :
    (labelGroups sha256 transformedSha256 (overlapGroups records))[p.2]?
      = some (p.1, blockId sha256 transformedSha256 b) := by
  rw [labelGroups_eq sha256 transformedSha256 h]
  have hsnd : ((overlapBlocks records).flatMap fun b ↦
      b.map fun p ↦ ((p.1, blockId sha256 transformedSha256 b), p.2)).map Prod.snd
        = List.range records.length := by
    rw [← flatten_overlapComponents, List.map_flatMap, overlapComponents, ← List.flatMap_def]
    exact List.flatMap_congr fun b _ ↦ by rw [List.map_map]; rfl
  have hfst : ((overlapBlocks records).flatMap fun b ↦
      b.map fun p ↦ ((p.1, blockId sha256 transformedSha256 b), p.2)).map Prod.fst
        = (overlapBlocks records).flatMap fun b ↦
            b.map fun p ↦ (p.1, blockId sha256 transformedSha256 b) := by
    rw [List.map_flatMap]
    exact List.flatMap_congr fun b _ ↦ by rw [List.map_map]; rfl
  rw [← hfst]
  exact getElem?_map_fst_of_mem (p := ((p.1, blockId sha256 transformedSha256 b), p.2)) hsnd
    (List.mem_flatMap.2 ⟨b, hb, List.mem_map_of_mem hp⟩)

theorem SampleRecord.sourceRow_eq {records : List SampleRecord} (h : Ranged records) {r : SampleRecord}
    (hr : r ∈ records) : r.sourceRowStart = some r.start ∧ r.sourceRowEnd = some r.stop := by
  obtain ⟨start, stop, hstart, hstop⟩ := h.exists_range hr
  simp [SampleRecord.start, SampleRecord.stop, hstart, hstop]

section Blocks

variable {records : List SampleRecord} {b : List (SampleRecord × ℕ)}

theorem getElem?_of_mem_block (hb : b ∈ overlapBlocks records) {p : SampleRecord × ℕ} (hp : p ∈ b) :
    records[p.2]? = some p.1 := by
  refine List.mem_zipIdx_iff_getElem?.1 ?_
  rw [← flatten_overlapBlocks]
  exact List.mem_flatten.2 ⟨b, hb, hp⟩

theorem mem_startsOf_block (h : Ranged records) (hb : b ∈ overlapBlocks records) {x : ℤ} :
    x ∈ startsOf records (b.map Prod.snd) ↔ ∃ p ∈ b, p.1.start = x := by
  constructor
  · rintro ⟨i, hi, r, hr, hstart⟩
    obtain ⟨p, hp, rfl⟩ := List.mem_map.1 hi
    obtain rfl : p.1 = r := Option.some.inj ((getElem?_of_mem_block hb hp).symm.trans hr)
    rw [(SampleRecord.sourceRow_eq h (List.mem_of_getElem? hr)).1] at hstart
    exact ⟨p, hp, Option.some.inj hstart⟩
  · rintro ⟨p, hp, rfl⟩
    have hget := getElem?_of_mem_block hb hp
    exact ⟨p.2, List.mem_map_of_mem hp, p.1, hget,
      (SampleRecord.sourceRow_eq h (List.mem_of_getElem? hget)).1⟩

theorem mem_stopsOf_block (h : Ranged records) (hb : b ∈ overlapBlocks records) {x : ℤ} :
    x ∈ stopsOf records (b.map Prod.snd) ↔ ∃ p ∈ b, p.1.stop = x := by
  constructor
  · rintro ⟨i, hi, r, hr, hstop⟩
    obtain ⟨p, hp, rfl⟩ := List.mem_map.1 hi
    obtain rfl : p.1 = r := Option.some.inj ((getElem?_of_mem_block hb hp).symm.trans hr)
    rw [(SampleRecord.sourceRow_eq h (List.mem_of_getElem? hr)).2] at hstop
    exact ⟨p, hp, Option.some.inj hstop⟩
  · rintro ⟨p, hp, rfl⟩
    have hget := getElem?_of_mem_block hb hp
    exact ⟨p.2, List.mem_map_of_mem hp, p.1, hget,
      (SampleRecord.sourceRow_eq h (List.mem_of_getElem? hget)).2⟩

theorem isLeast_blockStart (h : OrderedRanges records) (hb : b ∈ overlapBlocks records) :
    IsLeast (startsOf records (b.map Prod.snd)) (blockStart (b.map Prod.fst)) := by
  obtain ⟨p, rest, rfl⟩ := List.exists_cons_of_ne_nil (h.swept.nonempty b (List.mem_reverse.1 hb))
  refine ⟨(mem_startsOf_block h.ranged hb).2 ⟨p, List.mem_cons_self, rfl⟩, fun x hx ↦ ?_⟩
  obtain ⟨q, hq, rfl⟩ := (mem_startsOf_block h.ranged hb).1 hx
  have hsub : (p :: rest).Sublist records.zipIdx := by
    rw [← flatten_overlapBlocks]
    exact List.sublist_flatten_of_mem hb
  have hsorted : (records.zipIdx.map Prod.fst).Pairwise fun a b ↦ a.start ≤ b.start := by
    rw [List.zipIdx_map_fst]
    exact h.sorted
  rw [List.pairwise_map] at hsorted
  rcases List.mem_cons.1 hq with rfl | hq
  · exact le_rfl
  · exact (List.pairwise_cons.1 (hsorted.sublist hsub)).1 q hq

theorem isGreatest_blockStop (h : OrderedRanges records) (hb : b ∈ overlapBlocks records) :
    IsGreatest (stopsOf records (b.map Prod.snd)) (blockStop (b.map Prod.fst)) := by
  have hne : b.map Prod.fst ≠ [] := fun hnil ↦
    h.swept.nonempty b (List.mem_reverse.1 hb) (List.map_eq_nil_iff.1 hnil)
  obtain ⟨⟨r, hr, hattained⟩, hbound⟩ := blockStop_spec hne
  obtain ⟨p, hp, rfl⟩ := List.mem_map.1 hr
  refine ⟨(mem_stopsOf_block h.ranged hb).2 ⟨p, hp, hattained⟩, fun x hx ↦ ?_⟩
  obtain ⟨q, hq, rfl⟩ := (mem_stopsOf_block h.ranged hb).1 hx
  exact hbound q.1 (List.mem_map_of_mem hq)

end Blocks

/-! ## Grouping and audit agree -/

variable {records : List SampleRecord}

/-- The audit counts the components that carry more than one split. -/
theorem countCrossSplitOverlaps_rangesWithSplits (records : List SampleRecord) (splitOf : ℕ → Split) :
    countCrossSplitOverlaps (rangesWithSplits records splitOf)
      = (overlapComponents records).countP fun c ↦ ∃ i ∈ c, ∃ j ∈ c, splitOf i ≠ splitOf j := by
  rw [countCrossSplitOverlaps_eq, rangesWithSplits, sweep_map, List.countP_map, overlapComponents,
    List.countP_map]
  refine List.countP_congr fun b _ ↦ ?_
  rw [Function.comp_apply, Function.comp_apply, decide_eq_true_iff, decide_eq_true_iff]
  constructor
  · rintro ⟨_, hx, _, hy, hne⟩
    obtain ⟨p, hp, rfl⟩ := List.mem_map.1 hx
    obtain ⟨q, hq, rfl⟩ := List.mem_map.1 hy
    exact ⟨p.2, List.mem_map_of_mem hp, q.2, List.mem_map_of_mem hq, hne⟩
  · rintro ⟨_, hi, _, hj, hne⟩
    obtain ⟨p, hp, rfl⟩ := List.mem_map.1 hi
    obtain ⟨q, hq, rfl⟩ := List.mem_map.1 hj
    exact ⟨_, List.mem_map_of_mem hp, _, List.mem_map_of_mem hq, hne⟩

/-- It is zero exactly if no two overlapping samples are in different splits. -/
theorem countP_components_eq_zero_iff {n : ℕ} {r : ℕ → ℕ → Prop} {components : List (List ℕ)}
    (h : IsComponents n r components) (hr : ∀ i j, r i j → i < n) (splitOf : ℕ → Split) :
    (components.countP fun c ↦ ∃ i ∈ c, ∃ j ∈ c, splitOf i ≠ splitOf j) = 0 ↔
      ∀ i j, r i j → splitOf i = splitOf j := by
  simp only [List.countP_eq_zero, decide_eq_true_eq, not_exists, not_and, not_not]
  constructor
  · intro hsame i j hij
    have hi : i ∈ components.flatten := by
      rw [h.flatten]
      exact List.mem_range.2 (hr i j hij)
    obtain ⟨c, hc, hic⟩ := List.mem_flatten.1 hi
    exact hsame c hc i hic j ((h.mem_iff c hc i hic j).2 (.single hij))
  · intro hsame c hc i hi j hj
    induction (h.mem_iff c hc i hi j).1 hj with
    | refl => rfl
    | @tail k l hik hkl ih =>
      exact (ih ((h.mem_iff c hc i hi k).2 hik)).trans (hsame k l hkl)

theorem OverlapAt.lt_length {i j : ℕ} (h : OverlapAt records i j) : i < records.length := by
  obtain ⟨a, -, ha, -⟩ := h
  exact (List.getElem?_eq_some_iff.1 ha).1

/-- Blocks with one id start at the same row, so they are one block. -/
theorem OrderedRanges.mem_of_blockId_eq {sha256 : String → Sha256Digest} {transformedSha256 : String}
    (h : OrderedRanges records) (hfree : CollisionFree sha256 transformedSha256 records)
    {b b' : List (SampleRecord × ℕ)} (hb : b ∈ overlapBlocks records) (hb' : b' ∈ overlapBlocks records)
    (hid : blockId sha256 transformedSha256 b = blockId sha256 transformedSha256 b')
    {p : SampleRecord × ℕ} (hp : p ∈ b') : p.2 ∈ b.map Prod.snd := by
  have hcomponents := h.isComponents
  obtain ⟨q, hq, hqstart⟩ := (mem_startsOf_block h.ranged hb).1 (isLeast_blockStart h hb).1
  obtain ⟨q', hq', hqstart'⟩ := (mem_startsOf_block h.ranged hb').1 (isLeast_blockStart h hb').1
  obtain ⟨s, hs, hsstop⟩ := (mem_stopsOf_block h.ranged hb).1 (isGreatest_blockStop h hb).1
  obtain ⟨s', hs', hsstop'⟩ := (mem_stopsOf_block h.ranged hb').1 (isGreatest_blockStop h hb').1
  have hget := getElem?_of_mem_block hb hq
  have hget' := getElem?_of_mem_block hb' hq'
  rw [blockId, blockId, ← hqstart, ← hqstart', ← hsstop, ← hsstop'] at hid
  obtain ⟨hstart, -⟩ := hfree q.1 (List.mem_of_getElem? hget) s.1
    (List.mem_of_getElem? (getElem?_of_mem_block hb hs)) q'.1 (List.mem_of_getElem? hget') s'.1
    (List.mem_of_getElem? (getElem?_of_mem_block hb' hs')) hid
  have hover : OverlapAt records q.2 q'.2 := by
    refine ⟨q.1, q'.1, hget, hget', (h.exists_covers_iff (List.mem_of_getElem? hget)
      (List.mem_of_getElem? hget')).2 ⟨?_, ?_⟩⟩
    · rw [hstart]
      exact h.valid q'.1 (List.mem_of_getElem? hget')
    · rw [← hstart]
      exact h.valid q.1 (List.mem_of_getElem? hget)
  have hrest : ReflTransGen (OverlapAt records) q'.2 p.2 :=
    (hcomponents.mem_iff (b'.map Prod.snd) (List.mem_map_of_mem hb') q'.2 (List.mem_map_of_mem hq')
      p.2).1 (List.mem_map_of_mem hp)
  exact (hcomponents.mem_iff (b.map Prod.snd) (List.mem_map_of_mem hb) q.2 (List.mem_map_of_mem hq)
    p.2).2 (.head hover hrest)

/-- **Groups are connected components, and the audit agrees.** Records in the order of their starts get
ids component by component, each computed from the exact extent of its component, so with a
collision-free hash two samples share an id exactly if a chain of overlapping samples connects them.
For every assignment of splits the audit counts the components that carry more than one. -/
theorem grouping_exact (sha256 : String → Sha256Digest) (transformedSha256 : String)
    (h : OrderedRanges records) :
    ∃ components grouped, IsComponents records.length (OverlapAt records) components ∧
      assignSourceOverlapGroups sha256 transformedSha256 records = .ok grouped ∧
      (∀ c ∈ components, ∃ lo hi, IsLeast (startsOf records c) lo ∧ IsGreatest (stopsOf records c) hi ∧
        ∀ i ∈ c, ∃ r, records[i]? = some r ∧
          grouped[i]? = some (r, computeGroupId sha256 transformedSha256 lo hi)) ∧
      (CollisionFree sha256 transformedSha256 records →
        ∀ i < records.length, ∀ j < records.length,
          (grouped[i]?.map Prod.snd = grouped[j]?.map Prod.snd ↔
            ReflTransGen (OverlapAt records) i j)) ∧
      ∀ splitOf : ℕ → Split,
        countCrossSplitOverlaps (rangesWithSplits records splitOf)
            = (components.countP fun c ↦ ∃ i ∈ c, ∃ j ∈ c, splitOf i ≠ splitOf j) ∧
          (countCrossSplitOverlaps (rangesWithSplits records splitOf) = 0 ↔
            ∀ i j, OverlapAt records i j → splitOf i = splitOf j) := by
  have hcomponents := h.isComponents
  refine ⟨overlapComponents records, _, hcomponents, assignSourceOverlapGroups_eq h.ranged,
    fun c hc ↦ ?_, fun hfree i hi j hj ↦ ?_, fun splitOf ↦ ?_⟩
  · obtain ⟨b, hb, rfl⟩ := List.mem_map.1 hc
    refine ⟨_, _, isLeast_blockStart h hb, isGreatest_blockStop h hb, fun i hi ↦ ?_⟩
    obtain ⟨p, hp, rfl⟩ := List.mem_map.1 hi
    exact ⟨p.1, getElem?_of_mem_block hb hp,
      getElem?_labelGroups sha256 transformedSha256 h.ranged hb hp⟩
  -- every sample is in a block, and equal ids mean equal extents, hence equal blocks
  · have hblock : ∀ k < records.length, ∃ b ∈ overlapBlocks records, ∃ p ∈ b, p.2 = k := by
      intro k hk
      have hmem : k ∈ (overlapComponents records).flatten := by
        rw [flatten_overlapComponents]
        exact List.mem_range.2 hk
      obtain ⟨c, hc, hkc⟩ := List.mem_flatten.1 hmem
      obtain ⟨b, hb, rfl⟩ := List.mem_map.1 hc
      obtain ⟨p, hp, hpk⟩ := List.mem_map.1 hkc
      exact ⟨b, hb, p, hp, hpk⟩
    obtain ⟨b, hb, p, hp, rfl⟩ := hblock i hi
    obtain ⟨b', hb', p', hp', rfl⟩ := hblock j hj
    rw [getElem?_labelGroups sha256 transformedSha256 h.ranged hb hp,
      getElem?_labelGroups sha256 transformedSha256 h.ranged hb' hp', Option.map_some,
      Option.map_some, Option.some.injEq]
    have hconnected := hcomponents.mem_iff (b.map Prod.snd) (List.mem_map_of_mem hb) p.2
      (List.mem_map_of_mem hp) p'.2
    rw [← hconnected]
    refine ⟨fun hid ↦ h.mem_of_blockId_eq hfree hb hb' hid hp', fun hmem ↦ ?_⟩
    obtain ⟨q, hq, hqp⟩ := List.mem_map.1 hmem
    have hlabel := getElem?_labelGroups sha256 transformedSha256 h.ranged hb hq
    rw [hqp, getElem?_labelGroups sha256 transformedSha256 h.ranged hb' hp'] at hlabel
    exact (congrArg Prod.snd (Option.some.inj hlabel)).symm
  · have hcount := countCrossSplitOverlaps_rangesWithSplits records splitOf
    refine ⟨hcount, ?_⟩
    rw [hcount]
    exact countP_components_eq_zero_iff hcomponents (fun i j hij ↦ hij.lt_length) splitOf

/-- Two overlapping windows and one apart from them. -/
def threeWindows : List SampleRecord :=
  [⟨0, "a", some 0, some 19⟩, ⟨1, "b", some 10, some 29⟩, ⟨2, "c", some 40, some 59⟩]

/-- A digest that spells out a short text. -/
def spelledDigest (s : String) : Sha256Digest := digestOfHex (s.pushn '0' (64 - s.length))

theorem grouping_exact_three_windows :
    CollisionFree spelledDigest "" threeWindows ∧
      ∃ components, IsComponents 3 (OverlapAt threeWindows) components ∧ ∀ splitOf : ℕ → Split,
        countCrossSplitOverlaps (rangesWithSplits threeWindows splitOf)
          = components.countP fun c ↦ ∃ i ∈ c, ∃ j ∈ c, splitOf i ≠ splitOf j := by
  have hordered : OrderedRanges threeWindows :=
    ⟨by unfold Ranged; decide, by decide, by decide⟩
  obtain ⟨components, -, hcomponents, -, -, -, hcount⟩ :=
    grouping_exact spelledDigest "" hordered
  exact ⟨by unfold CollisionFree; decide +kernel, components, hcomponents, fun splitOf ↦ (hcount splitOf).1⟩

end ForgeData
