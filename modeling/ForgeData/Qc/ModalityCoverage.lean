import ForgeData.Qc.Statistics

/-!
# Window coverage of modalities

The part of `app/qc/metrics.py` that collects how much of each window a modality covers, and the summary
that `app/qc/service.py` makes of it. The coverage values are kept up to the cap that the percentile
buffers have, and unlike for these nothing records that there were more. So the summary is that of all
samples exactly as long as no modality has more values than the cap.
-/

namespace ForgeData

namespace Qc

open Python

/-! ## The collector -/

/-- The order in which a set of strings is iterated; it differs from process to process. -/
structure SetOrder where
  order : List Str → List Str
  perm : ∀ names, (order names).Perm names.dedup

section Definitions

variable {R : Type}

/-- A coverage, which is an `int` or a `float` as the sample has it. -/
inductive Coverage (R : Type) where
  | int (n : ℤ)
  | float (x : R)
deriving DecidableEq

/-- `ModalityAccumulator`. -/
structure ModalityAccumulator (R : Type) where
  presentCount : ℕ := 0
  coverageValues : List (Coverage R) := []

/-- `ModalityAccumulator.observe`. -/
def ModalityAccumulator.observe (a : ModalityAccumulator R) (present : Bool)
    (coverageRatio : Option (Coverage R)) (maxValues : ℕ) : ModalityAccumulator R where
  presentCount := if present then a.presentCount + 1 else a.presentCount
  coverageValues := match coverageRatio with
    | none => a.coverageValues
    | some ratio =>
      if a.coverageValues.length < maxValues then a.coverageValues ++ [ratio] else a.coverageValues

/-- What `coverage_stats` returns. -/
structure CoverageStats (R : Type) where
  mean : Option R
  median : Option R
  min : Option R
  max : Option R
deriving DecidableEq

/-- The float that an integer becomes where it is compared, added or reported. -/
def Coverage.toFloat [PyFloat R] : Coverage R → R
  | int n => PyFloat.ofInt n
  | float x => x

/-- `coverage_stats`, of the values that were kept. -/
def coverageStats [PyFloat R] (coverageValues : List (Coverage R)) : CoverageStats R :=
  if coverageValues.isEmpty then ⟨none, none, none, none⟩
  else
    let ordered := sortedValues (coverageValues.map Coverage.toFloat)
    let n := ordered.length
    let mid := n / 2
    { mean := some (ordered.foldl (· + ·) (PyFloat.ofInt 0) / PyFloat.ofInt n)
      median :=
        if n % 2 = 1 then ordered[mid]?
        else do
          let below ← ordered[mid - 1]?
          let above ← ordered[mid]?
          return (below + above) / PyFloat.ofInt 2
      min := ordered.head?
      max := ordered.getLast? }

/-- The fields of `DatasetMetrics` that describe modalities. -/
structure ModalityMetrics (R : Type) where
  sampleCount : ℕ := 0
  knownModalities : List Str := []
  modality : Dict Str (ModalityAccumulator R) := .empty

variable [StatFloat R]

/-- `sample.get(name) or {}`, used as a mapping; `none` is the exception of a value that is none. -/
def mappingOf (sample : Record R) (name : String) : Option (Dict Str (Value R)) :=
  match sample.get (Str.ofString name) with
  | .dict fields => some (.ofPairs fields)
  | v => if truthy v then none else some .empty

/-- A coverage that is a number, but no `bool`. -/
def coverageNumber : Value R → Option (Coverage R)
  | .int n => some (.int n)
  | .float x => some (.float x)
  | .none | .bool _ | .str _ | .list _ | .dict _ => none

/-- Whether a modality counts as present: what the mask says, or else that something is covered. -/
def presentIn (masked : Value R) (coverage : Option (Coverage R)) : Bool :=
  match masked, coverage with
  | .none, some (.int n) => 0 < n
  | .none, some (.float x) => PyFloat.ofInt 0 < x
  | .none, none => false
  | v, _ => truthy v

/-- The loop body of `_observe_modality`. -/
def observeModalityNamed (maxValues : ℕ) (mask coverage : Dict Str (Value R)) (m : ModalityMetrics R)
    (name : Str) : ModalityMetrics R :=
  let m := if m.modality.contains name then m else
    { m with
      modality := m.modality.set name {}
      knownModalities := m.knownModalities ++ [name] }
  let ratio := coverageNumber (coverage.getD name .none)
  let present := presentIn (mask.getD name .none) ratio
  { m with modality := m.modality.modify name (·.observe present ratio maxValues) }

/-- `_observe_modality`, for the next sample. -/
def observeModality (set : SetOrder) (maxValues : ℕ) (m : ModalityMetrics R) (sample : Record R) :
    Option (ModalityMetrics R) := do
  let mask ← mappingOf sample "modality_mask"
  let coverage ← mappingOf sample "modality_coverage"
  return (set.order (mask.keys ++ coverage.keys)).foldl (observeModalityNamed maxValues mask coverage)
    { m with sampleCount := m.sampleCount + 1 }

/-- The modalities of all samples; `none` is an exception. -/
def collectModalities (set : SetOrder) (maxValues : ℕ) (samples : List (Record R)) :
    Option (ModalityMetrics R) :=
  samples.foldlM (observeModality set maxValues) {}

/-- `ModalityCoverageSummary`. -/
structure ModalityCoverageSummary (R : Type) where
  samplesPresent : ℕ
  coverageRatio : R
  meanWindowCoverage : Option R
  medianWindowCoverage : Option R
  minimumWindowCoverage : Option R
  maximumWindowCoverage : Option R
deriving DecidableEq

/-- The summary of one modality. -/
def ModalityAccumulator.summary (a : ModalityAccumulator R) (sampleCount : ℕ) :
    ModalityCoverageSummary R :=
  let stats := coverageStats a.coverageValues
  { samplesPresent := a.presentCount
    coverageRatio :=
      if sampleCount ≠ 0 then PyFloat.ofInt a.presentCount / PyFloat.ofInt sampleCount
      else PyFloat.ofInt 0
    meanWindowCoverage := stats.mean
    medianWindowCoverage := stats.median
    minimumWindowCoverage := stats.min
    maximumWindowCoverage := stats.max }

/-- `modality_summary` of the report. -/
def modalitySummary (m : ModalityMetrics R) : Dict Str (ModalityCoverageSummary R) :=
  .ofPairs (m.knownModalities.filterMap fun name ↦
    (m.modality.get? name).map fun a ↦ (name, a.summary m.sampleCount))

end Definitions

/-! ## What a sample says about a modality -/

variable {R : Type} [StatFloat R]

/-- The coverage that a sample carries for a modality. -/
def coverageAt (name : Str) (sample : Record R) : Option (Coverage R) :=
  (mappingOf sample "modality_coverage").bind fun coverage ↦
    coverageNumber (coverage.getD name .none)

/-- The coverage values of all samples that carry one. -/
def coverageValuesOf (name : Str) (samples : List (Record R)) : List (Coverage R) :=
  samples.filterMap (coverageAt name)

/-- The accumulators hold the values of the samples, as many as fit; a modality without an accumulator
has none. -/
structure HoldsCoverage (maxValues : ℕ) (samples : List (Record R)) (m : ModalityMetrics R) : Prop where
  known : m.knownModalities = m.modality.keys
  values : ∀ name, (m.modality.getD name {}).coverageValues =
    (coverageValuesOf name samples).take maxValues
  absent : ∀ name, name ∉ m.modality.keys → coverageValuesOf name samples = []

/-! ## One modality of a sample -/

section Step

variable (maxValues : ℕ) (mask coverage : Dict Str (Value R))

omit [StatFloat R] in
theorem keys_set_of_contains {m : Dict Str (ModalityAccumulator R)} {name : Str}
    (h : m.contains name = false) : (m.set name {}).keys = m.keys ++ [name] := by
  have hkey : name ∉ m.keys := by
    rw [← Dict.get?_eq_none_iff]
    exact Option.isNone_iff_eq_none.mp (Option.isSome_eq_false_iff.mp h)
  rw [Dict.keys_set, if_neg hkey]

theorem getD_observeModalityNamed (m : ModalityMetrics R) (name name' : Str) :
    (observeModalityNamed maxValues mask coverage m name).modality.getD name' {} =
      if name' = name then (m.modality.getD name {}).observe
        (presentIn (mask.getD name .none) (coverageNumber (coverage.getD name .none)))
        (coverageNumber (coverage.getD name .none)) maxValues
      else m.modality.getD name' {} := by
  rw [observeModalityNamed]
  dsimp only
  rw [Dict.getD, Dict.get?_modify]
  by_cases hname : name' = name
  · subst hname
    rw [if_pos rfl, if_pos rfl]
    by_cases hknown : m.modality.contains name' = true
    · rw [if_pos hknown]
      obtain ⟨a, ha⟩ := Option.isSome_iff_exists.mp hknown
      have hget : m.modality.getD name' {} = a := by rw [Dict.getD, ha]; rfl
      rw [ha, hget]
      rfl
    · rw [if_neg hknown]
      have hnone : m.modality.get? name' = none := by
        rw [← Option.not_isSome_iff_eq_none]
        exact hknown
      have hget : m.modality.getD name' {} = {} := by rw [Dict.getD, hnone]; rfl
      rw [Dict.get?_set_self, hget]
      rfl
  · rw [if_neg hname, if_neg hname, Dict.getD]
    split
    · rfl
    · rw [Dict.get?_set_of_ne _ hname]

theorem keys_observeModalityNamed (m : ModalityMetrics R) (name : Str) :
    (m.knownModalities = m.modality.keys →
      (observeModalityNamed maxValues mask coverage m name).knownModalities =
        (observeModalityNamed maxValues mask coverage m name).modality.keys) ∧
      ∀ name', name' ∈ (observeModalityNamed maxValues mask coverage m name).modality.keys ↔
        name' ∈ m.modality.keys ∨ name' = name := by
  rw [observeModalityNamed]
  dsimp only
  rw [Dict.keys_modify]
  by_cases hknown : m.modality.contains name = true
  · rw [if_pos hknown]
    have hkey : name ∈ m.modality.keys := Dict.mem_keys_iff.mpr (Option.isSome_iff_exists.mp hknown)
    exact ⟨id, fun name' ↦ ⟨.inl, fun h ↦ h.elim id fun heq ↦ heq ▸ hkey⟩⟩
  · rw [if_neg hknown]
    dsimp only
    rw [keys_set_of_contains (Bool.eq_false_of_not_eq_true hknown)]
    exact ⟨fun h ↦ by rw [h], fun name' ↦ by rw [List.mem_append, List.mem_singleton]⟩

/-! ## All modalities of a sample -/

/-- Every modality is observed once, whatever the order. -/
theorem getD_foldl_observeModalityNamed {names : List Str} (hnodup : names.Nodup)
    (m : ModalityMetrics R) (name' : Str) :
    (names.foldl (observeModalityNamed maxValues mask coverage) m).modality.getD name' {} =
      if name' ∈ names then (m.modality.getD name' {}).observe
        (presentIn (mask.getD name' .none) (coverageNumber (coverage.getD name' .none)))
        (coverageNumber (coverage.getD name' .none)) maxValues
      else m.modality.getD name' {} := by
  induction names generalizing m with
  | nil => rw [if_neg List.not_mem_nil]; rfl
  | cons name names ih =>
    obtain ⟨hname, hnodup'⟩ := List.nodup_cons.mp hnodup
    rw [List.foldl_cons, ih hnodup', getD_observeModalityNamed]
    by_cases heq : name' = name
    · subst heq
      rw [if_neg hname, if_pos rfl, if_pos List.mem_cons_self]
    · rw [if_neg heq]
      simp only [List.mem_cons, heq, false_or]

theorem keys_foldl_observeModalityNamed (names : List Str) (m : ModalityMetrics R) :
    (m.knownModalities = m.modality.keys →
      (names.foldl (observeModalityNamed maxValues mask coverage) m).knownModalities =
        (names.foldl (observeModalityNamed maxValues mask coverage) m).modality.keys) ∧
      ∀ name', name' ∈ (names.foldl (observeModalityNamed maxValues mask coverage) m).modality.keys ↔
        name' ∈ m.modality.keys ∨ name' ∈ names := by
  induction names generalizing m with
  | nil => exact ⟨id, fun name' ↦ by simp⟩
  | cons name names ih =>
    obtain ⟨hknown, hkeys⟩ :=
      keys_observeModalityNamed maxValues mask coverage m name
    obtain ⟨hknown', hkeys'⟩ := ih (observeModalityNamed maxValues mask coverage m name)
    refine ⟨fun h ↦ hknown' (hknown h), fun name' ↦ ?_⟩
    rw [List.foldl_cons, hkeys', hkeys, List.mem_cons, or_assoc]

end Step

/-! ## All samples -/

theorem coverageValuesOf_concat (name : Str) (samples : List (Record R)) (sample : Record R) :
    coverageValuesOf name (samples ++ [sample]) =
      coverageValuesOf name samples ++ (coverageAt name sample).toList := by
  rw [coverageValuesOf, List.filterMap_append]
  cases h : coverageAt name sample <;> simp [coverageValuesOf, h]

omit [StatFloat R] in
theorem coverageValues_observe {a : ModalityAccumulator R} {values : List (Coverage R)} {maxValues : ℕ}
    (h : a.coverageValues = values.take maxValues) (present : Bool) (ratio : Option (Coverage R)) :
    (a.observe present ratio maxValues).coverageValues =
      (values ++ ratio.toList).take maxValues := by
  cases ratio with
  | none =>
    rw [Option.toList_none, List.append_nil]
    exact h
  | some ratio =>
    rw [Option.toList_some, take_concat, ← h]
    rfl

/-- **The step lemma**: one more sample. -/
theorem HoldsCoverage.observeModality {set : SetOrder} {maxValues : ℕ} {samples : List (Record R)}
    {m m' : ModalityMetrics R} (h : HoldsCoverage maxValues samples m) {sample : Record R}
    (hstep : observeModality set maxValues m sample = some m') :
    HoldsCoverage maxValues (samples ++ [sample]) m' := by
  obtain ⟨mask, -, hstep⟩ := Option.bind_eq_some_iff.mp hstep
  obtain ⟨coverage, hcoverage, hstep⟩ := Option.bind_eq_some_iff.mp hstep
  obtain rfl := Option.some.inj hstep
  have hperm := set.perm (mask.keys ++ coverage.keys)
  have hnodup := hperm.nodup_iff.mpr (List.nodup_dedup _)
  have hat (name : Str) : coverageAt name sample = coverageNumber (coverage.getD name .none) := by
    rw [coverageAt, hcoverage, Option.bind_some]
  -- a modality that the sample does not name carries no coverage
  have hunnamed (name : Str) (hname : name ∉ set.order (mask.keys ++ coverage.keys)) :
      coverageAt name sample = none := by
    have hkey : name ∉ coverage.keys := fun hmem ↦
      hname (hperm.mem_iff.mpr (List.mem_dedup.mpr (List.mem_append_right _ hmem)))
    rw [hat, Dict.getD, Dict.get?_eq_none_iff.mpr hkey]
    rfl
  obtain ⟨hknown, hkeys⟩ := keys_foldl_observeModalityNamed maxValues mask coverage
    (set.order (mask.keys ++ coverage.keys))
    { m with sampleCount := m.sampleCount + 1 }
  refine ⟨hknown h.known, fun name ↦ ?_, fun name hname ↦ ?_⟩
  · rw [coverageValuesOf_concat, getD_foldl_observeModalityNamed _ _ _ hnodup]
    split
    · rw [hat]
      exact coverageValues_observe (h.values name) _ _
    · next hname =>
      rw [hunnamed name hname, Option.toList_none, List.append_nil]
      exact h.values name
  · rw [hkeys, not_or] at hname
    rw [coverageValuesOf_concat, hunnamed name hname.2, h.absent name hname.1]
    rfl

/-- **The run lemma.** -/
theorem holdsCoverage_collectModalities {set : SetOrder} {maxValues : ℕ} {samples : List (Record R)}
    {m : ModalityMetrics R} (h : collectModalities set maxValues samples = some m) :
    HoldsCoverage maxValues samples m := by
  induction samples using List.reverseRecOn generalizing m with
  | nil =>
    obtain rfl := Option.some.inj h
    exact ⟨rfl, fun name ↦ List.take_nil.symm, fun name _ ↦ rfl⟩
  | append_singleton samples sample ih =>
    rw [collectModalities, List.foldlM_append] at h
    obtain ⟨m₀, h₀, hlast⟩ := Option.bind_eq_some_iff.mp h
    rw [List.foldlM_cons] at hlast
    obtain ⟨m₁, h₁, hlast⟩ := Option.bind_eq_some_iff.mp hlast
    obtain rfl := Option.some.inj hlast
    exact (ih h₀).observeModality h₁

/-! ## The figures -/

/-- The value in the middle, or between the two, is the percentile at one half. -/
theorem median_eq {values : List ℚ} (hvalues : values ≠ []) :
    (if values.length % 2 = 1 then (sortedValues values)[values.length / 2]?
      else do
        let below ← (sortedValues values)[values.length / 2 - 1]?
        let above ← (sortedValues values)[values.length / 2]?
        return (below + above) / PyFloat.ofInt 2) =
      some (Statistics.percentile values (1 / 2)) := by
  have hpos := List.length_pos_iff.mpr hvalues
  split
  · next hodd =>
    obtain ⟨k, hk⟩ : ∃ k, values.length = 2 * k + 1 := ⟨values.length / 2, by omega⟩
    have hrank : (1 / 2 : ℚ) * ((values.length - 1 : ℕ) : ℚ) = (k : ℚ) := by
      rw [hk, Nat.add_sub_cancel, Nat.cast_mul, Nat.cast_ofNat]
      ring
    rw [getElem?_sortedValues (by omega), Statistics.percentile, hrank,
      Statistics.interpolate_natCast, hk, show (2 * k + 1) / 2 = k by omega]
  · next heven =>
    obtain ⟨k, hk⟩ : ∃ k, values.length = 2 * k + 2 := ⟨values.length / 2 - 1, by omega⟩
    have hrank : (1 / 2 : ℚ) * ((values.length - 1 : ℕ) : ℚ) = k + 1 / 2 := by
      rw [hk, show 2 * k + 2 - 1 = 2 * k + 1 by omega]
      push_cast
      ring
    have hfloor : ⌊(k + 1 / 2 : ℚ)⌋₊ = k := by
      rw [Nat.floor_eq_iff (by positivity)]
      constructor <;> linarith
    rw [getElem?_sortedValues (by omega), getElem?_sortedValues (by omega), Statistics.percentile,
      hrank, Statistics.interpolate, hfloor, hk, show (2 * k + 2) / 2 = k + 1 by omega,
      Nat.add_sub_cancel]
    change some ((_ + _) / (2 : ℚ)) = _
    congr 1
    ring

/-- **What the figures are**, of exact values: the mean, the median, the least and the largest. -/
theorem coverageStats_eq {coverageValues : List (Coverage ℚ)} (hne : coverageValues ≠ []) :
    ∃ least largest,
      IsLeast {x | x ∈ coverageValues.map Coverage.toFloat} least ∧
      IsGreatest {x | x ∈ coverageValues.map Coverage.toFloat} largest ∧
      coverageStats coverageValues =
        ⟨some (Statistics.mean (coverageValues.map Coverage.toFloat)),
          some (Statistics.percentile (coverageValues.map Coverage.toFloat) (1 / 2)),
          some least, some largest⟩ := by
  rw [coverageStats, if_neg (by rwa [List.isEmpty_iff])]
  have hvalues : coverageValues.map Coverage.toFloat ≠ [] := by rwa [Ne, List.map_eq_nil_iff]
  generalize coverageValues.map Coverage.toFloat = values at hvalues ⊢
  have hpos := List.length_pos_iff.mpr hvalues
  refine ⟨_, _, Statistics.isLeast_rankValue hvalues, Statistics.isGreatest_rankValue hvalues, ?_⟩
  have hmean : (sortedValues values).foldl (· + ·) (PyFloat.ofInt 0) / PyFloat.ofInt values.length =
      Statistics.mean values := by
    have hsum : (sortedValues values).foldl (· + ·) 0 = values.sum := by
      rw [← List.sum_eq_foldl, sortedValues_eq]
      exact (List.perm_insertionSort _ values).sum_eq
    exact congrArg (· / (values.length : ℚ)) hsum
  dsimp only
  rw [length_sortedValues, hmean, median_eq hvalues, List.head?_eq_getElem?,
    List.getLast?_eq_getElem?, length_sortedValues, getElem?_sortedValues hpos,
    getElem?_sortedValues (by omega)]

omit [StatFloat R] in
theorem filterMap_keys {β : Type} (d : Dict Str (ModalityAccumulator R))
    (f : Str → ModalityAccumulator R → β) :
    (d.keys.filterMap fun name ↦ (d.get? name).map (f name)) =
      d.items.map fun item ↦ f item.1 item.2 := by
  rw [Dict.keys, List.filterMap_map, ← List.filterMap_eq_map]
  refine List.filterMap_congr fun item hitem ↦ ?_
  rw [Function.comp_apply, Dict.get?_eq_some_iff.mpr hitem]
  rfl

/-- Every modality is reported, and with its own accumulator. -/
theorem get?_modalitySummary {m : ModalityMetrics R} (h : m.knownModalities = m.modality.keys)
    (name : Str) :
    (modalitySummary m).get? name = (m.modality.get? name).map (·.summary m.sampleCount) := by
  have hkeys : (m.modality.items.map fun item ↦ (item.1, item.2.summary m.sampleCount)).map Prod.fst =
      m.modality.keys := by
    rw [List.map_map]
    rfl
  rw [modalitySummary, h, filterMap_keys]
  cases ha : m.modality.get? name with
  | none =>
    rw [Option.map_none, Dict.get?_eq_none_iff, Dict.mem_keys_ofPairs, hkeys]
    exact Dict.get?_eq_none_iff.mp ha
  | some a =>
    refine Dict.get?_ofPairs ?_ (List.mem_map.mpr ⟨(name, a), Dict.get?_eq_some_iff.mp ha, rfl⟩)
    rw [hkeys]
    exact m.modality.keys_nodup

/-- The figures of a modality describe all samples: they are those of all values that samples carry for
it, and it is from all of these that they were computed. -/
def DescribesAll (samples : List (Record R)) (m : ModalityMetrics R) : Prop :=
  ∀ name s, (modalitySummary m).get? name = some s →
    (⟨s.meanWindowCoverage, s.medianWindowCoverage, s.minimumWindowCoverage,
      s.maximumWindowCoverage⟩ : CoverageStats R) = coverageStats (coverageValuesOf name samples) ∧
    (m.modality.getD name {}).coverageValues = coverageValuesOf name samples

/-- **The report covers all samples exactly when the cap was not reached.** It has no place for the
remark that more values were seen. -/
theorem modalityCoverage_describesAll_iff {set : SetOrder} {maxValues : ℕ} {samples : List (Record R)}
    {m : ModalityMetrics R} (h : collectModalities set maxValues samples = some m) :
    DescribesAll samples m ↔ ∀ name, (coverageValuesOf name samples).length ≤ maxValues := by
  have hholds := holdsCoverage_collectModalities h
  constructor
  · intro hall name
    rcases hvalues : coverageValuesOf name samples with _ | ⟨value, values⟩
    · exact Nat.zero_le _
    · have hkey : name ∈ m.modality.keys := by
        by_contra hkey
        rw [hholds.absent name hkey] at hvalues
        cases hvalues
      obtain ⟨a, ha⟩ := Dict.mem_keys_iff.mp hkey
      obtain ⟨-, hwhole⟩ := hall name (a.summary m.sampleCount) (by
        rw [get?_modalitySummary hholds.known, ha]
        rfl)
      rw [hholds.values name, hvalues] at hwhole
      rw [← hwhole]
      exact List.length_take_le _ _
  · intro hcap name s hs
    have hwhole := hholds.values name
    rw [List.take_of_length_le (hcap name)] at hwhole
    rw [get?_modalitySummary hholds.known, Option.map_eq_some_iff] at hs
    obtain ⟨a, ha, rfl⟩ := hs
    have hget : m.modality.getD name {} = a := by rw [Dict.getD, ha]; rfl
    refine ⟨?_, hwhole⟩
    rw [← hwhole, hget]
    rfl

/-- A set whose names come in the order of their last occurrences. -/
def SetOrder.dedup : SetOrder where
  order := List.dedup
  perm _ := .refl _

/-- A sample that carries a coverage for the modality `gps`. -/
def coveredSample (ratio : ℚ) : Record ℚ :=
  .ofPairs [(Str.ofString "modality_coverage", .dict [(Str.ofString "gps", .float ratio)])]

/-- With room for one value, the mean of two samples is that of the first, and so is the maximum. -/
theorem modalityCoverage_firstOfTwo : ∃ (m : ModalityMetrics ℚ) (s : ModalityCoverageSummary ℚ),
    collectModalities .dedup 1 [coveredSample (1 / 5), coveredSample (4 / 5)] = some m ∧
      (modalitySummary m).get? (Str.ofString "gps") = some s ∧
      coverageValuesOf (Str.ofString "gps") [coveredSample (1 / 5), coveredSample (4 / 5)] =
        [.float (1 / 5), .float (4 / 5)] ∧
      s.samplesPresent = 2 ∧ s.meanWindowCoverage = some (1 / 5) ∧
      s.maximumWindowCoverage = some (1 / 5) ∧ coverageStats [.float (1 / 5), .float (4 / 5)] =
        (⟨some (1 / 2), some (1 / 2), some (1 / 5), some (4 / 5)⟩ : CoverageStats ℚ) ∧
      ¬DescribesAll [coveredSample (1 / 5), coveredSample (4 / 5)] m := by
  refine ⟨_, _, rfl, rfl, ?_, ?_, ?_, ?_, ?_, fun hall ↦ ?_⟩
  · decide +kernel
  · decide +kernel
  · decide +kernel
  · decide +kernel
  · decide +kernel
  · exact absurd (hall (Str.ofString "gps") _ rfl).1 (by decide +kernel)

theorem modalityCoverage_describesAll_iff_roomForTwo : ∃ m : ModalityMetrics ℚ,
    collectModalities .dedup 2 [coveredSample (1 / 5), coveredSample (4 / 5)] = some m ∧
      DescribesAll [coveredSample (1 / 5), coveredSample (4 / 5)] m := by
  have hcollect : ∃ m,
      collectModalities .dedup 2 [coveredSample (1 / 5), coveredSample (4 / 5)] = some m := ⟨_, rfl⟩
  obtain ⟨m, hm⟩ := hcollect
  exact ⟨m, hm, (modalityCoverage_describesAll_iff hm).mpr fun name ↦ List.length_filterMap_le _ _⟩

end Qc

end ForgeData
