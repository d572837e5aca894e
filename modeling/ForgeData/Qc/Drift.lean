import ForgeData.Qc.FeatureCompleteness

/-!
# Drift against a baseline

`app/qc/checks/drift.py`: the means of the current run against those of a baseline report, in units of
the baseline's spread. The loop goes through the features of the current run only, so a feature that the
baseline has and the current run has not leaves no entry.
-/

namespace ForgeData

namespace Qc

open Python

variable {R : Type}

/-! ## The comparison -/

/-- What is compared of a feature: its mean and its standard deviation, where there are any. -/
structure FeatureStats (R : Type) where
  mean : Option R
  std : Option R
deriving DecidableEq

/-- `DriftConfig`. -/
structure DriftConfig (R : Type) where
  enabled : Bool := false
  maxAbsStandardizedMeanDifference : R
  severity : Severity := .warning

inductive DriftReason where
  /-- `"missing_in_current"` -/
  | missingInCurrent
  /-- `"missing_in_baseline"` -/
  | missingInBaseline
  /-- `"baseline_std_zero_mean_shifted"` -/
  | baselineStdZeroMeanShifted
deriving DecidableEq, Repr

/-- `DriftFeatureResult`. -/
structure DriftFeatureResult (R : Type) where
  compared : Bool
  baselineMean : Option R := none
  baselineStd : Option R := none
  currentMean : Option R := none
  currentStd : Option R := none
  standardizedMeanDifference : Option R := none
  reason : Option DriftReason := none
deriving DecidableEq

/-- `DriftSummary`. -/
structure DriftSummary (R : Type) where
  baselineQcId : Str
  compatible : Bool
  features : Dict Str (DriftFeatureResult R)
  incompatibilityReason : Option (QcMessage R)

/-- The two sides of a comparison, each with the name and version of its profile. -/
structure DriftInput (R : Type) where
  currentFeatures : Dict Str (FeatureStats R)
  currentProfile : Str × Str
  baselineQcId : Str
  /-- `baseline_manifest.get("profile", {})`, whose fields may be absent. -/
  baselineProfile : Option Str × Option Str
  /-- `baseline_report.get("features", {})`. -/
  baselineFeatures : Dict Str (FeatureStats R)

variable [PyFloat R]

/-- `stats.get("std") or 0.0`. -/
def FeatureStats.spread (stats : FeatureStats R) : R :=
  match stats.std with
  | none => PyFloat.ofInt 0
  | some std => if floatEq std (PyFloat.ofInt 0) then PyFloat.ofInt 0 else std

/-- `_standardized_mean_difference`. -/
def standardizedMeanDifference (currentMean baselineMean baselineStd : R) :
    Option R × Option DriftReason :=
  if floatEq baselineStd (PyFloat.ofInt 0) then
    if floatEq currentMean baselineMean then (some (PyFloat.ofInt 0), none)
    else (none, some .baselineStdZeroMeanShifted)
  else (some ((currentMean - baselineMean) / baselineStd), none)

/-- Whether a compared feature has drifted. -/
def isDrifted (config : DriftConfig R) (smd : Option R) (reason : Option DriftReason) : Bool :=
  (match smd with
    | none => false
    | some smd => decide (config.maxAbsStandardizedMeanDifference < PyFloat.abs smd)) ||
    decide (reason = some .baselineStdZeroMeanShifted)

/-- The issue of a feature that has drifted. -/
def driftIssue (config : DriftConfig R) (path : Str) (smd : Option R) : QcIssue R where
  code := .featureDistributionDrift
  severity := config.severity
  path := some path
  observed := smd
  threshold := some config.maxAbsStandardizedMeanDifference
  message := .drifted path smd

/-- One pass of the loop: the entry of a feature and its issue, if it has one. -/
def driftFeature (baselineFeatures : Dict Str (FeatureStats R)) (driftConfig : Option (DriftConfig R))
    (p : Str × FeatureStats R) : DriftFeatureResult R × List (QcIssue R) :=
  match p.2.mean with
  | none => ({ compared := false, reason := some .missingInCurrent }, [])
  | some currentMean =>
    match baselineFeatures.get? p.1 with
    | none => ({ compared := false, reason := some .missingInBaseline }, [])
    | some baselineStats =>
      match baselineStats.mean with
      | none => ({ compared := false, reason := some .missingInBaseline }, [])
      | some baselineMean =>
        let baselineStd := baselineStats.spread
        let (smd, reason) := standardizedMeanDifference currentMean baselineMean baselineStd
        ({ compared := true, baselineMean := some baselineMean, baselineStd := some baselineStd,
           currentMean := some currentMean, currentStd := p.2.std, standardizedMeanDifference := smd,
           reason := reason },
          match driftConfig with
          | none => []
          | some config =>
            if config.enabled && isDrifted config smd reason then [driftIssue config p.1 smd] else [])

/-- The baseline was made with the same profile. -/
def DriftInput.compatible (input : DriftInput R) : Bool :=
  input.baselineProfile = (some input.currentProfile.1, some input.currentProfile.2)

/-- `evaluate_drift`. -/
def evaluateDrift (input : DriftInput R) (driftConfig : Option (DriftConfig R)) :
    DriftSummary R × List (QcIssue R) :=
  let reason := .profilesDiffer input.baselineProfile input.currentProfile
  let incompatible : List (QcIssue R) := if input.compatible then [] else
    [{ code := .baselineIncompatible, severity := .warning, message := reason }]
  let (features, issues) := input.currentFeatures.items.foldl (fun s p ↦
    let (result, issues) := driftFeature input.baselineFeatures driftConfig p
    (s.1.set p.1 result, s.2 ++ issues)) (Dict.empty, incompatible)
  ({ baselineQcId := input.baselineQcId, compatible := input.compatible, features := features,
     incompatibilityReason := if input.compatible then none else some reason }, issues)

/-! ## The loop -/

theorem foldl_set_append {α β ν : Type} {f : α → Str × ν} {g : α → List β} {l : List α}
    (d : Dict Str ν) (bs : List β) :
    l.foldl (fun s a ↦ (s.1.set (f a).1 (f a).2, s.2 ++ g a)) (d, bs)
      = ((l.map f).foldl (fun d p ↦ d.set p.1 p.2) d, bs ++ l.flatMap g) := by
  induction l generalizing d bs with
  | nil => simp
  | cons a l ih =>
    rw [List.foldl_cons, ih, List.map_cons, List.foldl_cons, List.flatMap_cons, List.append_assoc]

section Loop

variable (input : DriftInput R) (driftConfig : Option (DriftConfig R))

/-- The entry of a feature, under its path. -/
def driftEntry (p : Str × FeatureStats R) : Str × DriftFeatureResult R :=
  (p.1, (driftFeature input.baselineFeatures driftConfig p).1)

/-- The issue about the profiles. -/
def incompatibleIssues : List (QcIssue R) :=
  if input.compatible then [] else
    [{ code := .baselineIncompatible, severity := .warning,
       message := .profilesDiffer input.baselineProfile input.currentProfile }]

theorem evaluateDrift_eq : (evaluateDrift input driftConfig).1.features
      = .ofPairs (input.currentFeatures.items.map (driftEntry input driftConfig)) ∧
    (evaluateDrift input driftConfig).2 = incompatibleIssues input ++
      input.currentFeatures.items.flatMap fun p ↦
        (driftFeature input.baselineFeatures driftConfig p).2 := by
  have hloop := foldl_set_append (f := driftEntry input driftConfig)
    (g := fun p ↦ (driftFeature input.baselineFeatures driftConfig p).2)
    (l := input.currentFeatures.items) .empty (incompatibleIssues input)
  exact ⟨congrArg Prod.fst hloop, congrArg Prod.snd hloop⟩

theorem get?_features (path : Str) : (evaluateDrift input driftConfig).1.features.get? path
    = (input.currentFeatures.get? path).map fun stats ↦
        (driftFeature input.baselineFeatures driftConfig (path, stats)).1 := by
  have hkeys : (input.currentFeatures.items.map (driftEntry input driftConfig)).map Prod.fst
      = input.currentFeatures.keys := by
    rw [List.map_map]
    rfl
  have hnodup := input.currentFeatures.nodup
  rw [← Dict.keys, ← hkeys] at hnodup
  rw [(evaluateDrift_eq input driftConfig).1]
  rcases hget : input.currentFeatures.get? path with _ | stats
  · rw [Option.map_none, Dict.get?_eq_none_iff, Dict.mem_keys_ofPairs, hkeys]
    exact Dict.get?_eq_none_iff.mp hget
  · exact Dict.get?_ofPairs hnodup
      (List.mem_map_of_mem (f := driftEntry input driftConfig) (Dict.get?_eq_some_iff.mp hget))

/-! ## What the result accounts for -/

/-- The feature has a mean on both sides; where the baseline has no spread it is zero. -/
def Comparable (path : Str) (currentMean baselineMean baselineStd : R) : Prop :=
  ∃ current baseline, input.currentFeatures.get? path = some current ∧
    current.mean = some currentMean ∧ input.baselineFeatures.get? path = some baseline ∧
    baseline.mean = some baselineMean ∧ baseline.spread = baselineStd

/-- There is an issue about the drift of the feature. -/
def Flagged (issues : List (QcIssue R)) (path : Str) : Prop :=
  ∃ issue ∈ issues, issue.code = .featureDistributionDrift ∧ issue.path = some path

/-- The result accounts for every feature of either side. -/
structure Accounts (result : DriftSummary R × List (QcIssue R)) : Prop where
  /-- There is an entry for every feature of either side, and for no other. -/
  entries : ∀ path, path ∈ result.1.features.keys ↔
    path ∈ input.currentFeatures.keys ∨ path ∈ input.baselineFeatures.keys
  /-- Without a mean on both sides a feature is not compared, and a reason is given. -/
  notCompared : ∀ path entry, result.1.features.get? path = some entry →
    (¬∃ currentMean baselineMean baselineStd,
      Comparable input path currentMean baselineMean baselineStd) →
    entry.compared = false ∧ entry.reason.isSome
  /-- With means on both sides it is, in units of the spread if there is any. -/
  compared : ∀ path entry, result.1.features.get? path = some entry →
    ∀ currentMean baselineMean baselineStd,
      Comparable input path currentMean baselineMean baselineStd →
      entry.compared = true ∧ (floatEq baselineStd (PyFloat.ofInt 0) = false →
        entry.standardizedMeanDifference = some ((currentMean - baselineMean) / baselineStd))
  /-- Of the compared features exactly those that have drifted are flagged. -/
  flagged : ∀ config, driftConfig = some config → config.enabled = true →
    ∀ path entry, result.1.features.get? path = some entry →
    ∀ currentMean baselineMean baselineStd,
      Comparable input path currentMean baselineMean baselineStd →
      (Flagged result.2 path ↔
        (∃ smd, entry.standardizedMeanDifference = some smd ∧
          config.maxAbsStandardizedMeanDifference < PyFloat.abs smd) ∨
        floatEq baselineStd (PyFloat.ofInt 0) = true ∧ floatEq currentMean baselineMean = false)

variable {input driftConfig}

/-- The entry of a feature that can be compared. -/
theorem driftFeature_of_comparable {path : Str} {stats : FeatureStats R}
    (hstats : input.currentFeatures.get? path = some stats)
    {currentMean baselineMean baselineStd : R}
    (h : Comparable input path currentMean baselineMean baselineStd) :
    driftFeature input.baselineFeatures driftConfig (path, stats) =
      ({ compared := true, baselineMean := some baselineMean, baselineStd := some baselineStd,
         currentMean := some currentMean, currentStd := stats.std,
         standardizedMeanDifference :=
           (standardizedMeanDifference currentMean baselineMean baselineStd).1,
         reason := (standardizedMeanDifference currentMean baselineMean baselineStd).2 },
        match driftConfig with
        | none => []
        | some config =>
          if config.enabled && isDrifted config
              (standardizedMeanDifference currentMean baselineMean baselineStd).1
              (standardizedMeanDifference currentMean baselineMean baselineStd).2 then
            [driftIssue config path (standardizedMeanDifference currentMean baselineMean baselineStd).1]
          else []) := by
  obtain ⟨current, baseline, hcurrent, hcurrentMean, hbaseline, hbaselineMean, rfl⟩ := h
  rw [hstats, Option.some.injEq] at hcurrent
  subst hcurrent
  simp only [driftFeature, hcurrentMean, hbaseline, hbaselineMean]

theorem driftFeature_of_not_comparable {path : Str} {stats : FeatureStats R}
    (hstats : input.currentFeatures.get? path = some stats)
    (h : ¬∃ currentMean baselineMean baselineStd,
      Comparable input path currentMean baselineMean baselineStd) :
    (driftFeature input.baselineFeatures driftConfig (path, stats)).1.compared = false ∧
      (driftFeature input.baselineFeatures driftConfig (path, stats)).1.reason.isSome := by
  rw [driftFeature]
  rcases hcurrentMean : stats.mean with _ | currentMean
  · exact ⟨rfl, rfl⟩
  · rcases hbaseline : input.baselineFeatures.get? path with _ | baseline
    · exact ⟨rfl, rfl⟩
    · rcases hbaselineMean : baseline.mean with _ | baselineMean
      · simp [hbaselineMean]
      · exact absurd ⟨currentMean, baselineMean, _, stats, baseline, hstats, hcurrentMean, hbaseline,
          hbaselineMean, rfl⟩ h

/-- A feature has one issue at most, which names it. -/
theorem driftFeature_issues (baselineFeatures : Dict Str (FeatureStats R))
    (driftConfig : Option (DriftConfig R)) (p : Str × FeatureStats R) :
    (driftFeature baselineFeatures driftConfig p).2 = [] ∨
      ∃ config smd, (driftFeature baselineFeatures driftConfig p).2 = [driftIssue config p.1 smd] := by
  rw [driftFeature]
  rcases p.2.mean with _ | currentMean
  · exact .inl rfl
  rcases baselineFeatures.get? p.1 with _ | baseline
  · exact .inl rfl
  rcases hmean : baseline.mean with _ | baselineMean
  · simp [hmean]
  simp only [hmean]
  rcases driftConfig with _ | config
  · exact .inl rfl
  · dsimp only
    split
    · exact .inr ⟨config, _, rfl⟩
    · exact .inl rfl

theorem flagged_driftFeature_iff {baselineFeatures : Dict Str (FeatureStats R)}
    {p : Str × FeatureStats R} {path : Str} :
    Flagged (driftFeature baselineFeatures driftConfig p).2 path ↔
      p.1 = path ∧ (driftFeature baselineFeatures driftConfig p).2 ≠ [] := by
  rcases driftFeature_issues baselineFeatures driftConfig p with hnil | ⟨config, smd, heq⟩
  · rw [hnil]
    exact ⟨fun ⟨_, hmem, _⟩ ↦ absurd hmem List.not_mem_nil, fun h ↦ absurd rfl h.2⟩
  · rw [heq]
    constructor
    · rintro ⟨issue, hissue, -, hpath⟩
      obtain rfl := List.mem_singleton.mp hissue
      exact ⟨Option.some.inj hpath, List.cons_ne_nil _ _⟩
    · rintro ⟨rfl, -⟩
      exact ⟨_, List.mem_singleton_self _, rfl, rfl⟩

/-- What is flagged is flagged in the pass of its feature. -/
theorem flagged_evaluateDrift_iff {path : Str} :
    Flagged (evaluateDrift input driftConfig).2 path ↔
      ∃ stats, input.currentFeatures.get? path = some stats ∧
        (driftFeature input.baselineFeatures driftConfig (path, stats)).2 ≠ [] := by
  rw [(evaluateDrift_eq input driftConfig).2]
  constructor
  · rintro ⟨issue, hissue, hcode, hpath⟩
    rcases List.mem_append.mp hissue with hmem | hmem
    · rw [incompatibleIssues] at hmem
      split at hmem
      · exact absurd hmem List.not_mem_nil
      · obtain rfl := List.mem_singleton.mp hmem
        cases hcode
    · obtain ⟨p, hp, hmem⟩ := List.mem_flatMap.mp hmem
      obtain ⟨rfl, hne⟩ := flagged_driftFeature_iff.mp ⟨issue, hmem, hcode, hpath⟩
      exact ⟨p.2, Dict.get?_eq_some_iff.mpr hp, hne⟩
  · rintro ⟨stats, hstats, hne⟩
    obtain ⟨issue, hmem, hissue⟩ := flagged_driftFeature_iff.mpr ⟨rfl, hne⟩
    exact ⟨issue, List.mem_append_right _ (List.mem_flatMap.mpr
      ⟨_, Dict.get?_eq_some_iff.mp hstats, hmem⟩), hissue⟩

theorem isDrifted_iff {config : DriftConfig R} {currentMean baselineMean baselineStd : R} :
    isDrifted config (standardizedMeanDifference currentMean baselineMean baselineStd).1
        (standardizedMeanDifference currentMean baselineMean baselineStd).2 = true ↔
      (∃ smd, (standardizedMeanDifference currentMean baselineMean baselineStd).1 = some smd ∧
        config.maxAbsStandardizedMeanDifference < PyFloat.abs smd) ∨
      floatEq baselineStd (PyFloat.ofInt 0) = true ∧ floatEq currentMean baselineMean = false := by
  rw [standardizedMeanDifference]
  cases floatEq baselineStd (PyFloat.ofInt 0) with
  | true => cases floatEq currentMean baselineMean <;> simp [isDrifted]
  | false => simp [isDrifted]

/-- **Drift accounts for a feature of the baseline exactly if the current run has it too.** The features
of the current run are all entered, compared and flagged as they should be; those that only the baseline
has are lost. -/
theorem drift_accounts_iff (input : DriftInput R) (driftConfig : Option (DriftConfig R)) :
    Accounts input driftConfig (evaluateDrift input driftConfig) ↔
      ∀ path ∈ input.baselineFeatures.keys, path ∈ input.currentFeatures.keys := by
  have hkeys : ∀ path, path ∈ (evaluateDrift input driftConfig).1.features.keys ↔
      path ∈ input.currentFeatures.keys := by
    intro path
    rw [Dict.mem_keys_iff, Dict.mem_keys_iff, get?_features]
    simp only [Option.map_eq_some_iff]
    exact ⟨fun ⟨_, stats, hstats, _⟩ ↦ ⟨stats, hstats⟩, fun ⟨stats, hstats⟩ ↦ ⟨_, stats, hstats, rfl⟩⟩
  constructor
  · intro h path hpath
    exact (hkeys path).mp ((h.entries path).mpr (.inr hpath))
  · intro h
    refine ⟨fun path ↦ ?_, fun path entry hentry ↦ ?_, fun path entry hentry ↦ ?_,
      fun config hconfig henabled path entry hentry ↦ ?_⟩
    · rw [hkeys]
      exact ⟨.inl, fun hpath ↦ hpath.elim id (h path)⟩
    all_goals
      rw [get?_features, Option.map_eq_some_iff] at hentry
      obtain ⟨stats, hstats, rfl⟩ := hentry
    · exact driftFeature_of_not_comparable hstats
    · intro currentMean baselineMean baselineStd hcomparable
      rw [driftFeature_of_comparable hstats hcomparable]
      refine ⟨rfl, fun hspread ↦ ?_⟩
      rw [standardizedMeanDifference, hspread]
      rfl
    · intro currentMean baselineMean baselineStd hcomparable
      have hflagged : Flagged (evaluateDrift input driftConfig).2 path ↔
          isDrifted config (standardizedMeanDifference currentMean baselineMean baselineStd).1
            (standardizedMeanDifference currentMean baselineMean baselineStd).2 = true := by
        rw [flagged_evaluateDrift_iff]
        simp only [hstats, Option.some.injEq, exists_eq_left']
        rw [driftFeature_of_comparable hstats hcomparable, hconfig]
        simp only [henabled, Bool.true_and, ne_eq, ite_eq_right_iff, List.cons_ne_nil, imp_false,
          not_not]
      rw [hflagged, isDrifted_iff, driftFeature_of_comparable hstats hcomparable]

end Loop

/-- The baseline has a speed, the current run has no features. -/
def lostSpeed : DriftInput ℚ where
  currentFeatures := .empty
  currentProfile := (Str.ofString "default_dataset_qc", Str.ofString "1.0.0")
  baselineQcId := Str.ofString "qc_baseline"
  baselineProfile := (some (Str.ofString "default_dataset_qc"), some (Str.ofString "1.0.0"))
  baselineFeatures := Dict.empty.set (Str.ofString "features.gps.speed") ⟨some 1, some 1⟩

/-- **A feature that disappears leaves no entry**, and no issue although drift is checked. -/
theorem lost_feature_without_entry :
    Str.ofString "features.gps.speed" ∈ lostSpeed.baselineFeatures.keys ∧
      (evaluateDrift lostSpeed (some ⟨true, 1, .warning⟩)).1.features.keys = [] ∧
      (evaluateDrift lostSpeed (some ⟨true, 1, .warning⟩)).2 = [] ∧
      ¬Accounts lostSpeed (some ⟨true, 1, .warning⟩)
        (evaluateDrift lostSpeed (some ⟨true, 1, .warning⟩)) := by
  have hkey : Str.ofString "features.gps.speed" ∈ lostSpeed.baselineFeatures.keys := by
    decide +kernel
  have hkeys : (evaluateDrift lostSpeed (some ⟨true, 1, .warning⟩)).1.features.keys = [] := by
    decide +kernel
  refine ⟨hkey, hkeys, by decide +kernel, fun h ↦ ?_⟩
  have hentry := (h.entries (Str.ofString "features.gps.speed")).mpr (.inr hkey)
  rw [hkeys] at hentry
  exact List.not_mem_nil hentry

end Qc

end ForgeData
