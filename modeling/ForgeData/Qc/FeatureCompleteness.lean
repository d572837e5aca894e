import ForgeData.Qc.FeatureCounts
import Mathlib.Algebra.Order.Field.Rat

/-!
# Feature completeness

`app/qc/checks/feature_completeness.py` and the issues it emits. The check goes through the features
that were discovered, not through those that have a threshold, so the threshold of a path that occurs in
no sample at all binds nothing.
-/

namespace ForgeData

namespace Qc

open Python

/-! ## Issues -/

/-- `Severity`. -/
inductive Severity where
  | warning
  | error
deriving DecidableEq, Repr

/-- The codes of the issues here, of `QCErrorCode`. -/
inductive QcErrorCode where
  | lowFeatureCompleteness
  | baselineIncompatible
  | featureDistributionDrift
deriving DecidableEq, Repr

/-- The texts of the issues, with what stands in them. -/
inductive QcMessage (R : Type) where
  /-- `f"Feature '{path}' is missing/null/non-finite in {missing_ratio:.4f} of samples, exceeding the
  configured maximum of {threshold}."` -/
  | missingExceedsMaximum (path : Str) (missingRatio threshold : R)
  /-- `f"Baseline profile {baseline_profile} does not match current profile {{'name': {current.name!r},
  'version': {current.version!r}}}."` -/
  | profilesDiffer (baseline : Option Str × Option Str) (current : Str × Str)
  /-- `f"Feature '{path}' drifted from baseline (standardized mean difference={smd})."` -/
  | drifted (path : Str) (smd : Option R)
deriving DecidableEq

/-- `QCIssue`. -/
structure QcIssue (R : Type) where
  code : QcErrorCode
  severity : Severity
  path : Option Str := none
  observed : Option R := none
  threshold : Option R := none
  message : QcMessage R
deriving DecidableEq

/-! ## The check -/

/-- `FeatureThresholdOverride`. -/
structure FeatureThresholdOverride (R : Type) where
  maximumMissingRatio : Option R := none
  severity : Option Severity := none

/-- `FeatureCompletenessConfig`. -/
structure FeatureCompletenessConfig (R : Type) where
  maximumMissingRatio : Option R := none
  severity : Severity := .warning
  perFeature : Dict Str (FeatureThresholdOverride R) := .empty

namespace FeatureCompletenessConfig

variable {R : Type} (fc : FeatureCompletenessConfig R) (path : Str)

/-- The threshold of a feature: that of its override, or else the general one. -/
def thresholdOf : Option R :=
  match fc.perFeature.get? path with
  | none => fc.maximumMissingRatio
  | some override => override.maximumMissingRatio.or fc.maximumMissingRatio

/-- The severity of a feature. -/
def severityOf : Severity :=
  match fc.perFeature.get? path with
  | none => fc.severity
  | some override => override.severity.getD fc.severity

end FeatureCompletenessConfig

variable {R : Type} [StatFloat R]

/-- `1.0 - present_count / total`. -/
def missingRatio (presentCount total : ℕ) : R :=
  PyFloat.ofInt 1 - PyFloat.ofInt presentCount / PyFloat.ofInt total

/-- The issue of a feature that is missing too often. -/
def completenessIssue (fc : FeatureCompletenessConfig R) (path : Str) (ratio threshold : R) :
    QcIssue R where
  code := .lowFeatureCompleteness
  severity := fc.severityOf path
  path := some path
  observed := some ratio
  threshold := some threshold
  message := .missingExceedsMaximum path ratio threshold

/-- One pass of the check: an issue, if the feature has a threshold and exceeds it. -/
def completenessIssue? (fc : FeatureCompletenessConfig R) (total : ℕ)
    (p : Str × FeatureAccumulator R) : Option (QcIssue R) :=
  match fc.thresholdOf p.1 with
  | none => none
  | some threshold =>
    let ratio := missingRatio p.2.presentCount total
    if threshold < ratio then some (completenessIssue fc p.1 ratio threshold) else none

/-- `FeatureCompletenessCheck.evaluate`. -/
def evaluateFeatureCompleteness (metrics : DatasetMetrics R)
    (featureCompleteness : Option (FeatureCompletenessConfig R)) : List (QcIssue R) :=
  match featureCompleteness with
  | none => []
  | some fc =>
    if metrics.sampleCount = 0 then []
    else metrics.featureAccumulators.items.filterMap (completenessIssue? fc metrics.sampleCount)

/-! ## Which thresholds bind -/

/-- The fraction of the samples that have no finite number under the path. -/
def missingFraction (samples : List (Record R)) (path : Str) : R :=
  missingRatio (samples.countP (finiteAt path)) samples.length

theorem missingFraction_rat {samples : List (Record ℚ)} (h : samples ≠ []) (path : Str) :
    missingFraction samples path
      = (samples.countP fun sample ↦ !finiteAt path sample : ℕ) / (samples.length : ℚ) := by
  have hsum : samples.length = samples.countP (finiteAt path)
      + samples.countP fun sample ↦ !finiteAt path sample := by
    rw [List.length_eq_countP_add_countP (finiteAt path)]
    exact congrArg _ (List.countP_congr fun sample _ ↦ by simp)
  have hlength : (samples.length : ℚ) ≠ 0 := by
    rw [Nat.cast_ne_zero]
    exact fun hnil ↦ h (List.length_eq_zero_iff.mp hnil)
  have hfraction : missingFraction samples path
      = 1 - (samples.countP (finiteAt path) : ℚ) / samples.length := rfl
  rw [hfraction, eq_div_iff hlength, sub_mul, div_mul_cancel₀ _ hlength, one_mul,
    sub_eq_iff_eq_add]
  exact_mod_cast hsum.trans (Nat.add_comm _ _)

/-- Nothing of the samples leaves all of them; floats and exact numbers obey this. -/
class LawfulRatio (R : Type) [PyFloat R] : Prop where
  one_sub_zero_div {n : ℕ} : 0 < n →
    (PyFloat.ofInt 1 - PyFloat.ofInt (0 : ℕ) / PyFloat.ofInt n : R) = PyFloat.ofInt 1

instance : LawfulRatio ℚ where
  one_sub_zero_div {n} _ := by
    change (1 : ℚ) - ((0 : ℕ) : ℤ) / n = 1
    rw [Nat.cast_zero, Int.cast_zero, zero_div, sub_zero]

/-- The issues of a path are those of its accumulator. -/
theorem exists_issue_iff {samples : List (Record R)} {metrics : DatasetMetrics R}
    (h : Collected samples metrics) (hsamples : samples ≠ []) {fc : FeatureCompletenessConfig R}
    {path : Str} {threshold : R} (hthreshold : fc.thresholdOf path = some threshold) :
    (∃ issue ∈ evaluateFeatureCompleteness metrics (some fc), issue.path = some path) ↔
      (∃ sample ∈ samples, occursAt path sample = true) ∧ threshold < missingFraction samples path := by
  have hcount : metrics.sampleCount ≠ 0 := by
    rw [h.count]
    exact fun hnil ↦ hsamples (List.length_eq_zero_iff.mp hnil)
  have hpath := h.accumulated path
  rw [evaluateFeatureCompleteness, if_neg hcount]
  constructor
  · rintro ⟨issue, hissue, hof⟩
    obtain ⟨p, hp, heq⟩ := List.mem_filterMap.mp hissue
    have hp' : p.1 = path ∧ threshold < missingRatio p.2.presentCount metrics.sampleCount := by
      rw [completenessIssue?] at heq
      split at heq
      · cases heq
      · next t ht =>
        dsimp only at heq
        split at heq
        · next hlt =>
          obtain rfl := Option.some.inj heq
          obtain rfl := Option.some.inj hof
          rw [hthreshold] at ht
          obtain rfl := Option.some.inj ht
          exact ⟨rfl, hlt⟩
        · cases heq
    obtain ⟨rfl, hlt⟩ := hp'
    rw [Dict.get?_eq_some_iff.mpr hp] at hpath
    refine ⟨hpath.2, ?_⟩
    rwa [missingFraction, ← hpath.1.present, ← h.count]
  · rintro ⟨⟨sample, hsample, hoccurs⟩, hlt⟩
    rcases hget : metrics.featureAccumulators.get? path with _ | a
    · rw [hget] at hpath
      rw [hpath sample hsample] at hoccurs
      cases hoccurs
    · rw [hget] at hpath
      rw [missingFraction, ← hpath.1.present, ← h.count] at hlt
      have hissue : completenessIssue? fc metrics.sampleCount (path, a) = some (completenessIssue fc
          path (missingRatio a.presentCount metrics.sampleCount) threshold) := by
        rw [completenessIssue?, hthreshold]
        exact if_pos hlt
      exact ⟨_, List.mem_filterMap.mpr ⟨(path, a), Dict.get?_eq_some_iff.mp hget, hissue⟩, rfl⟩

/-- **A threshold binds exactly if its path occurs.** Of the thresholds below one: the check emits an
issue for the path exactly if the fraction of the samples without a finite number there exceeds it, if
the path occurs in some sample. Where it occurs in none the fraction is one and there is no issue. -/
theorem threshold_binds_iff [LawfulRatio R] {maxValues : ℕ} {samples : List (Record R)}
    (hsamples : samples ≠ []) {metrics : DatasetMetrics R}
    (hmetrics : collectMetrics maxValues samples = .ok metrics) {fc : FeatureCompletenessConfig R}
    {path : Str} {override : FeatureThresholdOverride R}
    (hoverride : fc.perFeature.get? path = some override) {threshold : R}
    (hthreshold : override.maximumMissingRatio = some threshold) (hlt : threshold < PyFloat.ofInt 1) :
    ((∃ issue ∈ evaluateFeatureCompleteness metrics (some fc), issue.path = some path) ↔
        threshold < missingFraction samples path) ↔
      ∃ sample ∈ samples, occursAt path sample = true := by
  have hof : fc.thresholdOf path = some threshold := by
    rw [FeatureCompletenessConfig.thresholdOf, hoverride]
    dsimp only
    rw [hthreshold, Option.some_or]
  rw [exists_issue_iff (collected_collectMetrics hmetrics) hsamples hof]
  constructor
  · intro hbinds
    by_contra hnever
    refine hnever (hbinds.mpr ?_).1
    have hzero : samples.countP (finiteAt path) = 0 := by
      refine List.countP_eq_zero.mpr fun sample hsample hfinite ↦ hnever ⟨sample, hsample, ?_⟩
      by_contra hoccurs
      rw [(not_finiteAt_of_not_occursAt (Bool.eq_false_of_not_eq_true hoccurs)).1] at hfinite
      cases hfinite
    rw [missingFraction, hzero, missingRatio,
      LawfulRatio.one_sub_zero_div (List.length_pos_iff.mpr hsamples)]
    exact hlt
  · exact fun hoccurs ↦ and_iff_right hoccurs

/-- A sample with the mean speed of a window. -/
def speedSample : Record ℚ where
  items := [(Str.ofString "features",
    .dict [(Str.ofString "gps", .dict [(Str.ofString "speed", .float 1)])])]
  nodup := List.nodup_singleton _

/-- A sample without features. -/
def bareSample : Record ℚ where
  items := [(Str.ofString "features", .dict [])]
  nodup := List.nodup_singleton _

/-- The speed may be missing in a quarter of the samples. -/
def speedRequired : FeatureCompletenessConfig ℚ where
  perFeature := Dict.empty.set (Str.ofString "features.gps.speed") { maximumMissingRatio := some (1 / 4) }

/-- **A required feature that never occurs passes**: it is missing in all samples, without an issue. -/
theorem absent_feature_passes : ∃ metrics : DatasetMetrics ℚ,
    collectMetrics 100 [bareSample, bareSample] = .ok metrics ∧
      missingFraction [bareSample, bareSample] (Str.ofString "features.gps.speed") = 1 ∧
      speedRequired.thresholdOf (Str.ofString "features.gps.speed") = some (1 / 4) ∧
      evaluateFeatureCompleteness metrics (some speedRequired) = [] :=
  ⟨_, rfl, by decide +kernel, by decide +kernel, by decide +kernel⟩

theorem threshold_binds_iff_speed : ∃ metrics : DatasetMetrics ℚ,
    collectMetrics 100 [speedSample, bareSample] = .ok metrics ∧
      missingFraction [speedSample, bareSample] (Str.ofString "features.gps.speed") = 1 / 2 ∧
      ∃ issue ∈ evaluateFeatureCompleteness metrics (some speedRequired),
        issue.path = some (Str.ofString "features.gps.speed") := by
  have hfraction : missingFraction [speedSample, bareSample] (Str.ofString "features.gps.speed")
      = (1 / 2 : ℚ) := by decide +kernel
  have hcollect : ∃ metrics, collectMetrics 100 [speedSample, bareSample] = .ok metrics :=
    ⟨_, rfl⟩
  obtain ⟨metrics, hmetrics⟩ := hcollect
  refine ⟨metrics, hmetrics, hfraction, ?_⟩
  have hoccurs : ∃ sample ∈ [speedSample, bareSample],
      occursAt (Str.ofString "features.gps.speed") sample = true :=
    ⟨speedSample, List.mem_cons_self, by decide +kernel⟩
  have hoverride : speedRequired.perFeature.get? (Str.ofString "features.gps.speed")
      = some { maximumMissingRatio := some (1 / 4) } := Dict.get?_set_self _ _ _
  refine ((threshold_binds_iff (List.cons_ne_nil _ _) hmetrics hoverride rfl ?_).mpr hoccurs).mpr ?_
  · decide +kernel
  · rw [hfraction]
    decide +kernel

end Qc

end ForgeData
