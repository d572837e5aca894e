import ForgeData.Packaging.Splitter

/-!
# Packaging profiles

A profile says which strategies, grouping modes and export formats a request may name, and checks
the requested ratios, before any sample is read.
-/

namespace ForgeData

open Python

variable {R : Type} [PyFloat R]

/-- The configuration of a packaging request. -/
structure PackagingConfig (R : Type) where
  split : SplitConfig R
  groupingMode : String := "source_overlap"
  exports : List String := ["jsonl"]

structure PackagingProfile where
  profileName : String
  profileVersion : String
  supportedSplitStrategies : List String
  supportedGroupingModes : List String
  supportedExportFormats : List String

def defaultMlPackage : PackagingProfile where
  profileName := "default_ml_package"
  profileVersion := "1.0.0"
  supportedSplitStrategies := ["group_hash", "sequential"]
  supportedGroupingModes := ["source_overlap", "session"]
  supportedExportFormats := ["jsonl", "parquet"]

/-- The message of a negative ratio, or of a train ratio that is zero, or of ratios that do not sum
to 1; `none` when the ratios are accepted. A comparison with NaN is false, so NaN is accepted. -/
def invalidRatios (split : SplitConfig R) : Option String :=
  let zero : R := PyFloat.ofInt 0
  if split.trainRatio < zero then some "train_ratio must not be negative"
  else if split.validationRatio < zero then some "validation_ratio must not be negative"
  else if split.testRatio < zero then some "test_ratio must not be negative"
  else if split.trainRatio ≤ zero then some "train_ratio must be > 0"
  else
    let total := split.trainRatio + split.validationRatio + split.testRatio
    if PyFloat.ofDecimal 1 6 < PyFloat.abs (total - PyFloat.ofInt 1) then
      some s!"train_ratio + validation_ratio + test_ratio must sum to 1.0 (within 1e-06); got {PyFloat.toText total}"
    else none

def PackagingProfile.validateConfig (profile : PackagingProfile) (config : PackagingConfig R) :
    Except PackagingError Unit :=
  if config.split.strategy ∉ profile.supportedSplitStrategies then
    .error (.unsupportedSplitStrategy s!"Unsupported split strategy '{config.split.strategy}'")
  else if config.groupingMode ∉ profile.supportedGroupingModes then
    .error (.unsupportedGroupingMode s!"Unsupported grouping mode '{config.groupingMode}'")
  else
    match config.exports.find? (· ∉ profile.supportedExportFormats) with
    | some fmt => .error (.unsupportedExportFormat s!"Unsupported export format '{fmt}'")
    | none =>
      match invalidRatios config.split with
      | some message => .error (.invalidSplitRatios message)
      | none => .ok ()

theorem strategy_of_validateConfig {config : PackagingConfig R} {u : Unit}
    (h : defaultMlPackage.validateConfig config = .ok u) :
    config.split.strategy = "group_hash" ∨ config.split.strategy = "sequential" := by
  rw [PackagingProfile.validateConfig] at h
  split at h
  · cases h
  · next hmem => simpa [defaultMlPackage, or_iff_not_imp_left] using hmem

end ForgeData
