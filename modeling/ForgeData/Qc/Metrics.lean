import ForgeData.Python.Float
import ForgeData.Python.JsonEncoder
import Mathlib.Data.List.Lex
import Mathlib.Order.Fin.Basic

/-!
# Dataset metrics

`app/qc/selectors.py`, `app/qc/accumulator.py` and `app/qc/metrics.py`: the scalar features of a
transformed sample under their dotted paths, the accumulator of a feature, and the collector that sees
one sample after the other. An accumulator is made when its path is first seen, with all samples before
it as missing.

`observe_sample` and `_collect_metrics` stand here for their part that concerns features. The observers
of sample ids, windows and modalities run before it, write other fields of the metrics, and may raise on
a sample of another shape; that of modalities is in `ModalityCoverage`.
-/

namespace ForgeData

namespace Qc

open Python

/-- What the statistics ask of floats besides their arithmetic. -/
class StatFloat (R : Type) extends PyFloat R where
  /-- `float(n)`; `none` is `OverflowError`. -/
  float? : ℤ → Option R
  /-- `math.isfinite(x)`. -/
  isFinite : R → Bool

instance : StatFloat ℚ where
  float? n := some n
  isFinite _ := true

/-- `x == y` of floats: each is at most the other. NaN is not equal to itself. -/
def floatEq {R : Type} [PyFloat R] (x y : R) : Bool := decide (x ≤ y) && decide (y ≤ x)

/-- What Python raises on a sample of another shape, or on an integer beyond the floats. -/
inductive QcError where
  | attributeError
  | overflowError
deriving DecidableEq, Repr

/-! ## Scalar features -/

/-- What is yielded under a path: a number, or an explicit null. -/
inductive FeatureValue (R : Type) where
  | null
  | int (n : ℤ)
  | float (x : R)
deriving DecidableEq

section Selectors

variable {R : Type}

/-- `f"{prefix}.{key}"`. -/
def childPath (path key : Str) : Str := path ++ CodePoint.ofChar '.' :: key

mutual

/-- `iter_scalar_feature_paths`, from a value under a path on. -/
def scalarPaths (path : Str) : Value R → List (Str × FeatureValue R)
  | .dict fields => ((scalarPathsFields path fields).insertionSort (·.1 ≤ ·.1)).flatMap Prod.snd
  | .bool _ => []
  | .int n => [(path, .int n)]
  | .float x => [(path, .float x)]
  | .none => [(path, .null)]
  | .list _ | .str _ => []

/-- The keys of an object, each with what it yields. -/
def scalarPathsFields (path : Str) :
    List (Str × Value R) → List (Str × List (Str × FeatureValue R))
  | [] => []
  | (key, v) :: fields => (key, scalarPaths (childPath path key) v) :: scalarPathsFields path fields

end

/-- `discover_scalar_feature_paths`. -/
def discoverScalarFeaturePaths (features : List (Str × Value R)) : Dict Str (FeatureValue R) :=
  .ofPairs (scalarPaths (Str.ofString "features") (.dict features))

end Selectors

variable {R : Type} [StatFloat R]

/-- `bool(v)`. -/
def truthy : Value R → Bool
  | .none => false
  | .bool b => b
  | .int n => n ≠ 0
  | .float x => !floatEq x (PyFloat.ofInt 0)
  | .str s => s ≠ []
  | .list l => !l.isEmpty
  | .dict fields => !fields.isEmpty

/-- The features of a sample, `sample.get("features") or {}`, with their paths. -/
def discover (sample : Record R) : Except QcError (Dict Str (FeatureValue R)) :=
  match sample.get (Str.ofString "features") with
  | .dict fields => .ok (discoverScalarFeaturePaths fields)
  | v => if truthy v then .error .attributeError else .ok (discoverScalarFeaturePaths [])

/-! ## Accumulators -/

/-- `WelfordAccumulator`. -/
structure WelfordAccumulator (R : Type) where
  count : ℕ
  mean : R
  m2 : R
  min : Option R
  max : Option R

/-- `WelfordAccumulator()`. -/
def WelfordAccumulator.new : WelfordAccumulator R := ⟨0, PyFloat.ofInt 0, PyFloat.ofInt 0, none, none⟩

/-- `WelfordAccumulator.update`. -/
def WelfordAccumulator.update (w : WelfordAccumulator R) (value : R) : WelfordAccumulator R :=
  let count := w.count + 1
  let delta := value - w.mean
  let mean := w.mean + delta / PyFloat.ofInt count
  let delta2 := value - mean
  { count := count
    mean := mean
    m2 := w.m2 + delta * delta2
    min := some (match w.min with
      | none => value
      | some least => if value < least then value else least)
    max := some (match w.max with
      | none => value
      | some largest => if largest < value then value else largest) }

/-- `PercentileBuffer`. -/
structure PercentileBuffer (R : Type) where
  maxValues : ℕ
  values : List R := []
  truncated : Bool := false

/-- `PercentileBuffer.add`. -/
def PercentileBuffer.add (b : PercentileBuffer R) (value : R) : PercentileBuffer R :=
  if b.values.length < b.maxValues then { b with values := b.values ++ [value] }
  else { b with truncated := true }

/-- `FeatureAccumulator`. -/
structure FeatureAccumulator (R : Type) where
  missingCount : ℕ
  nullCount : ℕ := 0
  nonFiniteCount : ℕ := 0
  welford : WelfordAccumulator R
  percentileBuffer : PercentileBuffer R

namespace FeatureAccumulator

/-- `FeatureAccumulator(missing_count=..., max_values=...)`. -/
def new (missingCount maxValues : ℕ) : FeatureAccumulator R :=
  { missingCount := missingCount, welford := .new, percentileBuffer := { maxValues := maxValues } }

def presentCount (a : FeatureAccumulator R) : ℕ := a.welford.count

/-- `observe` of a number. -/
def observeNumber (a : FeatureAccumulator R) (numeric : R) : FeatureAccumulator R :=
  if StatFloat.isFinite numeric then
    { a with welford := a.welford.update numeric, percentileBuffer := a.percentileBuffer.add numeric }
  else { a with nonFiniteCount := a.nonFiniteCount + 1 }

/-- `observe`. -/
def observe (a : FeatureAccumulator R) : FeatureValue R → Except QcError (FeatureAccumulator R)
  | .null => .ok { a with nullCount := a.nullCount + 1 }
  | .int n => match StatFloat.float? n with
    | none => .error .overflowError
    | some numeric => .ok (a.observeNumber numeric)
  | .float x => .ok (a.observeNumber x)

/-- `observe_missing`. -/
def observeMissing (a : FeatureAccumulator R) : FeatureAccumulator R :=
  { a with missingCount := a.missingCount + 1 }

end FeatureAccumulator

/-! ## The collector -/

/-- The counts of the samples and of their features. -/
structure DatasetMetrics (R : Type) where
  sampleCount : ℕ := 0
  featureAccumulators : Dict Str (FeatureAccumulator R) := .empty

/-- One pass of the loop over the features of a sample. -/
def observeFeature (maxValues index : ℕ) (accumulators : Dict Str (FeatureAccumulator R))
    (p : Str × FeatureValue R) : Except QcError (Dict Str (FeatureAccumulator R)) := do
  let observed ← (accumulators.getD p.1 (.new index maxValues)).observe p.2
  return accumulators.set p.1 observed

/-- `_observe_features`. -/
def observeFeatures (maxValues index : ℕ) (sample : Record R)
    (accumulators : Dict Str (FeatureAccumulator R)) :
    Except QcError (Dict Str (FeatureAccumulator R)) := do
  let discovered ← discover sample
  let accumulators ← discovered.items.foldlM (observeFeature maxValues index) accumulators
  return accumulators.keys.foldl (fun accumulators path ↦
    if discovered.contains path then accumulators
    else accumulators.modify path FeatureAccumulator.observeMissing) accumulators

/-- `observe_sample`, the part of `_observe_features`. -/
def observeSample (maxValues index : ℕ) (sample : Record R) (m : DatasetMetrics R) :
    Except QcError (DatasetMetrics R) := do
  let accumulators ← observeFeatures maxValues index sample m.featureAccumulators
  return { sampleCount := m.sampleCount + 1, featureAccumulators := accumulators }

/-- `_collect_metrics`, its features: the samples one after the other, with their indices. -/
def collectMetrics (maxValues : ℕ) (samples : List (Record R)) : Except QcError (DatasetMetrics R) :=
  samples.zipIdx.foldlM (fun m p ↦ observeSample maxValues p.2 p.1 m) {}

end Qc

end ForgeData
