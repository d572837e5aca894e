import ForgeData.Python.Float
import ForgeData.Synchronization.Timeline
import Mathlib.Algebra.Order.Group.Unbundled.Abs

/-!
# Cursors and alignment strategies

A cursor walks through the samples of a stream, one forward pass for all targets: it keeps the last
sample at or before the target and the first one after it. The two strategies look at these two samples
only.

Times are exact; the numbers within records are floats, of which no law is assumed.
-/

namespace ForgeData

namespace Synchronization

open Python

/-- The fields of a typed record. -/
abbrev Fields (R : Type) := List (Str × Value R)

/-- `record.get(name)`. -/
def Fields.get {R : Type} (record : Fields R) (name : Str) : Value R := (record.lookup name).getD .none

structure StreamSample (R : Type) where
  epochUs : ℤ
  record : Fields R

/-! ## Cursors -/

/-- `StreamCursor`: the sample before, and the samples to come. The first of these is `pending`, the
others are what the iterator has not yielded yet. -/
structure StreamCursor (R : Type) where
  prev : Option (StreamSample R)
  upcoming : List (StreamSample R)

namespace StreamCursor

variable {R : Type}

def pending (cursor : StreamCursor R) : Option (StreamSample R) := cursor.upcoming.head?

/-- A new cursor over the records of a stream. -/
def ofRecords (records : List (TypedRecord R)) : StreamCursor R :=
  ⟨none, records.map fun record ↦ ⟨record.epochUs, record.fields⟩⟩

/-- The loop of `advance_to`. -/
def advanceFrom (targetEpochUs : ℤ) :
    Option (StreamSample R) → List (StreamSample R) → StreamCursor R
  | prev, [] => ⟨prev, []⟩
  | prev, sample :: samples =>
    if sample.epochUs ≤ targetEpochUs then advanceFrom targetEpochUs (some sample) samples
    else ⟨prev, sample :: samples⟩

/-- `advance_to`. -/
def advanceTo (cursor : StreamCursor R) (targetEpochUs : ℤ) : StreamCursor R :=
  advanceFrom targetEpochUs cursor.prev cursor.upcoming

end StreamCursor

/-! ## Outcomes -/

inductive AlignmentMethod where
  | reference
  | nearest
  | linear
deriving DecidableEq, Repr

/-- Why a stream is unmatched at a target. -/
inductive UnmatchedReason where
  | noData
  | noExtrapolation
  | outsideTolerance
deriving DecidableEq, Repr

structure AlignmentOutcome where
  matched : Bool
  method : AlignmentMethod
  deltaMs : Option ℚ := none
  reason : Option UnmatchedReason := none
  isExact : Bool := false

structure AlignmentContext where
  targetEpochUs : ℤ
  toleranceUs : ℤ
  schema : SchemaDefinition
  timestampField : Str := Str.ofString "timestamp"

/-! ## Linear interpolation -/

section

variable {R : Type}

/-- A field whose values are numbers. -/
def FieldType.isNumeric (type : FieldType) : Bool := type = .float ∨ type = .integer

variable [PyFloat R]

/-- The integer that arithmetic takes a value for. -/
def integral? : Value R → Option ℤ
  | .int n => some n
  | .bool b => some b.toInt
  | _ => none

/-- The float that arithmetic with floats takes a value for. -/
def number? : Value R → Option R
  | .float x => some x
  | v => (integral? v).map PyFloat.ofInt

/-- `x1 - x0`, as a float. -/
def difference? (x₀ x₁ : Value R) : Option R :=
  match integral? x₀, integral? x₁ with
  | some m, some n => some (PyFloat.ofInt (n - m))
  | _, _ => do return (← number? x₁) - (← number? x₀)

/-- `None if (x0 is None or x1 is None) else x0 + (x1 - x0) * fraction`. Typed records hold floats here;
integers beyond the floats, for which Python raises, are not among them. -/
def interpolateNumber (x₀ x₁ : Value R) (fraction : R) : Except SynchronizationError (Value R) :=
  match x₀, x₁ with
  | .none, _ | _, .none => .ok .none
  | _, _ =>
    match number? x₀, difference? x₀ x₁ with
    | some a, some d => .ok (.float (a + d * fraction))
    | _, _ => .error .typeError

/-- One field of the interpolated record. -/
def interpolateField (context : AlignmentContext) (prev pending : StreamSample R)
    (p : Str × FieldDefinition) : Except SynchronizationError (Str × Value R) :=
  let x₀ := prev.record.get p.1
  let x₁ := pending.record.get p.1
  if FieldType.isNumeric p.2.type then do
    let fraction : R := PyFloat.ofInt (context.targetEpochUs - prev.epochUs) /
      PyFloat.ofInt (pending.epochUs - prev.epochUs)
    return (p.1, ← interpolateNumber x₀ x₁ fraction)
  else
    let delta₀ := |context.targetEpochUs - prev.epochUs|
    let delta₁ := |context.targetEpochUs - pending.epochUs|
    let nearest := if delta₀ ≤ delta₁ then (x₀, delta₀) else (x₁, delta₁)
    return (p.1, if nearest.2 ≤ context.toleranceUs then nearest.1 else .none)

/-- `LinearInterpolationStrategy.align`. -/
def alignLinear (cursor : StreamCursor R) (context : AlignmentContext) :
    Except SynchronizationError (Option (Fields R) × AlignmentOutcome) :=
  let target := context.targetEpochUs
  match cursor.prev.filter (·.epochUs = target), cursor.pending.filter (·.epochUs = target) with
  | some sample, _ | none, some sample =>
    .ok (some sample.record, { matched := true, method := .linear, deltaMs := some 0, isExact := true })
  | none, none =>
    match cursor.prev, cursor.pending with
    | some prev, some pending => do
      let interpolated ← (context.schema.fields.items.filter (·.1 ≠ context.timestampField)).mapM
        (interpolateField context prev pending)
      let deltaUs := min |target - prev.epochUs| |target - pending.epochUs|
      return (some interpolated,
        { matched := true, method := .linear, deltaMs := some ((deltaUs : ℚ) / 1000) })
    | _, _ => .ok (none, { matched := false, method := .linear, reason := some .noExtrapolation })

/-! ## Nearest sample -/

omit [PyFloat R] in
/-- `min(candidates, key=..)`: the first of the nearest samples. -/
def nearestOf (targetEpochUs : ℤ) : List (StreamSample R) → Option (StreamSample R)
  | [] => none
  | first :: rest => some <| rest.foldl (fun best c ↦
      if |c.epochUs - targetEpochUs| < |best.epochUs - targetEpochUs| then c else best) first

omit [PyFloat R] in
/-- `NearestAlignmentStrategy.align`: of two samples at the same distance the earlier one. -/
def alignNearest (cursor : StreamCursor R) (context : AlignmentContext) :
    Option (Fields R) × AlignmentOutcome :=
  let candidates := cursor.prev.toList ++ cursor.pending.toList
  match nearestOf context.targetEpochUs candidates with
  | none => (none, { matched := false, method := .nearest, reason := some .noData })
  | some best =>
    let deltaUs := |best.epochUs - context.targetEpochUs|
    if context.toleranceUs < deltaUs then
      (none, { matched := false, method := .nearest, reason := some .outsideTolerance })
    else (some best.record, {
      matched := true
      method := .nearest
      deltaMs := some ((deltaUs : ℚ) / 1000)
      isExact := deltaUs = 0 })

inductive AlignmentStrategy where
  | nearest
  | linear
deriving DecidableEq, Repr

/-- `strategy.align`. -/
def AlignmentStrategy.align (strategy : AlignmentStrategy) (cursor : StreamCursor R)
    (context : AlignmentContext) : Except SynchronizationError (Option (Fields R) × AlignmentOutcome) :=
  match strategy with
  | .nearest => .ok (alignNearest cursor context)
  | .linear => alignLinear cursor context

end

end Synchronization

end ForgeData
