import ForgeData.Python.Generator
import ForgeData.Synchronization.Strategies

/-!
# Rows and metrics

For every target each stream is aligned, with its own cursor and strategy, and contributes one entry to
the row. In the mode with a reference stream that stream has no cursor: the row carries its record. The
metrics of a stream are kept up to date row by row.
-/

namespace ForgeData

namespace Synchronization

open Python

section

variable {R : Type}

/-- What a stream needs to be aligned. -/
structure StreamRuntime (R : Type) where
  name : Str
  schema : SchemaDefinition
  strategy : AlignmentStrategy
  cursor : Option (StreamCursor R)
  toleranceUs : ℤ
  isReference : Bool

/-- An entry of `alignment_payload`. -/
structure AlignmentResult where
  matched : Bool
  method : AlignmentMethod
  deltaMs : Option ℚ := none
  reason : Option UnmatchedReason := none

/-- What one stream contributes to a row. -/
structure StreamEntry (R : Type) where
  name : Str
  record : Option (Fields R)
  result : AlignmentResult

/-- What `iter_rows` yields. The names of the streams are distinct, so the two payloads of a row are one
list. -/
structure SyncRow (R : Type) where
  targetEpochUs : ℤ
  entries : List (StreamEntry R)

/-- A target, with the record of the reference stream in the mode that has one. -/
abbrev Target (R : Type) := ℤ × Option (Fields R)

/-- The entry of an outcome. -/
def AlignmentOutcome.result (outcome : AlignmentOutcome) : AlignmentResult :=
  if outcome.matched then
    { matched := outcome.matched, method := outcome.method, deltaMs := outcome.deltaMs }
  else { matched := outcome.matched, method := outcome.method, reason := outcome.reason }

variable [PyFloat R]

/-- The loop body of `build_row` for one stream. -/
def alignStream (target : Target R) (stream : StreamRuntime R) :
    Except SynchronizationError (StreamRuntime R × StreamEntry R) :=
  match stream.isReference, target.2 with
  | true, some record => .ok (stream, ⟨stream.name, some record,
      { matched := true, method := .reference, deltaMs := some 0 }⟩)
  | _, _ => match stream.cursor with
    | none => .error .attributeError
    | some cursor => do
      let cursor := cursor.advanceTo target.1
      let (record, outcome) ← stream.strategy.align cursor
        { targetEpochUs := target.1, toleranceUs := stream.toleranceUs, schema := stream.schema }
      return ({ stream with cursor := some cursor }, ⟨stream.name, record, outcome.result⟩)

/-- `build_row`, with the streams as it leaves them. -/
def buildRow (target : Target R) (streams : List (StreamRuntime R)) :
    Except SynchronizationError (List (StreamRuntime R) × SyncRow R) := do
  let aligned ← streams.mapM (alignStream target)
  return (aligned.map Prod.fst, ⟨target.1, aligned.map Prod.snd⟩)

/-- `iter_rows`. -/
def iterRows (targets : List (Target R)) (streams : List (StreamRuntime R)) :
    Gen SynchronizationError (SyncRow R) :=
  Gen.loop (fun streams target ↦ do
    let (streams, row) ← buildRow target streams
    return (streams, [row])) (fun _ ↦ []) streams targets

end

/-! ## Metrics -/

/-- `StreamMetrics`. -/
structure StreamMetrics where
  sourceRecords : ℕ
  matchedRows : ℕ
  unmatchedRows : ℕ
  coverageRatio : ℚ
  meanAbsDeltaMs : Option ℚ
  maxAbsDeltaMs : Option ℚ
  exactMatchCount : Option ℕ
  interpolatedCount : Option ℕ
deriving DecidableEq

/-- `StreamMetricsAccumulator`. -/
structure StreamMetricsAccumulator where
  sourceRecords : ℕ
  matchedRows : ℕ := 0
  unmatchedRows : ℕ := 0
  exactMatchCount : ℕ := 0
  interpolatedCount : ℕ := 0
  deltaSumMs : ℚ := 0
  deltaMaxMs : ℚ := 0
  usedLinear : Bool := false

namespace StreamMetricsAccumulator

/-- `record`. -/
def record (acc : StreamMetricsAccumulator) (result : AlignmentResult) : StreamMetricsAccumulator :=
  let acc := if result.method = .linear then { acc with usedLinear := true } else acc
  if result.matched then
    let deltaMs := result.deltaMs.getD 0
    let acc := { acc with
      matchedRows := acc.matchedRows + 1
      deltaSumMs := acc.deltaSumMs + deltaMs
      deltaMaxMs := max acc.deltaMaxMs deltaMs }
    if result.method = .linear then
      if deltaMs = 0 then { acc with exactMatchCount := acc.exactMatchCount + 1 }
      else { acc with interpolatedCount := acc.interpolatedCount + 1 }
    else acc
  else { acc with unmatchedRows := acc.unmatchedRows + 1 }

/-- `finalize`. -/
def finalize (acc : StreamMetricsAccumulator) (outputRows : ℕ) : StreamMetrics where
  sourceRecords := acc.sourceRecords
  matchedRows := acc.matchedRows
  unmatchedRows := acc.unmatchedRows
  coverageRatio := if outputRows = 0 then 0 else acc.matchedRows / outputRows
  meanAbsDeltaMs := if acc.matchedRows = 0 then none else some (acc.deltaSumMs / acc.matchedRows)
  maxAbsDeltaMs := if acc.matchedRows = 0 then none else some acc.deltaMaxMs
  exactMatchCount := if acc.usedLinear then some acc.exactMatchCount else none
  interpolatedCount := if acc.usedLinear then some acc.interpolatedCount else none

end StreamMetricsAccumulator

end Synchronization

end ForgeData
