import ForgeData.Python.Digest
import ForgeData.Python.Float
import ForgeData.Python.Loop
import ForgeData.Transformation.CountWindows
import ForgeData.Transformation.TimeWindows

/-!
# Writing the transformed samples

`_process_rows` numbers the cleaned rows, cuts the stream into windows, and writes one sample for
each window. A sample records which source rows its window covers; that range is all the packaging
stage knows about where a sample comes from. What else a sample line carries is computed by the
feature engine, which is a parameter here.
-/

namespace ForgeData

open Python

/-- The `window` block of a transformation configuration. -/
structure WindowConfig (R : Type) where
  mode : String := "count"
  size : Option ℤ := none
  stride : Option ℤ := none
  durationMs : Option R := none
  strideMs : Option R := none
  dropIncomplete : Bool := true

/-- One line of the transformed artifact, as later stages read it. The three fields may be absent
or null in a file; `content` is the rest of the line. -/
structure Sample (π : Type) where
  sampleId : Option String
  sourceRowStart : Option ℤ
  sourceRowEnd : Option ℤ
  content : π
  deriving DecidableEq, Repr

inductive TransformationError where
  | window (error : WindowError)
  | feature (message : String)
  | typeError
  | overflowError
  | valueError
  deriving DecidableEq, Repr

section

variable {R ρ π : Type} [PyFloat R]

/-- The rows as the stream hands them to the iterators, numbered from 0. -/
def rowStream (rows : List (ℤ × ρ)) : List (RowItem ρ) :=
  rows.zipIdx.map fun p ↦ ⟨p.2, p.1.1, p.1.2⟩

/-- `int(ms * 1000)`: a missing bound is a `TypeError`, an infinite one an `OverflowError`, and NaN a
`ValueError`. -/
def microseconds : Option R → Except TransformationError ℤ
  | none => .error .typeError
  | some ms =>
    let us := ms * PyFloat.ofInt 1000
    match PyFloat.toInt? us with
    | some n => .ok n
    | none => .error (if us ≤ us then .overflowError else .valueError)

/-- The windows of the configured mode; any mode other than `count` is a time window. A missing
size or stride is a `TypeError`. -/
def configuredWindows (config : WindowConfig R) (rows : List (RowItem ρ)) :
    Except TransformationError (Gen WindowError (WindowItem ρ)) :=
  if config.mode = "count" then
    match config.size, config.stride with
    | some size, some stride => .ok (iterCountWindows rows size stride config.dropIncomplete)
    | _, _ => .error .typeError
  else do
    let durationUs ← microseconds config.durationMs
    let strideUs ← microseconds config.strideMs
    return iterTimeWindows rows durationUs strideUs config.dropIncomplete

def computeSampleId (sha256 : String → Sha256Digest) (cleanedSha256 configHash : String)
    (windowIndex startEpochUs endEpochUs : ℤ) : String :=
  let digest :=
    sha256 s!"{cleanedSha256}:{configHash}:{windowIndex}:{startEpochUs}:{endEpochUs}"
  s!"sample_{digest.take 32}"

/-- The sample written for one window. -/
def sampleOfWindow (sha256 : String → Sha256Digest) (extract : WindowItem ρ → Except String π)
    (cleanedSha256 configHash : String) (w : WindowItem ρ) :
    Except TransformationError (Sample π) :=
  match extract w with
  | .error message => .error (.feature message)
  | .ok content => .ok {
      sampleId := some (computeSampleId sha256 cleanedSha256 configHash w.windowIndex
        w.startEpochUs w.endEpochUs)
      sourceRowStart := some w.firstRow.rowIndex
      sourceRowEnd := some w.lastRow.rowIndex
      content := content }

/-- `_process_rows`: the samples written, or the exception that ends the run. -/
def processRows (sha256 : String → Sha256Digest) (extract : WindowItem ρ → Except String π)
    (cleanedSha256 configHash : String) (config : WindowConfig R) (rows : List (ℤ × ρ)) :
    Except TransformationError (List (Sample π)) := do
  let windows ← configuredWindows config (rowStream rows)
  let samples ← windows.yields.mapM (sampleOfWindow sha256 extract cleanedSha256 configHash)
  match windows.raised with
  | none => return samples
  | some e => throw (.window e)

/-! ## Source ranges of the samples -/

theorem rowStream_increasingIndices (rows : List (ℤ × ρ)) : IncreasingIndices (rowStream rows) := by
  rw [IncreasingIndices, List.pairwise_iff_getElem]
  intro i j hi hj hij
  simpa [rowStream] using hij

/-- Every configuration that does not raise yields windows ordered by their first row. -/
theorem configuredWindows_ordered {config : WindowConfig R} {rows : List (RowItem ρ)}
    (hrows : IncreasingIndices rows) {g : Gen WindowError (WindowItem ρ)}
    (hg : configuredWindows config rows = .ok g) (hraised : g.raised = none) :
    OrderedWindows g.yields := by
  rw [configuredWindows] at hg
  split at hg
  · split at hg
    · next size stride _ _ =>
      obtain rfl := Except.ok.inj hg
      have hsize : 0 < size := by
        by_contra h
        simp [iterCountWindows, Int.not_lt.1 h] at hraised
      have hstride : 0 < stride := by
        by_contra h
        simp [iterCountWindows, Int.not_lt.1 h, hsize.not_ge] at hraised
      exact iterCountWindows_ordered hrows hsize hstride hraised
    · cases hg
  · obtain ⟨durationUs, -, hg⟩ := bind_eq_ok_iff.mp hg
    obtain ⟨strideUs, -, hg⟩ := bind_eq_ok_iff.mp hg
    obtain rfl := Except.ok.inj hg
    have hduration : 0 < durationUs := by
      by_contra h
      simp [iterTimeWindows, Int.not_lt.1 h] at hraised
    have hstride : 0 < strideUs := by
      by_contra h
      simp [iterTimeWindows, Int.not_lt.1 h, hduration.not_ge] at hraised
    exact iterTimeWindows_ordered hrows hduration hstride hraised

end

end ForgeData
