import ForgeData.Cleaning.Rules

/-!
# The cleaning run

`_process_rows` reads the synchronized artifact line by line, has the evaluator decide about every
row, keeps the counters and the examples of the report, and writes the rows that are kept. Beside the
output file it keeps the bytes fed to the hasher and the size counted so far.
-/

namespace ForgeData

namespace Cleaning

open Python Normalization Integrity

/-! ## Metrics -/

structure DroppedRowExample (R : Type) where
  rowIndex : ℕ
  timestamp : Value R
  reasons : List DropReason

structure RedactionExample (R : Type) where
  rowIndex : ℕ
  timestamp : Value R
  redactions : List RedactionRecord

/-- `CleaningMetricsAccumulator`. -/
structure CleaningMetrics (R : Type) where
  maxDetailEntries : ℕ
  inputRows : ℕ := 0
  retainedRows : ℕ := 0
  droppedRows : ℕ := 0
  redactedRows : ℕ := 0
  reasonCounts : Dict RuleCode ℕ := .empty
  droppedExamples : List (DroppedRowExample R) := []
  redactionExamples : List (RedactionExample R) := []
  detailsTruncated : Bool := false

/-- `_bump`. -/
def bump (reasonCounts : Dict RuleCode ℕ) (code : RuleCode) : Dict RuleCode ℕ :=
  reasonCounts.set code (reasonCounts.getD code 0 + 1)

/-- `_bump`, for one code after the other. -/
def bumpAll (reasonCounts : Dict RuleCode ℕ) (codes : List RuleCode) : Dict RuleCode ℕ :=
  codes.foldl bump reasonCounts

section

variable {R : Type}

def CleaningMetrics.recordKept (m : CleaningMetrics R) (rowIndex : ℕ) (timestamp : Value R)
    (redactions : List RedactionRecord) : CleaningMetrics R :=
  let m := { m with inputRows := m.inputRows + 1, retainedRows := m.retainedRows + 1 }
  if redactions = [] then m
  else
    let m := { m with
      redactedRows := m.redactedRows + 1
      reasonCounts := bumpAll m.reasonCounts (redactions.map RedactionRecord.code) }
    if m.redactionExamples.length < m.maxDetailEntries then
      { m with redactionExamples := m.redactionExamples ++ [⟨rowIndex, timestamp, redactions⟩] }
    else { m with detailsTruncated := true }

def CleaningMetrics.recordDropped (m : CleaningMetrics R) (rowIndex : ℕ) (timestamp : Value R)
    (reasons : List DropReason) : CleaningMetrics R :=
  let m := { m with
    inputRows := m.inputRows + 1
    droppedRows := m.droppedRows + 1
    reasonCounts := bumpAll m.reasonCounts (reasons.map DropReason.code) }
  if m.droppedExamples.length < m.maxDetailEntries then
    { m with droppedExamples := m.droppedExamples ++ [⟨rowIndex, timestamp, reasons⟩] }
  else { m with detailsTruncated := true }

/-- `DroppedRowExample` and `RedactionExample` take a string or null for the timestamp, and refuse
anything else. -/
def IsReportable : Value R → Prop
  | .none | .str _ => True
  | _ => False

/-- The examples can be put into the report. -/
def CleaningMetrics.Reportable (m : CleaningMetrics R) : Prop :=
  (∀ e ∈ m.droppedExamples, IsReportable e.timestamp) ∧
    ∀ e ∈ m.redactionExamples, IsReportable e.timestamp

/-! ## Rows -/

/-- The state of the loop of `_process_rows`. -/
structure ProcessState (R : Type) where
  rowIndex : ℕ
  seen : SeenIndex
  metrics : CleaningMetrics R
  digest : List Byte
  sizeBytes : ℕ
  outFile : List Byte

def ProcessState.init (R : Type) (backend : Backend) (maxDetailEntries : ℕ) : ProcessState R :=
  ⟨0, .create backend, { maxDetailEntries }, [], 0, []⟩

variable [FloatText R]

/-- The line written for a row. -/
def outputLine (cleanedRow : Value R) : Except CleaningError (List Byte) :=
  encodeUtf8 (canonicalJson cleanedRow ++ [CodePoint.ofChar '\n'])

/-- What the loop does with the decision about a row. -/
def ProcessState.record (s : ProcessState R) (row : Record R) (seen : SeenIndex) :
    Verdict R → Except CleaningError (ProcessState R)
  | .dropped reasons => .ok { s with
      rowIndex := s.rowIndex + 1
      seen := seen
      metrics := s.metrics.recordDropped (s.rowIndex + 1) (row.get (Str.ofString "timestamp")) reasons }
  | .kept cleanedRow redactions => do
    let line ← outputLine cleanedRow
    return { s with
      rowIndex := s.rowIndex + 1
      seen := seen
      metrics := s.metrics.recordKept (s.rowIndex + 1) (row.get (Str.ofString "timestamp")) redactions
      digest := s.digest ++ line
      sizeBytes := s.sizeBytes + line.length
      outFile := s.outFile ++ line }

/-- The loop body for a row. -/
def rowStep (sha256 : List Byte → Sha256Digest) (rules : List CleaningRule) (s : ProcessState R)
    (row : Record R) : Except CleaningError (ProcessState R) := do
  let (seen, verdict) ← evaluateRow sha256 rules (s.rowIndex + 1) row s.seen
  s.record row seen verdict

/-- The decisions of the evaluator about rows from number `rowIndex + 1` on. -/
def decisions (sha256 : List Byte → Sha256Digest) (rules : List CleaningRule) :
    ℕ → SeenIndex → List (Record R) → Except CleaningError (List (Verdict R))
  | _, _, [] => .ok []
  | rowIndex, seen, row :: rows => do
    let (seen, verdict) ← evaluateRow sha256 rules (rowIndex + 1) row seen
    return verdict :: (← decisions sha256 rules (rowIndex + 1) seen rows)

/-- The loop body for a line; a blank line is skipped. -/
def lineStep (sha256 : List Byte → Sha256Digest) (rules : List CleaningRule) (s : ProcessState R)
    (line : Str) : Except CleaningError (ProcessState R) :=
  if line.strip = [] then .ok s
  else match (loads line.strip : Except JsonError (Value R)) with
    | .error e => .error (.json e)
    | .ok v => match asRecord? v with
      | none => .error .attributeError
      | some row => rowStep sha256 rules s row

/-- `_process_rows`. -/
def processRows (sha256 : List Byte → Sha256Digest) (rules : List CleaningRule) (backend : Backend)
    (maxDetailEntries : ℕ) (artifact : List Byte) : Except CleaningError (ProcessState R) :=
  match Utf8.decode artifact with
  | none => .error .unicodeDecodeError
  | some text =>
    (Str.linesOf (Str.universalNewlines text)).foldlM (lineStep sha256 rules)
      (.init R backend maxDetailEntries)

/-! ## The run -/

/-- `_validate_config`. -/
def validateConfig (config : CleaningConfig) : Except CleaningError Unit :=
  if config.minPresentStreams.any (· < 0) then
    .error (.invalidCleaningConfiguration "min_present_streams must not be negative")
  else if config.minimumRetainedRows.any (· < 0) then
    .error (.invalidCleaningConfiguration "minimum_retained_rows must not be negative")
  else match config.privacy.redactFields.find? fun path ↦ !isValidFieldPath path with
    | some path => .error (.invalidRedactionPath path)
    | none => .ok ()

inductive CleaningStatus where
  | completed
  | rejected
deriving DecidableEq, Repr

inductive RejectionReason where
  | emptySynchronizedDataset
  | insufficientRetainedRows
deriving DecidableEq, Repr

/-- `_determine_status`. -/
def determineStatus (metrics : CleaningMetrics R) (config : CleaningConfig) :
    CleaningStatus × List RejectionReason :=
  if metrics.inputRows = 0 then (.rejected, [.emptySynchronizedDataset])
  else if config.minimumRetainedRows.any fun least : ℤ ↦ (metrics.retainedRows : ℤ) < least then
    (.rejected, [.insufficientRetainedRows])
  else (.completed, [])

/-- What a cleaning run commits. -/
structure CleaningRun (R : Type) where
  status : CleaningStatus
  rejectionReasons : List RejectionReason
  metrics : CleaningMetrics R
  cleaned : List Byte
  cleanedSha256 : Sha256Digest
  cleanedSizeBytes : ℕ

/-- `clean`, of a synchronized artifact whose checksum is right, over the sorted names of its
streams. The report is built from what is returned here, and that raises where the metrics are not
`Reportable`. -/
def clean (sha256 : List Byte → Sha256Digest) (config : CleaningConfig) (knownStreams : List Str)
    (maxDetailEntries : ℕ) (artifact : List Byte) : Except CleaningError (CleaningRun R) := do
  validateConfig config
  let s : ProcessState R ← processRows sha256 (buildRules config knownStreams)
    config.duplicatePolicy.backend maxDetailEntries artifact
  let status := determineStatus s.metrics config
  return ⟨status.1, status.2, s.metrics, s.outFile, sha256 s.digest, s.sizeBytes⟩

end

end Cleaning

end ForgeData
