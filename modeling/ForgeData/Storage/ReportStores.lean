import ForgeData.Storage.Atomic
import ForgeData.Storage.Local
import Mathlib.Data.List.Sort
import Mathlib.Data.String.Basic

/-!
# Report stores

`app/storage/validation_store.py` and `app/storage/integrity_store.py`: a report is a directory with one
file, published like every artifact. The two stores differ in the stage that they write into the journal
and in the text of an error.
-/

namespace ForgeData

namespace Storage

open Python FileSystem

/-- `_is_safe_path_component`. -/
def isSafePathComponent (value : String) : Bool :=
  value ≠ "" ∧ '/' ∉ value.toList ∧ '\\' ∉ value.toList ∧ value ≠ "." ∧ value ≠ ".."

/-- `ValidationReportAlreadyExistsError` or `IntegrityReportAlreadyExistsError`. -/
inductive ReportError where
  | alreadyExists (message : String)

/-- A store of reports. -/
structure ReportStore where
  root : Path String
  fsyncEnabled : Bool
  stage : String
  /-- What an error calls the report. -/
  label : String

/-- `LocalValidationReportStore`. -/
def localValidationReportStore (root : Path String) (fsyncEnabled : Bool) : ReportStore :=
  ⟨root, fsyncEnabled, "validation", "Validation report"⟩

/-- `LocalIntegrityReportStore`. -/
def localIntegrityReportStore (root : Path String) (fsyncEnabled : Bool) : ReportStore :=
  ⟨root, fsyncEnabled, "integrity", "Integrity report"⟩

/-- `write_manifest_file`, of bytes. -/
def writeManifestFile {ε : Type} (stagingDir : Path String) (filename : String)
    (content : List Byte) : StorageProgram ε Unit := do
  call (.create (stagingDir ++ [filename]))
  call (.append (stagingDir ++ [filename]) content)

namespace ReportStore

variable (store : ReportStore) (R : Type) [FloatText R]

/-- The directory of the reports of an ingestion. -/
def ingestionDir (ingestionId : String) : Path String :=
  resolveDots (joinSegment store.root ingestionId)

/-- The directory of a report. -/
def finalDir (ingestionId reportId : String) : Path String :=
  resolveDots (joinSegment (joinSegment store.root ingestionId) reportId)

/-- The text of the directory of a report. -/
def finalDirText (ingestionId reportId : String) : String :=
  pathText (joinSegment (joinSegment store.root ingestionId) reportId)

/-- The staging directory of a report. -/
def stagingDir (reportId : String) : Path String := store.root ++ [".staging", reportId]

/-- The error of a report that is there already. -/
def alreadyExists (ingestionId reportId : String) : StorageException ReportError :=
  .other (.alreadyExists
    (store.label ++ " already exists: " ++ store.finalDirText ingestionId reportId))

/-- `write_report`. -/
def writeReport (process : Process) (ingestionId reportId : String) (report : Record R) :
    StorageProgram ReportError String := do
  let finalDir := store.finalDir ingestionId reportId
  let alreadyExists := store.alreadyExists ingestionId reportId
  let present : Bool ← call (.pathExists finalDir)
  if present then throw alreadyExists
  let stagingDir := store.stagingDir reportId
  createStagingDir R process stagingDir reportId reportId store.stage finalDir
  tryCatch (do
    match Utf8.encode (dumps journalStyle (.dict report.items)) with
    | none => throw .unicode
    | some reportBytes =>
      writeManifestFile stagingDir "report.json" reportBytes
      commitStagingDir R stagingDir finalDir store.fsyncEnabled none) fun
    | .artifactDestinationExists _ => do
      discardStagingDir stagingDir
      throw alreadyExists
    | e => do
      discardStagingDir stagingDir
      throw e
  return fileUri (finalDir ++ ["report.json"])

/-- The directories below one in which there is a report, in the order of their names: what
`sorted(ingestion_dir.glob("*/report.json"))` goes through. -/
def reportNames (below : List (Path String)) : List String :=
  (below.filterMap fun path ↦
    match path with
    | [name, file] => if file = "report.json" then some name else none
    | _ => none).insertionSort (· ≤ ·)

/-- `json.loads(report_path.read_text(encoding="utf-8"))`. -/
def readReport (reportPath : Path String) : StorageProgram ReportError (Value R) := do
  match (loads (← readText reportPath) : Except JsonError (Value R)) with
  | .ok report => return report
  | .error _ => throw .value

/-- `find_reports`. -/
def findReports (ingestionId : String) : StorageProgram ReportError (List (Value R)) := do
  if !isSafePathComponent ingestionId then return []
  let ingestionDir := store.ingestionDir ingestionId
  let present : Bool ← call (.pathExists ingestionDir)
  if !present then return []
  let below ← call (.list ingestionDir)
  (reportNames below).mapM fun name ↦ readReport R (ingestionDir ++ [name, "report.json"])

end ReportStore

end Storage

end ForgeData
