import ForgeData.FileSystem.Operations
import ForgeData.Python.JsonLines
import ForgeData.Python.Paths

/-!
# Staging directories

The part of `app/storage/atomic.py` by which a store publishes a directory: it is made under a hidden
name with a journal in it, filled, and renamed. `fsync` changes nothing that a program can see and
ignores its errors, so only the listing before it is a step here.
-/

namespace ForgeData

namespace Storage

open Python FileSystem

/-! ## Exceptions -/

/-- The exceptions of programs that work on stores; `ε` are those that other code raises among them. -/
inductive StorageException (ε : Type) where
  /-- `OSError`. -/
  | os (e : FileSystem.Error)
  /-- `UnicodeError`, of a text that has no bytes or of bytes that are no text. -/
  | unicode
  /-- `ValueError`, of a JSON integer with too many digits. -/
  | value
  | stagingCreateFailed (path : Path String) (cause : FileSystem.Error)
  | artifactDestinationExists (path : Path String)
  | artifactCommitFailed (staging final : Path String) (cause : FileSystem.Error)
  | artifactAlreadyExists (message : String)
  | insufficientDiskSpace (stage : String) (availableBytes estimatedRequiredBytes reserveBytes : ℕ)
  | other (e : ε)

instance {ε : Type} : HasError (StorageException ε) := ⟨.os⟩

/-- A program of a store. -/
abbrev StorageProgram (ε α : Type) := Program String Byte (StorageException ε) α

variable {ε : Type}

/-- `path.write_text(text, encoding="utf-8")`. -/
def writeText (path : Path String) (text : Str) : StorageProgram ε Unit := do
  call (.create path)
  match Utf8.encode text with
  | some bytes => call (.append path bytes)
  | none => throw .unicode

/-- `path.read_text(encoding="utf-8")`. -/
def readText (path : Path String) : StorageProgram ε Str := do
  let bytes ← call (.read path)
  match Utf8.decode bytes with
  | some text => return Str.universalNewlines text
  | none => throw .unicode

/-! ## The journal -/

/-- `json.dumps(v, indent=2, sort_keys=True)`. -/
def journalStyle : JsonStyle := ⟨true, 0, 1, some 2, true⟩

/-- `STAGING_STATE_FILENAME`. -/
def stagingStateFilename : String := "staging_state.json"

/-- The names of the fields of `StagingMetadata`. -/
def stagingMetadataFields : List Str :=
  ["operation_id", "artifact_id", "stage", "started_at", "pid", "state", "final_destination"].map
    Str.ofString

/-- What a process tells of itself: its id, and what the clock says. -/
structure Process where
  pid : UInt32
  startedAt : String

/-- What the journal of an operation says. -/
structure StagingMetadata where
  operationId : String
  artifactId : String
  stage : String
  startedAt : String
  pid : UInt32
  state : String
  finalDestination : String

variable (R : Type)

/-- `asdict(metadata)`. -/
def StagingMetadata.asdict (m : StagingMetadata) : Record R where
  items :=
    [(Str.ofString "operation_id", .str (Str.ofString m.operationId)),
      (Str.ofString "artifact_id", .str (Str.ofString m.artifactId)),
      (Str.ofString "stage", .str (Str.ofString m.stage)),
      (Str.ofString "started_at", .str (Str.ofString m.startedAt)),
      (Str.ofString "pid", .int m.pid.toNat),
      (Str.ofString "state", .str (Str.ofString m.state)),
      (Str.ofString "final_destination", .str (Str.ofString m.finalDestination))]
  nodup := by
    have h : stagingMetadataFields.Nodup := by decide
    exact h

variable [FloatText R]

/-- `_write_json_atomic`, of a file in the directory. -/
def writeJsonAtomic (dir : Path String) (name : String) (payload : Record R) :
    StorageProgram ε Unit := do
  let tmpPath := dir ++ [name ++ ".tmp"]
  writeText tmpPath (dumps journalStyle (.dict payload.items))
  call (.replace tmpPath (dir ++ [name]))

/-- `StagingMetadata(**raw)`, as a dictionary again; `none` is `TypeError`. -/
def stagingMetadataOf (raw : Value R) : Option (Record R) :=
  match raw with
  | .dict fields =>
    if (fields.map Prod.fst).Perm stagingMetadataFields then some (.ofPairs fields) else none
  | _ => none

/-- `read_staging_metadata`, as a dictionary. -/
def readStagingMetadata (stagingDir : Path String) : StorageProgram ε (Option (Record R)) := do
  let path := stagingDir ++ [stagingStateFilename]
  let present : Bool ← call (.pathExists path)
  if !present then return none
  tryCatch (do
    match (loads (← readText path) : Except JsonError (Value R)) with
    | .ok raw => return stagingMetadataOf R raw
    | .error .decodeError => return none
    | .error .tooManyDigits => throw .value) fun
    | .os _ => return none
    | e => throw e

/-- `_mark_state`. -/
def markState (stagingDir : Path String) (state : String) : StorageProgram ε Unit := do
  match ← readStagingMetadata R stagingDir with
  | none => return ()
  | some existing =>
    writeJsonAtomic R stagingDir stagingStateFilename
      (existing.set (Str.ofString "state") (.str (Str.ofString state)))

/-! ## The life of a staging directory -/

/-- `create_staging_dir`. -/
def createStagingDir (process : Process) (path : Path String) (operationId artifactId stage : String)
    (finalDestination : Path String) : StorageProgram ε Unit := do
  call (.makeDirs path false)
  let metadata : StagingMetadata :=
    { operationId, artifactId, stage, startedAt := process.startedAt, pid := process.pid,
      state := "writing", finalDestination := pathText finalDestination }
  tryCatch (writeJsonAtomic R path stagingStateFilename (metadata.asdict R)) fun
    | .os cause => throw (.stagingCreateFailed path cause)
    | e => throw e

/-- `commit_staging_dir`. -/
def commitStagingDir (stagingDir finalDir : Path String) (fsyncEnabled : Bool)
    (verify : Option (StorageProgram ε Unit)) : StorageProgram ε Unit := do
  let present : Bool ← call (.pathExists finalDir)
  if present then throw (.artifactDestinationExists finalDir)
  call (.makeDirs finalDir.dropLast true)
  if let some check := verify then
    markState R stagingDir "verifying"
    check
  markState R stagingDir "committing"
  if fsyncEnabled then
    let _ ← call (.list stagingDir)
  call (.unlink (stagingDir ++ [stagingStateFilename]) true)
  tryCatch (call (.rename stagingDir finalDir)) fun
    | .os cause => throw (.artifactCommitFailed stagingDir finalDir cause)
    | e => throw e

/-- `discard_staging_dir`. -/
def discardStagingDir (stagingDir : Path String) : StorageProgram ε Unit := call (.removeTree stagingDir)

end Storage

end ForgeData
