import ForgeData.Python.Datetime
import ForgeData.Python.Float
import ForgeData.Storage.Atomic
import Mathlib.Algebra.Ring.Parity
import Mathlib.Data.List.Sort
import Mathlib.Data.String.Basic

/-!
# Recovery of staging directories

`app/storage/recovery.py`: what crashed operations have left behind is listed, and what has been left for
long enough is removed. A scan only reads, so it is a function of the tree.
-/

namespace ForgeData

namespace Storage

open Python FileSystem

/-! ## Ages -/

/-- The floats of durations: what the code does with them beside comparing. -/
class DurationFloat (F : Type) extends PyFloat F where
  /-- `timedelta(microseconds=n).total_seconds()`. -/
  totalSeconds : ℤ → F
  /-- `f"{x:.0f}"`. -/
  format0f : F → String

/-- The nearest integer, and of two the even one. -/
def roundHalfEven (q : ℚ) : ℤ :=
  if q - ⌊q⌋ < 1 / 2 then ⌊q⌋
  else if 1 / 2 < q - ⌊q⌋ then ⌊q⌋ + 1
  else if Even ⌊q⌋ then ⌊q⌋ else ⌊q⌋ + 1

instance : DurationFloat ℚ where
  totalSeconds n := n / 1000000
  format0f q := if q < 0 ∧ roundHalfEven q = 0 then "-0" else toString (roundHalfEven q)

/-! ## Settings and results -/

/-- What the recovery service reads of `Settings`. -/
structure RecoverySettings (F : Type) where
  rawStorageRoot : Path String
  validationStorageRoot : Path String
  integrityStorageRoot : Path String
  normalizedStorageRoot : Path String
  synchronizedStorageRoot : Path String
  cleanedStorageRoot : Path String
  transformedStorageRoot : Path String
  qcStorageRoot : Path String
  packageStorageRoot : Path String
  staleStagingAfterSeconds : F

/-- `ACTIVE`, `STALE` and `INVALID`. -/
inductive Classification where
  | active
  | stale
  | invalid
deriving DecidableEq

/-- `RecoveryEntry`. The path stands for its text, and what the journal says may be any JSON value. -/
structure RecoveryEntry (R : Type) where
  stage : String
  stagingPath : Path String
  operationId : Option (Value R)
  artifactId : Option (Value R)
  startedAt : Option (Value R)
  classification : Classification
  reason : String
  sizeBytes : ℕ

/-- `RecoveryScanResult`. -/
structure RecoveryScanResult (R : Type) where
  activeCount : ℕ
  staleCount : ℕ
  invalidCount : ℕ
  entries : List (RecoveryEntry R)

/-- `TypeError`, of a time that is no text or has no time zone. -/
inductive RecoveryError where
  | type
deriving DecidableEq

/-! ## Finding staging directories -/

/-- `_staging_roots`. -/
def stagingRoots {F : Type} (settings : RecoverySettings F) : List (String × Path String) :=
  [("ingestion", settings.rawStorageRoot),
    ("validation", settings.validationStorageRoot),
    ("integrity", settings.integrityStorageRoot),
    ("normalization", settings.normalizedStorageRoot),
    ("synchronization", settings.synchronizedStorageRoot),
    ("cleaning", settings.cleanedStorageRoot),
    ("transformation", settings.transformedStorageRoot),
    ("qc", settings.qcStorageRoot),
    ("package", settings.packageStorageRoot)]

/-- The name matches `.tmp-*`. -/
def isTmpName (name : String) : Bool := ".tmp-".toList.isPrefixOf name.toList

/-- `_dir_size_bytes`. -/
def dirSizeBytes (t : Tree String Byte) (path : Path String) : ℕ :=
  ((t.below path).filterMap fun q ↦ (t.file? (path ++ q)).map List.length).sum

/-- The directories in a directory: `p for p in path.iterdir() if p.is_dir()`. -/
def subdirectories (t : Tree String Byte) (path : Path String) : List (Path String) :=
  ((t.below path).map (path ++ ·)).filter fun p ↦ p.length = path.length + 1 ∧ t.isDir p

/-- The directories below one whose names match: `p for p in path.rglob(".tmp-*") if p.is_dir()`. -/
def tmpDirectories (t : Tree String Byte) (path : Path String) : List (Path String) :=
  ((t.below path).map (path ++ ·)).filter fun p ↦ (p.getLast?.any isTmpName : Bool) ∧ t.isDir p

/-- `_find_staging_dirs`. -/
def findStagingDirs (t : Tree String Byte) (root : Path String) : List (Path String) :=
  (if t.isDir (root ++ [".staging"]) then subdirectories t (root ++ [".staging"]) else []) ++
    if t.isDir root then tmpDirectories t root else []

/-! ## The service -/

section Service

variable {R F : Type} [FloatText R] [DurationFloat F]

/-- `read_staging_metadata`, of a tree that nobody changes. -/
def metadataAt (R : Type) [FloatText R] (t : Tree String Byte) (stagingDir : Path String) :
    Except (StorageException RecoveryError) (Option (Record R)) :=
  (runProg (readStagingMetadata R stagingDir : StorageProgram RecoveryError _).run t).1

/-- How old an operation is that has started then: `(now - started_at).total_seconds()`. -/
def ageSeconds (now : ℤ) (startedAt : ZonedDatetime) : Except (StorageException RecoveryError) F :=
  match startedAt.tzinfo with
  | some offset => .ok (DurationFloat.totalSeconds (now - startedAt.instant offset))
  | none => .error (.other .type)

/-- `_classify`. -/
def classify (settings : RecoverySettings F) (now : ℤ) (t : Tree String Byte) (stage : String)
    (stagingDir : Path String) : Except (StorageException RecoveryError) (RecoveryEntry R) := do
  let sizeBytes := dirSizeBytes t stagingDir
  match ← metadataAt R t stagingDir with
  | none =>
    return {
      stage, stagingPath := stagingDir, operationId := none, artifactId := none, startedAt := none
      classification := .invalid
      reason := "staging_state.json missing or unparseable"
      sizeBytes }
  | some metadata =>
    let operationId := metadata.get? (Str.ofString "operation_id")
    let artifactId := metadata.get? (Str.ofString "artifact_id")
    let startedAt := metadata.get? (Str.ofString "started_at")
    match startedAt with
    | some (.str text) =>
      match fromisoformat text with
      | none =>
        return {
          stage, stagingPath := stagingDir, operationId, artifactId, startedAt
          classification := .invalid
          reason := "staging_state.json has an unparseable started_at"
          sizeBytes }
      | some started =>
        let ageSeconds : F ← ageSeconds now started
        let threshold := settings.staleStagingAfterSeconds
        if ageSeconds < threshold then
          return {
            stage, stagingPath := stagingDir, operationId, artifactId, startedAt
            classification := .active
            reason := "started " ++ DurationFloat.format0f ageSeconds ++ "s ago, within the " ++
              DurationFloat.format0f threshold ++ "s active window"
            sizeBytes }
        else
          return {
            stage, stagingPath := stagingDir, operationId, artifactId, startedAt
            classification := .stale
            reason := "no observed activity for " ++ DurationFloat.format0f ageSeconds ++
              "s (threshold " ++ DurationFloat.format0f threshold ++ "s)"
            sizeBytes }
    | _ => throw (.other .type)

/-- The staging directories of a store, classified. -/
def scanRoot (settings : RecoverySettings F) (now : ℤ) (t : Tree String Byte)
    (store : String × Path String) : Except (StorageException RecoveryError) (List (RecoveryEntry R)) :=
  if !t.pathExists store.2 then .ok []
  else ((findStagingDirs t store.2).insertionSort (· ≤ ·)).mapM (classify settings now t store.1)

/-- `scan`. -/
def scan (settings : RecoverySettings F) (now : ℤ) (t : Tree String Byte) :
    Except (StorageException RecoveryError) (RecoveryScanResult R) := do
  let entries := (← (stagingRoots settings).mapM (scanRoot settings now t)).flatten
  return {
    activeCount := entries.countP fun e ↦ e.classification = .active
    staleCount := entries.countP fun e ↦ e.classification = .stale
    invalidCount := entries.countP fun e ↦ e.classification = .invalid
    entries }

/-- Discarding the staging directories of entries, one after the other. -/
def discardAll (t : Tree String Byte) (entries : List (RecoveryEntry R)) : Tree String Byte :=
  entries.foldl (fun t e ↦
    (runProg (discardStagingDir e.stagingPath : StorageProgram RecoveryError Unit).run t).2) t

/-- `cleanup_stale`: what it returns or raises, and the tree it leaves. -/
def cleanupStale (settings : RecoverySettings F) (now : ℤ) (dryRun : Bool) (t : Tree String Byte) :
    Except (StorageException RecoveryError) (List (RecoveryEntry R)) × Tree String Byte :=
  match scan settings now t with
  | .error e => (.error e, t)
  | .ok result =>
    let staleEntries := result.entries.filter fun e ↦ e.classification = .stale
    (.ok staleEntries, if dryRun then t else discardAll t staleEntries)

end Service

end Storage

end ForgeData
