import ForgeData.Python.Digest
import ForgeData.Storage.Atomic

/-!
# Raw storage on the local file system

The writing half of `app/storage/local.py`: the upload is streamed into a staging directory, hashed on
the way, and published by one rename; the manifest is a second commit.
-/

namespace ForgeData

namespace Storage

open Python FileSystem

/-! ## Streams and digests -/

/-- Binary streams that may raise, and that end. -/
class BinaryStream (ε : outParam Type) (σ : Type) where
  /-- `stream.read(size)`. -/
  read : ℤ → σ → Except ε (List Byte × σ)
  /-- At most so many bytes are still to come. -/
  remaining : σ → ℕ
  remaining_lt : ∀ {size : ℤ} {s s' : σ} {chunk : List Byte},
    read size s = .ok (chunk, s') → chunk ≠ [] → remaining s' < remaining s

/-- `ChunkedSha256`: what has been hashed so far. -/
structure ChunkedSha256 where
  hashed : List Byte := []

/-- `ChunkedSha256.update`. -/
def ChunkedSha256.update (d : ChunkedSha256) (chunk : List Byte) : ChunkedSha256 :=
  ⟨d.hashed ++ chunk⟩

/-- `ChunkedSha256.hexdigest`. -/
def ChunkedSha256.hexdigest (sha256 : List Byte → Sha256Digest) (d : ChunkedSha256) : Sha256Digest :=
  sha256 d.hashed

/-! ## Paths -/

/-- `path / segment`: an absolute segment replaces the path. -/
def joinSegment (path : Path String) (segment : String) : Path String :=
  if segment.toList.head? = some '/' then pathParts segment.toList
  else path ++ pathParts segment.toList

/-- Where a path leads: `..` is the directory above. What it goes back over is taken to be there. -/
def resolveDots (path : Path String) : Path String :=
  path.foldl (fun p name ↦ if name = ".." then p.dropLast else p ++ [name]) []

/-- `LocalRawStorage`. -/
structure LocalRawStorage where
  root : Path String
  fsyncEnabled : Bool := true

namespace LocalRawStorage

variable (storage : LocalRawStorage)

/-- The text of `_ingestion_dir`. -/
def ingestionDirText (customerId sessionId ingestionId : String) : String :=
  pathText ([customerId, sessionId, ingestionId].foldl joinSegment storage.root)

/-- `_ingestion_dir`. -/
def ingestionDir (customerId sessionId ingestionId : String) : Path String :=
  resolveDots ([customerId, sessionId, ingestionId].foldl joinSegment storage.root)

/-- The staging directory of an upload. -/
def stagingDir (ingestionId : String) : Path String := storage.root ++ [".staging", ingestionId]

variable {ε σ : Type}

/-- `exists`. -/
def pathExists (customerId sessionId ingestionId : String) : StorageProgram ε Bool :=
  call (.pathExists (storage.ingestionDir customerId sessionId ingestionId))

/-! ## Saving an upload -/

/-- `_WRITE_CHUNK_SIZE`. -/
def writeChunkSize : ℤ := 1024 * 1024

/-- The loop of `save`: write and hash until nothing more comes. -/
def writeChunks [BinaryStream ε σ] (destination : Path String) (stream : σ) (digest : ChunkedSha256)
    (sizeBytes : ℕ) : StorageProgram ε (ChunkedSha256 × ℕ) :=
  match _hread : BinaryStream.read writeChunkSize stream with
  | .error e => throw (.other e)
  | .ok (chunk, stream') =>
    if _hchunk : chunk = [] then return (digest, sizeBytes)
    else do
      call (.append destination chunk)
      writeChunks destination stream' (digest.update chunk) (sizeBytes + chunk.length)
termination_by BinaryStream.remaining stream
decreasing_by exact BinaryStream.remaining_lt _hread _hchunk

/-- `SavedArtifact`. -/
structure SavedArtifact where
  storageUri : String
  sizeBytes : ℕ
  sha256 : Sha256Digest

/-- The error of an ingestion directory that is there already. -/
def alreadyExists (customerId sessionId ingestionId : String) : StorageException ε :=
  .artifactAlreadyExists
    ("Ingestion directory already exists: " ++ storage.ingestionDirText customerId sessionId ingestionId)

variable (R : Type) [FloatText R]

/-- `save`. -/
def save [BinaryStream ε σ] (sha256 : List Byte → Sha256Digest) (process : Process)
    (customerId sessionId ingestionId filename : String) (stream : σ) :
    StorageProgram ε SavedArtifact := do
  let ingestionDir := storage.ingestionDir customerId sessionId ingestionId
  let alreadyExists := storage.alreadyExists customerId sessionId ingestionId
  let present : Bool ← call (.pathExists ingestionDir)
  if present then throw alreadyExists
  let stagingDir := storage.stagingDir ingestionId
  tryCatch (createStagingDir R process stagingDir ingestionId ingestionId "ingestion" ingestionDir) fun
    | .os .fileExists => throw alreadyExists
    | e => throw e
  let originalDir := stagingDir ++ ["original"]
  call (.makeDirs originalDir true)
  let destination := originalDir ++ [filename]
  let (digest, sizeBytes) ← tryCatch (do
    call (.create destination)
    writeChunks destination stream {} 0) fun e ↦ do
      discardStagingDir stagingDir
      throw e
  tryCatch (commitStagingDir R stagingDir ingestionDir storage.fsyncEnabled none) fun
    | .artifactDestinationExists _ => do
      discardStagingDir stagingDir
      throw alreadyExists
    | e => throw e
  return {
    storageUri := fileUri (ingestionDir ++ ["original", filename])
    sizeBytes
    sha256 := digest.hexdigest sha256 }

/-- `write_manifest`. -/
def writeManifest (customerId sessionId ingestionId : String) (manifest : Record R) :
    StorageProgram ε String := do
  let ingestionDir := storage.ingestionDir customerId sessionId ingestionId
  let manifestPath := ingestionDir ++ ["manifest.json"]
  let present : Bool ← call (.pathExists manifestPath)
  if present then
    throw (.artifactAlreadyExists ("Manifest already exists: " ++
      (storage.ingestionDirText customerId sessionId ingestionId ++ "/manifest.json")))
  writeJsonAtomic R ingestionDir "manifest.json" manifest
  return fileUri manifestPath

end LocalRawStorage

end Storage

end ForgeData
