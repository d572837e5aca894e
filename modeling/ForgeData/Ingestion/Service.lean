import ForgeData.Ingestion.Streams
import ForgeData.Python.Text
import ForgeData.Storage.Local

/-!
# The ingestion service

`app/ingestion/service.py` with its models and `app/utils/filenames.py`. The upload is peeked at, to
turn an empty one away, and then streamed into the raw storage behind a counter that stops an oversized
one midway. Identifiers, the clock, the free space of the disk, SHA-256 and the compatibility
decomposition of Unicode are given from outside.
-/

namespace ForgeData

namespace Ingestion

open Python Storage FileSystem

/-! ## Filenames -/

/-- The characters that `_SAFE_CHARS_RE` keeps. -/
def isSafeChar (c : Char) : Bool :=
  'A' ≤ c && c ≤ 'Z' || 'a' ≤ c && c ≤ 'z' || '0' ≤ c && c ≤ '9' || c = '.' || c = '_' || c = '-'

/-- `_SAFE_CHARS_RE.sub("_", text)`: a run of other characters becomes one underscore. -/
def replaceUnsafe : Bool → List Char → List Char
  | _, [] => []
  | inRun, c :: text =>
    if isSafeChar c then c :: replaceUnsafe false text
    else if inRun then replaceUnsafe true text
    else '_' :: replaceUnsafe true text

/-- `text.strip("._")`. -/
def stripDots (text : List Char) : List Char :=
  ((text.dropWhile fun c ↦ c = '.' || c = '_').reverse.dropWhile fun c ↦ c = '.' || c = '_').reverse

/-- `sanitize_filename`. -/
def sanitizeFilename (nfkd : List Char → List Char) (rawFilename : Option String) : String :=
  match rawFilename with
  | none => "upload"
  | some raw =>
    if raw = "" then "upload"
    else
      let cleaned := (raw.toList.filter fun c ↦ c ≠ '\x00').map fun c ↦ if c = '\\' then '/' else c
      let basename := (pathParts cleaned).getLast?.getD ""
      let normalized := (nfkd basename.toList).filter fun c ↦ c.toNat < 128
      let safe := String.ofList (stripDots (replaceUnsafe false normalized))
      if safe = "" || safe = "." || safe = ".." then "upload" else safe

/-- `extension_of`, of a sanitized filename. -/
def extensionOf (filename : String) : String :=
  let extension := (filename.toList.reverse.takeWhile fun c ↦ c ≠ '.').reverse
  if extension.length + 1 < filename.length ∧ extension ≠ [] then
    String.ofList ('.' :: extension.map Char.toLower)
  else ""

/-! ## Requests and manifests -/

/-- The settings of the service. -/
structure IngestionSettings where
  allowedExtensions : List String
  maxUploadSizeBytes : ℕ
  diskReserveBytes : ℕ

/-- `UploadRequest`. -/
structure UploadRequest (σ : Type) where
  filename : Option String
  contentType : Option String
  stream : σ
  customerId : Option String
  deviceId : Option String
  sessionId : Option String
  sourceType : Option String
  notes : Option String

/-- What a call of the service is given from outside. -/
structure Surroundings where
  /-- `generate_ingestion_id()`. -/
  ingestionId : String
  /-- `generate_session_id()`. -/
  newSessionId : String
  process : Process
  /-- The time of the ingestion, as the manifest writes it. -/
  ingestedAt : String
  /-- `shutil.disk_usage(..).free`. -/
  availableBytes : ℕ
  sha256 : List Byte → Sha256Digest
  /-- `unicodedata.normalize("NFKD", ..)`. -/
  nfkd : List Char → List Char

/-- `resolve_customer_id`. -/
def resolveCustomerId (customerId : Option String) : String :=
  match customerId with
  | none => "anonymous"
  | some id => if strip id = "" then "anonymous" else strip id

/-- The session of a request, or else a new one. -/
def resolveSessionId (env : Surroundings) (sessionId : Option String) : String :=
  match sessionId with
  | none => env.newSessionId
  | some id => if strip id = "" then env.newSessionId else strip id

/-- `Manifest`. -/
structure Manifest where
  ingestionId : String
  sessionId : String
  customerId : String
  deviceId : Option String
  sourceType : Option String
  notes : Option String
  originalFilename : String
  contentType : Option String
  sizeBytes : ℕ
  sha256 : Sha256Digest
  ingestedAt : String
  storageUri : String
  pipelineStage : String := "raw"

/-- `IngestionResponse`. -/
structure IngestionResponse where
  ingestionId : String
  sessionId : String
  customerId : String
  deviceId : Option String
  sourceType : Option String
  originalFilename : String
  contentType : Option String
  sizeBytes : ℕ
  sha256 : Sha256Digest
  storageUri : String
  status : String

/-- A string of a manifest, or null. -/
def optionalStr {R : Type} : Option String → Value R
  | none => .none
  | some s => .str (Str.ofString s)

/-- `manifest.model_dump(mode="json")`. -/
def Manifest.modelDump (R : Type) (m : Manifest) : Record R where
  items :=
    [(Str.ofString "ingestion_id", .str (Str.ofString m.ingestionId)),
      (Str.ofString "session_id", .str (Str.ofString m.sessionId)),
      (Str.ofString "customer_id", .str (Str.ofString m.customerId)),
      (Str.ofString "device_id", optionalStr m.deviceId),
      (Str.ofString "source_type", optionalStr m.sourceType),
      (Str.ofString "notes", optionalStr m.notes),
      (Str.ofString "original_filename", .str (Str.ofString m.originalFilename)),
      (Str.ofString "content_type", optionalStr m.contentType),
      (Str.ofString "size_bytes", .int m.sizeBytes),
      (Str.ofString "sha256", .str (Str.ofString m.sha256.val.text)),
      (Str.ofString "ingested_at", .str (Str.ofString m.ingestedAt)),
      (Str.ofString "storage_uri", .str (Str.ofString m.storageUri)),
      (Str.ofString "pipeline_stage", .str (Str.ofString m.pipelineStage))]
  nodup := by
    have h : (["ingestion_id", "session_id", "customer_id", "device_id", "source_type", "notes",
      "original_filename", "content_type", "size_bytes", "sha256", "ingested_at", "storage_uri",
      "pipeline_stage"].map Str.ofString).Nodup := by decide
    exact h

/-! ## Ingestion -/

section Ingest

variable {σ : Type} [ByteStream σ]

/-- A limited reader is a stream that may raise: every piece leaves less to come. -/
instance : BinaryStream IngestionError (SizeLimitedReader σ) where
  read := SizeLimitedReader.read
  remaining s := (ByteStream.pending s.stream).length
  remaining_lt {size s s' chunk} h hchunk := by
    rw [SizeLimitedReader.read] at h
    dsimp only at h
    split at h
    · exact absurd h nofun
    · obtain ⟨rfl, rfl⟩ := Prod.mk.inj (Except.ok.inj h)
      have hpos := List.length_pos_iff.mpr hchunk
      dsimp only
      rw [ByteStream.pending_read size s.stream, List.length_append]
      omega

/-- `_PEEK_SIZE`. -/
def peekSize : ℤ := 1024 * 1024

/-- `require_disk_space`. -/
def requireDiskSpace (stage : String) (availableBytes estimatedRequiredBytes reserveBytes : ℕ) :
    StorageProgram IngestionError Unit :=
  let required := estimatedRequiredBytes + reserveBytes
  if required ≤ availableBytes ∧ reserveBytes ≤ availableBytes then return ()
  else throw (.insufficientDiskSpace stage availableBytes required reserveBytes)

/-- `IngestionService.ingest`. -/
def ingest (R : Type) [FloatText R] (storage : LocalRawStorage) (settings : IngestionSettings)
    (env : Surroundings) (request : UploadRequest σ) :
    StorageProgram IngestionError IngestionResponse := do
  let safeFilename := sanitizeFilename env.nfkd request.filename
  let extension := extensionOf safeFilename
  let ingestionId := env.ingestionId
  let sessionId := resolveSessionId env request.sessionId
  let customerId := resolveCustomerId request.customerId
  if extension ∉ settings.allowedExtensions then
    throw (.other (.unsupportedFileType (s!"Unsupported file extension '{extension}'. Allowed: " ++
      String.intercalate ", " settings.allowedExtensions)))
  let present : Bool ← storage.pathExists customerId sessionId ingestionId
  if present then throw (.other (.ingestionConflict "Ingestion ID collision detected"))
  let (firstChunk, stream) := ByteStream.read peekSize request.stream
  if firstChunk = [] then throw (.other (.emptyFile "Uploaded file is empty"))
  requireDiskSpace "ingestion" env.availableBytes settings.maxUploadSizeBytes settings.diskReserveBytes
  let streamForStorage : PrefixedStream σ := ⟨firstChunk, stream⟩
  let limitedStream : SizeLimitedReader (PrefixedStream σ) :=
    { stream := streamForStorage, maxBytes := settings.maxUploadSizeBytes }
  let saved ← tryCatch (storage.save R env.sha256 env.process customerId sessionId ingestionId
    safeFilename limitedStream) fun
    | .artifactAlreadyExists message => throw (.other (.ingestionConflict message))
    | e => throw e
  let manifest : Manifest :=
    { ingestionId, sessionId, customerId, deviceId := request.deviceId,
      sourceType := request.sourceType, notes := request.notes, originalFilename := safeFilename,
      contentType := request.contentType, sizeBytes := saved.sizeBytes, sha256 := saved.sha256,
      ingestedAt := env.ingestedAt, storageUri := saved.storageUri }
  let _ ← storage.writeManifest R customerId sessionId ingestionId (manifest.modelDump R)
  return {
    ingestionId, sessionId, customerId, deviceId := request.deviceId,
    sourceType := request.sourceType, originalFilename := safeFilename,
    contentType := request.contentType, sizeBytes := saved.sizeBytes, sha256 := saved.sha256,
    storageUri := saved.storageUri, status := "stored" }

end Ingest

end Ingestion

end ForgeData
