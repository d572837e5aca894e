import ForgeData.Ingestion.Service
import ForgeData.Storage.Publication

/-!
# Faithful uploads

However the uploaded stream splits its bytes into reads, the limited reader delivers all of them as long
as there are not more than the limit, and raises at the first read that goes beyond it. With what the
raw storage makes of a delivery, an upload is turned away exactly when it is empty or too large, and
otherwise stored as it came.
-/

namespace ForgeData

namespace Ingestion

open Python Storage FileSystem LocalRawStorage

/-! ## What the limited reader delivers -/

section Delivery

variable {σ : Type} [ByteStream σ]

theorem read_limited (s : SizeLimitedReader σ) :
    (BinaryStream.read writeChunkSize s : Except IngestionError (List Byte × SizeLimitedReader σ)) =
      if s.maxBytes < s.readSoFar + (ByteStream.read writeChunkSize s.stream).1.length then
        .error (.fileTooLarge s!"Upload exceeds maximum size of {s.maxBytes} bytes")
      else .ok ((ByteStream.read writeChunkSize s.stream).1,
        { s with
          stream := (ByteStream.read writeChunkSize s.stream).2
          readSoFar := s.readSoFar + (ByteStream.read writeChunkSize s.stream).1.length }) := rfl

/-- **Within the limit** every byte is delivered. -/
theorem delivers_pending (s : SizeLimitedReader σ)
    (h : s.readSoFar + (ByteStream.pending s.stream).length ≤ s.maxBytes) :
    Delivers s (ByteStream.pending s.stream) (.ok ()) := by
  induction hn : (ByteStream.pending s.stream).length using Nat.strong_induction_on generalizing s with
  | _ n ih =>
    have hpending := ByteStream.pending_read writeChunkSize s.stream
    have hlength := congrArg List.length hpending
    rw [List.length_append] at hlength
    have hread := read_limited s
    rw [if_neg (by omega)] at hread
    by_cases hchunk : (ByteStream.read writeChunkSize s.stream).1 = []
    · have hnil : ByteStream.pending s.stream = [] := by
        by_contra hne
        exact ByteStream.read_ne_nil writeChunkSize s.stream (by decide) hne hchunk
      rw [hchunk] at hread
      rw [hnil]
      exact .done hread
    · have hpos := List.length_pos_iff.mpr hchunk
      have hshorter : (ByteStream.pending (ByteStream.read writeChunkSize s.stream).2).length < n := by
        omega
      rw [hpending]
      exact .chunk hread hchunk (ih _ hshorter _ (by dsimp only; omega) rfl)

/-- **Beyond the limit** the reader raises, after some of the bytes. -/
theorem exists_delivers_error (s : SizeLimitedReader σ)
    (h : s.maxBytes < s.readSoFar + (ByteStream.pending s.stream).length) :
    ∃ bytes message, Delivers s bytes (.error (.fileTooLarge message)) := by
  induction hn : (ByteStream.pending s.stream).length using Nat.strong_induction_on generalizing s with
  | _ n ih =>
    have hpending := ByteStream.pending_read writeChunkSize s.stream
    have hlength := congrArg List.length hpending
    rw [List.length_append] at hlength
    have hread := read_limited s
    by_cases hmax : s.maxBytes < s.readSoFar + (ByteStream.read writeChunkSize s.stream).1.length
    · rw [if_pos hmax] at hread
      exact ⟨[], _, .raised hread⟩
    · rw [if_neg hmax] at hread
      have hchunk : (ByteStream.read writeChunkSize s.stream).1 ≠ [] := by
        refine ByteStream.read_ne_nil writeChunkSize s.stream (by decide) fun hnil ↦ ?_
        rw [hnil, List.length_nil] at h hlength
        omega
      have hpos := List.length_pos_iff.mpr hchunk
      have hshorter : (ByteStream.pending (ByteStream.read writeChunkSize s.stream).2).length < n := by
        omega
      obtain ⟨bytes, message, hrest⟩ := ih _ hshorter
        { s with
          stream := (ByteStream.read writeChunkSize s.stream).2
          readSoFar := s.readSoFar + (ByteStream.read writeChunkSize s.stream).1.length }
        (by dsimp only; omega) rfl
      exact ⟨_, message, .chunk hread hchunk hrest⟩

end Delivery

/-! ## Uploads -/

/-- Nothing has been stored: whatever is new is a directory on the way to the staging area. -/
def NothingStored (storage : LocalRawStorage) (t t' : Tree String Byte) : Prop :=
  ∀ p, t'.get? p = t.get? p ∨ p <+: storage.root ++ [".staging"] ∧ t'.get? p = some .dir

/-- The bytes of an upload are in its directory, and beside them a manifest with their size and digest,
which are also those of the response. -/
structure Stored (R : Type) [FloatText R] (t : Tree String Byte) (dir : Path String)
    (filename : String) (content : List Byte) (digest : Sha256Digest) (response : IngestionResponse) :
    Prop where
  original : t.file? (dir ++ ["original", filename]) = some content
  sizeBytes : response.sizeBytes = content.length
  sha256 : response.sha256 = digest
  manifest : ∃ (m : Manifest) (bytes : List Byte), m.sizeBytes = content.length ∧ m.sha256 = digest ∧
    Utf8.encode (journalText (m.modelDump R)) = some bytes ∧
    t.file? (dir ++ ["manifest.json"]) = some bytes

section Ingest

variable {σ : Type} [ByteStream σ] (R : Type) [FloatText R] [LawfulFloatText R]
  (storage : LocalRawStorage) (settings : IngestionSettings) (env : Surroundings)
  (request : UploadRequest σ) {t : Tree String Byte}

/-- The directory of the upload. -/
def uploadDir : Path String :=
  storage.ingestionDir (resolveCustomerId request.customerId) (resolveSessionId env request.sessionId)
    env.ingestionId

/-- There is room for the upload. -/
abbrev UploadFree (t : Tree String Byte) : Prop :=
  Free storage t (resolveCustomerId request.customerId) (resolveSessionId env request.sessionId)
    env.ingestionId

variable {storage settings env request}

omit [LawfulFloatText R] in
theorem runs_ingest_empty (hfree : UploadFree storage env request t)
    (hextension : extensionOf (sanitizeFilename env.nfkd request.filename) ∈ settings.allowedExtensions)
    (hcontent : ByteStream.pending request.stream = []) :
    Runs (ingest R storage settings env request) t
      (.error (.other (.emptyFile "Uploaded file is empty"))) t := by
  have hpending := ByteStream.pending_read peekSize request.stream
  rw [hcontent] at hpending
  have hchunk := (List.append_eq_nil_iff.mp hpending.symm).1
  rw [ingest, if_neg (not_not.mpr hextension)]
  refine (runs_pathExists hfree).bind ?_
  dsimp only
  rw [if_neg Bool.false_ne_true, if_pos hchunk]
  exact Runs.bind_error _ (Runs.throw _ t)

theorem runs_requireDiskSpace (stage : String) {available estimated reserve : ℕ}
    (h : estimated + reserve ≤ available) :
    Runs (requireDiskSpace stage available estimated reserve) t (.ok ()) t := by
  rw [requireDiskSpace, if_pos ⟨h, by omega⟩]
  exact Runs.pure () t

/-- The limited reader that the storage gets, before its first read. -/
def limitedReader (settings : IngestionSettings) (request : UploadRequest σ) :
    SizeLimitedReader (PrefixedStream σ) :=
  { stream := ⟨(ByteStream.read peekSize request.stream).1, (ByteStream.read peekSize request.stream).2⟩
    maxBytes := settings.maxUploadSizeBytes }

theorem pending_limitedReader (settings : IngestionSettings) (request : UploadRequest σ) :
    ByteStream.pending (limitedReader settings request).stream = ByteStream.pending request.stream :=
  (ByteStream.pending_read peekSize request.stream).symm

theorem runs_ingest_tooLarge (hfree : UploadFree storage env request t)
    (hextension : extensionOf (sanitizeFilename env.nfkd request.filename) ∈ settings.allowedExtensions)
    (hspace : settings.maxUploadSizeBytes + settings.diskReserveBytes ≤ env.availableBytes)
    (hcontent : ByteStream.pending request.stream ≠ [])
    (hlarge : settings.maxUploadSizeBytes < (ByteStream.pending request.stream).length) :
    ∃ t' message, Runs (ingest R storage settings env request) t
        (.error (.other (.fileTooLarge message))) t' ∧ NothingStored storage t t' := by
  have hchunk := ByteStream.read_ne_nil peekSize request.stream (by decide) hcontent
  obtain ⟨bytes, message, hstream⟩ := exists_delivers_error (limitedReader settings request) (by
    rw [pending_limitedReader]
    exact hlarge.trans_eq (Nat.zero_add _).symm)
  obtain ⟨t', hrun, ht'⟩ := runs_save_error (R := R) hfree hstream env.sha256 env.process
    (sanitizeFilename env.nfkd request.filename)
  refine ⟨t', message, ?_, fun p ↦ ?_⟩
  · rw [ingest, if_neg (not_not.mpr hextension)]
    refine (runs_pathExists hfree).bind ?_
    dsimp only
    rw [if_neg Bool.false_ne_true, if_neg hchunk]
    refine (runs_requireDiskSpace "ingestion" hspace).bind ?_
    exact Runs.bind_error _ (Runs.tryCatch_error hrun (Runs.throw _ t'))
  -- the aborted save removes its staging directory and leaves at most new parents
  · rw [ht']
    split
    · next hp => exact .inl (hfree.staging p hp).symm
    · next hp =>
      rw [View.withDirs]
      split
      · next hnew =>
        refine .inr ⟨?_, rfl⟩
        have hpre := (mem_ancestors.mp hnew.1).1
        have hsplit : storage.stagingDir env.ingestionId =
            (storage.root ++ [".staging"]) ++ [env.ingestionId] := by
          rw [List.append_assoc]
          rfl
        rw [hsplit, List.prefix_concat_iff, ← hsplit] at hpre
        exact hpre.resolve_left fun heq ↦ hp (heq ▸ List.prefix_rfl)
      · exact .inl rfl

theorem runs_ingest_ok (hfree : UploadFree storage env request t)
    (hextension : extensionOf (sanitizeFilename env.nfkd request.filename) ∈ settings.allowedExtensions)
    (hspace : settings.maxUploadSizeBytes + settings.diskReserveBytes ≤ env.availableBytes)
    (hcontent : ByteStream.pending request.stream ≠ [])
    (hlimit : (ByteStream.pending request.stream).length ≤ settings.maxUploadSizeBytes) :
    ∃ t' response, Runs (ingest R storage settings env request) t (.ok response) t' ∧
      Stored R t' (uploadDir storage env request) (sanitizeFilename env.nfkd request.filename)
        (ByteStream.pending request.stream) (env.sha256 (ByteStream.pending request.stream))
        response := by
  have hchunk := ByteStream.read_ne_nil peekSize request.stream (by decide) hcontent
  have hstream := delivers_pending (limitedReader settings request) (by
    rw [pending_limitedReader]
    exact (Nat.zero_add _).trans_le hlimit)
  rw [pending_limitedReader] at hstream
  obtain ⟨t₁, rest, hrun₁, h₁⟩ := runs_save_ok (R := R) hfree hstream env.sha256 env.process
    (sanitizeFilename env.nfkd request.filename)
  let content := ByteStream.pending request.stream
  let manifest : Manifest :=
    { ingestionId := env.ingestionId
      sessionId := resolveSessionId env request.sessionId
      customerId := resolveCustomerId request.customerId
      deviceId := request.deviceId
      sourceType := request.sourceType
      notes := request.notes
      originalFilename := sanitizeFilename env.nfkd request.filename
      contentType := request.contentType
      sizeBytes := content.length
      sha256 := env.sha256 content
      ingestedAt := env.ingestedAt
      storageUri := fileUri (uploadDir storage env request ++
        ["original", sanitizeFilename env.nfkd request.filename]) }
  obtain ⟨bytes, hbytes⟩ := exists_encode_journalText (manifest.modelDump R)
  -- the manifest is written beside the bytes, at a path that is still free
  have hbeside : uploadView (sanitizeFilename env.nfkd request.filename) content ["manifest.json"] = none :=
    uploadView_of_ne _ _ (by decide)
  obtain ⟨t₂, hrun₂, h₂⟩ := runs_writeJsonAtomic (ε := IngestionError) h₁ "manifest.json"
    (by rw [hbeside]; exact (Option.some_ne_none _).symm) (uploadView_of_ne _ _ (by decide))
    (manifest.modelDump R) hbytes
  have hmanifest : Runs (storage.writeManifest R (resolveCustomerId request.customerId)
      (resolveSessionId env request.sessionId) env.ingestionId (manifest.modelDump R) :
        StorageProgram IngestionError String) t₁
      (.ok (fileUri (uploadDir storage env request ++ ["manifest.json"]))) t₂ := by
    rw [writeManifest]
    refine Runs.bind (h₁.pathExists (List.cons_ne_nil "manifest.json" [])) ?_
    rw [hbeside]
    exact hrun₂.bind (Runs.pure _ t₂)
  let response : IngestionResponse :=
    { ingestionId := env.ingestionId
      sessionId := resolveSessionId env request.sessionId
      customerId := resolveCustomerId request.customerId
      deviceId := request.deviceId
      sourceType := request.sourceType
      originalFilename := sanitizeFilename env.nfkd request.filename
      contentType := request.contentType
      sizeBytes := content.length
      sha256 := env.sha256 content
      storageUri := manifest.storageUri
      status := "stored" }
  -- writing the manifest does not disturb the bytes
  have horiginal : Function.update (uploadView response.originalFilename content) ["manifest.json"]
      (some (.file bytes)) ["original", response.originalFilename] = some (.file content) := by
    rw [Function.update_of_ne (by simp), uploadView, Function.update_self]
  refine ⟨t₂, response, ?_, h₂.file?_append (List.cons_ne_nil _ _) horiginal, rfl, rfl, manifest, bytes,
    rfl, rfl, hbytes, h₂.file?_append (List.cons_ne_nil _ _) (Function.update_self ..)⟩
  · rw [ingest, if_neg (not_not.mpr hextension)]
    refine (runs_pathExists hfree).bind ?_
    dsimp only
    rw [if_neg Bool.false_ne_true, if_neg hchunk]
    refine (runs_requireDiskSpace "ingestion" hspace).bind ?_
    refine (Runs.tryCatch_ok _ hrun₁).bind ?_
    exact hmanifest.bind (Runs.pure _ t₂)

/-- **Ingestion is faithful to the stream.** Whatever the pieces in which the stream is read, an upload
is turned away as too large exactly when it is longer than the limit and as empty exactly when it is
empty, and nothing is stored then; otherwise its bytes are stored, with their size and digest. -/
theorem ingest_faithful (hfree : UploadFree storage env request t)
    (hextension : extensionOf (sanitizeFilename env.nfkd request.filename) ∈ settings.allowedExtensions)
    (hspace : settings.maxUploadSizeBytes + settings.diskReserveBytes ≤ env.availableBytes) :
    ∃ r t', Runs (ingest R storage settings env request) t r t' ∧
      ((∃ message, r = .error (.other (.fileTooLarge message))) ↔
        settings.maxUploadSizeBytes < (ByteStream.pending request.stream).length) ∧
      ((∃ message, r = .error (.other (.emptyFile message))) ↔
        ByteStream.pending request.stream = []) ∧
      (settings.maxUploadSizeBytes < (ByteStream.pending request.stream).length ∨
        ByteStream.pending request.stream = [] → NothingStored storage t t') ∧
      (ByteStream.pending request.stream ≠ [] →
        (ByteStream.pending request.stream).length ≤ settings.maxUploadSizeBytes →
        ∃ response, r = .ok response ∧
          Stored R t' (uploadDir storage env request) (sanitizeFilename env.nfkd request.filename)
            (ByteStream.pending request.stream) (env.sha256 (ByteStream.pending request.stream))
            response) := by
  -- empty, too large, or within the limit
  by_cases hcontent : ByteStream.pending request.stream = []
  · refine ⟨_, t, runs_ingest_empty R hfree hextension hcontent, ?_, ?_, fun _ p ↦ .inl rfl,
      fun hne ↦ absurd hcontent hne⟩
    · rw [hcontent]
      exact ⟨fun ⟨_, h⟩ ↦ by simp at h, fun h ↦ absurd h (Nat.not_lt_zero _)⟩
    · exact ⟨fun _ ↦ hcontent, fun _ ↦ ⟨_, rfl⟩⟩
  · by_cases hlarge : settings.maxUploadSizeBytes < (ByteStream.pending request.stream).length
    · obtain ⟨t', message, hrun, hnothing⟩ :=
        runs_ingest_tooLarge R hfree hextension hspace hcontent hlarge
      refine ⟨_, t', hrun, ⟨fun _ ↦ hlarge, fun _ ↦ ⟨message, rfl⟩⟩, ?_, fun _ ↦ hnothing,
        fun _ hle ↦ absurd hlarge (not_lt.mpr hle)⟩
      exact ⟨fun ⟨_, h⟩ ↦ by simp at h, fun h ↦ absurd h hcontent⟩
    · obtain ⟨t', response, hrun, hstored⟩ :=
        runs_ingest_ok R hfree hextension hspace hcontent (not_lt.mp hlarge)
      refine ⟨_, t', hrun, ?_, ?_, fun h ↦ absurd h (not_or.mpr ⟨hlarge, hcontent⟩),
        fun _ _ ↦ ⟨response, rfl, hstored⟩⟩
      · exact ⟨nofun, fun h ↦ absurd h hlarge⟩
      · exact ⟨nofun, fun h ↦ absurd h hcontent⟩

end Ingest

/-! ## An upload in pieces -/

/-- Three bytes, one at a time. -/
def threeBytes : PiecewiseStream where
  position := 0
  rest := [1, 2, 3]
  pieceLength _ size := if size = 0 then 0 else 1
  pieceLength_pos _ size h := by simp [h]
  pieceLength_le _ size := by
    split
    · exact Nat.zero_le _
    · omega

/-- A request with nothing in it but the stream. -/
def plainRequest : UploadRequest PiecewiseStream where
  filename := none
  contentType := none
  stream := threeBytes
  customerId := none
  deviceId := none
  sessionId := none
  sourceType := none
  notes := none

/-- Three bytes are allowed, and files without an extension. -/
def plainSettings : IngestionSettings := ⟨[""], 3, 10⟩

/-- Surroundings in which every digest consists of zeros. -/
def plainSurroundings : Surroundings where
  ingestionId := "ing_1"
  newSessionId := "sess_1"
  process := ⟨1, "2024-01-01T00:00:00+00:00"⟩
  ingestedAt := "2024-01-01T00:00:00Z"
  availableBytes := 100
  sha256 _ := zeroDigest
  nfkd := id

theorem ingest_faithful_threeBytes : ∃ t' response,
    Runs (ingest BitFloat ⟨["raw"], true⟩ plainSettings plainSurroundings plainRequest) .empty
      (.ok response) t' ∧ response.sizeBytes = 3 ∧
      t'.file? ["raw", "anonymous", "sess_1", "ing_1", "original", "upload"] = some [1, 2, 3] := by
  have hfree : UploadFree ⟨["raw"], true⟩ plainSurroundings plainRequest .empty :=
    free_of_isPlain (by decide) ⟨by decide +kernel, by decide +kernel⟩
      ⟨by decide +kernel, by decide +kernel⟩ ⟨by decide +kernel, by decide +kernel⟩ (fun _ _ ↦ rfl)
      (fun _ _ ↦ rfl) (fun _ _ ↦ rfl) (.inl (by decide +kernel))
  have hextension : extensionOf (sanitizeFilename plainSurroundings.nfkd plainRequest.filename) ∈
      plainSettings.allowedExtensions := by decide +kernel
  obtain ⟨r, t', hrun, -, -, -, hok⟩ := ingest_faithful BitFloat hfree hextension (by decide)
  obtain ⟨response, rfl, hstored⟩ := hok (List.cons_ne_nil _ _) (by decide)
  have hdir : uploadDir ⟨["raw"], true⟩ plainSurroundings plainRequest ++
      ["original", sanitizeFilename plainSurroundings.nfkd plainRequest.filename] =
      ["raw", "anonymous", "sess_1", "ing_1", "original", "upload"] := by
    decide +kernel
  refine ⟨t', response, hrun, hstored.sizeBytes, ?_⟩
  rw [← hdir]
  exact hstored.original

end Ingestion

end ForgeData
