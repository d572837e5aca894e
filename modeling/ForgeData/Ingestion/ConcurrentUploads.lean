import ForgeData.Ingestion.FaithfulUploads
import ForgeData.Storage.StagedSaves

/-!
# Concurrent uploads

Any number of uploads under one id, with other work on the file system between their calls, where every
call may fail and every program may be stopped for good. The staging directory is the lock: `mkdir` lets
one of them in at a time, and the rename publishes everything at once. So a reader finds at the
destination nothing, or the whole of one upload; and the manifest, once it is there, is that of the bytes
beside it.
-/

namespace ForgeData

namespace Ingestion

open Python Storage FileSystem LocalRawStorage Interleaving

section Uploads

variable {σ : Type} [ByteStream σ] (R : Type) [FloatText R] (storage : LocalRawStorage)
  (settings : IngestionSettings)

/-- The manifest of an upload. -/
def manifestOf (env : Surroundings) (request : UploadRequest σ) : Manifest :=
  let content := ByteStream.pending request.stream
  let filename := sanitizeFilename env.nfkd request.filename
  { ingestionId := env.ingestionId
    sessionId := resolveSessionId env request.sessionId
    customerId := resolveCustomerId request.customerId
    deviceId := request.deviceId
    sourceType := request.sourceType
    notes := request.notes
    originalFilename := filename
    contentType := request.contentType
    sizeBytes := content.length
    sha256 := env.sha256 content
    ingestedAt := env.ingestedAt
    storageUri := fileUri (uploadDir storage env request ++ ["original", filename]) }

/-- All that is in a directory is one upload: its bytes, and its manifest as soon as there is one. -/
structure Shows (env : Surroundings) (request : UploadRequest σ) (v : View String Byte) : Prop where
  directory : v [] = some .dir
  originalDir : v ["original"] = some .dir
  original : v ["original", sanitizeFilename env.nfkd request.filename] =
    some (.file (ByteStream.pending request.stream))
  nonempty : ByteStream.pending request.stream ≠ []
  withinLimit : (ByteStream.pending request.stream).length ≤ settings.maxUploadSizeBytes
  manifest : v ["manifest.json"] = none ∨ ∃ bytes,
    Utf8.encode (journalText ((manifestOf storage env request).modelDump R)) = some bytes ∧
      v ["manifest.json"] = some (.file bytes)
  nothingElse : ∀ q, q ∉ [[], ["original"], ["original", sanitizeFilename env.nfkd request.filename],
    ["manifest.json"], ["manifest.json.tmp"]] → v q = none

variable {R storage settings} {env : Surroundings} {request : UploadRequest σ} {v : View String Byte}

theorem Shows.exists_ne_nil (h : Shows R storage settings env request v) :
    ∃ q, q ≠ [] ∧ v q ≠ none :=
  ⟨["original"], List.cons_ne_nil _ _, h.originalDir ▸ Option.some_ne_none _⟩

theorem Shows.update_tmp (h : Shows R storage settings env request v) (node : Option (Node Byte)) :
    Shows R storage settings env request (Function.update v ["manifest.json.tmp"] node) := by
  have hne {q : Path String} (hq : q ≠ ["manifest.json.tmp"]) :
      Function.update v ["manifest.json.tmp"] node q = v q := Function.update_of_ne hq _ _
  refine ⟨?_, ?_, ?_, h.nonempty, h.withinLimit, ?_, fun q hq ↦ ?_⟩
  · rw [hne (List.cons_ne_nil _ _).symm, h.directory]
  · rw [hne (by decide), h.originalDir]
  · rw [hne (by simp), h.original]
  · rw [hne (by decide)]
    exact h.manifest
  · rw [hne, h.nothingElse q hq]
    rintro rfl
    exact hq (by simp)

theorem Shows.update_manifest (h : Shows R storage settings env request v) {bytes : List Byte}
    (hbytes : Utf8.encode (journalText ((manifestOf storage env request).modelDump R)) = some bytes) :
    Shows R storage settings env request
      (Function.update v ["manifest.json"] (some (.file bytes))) := by
  have hne {q : Path String} (hq : q ≠ ["manifest.json"]) :
      Function.update v ["manifest.json"] (some (.file bytes)) q = v q := Function.update_of_ne hq _ _
  refine ⟨?_, ?_, ?_, h.nonempty, h.withinLimit, .inr ⟨bytes, hbytes, Function.update_self ..⟩,
    fun q hq ↦ ?_⟩
  · rw [hne (List.cons_ne_nil _ _).symm, h.directory]
  · rw [hne (by decide), h.originalDir]
  · rw [hne (by simp), h.original]
  · rw [hne, h.nothingElse q hq]
    rintro rfl
    exact hq (by simp)

theorem shows_uploadedDir (hcontent : ByteStream.pending request.stream ≠ [])
    (hlimit : (ByteStream.pending request.stream).length ≤ settings.maxUploadSizeBytes) :
    Shows R storage settings env request
      (uploadedDir (sanitizeFilename env.nfkd request.filename) (ByteStream.pending request.stream)) := by
  refine ⟨?_, ?_, Function.update_self .., hcontent, hlimit, .inl ?_, fun q hq ↦ ?_⟩
  · rfl
  · rw [uploadedDir, Function.update_of_ne (by simp), Function.update_self]
  · rw [uploadedDir, Function.update_of_ne (by simp), Function.update_of_ne (by decide)]
    rfl
  · simp only [List.mem_cons, List.not_mem_nil, or_false, not_or] at hq
    rw [uploadedDir, Function.update_of_ne hq.2.2.1, Function.update_of_ne hq.2.1, View.emptyDir,
      Function.update_of_ne hq.1]

/-! ## What a limited reader can deliver -/

/-- If the limited reader delivers an upload to its end, it delivers all of it, and it is not too
large. -/
theorem eq_pending_of_delivers {bytes : List Byte}
    (h : Delivers (limitedReader settings request) bytes (.ok ())) :
    bytes = ByteStream.pending request.stream ∧
      (ByteStream.pending request.stream).length ≤ settings.maxUploadSizeBytes := by
  have hpending := pending_limitedReader settings request
  by_cases hlarge : settings.maxUploadSizeBytes < (ByteStream.pending request.stream).length
  · obtain ⟨bytes', message, herror⟩ := exists_delivers_error (limitedReader settings request) (by
      rw [hpending]
      exact hlarge.trans_eq (Nat.zero_add _).symm)
    cases (h.unique herror).2
  · have hall := delivers_pending (limitedReader settings request) (by
      rw [hpending]
      exact (Nat.zero_add _).trans_le (not_lt.mp hlarge))
    exact ⟨(h.unique hall).1.trans hpending, not_lt.mp hlarge⟩

/-! ## The publication of an upload -/

variable {requests : Set (Surroundings × UploadRequest σ)} {customerId sessionId ingestionId : String}

theorem exists_ne_nil_of_shows
    (h : ∃ u ∈ requests, Shows R storage settings u.1 u.2 v) : ∃ q, q ≠ [] ∧ v q ≠ none := by
  obtain ⟨u, -, hu⟩ := h
  exact hu.exists_ne_nil

variable (R storage settings requests)

/-- The publication that uploads under one id compete for. -/
def uploadPublishing {customerId sessionId ingestionId : String}
    (hstaging : ¬storage.stagingDir ingestionId <+:
      storage.ingestionDir customerId sessionId ingestionId)
    (hfinal : ¬storage.ingestionDir customerId sessionId ingestionId <+:
      storage.stagingDir ingestionId) : Publishing String Byte where
  staging := storage.stagingDir ingestionId
  final := storage.ingestionDir customerId sessionId ingestionId
  Complete v := ∃ u ∈ requests, Shows R storage settings u.1 u.2 v
  Scratch q := q = ["manifest.json.tmp"]
  Free o := ∀ p, storage.stagingDir ingestionId <+: p ∨
    storage.ingestionDir customerId sessionId ingestionId <+: p → ¬o.Touches p
  free h := h _
  exists_of_complete := exists_ne_nil_of_shows
  notInStaging := hstaging
  notInFinal := hfinal

variable {R storage settings requests}
  {hstaging : ¬storage.stagingDir ingestionId <+: storage.ingestionDir customerId sessionId ingestionId}
  {hfinal : ¬storage.ingestionDir customerId sessionId ingestionId <+: storage.stagingDir ingestionId}

theorem shows_update_tmp (hu : (env, request) ∈ requests) (hv : Shows R storage settings env request v)
    (node : Option (Node Byte)) : ∃ u ∈ requests, Shows R storage settings u.1 u.2
      (Function.update v ["manifest.json" ++ ".tmp"] node) := ⟨_, hu, hv.update_tmp node⟩

theorem update_tmp_of_ne {node : Option (Node Byte)} {q : Path String} (hq : q ≠ ["manifest.json.tmp"])
    (_ : v q ≠ none) : Function.update v ["manifest.json" ++ ".tmp"] node q = v q :=
  Function.update_of_ne hq _ _

variable [LawfulFloatText R]

/-- The manifest is added through its temporary file. -/
theorem follows_writeManifest (hu : (env, request) ∈ requests)
    (hv : Shows R storage settings env request v) (hnone : v ["manifest.json"] = none) :
    (storage.writeManifest R customerId sessionId ingestionId
      ((manifestOf storage env request).modelDump R) : StorageProgram IngestionError String).Follows
      (uploadPublishing R storage settings requests hstaging hfinal).Next (fun _ _ ↦ True)
      (fun _ ↦ True) (.published v) := by
  have htmp : (["manifest.json" ++ ".tmp"] : Path String) ≠ [] := List.cons_ne_nil _ _
  have hname : (["manifest.json"] : Path String) ≠ [] := List.cons_ne_nil _ _
  obtain ⟨bytes, hbytes⟩ := exists_encode_journalText ((manifestOf storage env request).modelDump R)
  have hsrc : Function.update (Function.update v ["manifest.json" ++ ".tmp"] (some (.file [])))
      ["manifest.json" ++ ".tmp"] (some (.file ([] ++ bytes))) ["manifest.json" ++ ".tmp"] =
      some (.file ([] ++ bytes)) := Function.update_self ..
  rw [writeManifest]
  dsimp only
  refine Program.Follows.bind (M := fun _ q ↦ q = .published v)
    (follows_read (fun _ ↦ id) (fun _ ↦ rfl) trivial) ?_
  rintro present _ rfl
  cases present with
  | true =>
    exact Program.Follows.bind (M := fun _ _ ↦ False) (follows_throw trivial) fun _ _ ↦ False.elim
  | false =>
    rw [if_neg Bool.false_ne_true]
    refine Program.Follows.bind (M := fun _ _ ↦ True) ?_ fun _ _ _ ↦ follows_pure trivial
    refine (follows_writeJsonAtomic (f := .outside) (E := fun _ ↦ True)
      (.extend (.create htmp) (shows_update_tmp hu hv _) fun q ↦ update_tmp_of_ne)
      (fun e ↦ .failed trivial) (fun bytes' hbytes' ↦ ⟨?_, fun e ↦ ?_⟩)
      (.extend (.replace htmp hname hsrc) ?_ fun q hq hsome ↦ ?_)
      (fun e ↦ .failed trivial) ⟨trivial, trivial, trivial⟩).mono (fun _ _ _ ↦ trivial) fun _ ↦ id
    · obtain rfl := Option.some.inj (hbytes.symm.trans hbytes')
      exact .extend (.append htmp (Function.update_self ..))
        (shows_update_tmp hu (hv.update_tmp _) _) fun q ↦ update_tmp_of_ne
    · exact .extendFailed htmp rfl fun node ↦ shows_update_tmp hu (hv.update_tmp _) node
    · exact ⟨_, hu, (((hv.update_tmp _).update_tmp _).update_tmp none).update_manifest hbytes⟩
    · rw [Function.update_of_ne, update_tmp_of_ne hq hsome]
      rintro rfl
      rw [Function.update_of_ne (by decide), Function.update_of_ne (by decide)] at hsome
      exact hsome hnone

/-- The request is for the directory of the given ids. -/
def Targets (customerId sessionId ingestionId : String) (u : Surroundings × UploadRequest σ) : Prop :=
  u.1.ingestionId = ingestionId ∧ resolveCustomerId u.2.customerId = customerId ∧
    resolveSessionId u.1 u.2.sessionId = sessionId

/-- **An upload keeps to the protocol**: it stores what it has received, and then its manifest. -/
theorem follows_ingest (hu : (env, request) ∈ requests)
    (htarget : Targets customerId sessionId ingestionId (env, request)) :
    (ingest R storage settings env request).Follows
      (uploadPublishing R storage settings requests hstaging hfinal).Next (fun _ _ ↦ True)
      (fun _ ↦ True) .outside := by
  obtain ⟨rfl, rfl, rfl⟩ := htarget
  rw [ingest]
  dsimp only
  split
  · exact Program.Follows.bind (M := fun _ _ ↦ False) (follows_throw trivial) fun _ _ ↦ False.elim
  refine Program.Follows.bind (M := fun _ q ↦ q = .outside)
    (follows_read (fun _ ↦ id) (fun _ ↦ rfl) trivial) ?_
  rintro present _ rfl
  split
  · exact Program.Follows.bind (M := fun _ _ ↦ False) (follows_throw trivial) fun _ _ ↦ False.elim
  split
  · exact Program.Follows.bind (M := fun _ _ ↦ False) (follows_throw trivial) fun _ _ ↦ False.elim
  next hchunk =>
  have hcontent : ByteStream.pending request.stream ≠ [] := by
    rw [ByteStream.pending_read peekSize request.stream]
    exact List.append_ne_nil_of_left_ne_nil hchunk _
  refine Program.Follows.bind (M := fun _ q ↦ q = .outside) ?_ ?_
  · rw [requireDiskSpace]
    split
    · exact follows_pure rfl
    · exact follows_throw trivial
  rintro - _ rfl
  refine Program.Follows.bind (Program.Follows.tryCatch (follows_save rfl rfl env.sha256 env.process
    (sanitizeFilename env.nfkd request.filename) (limitedReader settings request)
    fun bytes hstream ↦ ?_) fun e q _ ↦ ?_) ?_
  · obtain ⟨rfl, hlimit⟩ := eq_pending_of_delivers hstream
    exact ⟨_, hu, shows_uploadedDir hcontent hlimit⟩
  · split <;> exact follows_throw trivial
  · rintro saved _ ⟨bytes, hstream, rfl, rfl⟩
    obtain ⟨rfl, hlimit⟩ := eq_pending_of_delivers hstream
    refine Program.Follows.bind (M := fun _ _ ↦ True) ?_ fun _ _ _ ↦ follows_pure trivial
    exact follows_writeManifest hu (shows_uploadedDir hcontent hlimit) (by
      rw [uploadedDir, Function.update_of_ne (by simp), Function.update_of_ne (by decide)]
      rfl)

/-! ## Any number of uploads -/

/-- The programs that run: uploads of the given requests, and programs that work elsewhere. -/
def UploadParty (R : Type) [FloatText R] (storage : LocalRawStorage) (settings : IngestionSettings)
    (requests : Set (Surroundings × UploadRequest σ)) (customerId sessionId ingestionId : String)
    (p : Prog (Op String Byte) Op.Ans Unit) : Prop :=
  (∃ u ∈ requests, p = (ingest R storage settings u.1 u.2).run.discard) ∨
    p.Performs fun o ↦ ∀ path, storage.stagingDir ingestionId <+: path ∨
      storage.ingestionDir customerId sessionId ingestionId <+: path → ¬o.Touches path

theorem follows_of_uploadParty (htargets : ∀ u ∈ requests, Targets customerId sessionId ingestionId u)
    {p : Prog (Op String Byte) Op.Ans Unit}
    (hp : UploadParty R storage settings requests customerId sessionId ingestionId p) :
    p.Follows (uploadPublishing R storage settings requests hstaging hfinal).Next (fun _ _ ↦ True)
      .outside := by
  rcases hp with ⟨u, hu, rfl⟩ | hp
  · exact Prog.Follows.bind (follows_ingest hu (htargets u hu)) fun _ _ _ ↦ trivial
  · exact (hp.follows (fun q o a ho ↦ ⟨q, .free ho⟩) _).mono fun _ _ _ ↦ trivial

/-- **Uploads are all or nothing.** Start uploads under one id, as many as you like, and other programs
that touch neither of its directories, where nothing has been stored under the id. At every point of the
run, whatever has failed and whoever has been stopped, nothing is at the destination or exactly one of
the uploads, whole; its manifest, if it is there, is that of these bytes. What has become visible stays,
apart from the temporary file of the manifest. -/
theorem uploads_all_or_nothing
    (hstaging : ¬storage.stagingDir ingestionId <+: storage.ingestionDir customerId sessionId ingestionId)
    (hfinal : ¬storage.ingestionDir customerId sessionId ingestionId <+: storage.stagingDir ingestionId)
    (htargets : ∀ u ∈ requests, Targets customerId sessionId ingestionId u)
    {t t' : Tree String Byte} {h : List (PoolStep (Op String Byte) Op.Ans (Tree String Byte))}
    {qs : List (Prog (Op String Byte) Op.Ans Unit)}
    (hrun : PoolRun Effect
      (UploadParty R storage settings requests customerId sessionId ingestionId) [] t h qs t')
    (hnew : t.Absent (storage.ingestionDir customerId sessionId ingestionId))
    (hleft : t.get? (storage.stagingDir ingestionId) = none → t.Absent (storage.stagingDir ingestionId)) :
    (t'.Absent (storage.ingestionDir customerId sessionId ingestionId) ∨
      ∃ u ∈ requests, Shows R storage settings u.1 u.2
        (t'.sub (storage.ingestionDir customerId sessionId ingestionId))) ∧
      ∀ x ∈ h, ∀ q, q ≠ ["manifest.json.tmp"] →
        x.after.sub (storage.ingestionDir customerId sessionId ingestionId) q ≠ none →
        t'.sub (storage.ingestionDir customerId sessionId ingestionId) q =
          x.after.sub (storage.ingestionDir customerId sessionId ingestionId) q := by
  exact (uploadPublishing R storage settings requests hstaging hfinal).visible_of_poolRun
    (F := fun _ _ ↦ True) (fun p hp ↦ follows_of_uploadParty htargets hp) hrun hnew hleft

end Uploads

/-! ## Two uploads under one id -/

/-- Another upload of the same name. -/
def secondRequest : UploadRequest PiecewiseStream :=
  { plainRequest with stream := { threeBytes with rest := [4, 5] } }

/-- An upload below the directory `raw`. -/
def rawUpload (request : UploadRequest PiecewiseStream) : Prog (Op String Byte) Op.Ans Unit :=
  (ingest BitFloat ⟨["raw"], true⟩ plainSettings plainSurroundings request).run.discard

/-- The second looks whether there is anything stored before the first starts. When the first has renamed
its directory, the second locks the staging directory again and is stopped after its first byte. -/
def twoUploads : PoolPoint (Op String Byte) Op.Ans (Tree String Byte) :=
  simulatePool (fun (_ : Unit) o t ↦ perform o t)
    ([.start (rawUpload plainRequest), .start (rawUpload secondRequest)] ++
      List.replicate 2 (.act 1 ()) ++ List.replicate 21 (.act 0 ()) ++ List.replicate 7 (.act 1 ()) ++
      List.replicate 4 (.act 0 ())) [] Dict.empty

theorem uploads_all_or_nothing_twoUploads :
    (∃ u ∈ ({(plainSurroundings, plainRequest), (plainSurroundings, secondRequest)} :
        Set (Surroundings × UploadRequest PiecewiseStream)),
      Shows BitFloat ⟨["raw"], true⟩ plainSettings u.1 u.2
        (twoUploads.state.sub ["raw", "anonymous", "sess_1", "ing_1"])) ∧
      twoUploads.state.file? ["raw", "anonymous", "sess_1", "ing_1", "original", "upload"] =
        some [1, 2, 3] ∧
      twoUploads.state.file? ["raw", ".staging", "ing_1", "original", "upload"] = some [4] := by
  have hdir : (⟨["raw"], true⟩ : LocalRawStorage).ingestionDir "anonymous" "sess_1" "ing_1" =
      ["raw", "anonymous", "sess_1", "ing_1"] := by decide +kernel
  have htargets : ∀ u ∈ ({(plainSurroundings, plainRequest), (plainSurroundings, secondRequest)} :
      Set (Surroundings × UploadRequest PiecewiseStream)), Targets "anonymous" "sess_1" "ing_1" u := by
    rintro u (rfl | rfl)
    · exact ⟨rfl, by decide +kernel, by decide +kernel⟩
    · exact ⟨rfl, by decide +kernel, by decide +kernel⟩
  have hrun : PoolRun Effect (UploadParty BitFloat ⟨["raw"], true⟩ plainSettings
      {(plainSurroundings, plainRequest), (plainSurroundings, secondRequest)} "anonymous" "sess_1" "ing_1")
      [] Dict.empty twoUploads.history twoUploads.threads twoUploads.state := by
    refine poolRun_simulatePool (fun _ _ _ ↦ .inl rfl) (fun p hp ↦ .inl ?_) [] Dict.empty
    rcases List.mem_pair.mp (PoolTurn.mem_started.mpr hp) with rfl | rfl
    · exact ⟨_, .inl rfl, rfl⟩
    · exact ⟨_, .inr rfl, rfl⟩
  have hstored : twoUploads.state.file? ["raw", "anonymous", "sess_1", "ing_1", "original", "upload"] =
      some [1, 2, 3] := by decide +kernel
  obtain ⟨hvisible, -⟩ := uploads_all_or_nothing (by decide +kernel) (by decide +kernel) htargets hrun
    (fun _ _ ↦ rfl) (fun _ _ _ ↦ rfl)
  rw [hdir] at hvisible
  refine ⟨hvisible.resolve_left fun habsent ↦ ?_, hstored, by decide +kernel⟩
  have hnone := habsent ["raw", "anonymous", "sess_1", "ing_1", "original", "upload"]
    (List.prefix_append _ ["original", "upload"])
  rw [twoUploads.state.file?_eq_some_iff.mp hstored] at hnone
  cases hnone

end Ingestion

end ForgeData
