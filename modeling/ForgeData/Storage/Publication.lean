import ForgeData.FileSystem.Mount
import ForgeData.Storage.Local

/-!
# Publishing an upload

What the programs of the raw storage do when no system call goes wrong. Everything happens below the
staging directory until the rename, which moves exactly the upload: the journal is gone by then. When
the stream raises, the staging directory is removed and nothing else has been touched.
-/

namespace ForgeData

namespace Storage

open Python FileSystem

variable {ε : Type} {t : Tree String Byte} {dir : Path String} {sub rest : View String Byte}

/-! ## Texts in files -/

theorem runs_writeText (h : Mounted t dir sub rest) {q : Path String} (hq : q ≠ [])
    (hparent : q.dropLast = [] ∨ sub q.dropLast = some .dir) (hnot : sub q ≠ some .dir) {text : Str}
    {bytes : List Byte} (htext : Utf8.encode text = some bytes) :
    ∃ t', Runs (writeText (dir ++ q) text : StorageProgram ε Unit) t (.ok ()) t' ∧
      Mounted t' dir (Function.update sub q (some (.file bytes))) rest := by
  obtain ⟨t₁, hrun₁, h₁⟩ := h.create (ε := StorageException ε) hq hparent hnot
  obtain ⟨t₂, hrun₂, h₂⟩ :=
    h₁.append (ε := StorageException ε) hq (Function.update_self ..) bytes
  rw [Function.update_idem, List.nil_append] at h₂
  refine ⟨t₂, ?_, h₂⟩
  rw [writeText]
  refine hrun₁.bind ?_
  rw [htext]
  exact hrun₂

theorem runs_readText (h : Mounted t dir sub rest) {q : Path String} (hq : q ≠ []) {text : Str}
    {bytes : List Byte} (htext : Utf8.encode text = some bytes) (hfile : sub q = some (.file bytes)) :
    Runs (readText (dir ++ q) : StorageProgram ε Str) t (.ok text.universalNewlines) t := by
  rw [readText]
  refine Runs.bind (h.read hq hfile) ?_
  rw [Utf8.decode_encode htext]
  exact Runs.pure _ t

theorem runs_readText_of_file {path : Path String} {bytes : List Byte}
    (hfile : t.file? path = some bytes) :
    Runs (readText path : StorageProgram ε Str) t
      ((Utf8.decode bytes).elim (.error .unicode) fun text ↦ .ok text.universalNewlines) t := by
  rw [readText]
  have hperform : perform (.read path) t = (.ok bytes, t) := by rw [perform, hfile]
  refine Runs.bind (Runs.call hperform) ?_
  · rcases Utf8.decode bytes with _ | text
    · exact Runs.throw _ t
    · exact Runs.pure _ t

/-! ## The journal -/

variable {R : Type} [FloatText R]

/-- The text of a JSON object as it is written. -/
def journalText (payload : Record R) : Str := dumps journalStyle (.dict payload.items)

variable [LawfulFloatText R]

theorem exists_encode_journalText (payload : Record R) :
    ∃ bytes, Utf8.encode (journalText payload) = some bytes := by
  rw [← Option.isSome_iff_exists, Utf8.isSome_encode_iff, journalText, dumps]
  exact encodable_encode_ascii rfl 0 _

theorem universalNewlines_journalText (payload : Record R) :
    (journalText payload).universalNewlines = journalText payload := by
  refine Str.universalNewlines_eq_self ?_
  rw [journalText, dumps]
  exact notMem_encode_ascii rfl (by decide) (.inr (by decide))

omit [LawfulFloatText R] in
theorem runs_writeJsonAtomic (h : Mounted t dir sub rest) (name : String)
    (hnot : sub [name] ≠ some .dir) (htmp : sub [name ++ ".tmp"] = none) (payload : Record R)
    {bytes : List Byte} (hbytes : Utf8.encode (journalText payload) = some bytes) :
    ∃ t', Runs (writeJsonAtomic R dir name payload : StorageProgram ε Unit) t (.ok ()) t' ∧
      Mounted t' dir (Function.update sub [name] (some (.file bytes))) rest := by
  have hne : [name] ≠ [name ++ ".tmp"] := by
    intro heq
    have hlength := congrArg String.length (List.cons.inj heq).1
    rw [String.length_append] at hlength
    exact absurd hlength (by simp)
  obtain ⟨t₁, hrun₁, h₁⟩ := runs_writeText (ε := ε) h (List.cons_ne_nil (name ++ ".tmp") []) (.inl rfl)
    (by rw [htmp]; nofun) hbytes
  obtain ⟨t₂, hrun₂, h₂⟩ := h₁.replace (ε := StorageException ε) (List.cons_ne_nil (name ++ ".tmp") [])
    (List.cons_ne_nil name []) (Function.update_self ..) (.inl rfl)
    (by rwa [Function.update_of_ne hne])
  rw [Function.update_idem, ← htmp, Function.update_eq_self] at h₂
  exact ⟨t₂, hrun₁.bind hrun₂, h₂⟩

/-- The journal holds a dictionary that can be read back. -/
def JournalWritten (bytes : List Byte) (R : Type) [FloatText R] : Prop :=
  ∃ payload : Record R, (Value.dict payload.items).Storable ∧
    Utf8.encode (journalText payload) = some bytes

/-- Marking the state may rewrite the journal, and changes nothing else. -/
theorem runs_markState (h : Mounted t dir sub rest) (htmp : sub [stagingStateFilename ++ ".tmp"] = none)
    {bytes : List Byte} (hbytes : JournalWritten bytes R)
    (hfile : sub [stagingStateFilename] = some (.file bytes)) (state : String) :
    ∃ t' bytes', Runs (markState R dir state : StorageProgram ε Unit) t (.ok ()) t' ∧
      Mounted t' dir (Function.update sub [stagingStateFilename] (some (.file bytes'))) rest := by
  obtain ⟨payload, hstorable, hencode⟩ := hbytes
  have hread : Runs (readStagingMetadata R dir : StorageProgram ε (Option (Record R))) t
      (.ok (stagingMetadataOf R (journalStyle.arranged (.dict payload.items)))) t := by
    rw [readStagingMetadata]
    refine Runs.bind (h.pathExists (List.cons_ne_nil stagingStateFilename [])) ?_
    rw [hfile]
    refine Runs.tryCatch_ok _ (Runs.bind (runs_readText h (List.cons_ne_nil _ _) hencode hfile) ?_)
    rw [universalNewlines_journalText, journalText, loads_dumps journalStyle hstorable]
    exact Runs.pure _ t
  rw [markState]
  cases hexisting : stagingMetadataOf R (journalStyle.arranged (.dict payload.items)) with
  | none =>
    rw [hexisting] at hread
    refine ⟨t, bytes, hread.bind (Runs.pure () t), ?_⟩
    rw [← hfile, Function.update_eq_self]
    exact h
  | some existing =>
    rw [hexisting] at hread
    obtain ⟨bytes', hbytes'⟩ := exists_encode_journalText
      (existing.set (Str.ofString "state") (.str (Str.ofString state)))
    obtain ⟨t', hrun, h'⟩ := runs_writeJsonAtomic (ε := ε) h stagingStateFilename (by rw [hfile]; nofun) htmp _ hbytes'
    exact ⟨t', bytes', hread.bind hrun, h'⟩

/-! ## The life of a staging directory -/

omit [FloatText R] [LawfulFloatText R] in
theorem storable_asdict (m : StagingMetadata) : (Value.dict (m.asdict R).items).Storable := by
  have hstr (s : String) : WellPaired (Str.ofString s) :=
    wellPaired_of_forall (Utf8.encodable_ofString s)
  have hpid : (Str.decimal (m.pid.toNat : ℤ).natAbs).length ≤ maxStrDigits := by
    have hlt : m.pid.toNat < 10 ^ (9 + 1) := m.pid.toNat_lt.trans (by decide)
    obtain ⟨k, hk, heq⟩ := Str.exists_decimal_eq_zeroPad hlt
    rw [Int.natAbs_natCast, heq, Str.length_zeroPad]
    exact (Nat.succ_le_succ hk).trans (by decide)
  exact ⟨(m.asdict R).nodup, hstr _, hstr _, hstr _, hstr _, hstr _, hstr _, hstr _, hstr _, hstr _,
    hpid, hstr _, hstr _, hstr _, hstr _, trivial⟩

/-- **A new staging directory** has the journal in it and nothing else. -/
theorem runs_createStagingDir (hne : dir ≠ []) (habsent : t.Absent dir)
    (hparents : ∀ p, p ≠ [] → p <+: dir.dropLast → t.file? p = none) (process : Process)
    (operationId artifactId stage : String) (finalDestination : Path String) :
    ∃ t' bytes, Runs (createStagingDir R process dir operationId artifactId stage finalDestination :
        StorageProgram ε Unit) t (.ok ()) t' ∧ JournalWritten bytes R ∧
      Mounted t' dir (Function.update (fun _ ↦ none) [stagingStateFilename] (some (.file bytes)))
        (View.withDirs t.get? (ancestors dir)) := by
  obtain ⟨t₁, hrun₁, h₁⟩ :=
    runs_makeDirs (ε := StorageException ε) hne habsent hparents false
  let metadata : StagingMetadata :=
    { operationId, artifactId, stage, startedAt := process.startedAt, pid := process.pid,
      state := "writing", finalDestination := pathText finalDestination }
  obtain ⟨bytes, hbytes⟩ := exists_encode_journalText (metadata.asdict R)
  obtain ⟨t₂, hrun₂, h₂⟩ := runs_writeJsonAtomic (ε := ε) h₁ stagingStateFilename nofun rfl
    (metadata.asdict R) hbytes
  exact ⟨t₂, bytes, hrun₁.bind (Runs.tryCatch_ok _ hrun₂), ⟨_, storable_asdict metadata, hbytes⟩, h₂⟩

/-- **Committing** makes the staged files visible, all of them and nothing else. -/
theorem runs_commitStagingDir (h : Mounted t dir sub rest) (hne : dir ≠ []) {final : Path String}
    (hsrc : ¬dir <+: final) (hdst : ¬final <+: dir) (habsent : ∀ p, final <+: p → rest p = none)
    (hparents : ∀ p, p ≠ [] → p <+: final.dropLast → rest p = none ∨ rest p = some .dir)
    (htmp : sub [stagingStateFilename ++ ".tmp"] = none) {bytes : List Byte}
    (hbytes : JournalWritten bytes R) (hfile : sub [stagingStateFilename] = some (.file bytes))
    (fsyncEnabled : Bool) :
    ∃ t', Runs (commitStagingDir R dir final fsyncEnabled none : StorageProgram ε Unit) t (.ok ()) t' ∧
      Mounted t' final (Function.update sub [stagingStateFilename] none) fun p ↦
        if dir <+: p then none else rest.withDirs (ancestors final.dropLast) p := by
  have hfinal : final ≠ [] := by
    rintro rfl
    exact hdst List.nil_prefix
  have hdrop : ¬dir <+: final.dropLast := fun hpre ↦ hsrc (hpre.trans (List.dropLast_prefix final))
  have hpresent : Runs (call (.pathExists final) : StorageProgram ε Bool) t (.ok false) t := by
    refine Runs.call ?_
    rw [perform, Tree.pathExists_eq hfinal, h.outside final hsrc, habsent final List.prefix_rfl]
    rfl
  obtain ⟨t₁, hrun₁, h₁⟩ := h.makeDirs (ε := StorageException ε) hdrop hparents
  obtain ⟨t₂, bytes', hrun₂, h₂⟩ := runs_markState (ε := ε) h₁ htmp hbytes hfile "committing"
  obtain ⟨t₃, hrun₃, h₃⟩ := h₂.unlink (ε := StorageException ε) (List.cons_ne_nil _ _)
    (Function.update_self ..) true
  rw [Function.update_idem] at h₃
  obtain ⟨t₄, hrun₄, h₄⟩ := h₃.rename (ε := StorageException ε) hne hsrc hdst (fun p hp ↦ by
      rw [View.withDirs, if_neg, habsent p hp]
      rintro ⟨hmem, -⟩
      have hlength := (hp.trans (mem_ancestors.mp hmem).1).length_le
      have hpos := List.length_pos_iff.mpr hfinal
      rw [List.length_dropLast] at hlength
      omega) (fun p hp hpre ↦ by
      rw [View.withDirs]
      rcases hparents p hp hpre with hnode | hnode
      · rw [if_pos ⟨mem_ancestors.mpr ⟨hpre, hp⟩, hnode⟩]
      · rw [if_neg (fun hand ↦ by rw [hnode] at hand; exact Option.some_ne_none _ hand.2), hnode])
  refine ⟨t₄, ?_, h₄⟩
  rw [commitStagingDir]
  refine hpresent.bind (hrun₁.bind (hrun₂.bind ?_))
  cases fsyncEnabled with
  | false => exact hrun₃.bind (Runs.tryCatch_ok _ hrun₄)
  | true => exact Runs.bind (Runs.call rfl) (hrun₃.bind (Runs.tryCatch_ok _ hrun₄))

/-! ## The upload -/

/-- What reading a stream to its end gives, in the pieces in which `save` reads it: some bytes, and then
the end or an exception. -/
inductive Delivers {σ : Type} [BinaryStream ε σ] : σ → List Byte → Except ε Unit → Prop
  | done {stream stream' : σ} :
      BinaryStream.read LocalRawStorage.writeChunkSize stream = .ok ([], stream') →
      Delivers stream [] (.ok ())
  | raised {stream : σ} {e : ε} :
      BinaryStream.read LocalRawStorage.writeChunkSize stream = .error e →
      Delivers stream [] (.error e)
  | chunk {stream stream' : σ} {chunk bytes : List Byte} {r : Except ε Unit} :
      BinaryStream.read LocalRawStorage.writeChunkSize stream = .ok (chunk, stream') → chunk ≠ [] →
      Delivers stream' bytes r → Delivers stream (chunk ++ bytes) r

/-- A stream delivers one thing. -/
theorem Delivers.unique {σ : Type} [BinaryStream ε σ] {stream : σ} {bytes bytes' : List Byte}
    {r r' : Except ε Unit} (h : Delivers stream bytes r) (h' : Delivers stream bytes' r') :
    bytes = bytes' ∧ r = r' := by
  induction h generalizing bytes' r' with
  | done hread =>
    cases h' with
    | done => exact ⟨rfl, rfl⟩
    | raised hread' =>
      rw [hread] at hread'
      cases hread'
    | chunk hread' hne _ =>
      rw [hread] at hread'
      cases hread'
      exact absurd rfl hne
  | raised hread =>
    cases h' with
    | done hread' | chunk hread' _ _ =>
      rw [hread] at hread'
      cases hread'
    | raised hread' =>
      rw [hread] at hread'
      cases hread'
      exact ⟨rfl, rfl⟩
  | chunk hread hne _ ih =>
    cases h' with
    | done hread' =>
      rw [hread] at hread'
      cases hread'
      exact absurd rfl hne
    | raised hread' =>
      rw [hread] at hread'
      cases hread'
    | chunk hread' _ hrest =>
      rw [hread] at hread'
      cases hread'
      obtain ⟨rfl, rfl⟩ := ih hrest
      exact ⟨rfl, rfl⟩

namespace LocalRawStorage

theorem writeChunks_eq {σ : Type} [BinaryStream ε σ] (destination : Path String) (stream : σ)
    (digest : ChunkedSha256) (sizeBytes : ℕ) :
    writeChunks destination stream digest sizeBytes =
      match BinaryStream.read writeChunkSize stream with
      | .error e => throw (.other e)
      | .ok (chunk, stream') =>
        if chunk = [] then pure (digest, sizeBytes)
        else call (.append destination chunk) >>= fun _ ↦
          writeChunks destination stream' (digest.update chunk) (sizeBytes + chunk.length) := by
  rw [writeChunks]
  split <;> rename_i hread <;> rw [hread]
  rfl

/-- **The loop** writes what the stream delivers behind what is there, and hashes and counts it. -/
theorem runs_writeChunks {σ : Type} [BinaryStream ε σ] {stream : σ} {bytes : List Byte}
    {r : Except ε Unit} (hstream : Delivers stream bytes r) (h : Mounted t dir sub rest)
    {q : Path String} (hq : q ≠ []) {before : List Byte} (hfile : sub q = some (.file before))
    (digest : ChunkedSha256) (sizeBytes : ℕ) :
    ∃ t', Runs (writeChunks (dir ++ q) stream digest sizeBytes) t
        ((r.map fun _ ↦ (⟨digest.hashed ++ bytes⟩, sizeBytes + bytes.length)).mapError .other) t' ∧
      Mounted t' dir (Function.update sub q (some (.file (before ++ bytes)))) rest := by
  induction hstream generalizing t sub before digest sizeBytes with
  | done hread =>
    refine ⟨t, ?_, ?_⟩
    · rw [writeChunks_eq, hread, List.append_nil]
      exact Runs.pure (digest, sizeBytes) t
    · rw [List.append_nil, ← hfile, Function.update_eq_self]
      exact h
  | raised hread =>
    refine ⟨t, ?_, ?_⟩
    · rw [writeChunks_eq, hread]
      exact Runs.throw _ t
    · rw [List.append_nil, ← hfile, Function.update_eq_self]
      exact h
  | @chunk stream stream' chunk bytes r hread hchunk _ ih =>
    obtain ⟨t₁, hrun₁, h₁⟩ := h.append (ε := StorageException ε) hq hfile chunk
    obtain ⟨t₂, hrun₂, h₂⟩ := ih h₁ (Function.update_self ..) (digest.update chunk)
      (sizeBytes + chunk.length)
    rw [Function.update_idem] at h₂
    refine ⟨t₂, ?_, ?_⟩
    · have hresult : digest.hashed ++ (chunk ++ bytes) = (digest.update chunk).hashed ++ bytes :=
        (List.append_assoc ..).symm
      rw [writeChunks_eq, hread, hresult, List.length_append, ← Nat.add_assoc]
      dsimp only
      rw [if_neg hchunk]
      exact hrun₁.bind hrun₂
    · rwa [← List.append_assoc]

/-! ## Saving -/

/-- There is room for an upload: nothing is at its two directories or below them, no file is in their
way, and neither is inside the other. -/
structure Free (storage : LocalRawStorage) (t : Tree String Byte)
    (customerId sessionId ingestionId : String) : Prop where
  ingestion : t.Absent (storage.ingestionDir customerId sessionId ingestionId)
  staging : t.Absent (storage.stagingDir ingestionId)
  aboveIngestion : ∀ p, p ≠ [] → p <+: (storage.ingestionDir customerId sessionId ingestionId).dropLast →
    t.file? p = none
  aboveStaging : ∀ p, p ≠ [] → p <+: (storage.stagingDir ingestionId).dropLast → t.file? p = none
  notInStaging : ¬storage.stagingDir ingestionId <+: storage.ingestionDir customerId sessionId ingestionId
  notInIngestion : ¬storage.ingestionDir customerId sessionId ingestionId <+: storage.stagingDir ingestionId

/-! ## Plain ids -/

/-- An id that is one step of a path. -/
def IsPlain (id : String) : Prop := IsComponent id ∧ id ≠ ".."

theorem joinSegment_of_isPlain {id : String} (h : IsPlain id) (path : Path String) :
    joinSegment path id = path ++ [id] := by
  rw [joinSegment, if_neg, pathParts_of_isComponent h.1]
  intro hhead
  exact h.1.2.2 (List.mem_of_mem_head? hhead)

theorem resolveDots_of_notMem {path : Path String} (h : ".." ∉ path) : resolveDots path = path := by
  induction path using List.reverseRecOn with
  | nil => rfl
  | append_singleton path name ih =>
    rw [List.mem_append, List.mem_singleton, not_or] at h
    rw [resolveDots, List.foldl_append, ← resolveDots, ih h.1, List.foldl_cons, List.foldl_nil,
      if_neg (Ne.symm h.2)]

theorem ingestionDir_of_isPlain {storage : LocalRawStorage} (hroot : ".." ∉ storage.root)
    {customerId sessionId ingestionId : String} (hcustomer : IsPlain customerId)
    (hsession : IsPlain sessionId) (hingestion : IsPlain ingestionId) :
    storage.ingestionDir customerId sessionId ingestionId =
      storage.root ++ [customerId, sessionId, ingestionId] := by
  rw [ingestionDir, List.foldl_cons, List.foldl_cons, List.foldl_cons, List.foldl_nil,
    joinSegment_of_isPlain hcustomer, joinSegment_of_isPlain hsession,
    joinSegment_of_isPlain hingestion, List.append_assoc, List.append_assoc]
  refine resolveDots_of_notMem ?_
  simp only [List.mem_append, List.mem_cons, List.not_mem_nil, or_false, not_or]
  exact ⟨hroot, hcustomer.2.symm, hsession.2.symm, hingestion.2.symm⟩

/-- **A new id has room** in a root whose directories above it are no files, if the ids are plain and
it is not also the session in the staging area. -/
theorem free_of_isPlain {storage : LocalRawStorage} {t : Tree String Byte}
    {customerId sessionId ingestionId : String} (hroot : ".." ∉ storage.root)
    (hcustomer : IsPlain customerId) (hsession : IsPlain sessionId) (hingestion : IsPlain ingestionId)
    (hnew : t.Absent (storage.root ++ [customerId, sessionId, ingestionId]))
    (hstaging : t.Absent (storage.stagingDir ingestionId))
    (hdirs : ∀ p, p <+: storage.root ++ [customerId, sessionId] ∨ p <+: storage.root ++ [".staging"] →
      t.file? p = none)
    (hother : customerId ≠ ".staging" ∨ sessionId ≠ ingestionId) :
    Free storage t customerId sessionId ingestionId := by
  have hdir := ingestionDir_of_isPlain hroot hcustomer hsession hingestion
  have hdrop : (storage.root ++ [customerId, sessionId, ingestionId]).dropLast =
      storage.root ++ [customerId, sessionId] :=
    List.dropLast_append_of_ne_nil (List.cons_ne_nil _ _)
  have hdrop' : (storage.stagingDir ingestionId).dropLast = storage.root ++ [".staging"] :=
    List.dropLast_append_of_ne_nil (List.cons_ne_nil _ _)
  have hapart : ¬storage.stagingDir ingestionId <+:
      storage.root ++ [customerId, sessionId, ingestionId] := by
    rw [stagingDir, List.prefix_append_right_inj, List.cons_prefix_cons, List.cons_prefix_cons]
    rintro ⟨hcustomer', hsession', -⟩
    exact hother.elim (· hcustomer'.symm) (· hsession'.symm)
  have hapart' : ¬storage.root ++ [customerId, sessionId, ingestionId] <+:
      storage.stagingDir ingestionId := by
    intro hpre
    have hlength := hpre.length_le
    simp [stagingDir] at hlength
  constructor
  · rwa [hdir]
  · exact hstaging
  · rw [hdir, hdrop]
    exact fun p _ hp ↦ hdirs p (.inl hp)
  · rw [hdrop']
    exact fun p _ hp ↦ hdirs p (.inr hp)
  · rwa [hdir]
  · rwa [hdir]

/-! ## Receiving and publishing -/

/-- The upload in its directory. -/
def uploadView (filename : String) (bytes : List Byte) : View String Byte :=
  Function.update (Function.update (fun _ ↦ none) ["original"] (some .dir)) ["original", filename]
    (some (.file bytes))

theorem uploadView_of_ne (filename : String) (bytes : List Byte) {name : String}
    (hname : name ≠ "original") : uploadView filename bytes [name] = none := by
  rw [uploadView, Function.update_of_ne (by simp), Function.update_of_ne (by simpa using hname)]

variable {σ : Type} [BinaryStream ε σ] {storage : LocalRawStorage}
  {customerId sessionId ingestionId : String} {stream : σ} {bytes : List Byte}

theorem stagingDir_ne_nil : storage.stagingDir ingestionId ≠ [] :=
  List.append_ne_nil_of_right_ne_nil _ (List.cons_ne_nil _ _)

/-- Whatever becomes of the stream, what it delivered is in the staging directory beside the journal. -/
theorem runs_receive (hfree : Free storage t customerId sessionId ingestionId) {r : Except ε Unit}
    (hstream : Delivers stream bytes r) (process : Process) (filename : String)
    (finalDestination : Path String) :
    ∃ t₁ t₂ t₃ journal, JournalWritten journal R ∧
      Runs (createStagingDir R process (storage.stagingDir ingestionId) ingestionId ingestionId
        "ingestion" finalDestination : StorageProgram ε Unit) t (.ok ()) t₁ ∧
      Runs (call (.makeDirs (storage.stagingDir ingestionId ++ ["original"]) true) :
        StorageProgram ε Unit) t₁ (.ok ()) t₂ ∧
      Runs (call (.create (storage.stagingDir ingestionId ++ ["original"] ++ [filename])) >>= fun _ ↦
          writeChunks (storage.stagingDir ingestionId ++ ["original"] ++ [filename]) stream {} 0) t₂
        ((r.map fun _ ↦ (⟨bytes⟩, bytes.length)).mapError .other) t₃ ∧
      Mounted t₃ (storage.stagingDir ingestionId)
        (Function.update (uploadView filename bytes) [stagingStateFilename] (some (.file journal)))
        (View.withDirs t.get? (ancestors (storage.stagingDir ingestionId))) := by
  obtain ⟨t₁, journal, hrun₁, hjournal, h₁⟩ := runs_createStagingDir (ε := ε) (R := R)
    stagingDir_ne_nil hfree.staging hfree.aboveStaging process ingestionId ingestionId "ingestion"
    finalDestination
  obtain ⟨t₂, hrun₂, h₂⟩ := h₁.makeDir (ε := StorageException ε) "original"
    (by rw [Function.update_of_ne (by decide)]) true
  have hne : (["original", filename] : Path String) ≠ ["original"] := by simp
  have hne' : (["original", filename] : Path String) ≠ [stagingStateFilename] := by simp
  obtain ⟨t₃, hrun₃, h₃⟩ := h₂.create (ε := StorageException ε) (q := ["original", filename])
    (List.cons_ne_nil _ _) (.inr (Function.update_self ..))
    (by rw [Function.update_of_ne hne, Function.update_of_ne hne']; nofun)
  obtain ⟨t₄, hrun₄, h₄⟩ := runs_writeChunks hstream h₃ (List.cons_ne_nil _ _)
    (Function.update_self ..) {} 0
  rw [Function.update_idem, List.nil_append] at h₄
  refine ⟨t₁, t₂, t₄, journal, hjournal, hrun₁, hrun₂, ?_, ?_⟩
  · rw [List.append_assoc]
    refine hrun₃.bind ?_
    rw [List.nil_append, Nat.zero_add] at hrun₄
    exact hrun₄
  · have hne'' : (["original"] : Path String) ≠ [stagingStateFilename] := by decide
    rw [uploadView, Function.update_comm hne', Function.update_comm hne'']
    exact h₄

theorem ingestionDir_ne_nil (hfree : Free storage t customerId sessionId ingestionId) :
    storage.ingestionDir customerId sessionId ingestionId ≠ [] := by
  intro hnil
  have h := hfree.notInIngestion
  rw [hnil] at h
  exact h List.nil_prefix

theorem runs_pathExists (hfree : Free storage t customerId sessionId ingestionId) :
    Runs (call (.pathExists (storage.ingestionDir customerId sessionId ingestionId)) :
      StorageProgram ε Bool) t (.ok false) t := by
  refine Runs.call ?_
  rw [perform, Tree.pathExists_eq (ingestionDir_ne_nil hfree),
    hfree.ingestion _ List.prefix_rfl]
  rfl

/-- **An upload that raises leaves nothing**: all that is new are directories above the staging one. -/
theorem runs_save_error (hfree : Free storage t customerId sessionId ingestionId) {e : ε}
    (hstream : Delivers stream bytes (.error e)) (sha256 : List Byte → Sha256Digest) (process : Process)
    (filename : String) :
    ∃ t', Runs (storage.save R sha256 process customerId sessionId ingestionId filename stream) t
        (.error (.other e)) t' ∧
      ∀ p, t'.get? p = if storage.stagingDir ingestionId <+: p then none
        else View.withDirs t.get? (ancestors (storage.stagingDir ingestionId)) p := by
  obtain ⟨t₁, t₂, t₃, journal, -, hrun₁, hrun₂, hrun₃, h₃⟩ := runs_receive (R := R) hfree hstream process
    filename (storage.ingestionDir customerId sessionId ingestionId)
  obtain ⟨t₄, hrun₄, h₄⟩ := h₃.removeTree (ε := StorageException ε)
  refine ⟨t₄, ?_, h₄⟩
  rw [save]
  refine (runs_pathExists hfree).bind ((Runs.tryCatch_ok _ hrun₁).bind (hrun₂.bind ?_))
  exact Runs.bind_error _ (Runs.tryCatch_error hrun₃ (hrun₄.bind (Runs.throw _ t₄)))

/-- **An upload that is received is published**, as it came, with its size and its digest. -/
theorem runs_save_ok (hfree : Free storage t customerId sessionId ingestionId)
    (hstream : Delivers stream bytes (.ok ())) (sha256 : List Byte → Sha256Digest) (process : Process)
    (filename : String) :
    ∃ t' rest, Runs (storage.save R sha256 process customerId sessionId ingestionId filename stream) t
        (.ok { storageUri := fileUri (storage.ingestionDir customerId sessionId ingestionId ++
                ["original", filename])
               sizeBytes := bytes.length
               sha256 := sha256 bytes }) t' ∧
      Mounted t' (storage.ingestionDir customerId sessionId ingestionId) (uploadView filename bytes)
        rest := by
  obtain ⟨t₁, t₂, t₃, journal, hjournal, hrun₁, hrun₂, hrun₃, h₃⟩ := runs_receive (R := R) hfree hstream
    process filename (storage.ingestionDir customerId sessionId ingestionId)
  have hne : (["original", filename] : Path String) ≠ [stagingStateFilename] := by simp
  have hbeside : uploadView filename bytes [stagingStateFilename] = none :=
    uploadView_of_ne _ _ (by decide)
  -- nothing is at the destination, and no file above it, also when the staging directory is made
  have habsent (p : Path String)
      (hp : storage.ingestionDir customerId sessionId ingestionId <+: p) :
      View.withDirs t.get? (ancestors (storage.stagingDir ingestionId)) p = none := by
    rw [View.withDirs, if_neg, hfree.ingestion p hp]
    rintro ⟨hmem, -⟩
    exact hfree.notInIngestion (hp.trans (mem_ancestors.mp hmem).1)
  have habove (p : Path String) (hp : p ≠ [])
      (hpre : p <+: (storage.ingestionDir customerId sessionId ingestionId).dropLast) :
      View.withDirs t.get? (ancestors (storage.stagingDir ingestionId)) p = none ∨
        View.withDirs t.get? (ancestors (storage.stagingDir ingestionId)) p = some .dir := by
    rw [View.withDirs]
    split
    · exact .inr rfl
    · exact t.file?_eq_none_iff.mp (hfree.aboveIngestion p hp hpre)
  obtain ⟨t₄, hrun₄, h₄⟩ := runs_commitStagingDir (ε := ε) h₃ stagingDir_ne_nil hfree.notInStaging
    hfree.notInIngestion habsent habove
    (by rw [Function.update_of_ne (by decide), uploadView_of_ne _ _ (by decide)]) hjournal
    (Function.update_self ..) storage.fsyncEnabled
  rw [Function.update_idem, ← hbeside, Function.update_eq_self] at h₄
  refine ⟨t₄, _, ?_, h₄⟩
  rw [save]
  refine (runs_pathExists hfree).bind ((Runs.tryCatch_ok _ hrun₁).bind (hrun₂.bind ?_))
  refine (Runs.tryCatch_ok _ hrun₃).bind ?_
  exact (Runs.tryCatch_ok _ hrun₄).bind (Runs.pure _ t₄)

end LocalRawStorage

end Storage

end ForgeData
