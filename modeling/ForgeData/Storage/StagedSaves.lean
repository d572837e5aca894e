import ForgeData.FileSystem.Publishing
import ForgeData.Storage.Publication

/-!
# The stores keep to the publication protocol

Walking once through the programs of `app/storage/atomic.py` and through `save`, with nothing known about
what the calls answer: each of them may fail.
-/

namespace ForgeData

namespace Storage

open Python FileSystem Interleaving

variable {ε : Type} {P : Publishing String Byte} {v : View String Byte}

theorem follows_read {o : Op String Byte} (ho : ∀ p, ¬o.Touches p)
    {phase : PublishPhase String Byte} {K : o.Val → PublishPhase String Byte → Prop}
    {E : PublishPhase String Byte → Prop} (hok : ∀ a, K a phase) (herror : E phase) :
    (call o : StorageProgram ε o.Val).Follows P.Next K E phase :=
  follows_call (fun a ↦ ⟨phase, .read ho, hok a⟩) fun _ ↦ ⟨phase, .read ho, herror⟩

/-! ## Texts and the journal -/

section Journal

variable {Q : Type} {next : Protocol (Op String Byte) Op.Ans Q} {q₀ q₁ q₂ q₃ f : Q}

variable {R : Type} [FloatText R]

/-- Writing a JSON file goes over four phases, and ends in one of them, or where a failed write
leads. -/
theorem follows_writeJsonAtomic [LawfulFloatText R] {dir : Path String} {name : String}
    {payload : Record R} {E : Q → Prop}
    (hcreate : next q₀ (.create (dir ++ [name ++ ".tmp"])) (.ok ()) q₁)
    (hcreate' : ∀ e, next q₀ (.create (dir ++ [name ++ ".tmp"])) (.error e) q₀)
    (happend : ∀ bytes, Utf8.encode (journalText payload) = some bytes →
      next q₁ (.append (dir ++ [name ++ ".tmp"]) bytes) (.ok ()) q₂ ∧
      (∀ e, next q₁ (.append (dir ++ [name ++ ".tmp"]) bytes) (.error e) f))
    (hreplace : next q₂ (.replace (dir ++ [name ++ ".tmp"]) (dir ++ [name])) (.ok ()) q₃)
    (hreplace' : ∀ e, next q₂ (.replace (dir ++ [name ++ ".tmp"]) (dir ++ [name])) (.error e) q₂)
    (herror : E q₀ ∧ E q₂ ∧ E f) :
    (writeJsonAtomic R dir name payload : StorageProgram ε Unit).Follows next
      (fun _ q ↦ q = q₃) E q₀ := by
  obtain ⟨bytes, hbytes⟩ := exists_encode_journalText payload
  obtain ⟨hok, hfailed⟩ := happend bytes hbytes
  rw [journalText] at hbytes
  refine Program.Follows.bind (M := fun _ q ↦ q = q₂) ?_ ?_
  · refine Program.Follows.bind (M := fun _ q ↦ q = q₁)
      (follows_call (fun _ ↦ ⟨q₁, hcreate, rfl⟩) fun e ↦ ⟨q₀, hcreate' e, herror.1⟩) ?_
    rintro - _ rfl
    rw [hbytes]
    exact follows_call (fun _ ↦ ⟨q₂, hok, rfl⟩) fun e ↦ ⟨f, hfailed e, herror.2.2⟩
  · rintro - _ rfl
    exact follows_call (fun _ ↦ ⟨q₃, hreplace, rfl⟩) fun e ↦ ⟨_, hreplace' e, herror.2.1⟩

end Journal

/-! ## The life of a staging directory -/

section Staging

variable {R : Type} [FloatText R]

/-- Reading the journal leaves the program where it is. -/
theorem follows_readStagingMetadata (dir : Path String) (phase : PublishPhase String Byte) :
    (readStagingMetadata R dir : StorageProgram ε (Option (Record R))).Follows P.Next
      (fun _ q ↦ q = phase) (fun q ↦ q = phase) phase := by
  rw [readStagingMetadata]
  refine Program.Follows.bind (M := fun _ q ↦ q = phase)
    (follows_read (fun _ ↦ id) (fun _ ↦ rfl) rfl) ?_
  intro present q hq
  split
  · exact follows_pure hq
  · refine Program.Follows.tryCatch (C := fun q ↦ q = phase) ?_ ?_
    · refine Program.Follows.bind (M := fun _ q ↦ q = phase) ?_ ?_
      · refine Program.Follows.bind (M := fun _ q ↦ q = phase)
          (follows_read (fun _ ↦ id) (fun _ ↦ hq) hq) ?_
        intro bytes q hq
        split
        · exact follows_pure hq
        · exact follows_throw hq
      · intro text q hq
        split
        · exact follows_pure hq
        · exact follows_pure hq
        · exact follows_throw hq
    · intro e q hq
      split
      · exact follows_pure hq
      · exact follows_throw hq

variable [LawfulFloatText R]

/-- A JSON file is written below the staging directory. -/
theorem follows_writeJsonAtomic_staging {name : String} (hname : v [name ++ ".tmp"] = none)
    (payload : Record R) :
    (writeJsonAtomic R P.staging name payload : StorageProgram ε Unit).Follows P.Next
      (fun _ q ↦ ∃ bytes, q = .writing (Function.update v [name] (some (.file bytes))))
      PublishPhase.Holding (.writing v) := by
  obtain ⟨bytes, hbytes⟩ := exists_encode_journalText payload
  have htmp : ([name ++ ".tmp"] : Path String) ≠ [] := List.cons_ne_nil _ _
  have hsrc : Function.update (Function.update v [name ++ ".tmp"] (some (.file []))) [name ++ ".tmp"]
      (some (.file ([] ++ bytes))) [name ++ ".tmp"] = some (.file ([] ++ bytes)) :=
    Function.update_self ..
  refine (follows_writeJsonAtomic (f := .spoiled) (E := PublishPhase.Holding)
    (.write (.create htmp)) (fun e ↦ .failed trivial) (fun bytes' hbytes' ↦ ?_)
    (.write (.replace htmp (List.cons_ne_nil name []) hsrc)) (fun e ↦ .failed trivial)
    ⟨PublishPhase.holding_writing _, PublishPhase.holding_writing _,
      PublishPhase.holding_spoiled⟩).mono (fun _ q hq ↦ ⟨bytes, ?_⟩) fun _ ↦ id
  · obtain rfl := Option.some.inj (hbytes.symm.trans hbytes')
    exact ⟨.write (.append htmp (Function.update_self ..)), fun e ↦ .writeFailed htmp⟩
  · rw [hq, Function.update_idem, Function.update_idem, ← hname, Function.update_eq_self,
      List.nil_append]

/-- **A new staging directory** is made by the program that gets the lock. -/
theorem follows_createStagingDir (process : Process) (operationId artifactId stage : String)
    (finalDestination : Path String) :
    (createStagingDir R process P.staging operationId artifactId stage finalDestination :
      StorageProgram ε Unit).Follows P.Next
      (fun _ q ↦ ∃ bytes, q = .writing
        (Function.update View.emptyDir [stagingStateFilename] (some (.file bytes))))
      (fun _ ↦ True) .outside := by
  rw [createStagingDir]
  refine Program.Follows.bind (M := fun _ q ↦ q = .writing .emptyDir)
    (follows_call (fun _ ↦ ⟨_, .lock, rfl⟩)
      fun e ↦ ⟨_, .notMade (.inl List.prefix_rfl), trivial⟩) ?_
  rintro - _ rfl
  refine Program.Follows.tryCatch (follows_writeJsonAtomic_staging ?_ _) ?_
  · exact Function.update_of_ne (List.cons_ne_nil _ _) _ _
  · intro e q _
    split
    · exact follows_throw trivial
    · exact follows_throw trivial

theorem follows_markState (htmp : v [stagingStateFilename ++ ".tmp"] = none) (state : String) :
    (markState R P.staging state : StorageProgram ε Unit).Follows P.Next
      (fun _ q ↦ ∃ node, q = .writing (Function.update v [stagingStateFilename] node))
      PublishPhase.Holding (.writing v) := by
  rw [markState]
  refine Program.Follows.bind (M := fun _ q ↦ q = .writing v)
    ((follows_readStagingMetadata P.staging _).mono (fun _ _ ↦ id) fun q hq ↦ hq ▸ trivial) ?_
  rintro existing _ rfl
  split
  · refine follows_pure ⟨v [stagingStateFilename], ?_⟩
    rw [Function.update_eq_self]
  · exact (follows_writeJsonAtomic_staging htmp _).mono (fun _ q hq ↦ hq.imp' _ fun _ ↦ id) fun _ ↦ id

/-- The journal goes, and the rest is renamed. -/
theorem follows_publish (hcomplete : P.Complete (Function.update v [stagingStateFilename] none))
    (node : Option (Node Byte)) {handler : StorageException ε → StorageProgram ε Unit}
    (hhandler : ∀ e q, q.Holding → (handler e).Follows P.Next
      (fun _ q ↦ q = .published (Function.update v [stagingStateFilename] none))
      PublishPhase.Holding q) :
    (call (.unlink (P.staging ++ [stagingStateFilename]) true) >>= fun _ ↦
      tryCatch (call (.rename P.staging P.final)) handler).Follows P.Next
      (fun _ q ↦ q = .published (Function.update v [stagingStateFilename] none))
      PublishPhase.Holding (.writing (Function.update v [stagingStateFilename] node)) := by
  refine Program.Follows.bind
    (M := fun _ q ↦ q = .writing (Function.update v [stagingStateFilename] none)) ?_ ?_
  · refine follows_call (fun _ ↦ ⟨_, .write (.unlink true (List.cons_ne_nil _ _)), ?_⟩)
      fun e ↦ ⟨_, .failed trivial, PublishPhase.holding_writing _⟩
    rw [Function.update_idem]
  · rintro - _ rfl
    exact Program.Follows.tryCatch (C := PublishPhase.Holding)
      (follows_call (fun _ ↦ ⟨_, .publish hcomplete, rfl⟩)
        fun e ↦ ⟨_, .failed trivial, PublishPhase.holding_writing _⟩) hhandler

/-- **Committing** publishes what is staged, without the journal. -/
theorem follows_commitStagingDir (htmp : v [stagingStateFilename ++ ".tmp"] = none)
    (hcomplete : P.Complete (Function.update v [stagingStateFilename] none)) (fsyncEnabled : Bool) :
    (commitStagingDir R P.staging P.final fsyncEnabled none : StorageProgram ε Unit).Follows P.Next
      (fun _ q ↦ q = .published (Function.update v [stagingStateFilename] none))
      PublishPhase.Holding (.writing v) := by
  rw [commitStagingDir]
  refine Program.Follows.bind (M := fun _ q ↦ q = .writing v)
    (follows_read (fun _ ↦ id) (fun _ ↦ rfl) trivial) ?_
  rintro present _ rfl
  dsimp only
  cases present with
  | true =>
    exact Program.Follows.bind (M := fun _ _ ↦ False)
      (follows_throw (PublishPhase.holding_writing v)) fun _ _ ↦ False.elim
  | false =>
    rw [if_neg Bool.false_ne_true]
    refine Program.Follows.bind (M := fun _ q ↦ q = .writing v)
      (follows_call (fun _ ↦ ⟨_, .parents, rfl⟩)
        fun _ ↦ ⟨_, .parents, PublishPhase.holding_writing v⟩) ?_
    rintro - _ rfl
    refine Program.Follows.bind (follows_markState htmp "committing") ?_
    rintro - _ ⟨node, rfl⟩
    cases fsyncEnabled with
    | false =>
      refine follows_publish hcomplete node fun e q hq ↦ ?_
      split <;> exact follows_throw hq
    | true =>
      refine Program.Follows.bind
        (M := fun _ q ↦ q = .writing (Function.update v [stagingStateFilename] node))
        (follows_read (fun _ ↦ id) (fun _ ↦ rfl)
          (PublishPhase.holding_writing _)) ?_
      rintro - _ rfl
      refine follows_publish hcomplete node fun e q hq ↦ ?_
      split <;> exact follows_throw hq

/-! ## Saving an upload -/

omit [LawfulFloatText R] in
/-- **The loop** leaves the whole of what the stream delivers in the file, or a broken file. -/
theorem follows_writeChunks {σ : Type} [BinaryStream ε σ] {q : Path String} (hq : q ≠ [])
    (stream : σ) {before : List Byte} (hfile : v q = some (.file before)) (digest : ChunkedSha256)
    (sizeBytes : ℕ) :
    (LocalRawStorage.writeChunks (P.staging ++ q) stream digest sizeBytes).Follows P.Next
      (fun result phase ↦ ∃ bytes, Delivers stream bytes (.ok ()) ∧
        result = (⟨digest.hashed ++ bytes⟩, sizeBytes + bytes.length) ∧
        phase = .writing (Function.update v q (some (.file (before ++ bytes)))))
      PublishPhase.Holding (.writing v) := by
  induction hn : BinaryStream.remaining stream using Nat.strong_induction_on
    generalizing stream before digest sizeBytes v with
  | _ n ih =>
    rw [LocalRawStorage.writeChunks_eq]
    split
    · exact follows_throw (PublishPhase.holding_writing v)
    · next chunk stream' hread =>
      split
      · next hchunk =>
        subst hchunk
        refine follows_pure ⟨[], .done hread, ?_, ?_⟩
        · rw [List.append_nil, List.length_nil, Nat.add_zero]
        · rw [List.append_nil, ← hfile, Function.update_eq_self]
      · next hchunk =>
        have hlt := BinaryStream.remaining_lt hread hchunk
        refine Program.Follows.bind (follows_call
          (fun _ ↦ ⟨_, .write (.append hq hfile), rfl⟩)
          fun e ↦ ⟨_, .writeFailed hq, PublishPhase.holding_spoiled⟩)
          (M := fun _ phase ↦ phase = .writing (Function.update v q (some (.file (before ++ chunk))))) ?_
        rintro - _ rfl
        refine (ih _ (hn ▸ hlt) stream' (Function.update_self ..) (digest.update chunk)
          (sizeBytes + chunk.length) rfl).mono ?_ fun _ ↦ id
        rintro _ _ ⟨bytes, hstream, rfl, rfl⟩
        refine ⟨chunk ++ bytes, .chunk hread hchunk hstream, ?_, ?_⟩
        · rw [ChunkedSha256.update, List.append_assoc, List.length_append, Nat.add_assoc]
        · rw [Function.update_idem, List.append_assoc]

/-- The directory of an upload. -/
def uploadedDir (filename : String) (bytes : List Byte) : View String Byte :=
  Function.update (Function.update View.emptyDir ["original"] (some .dir)) ["original", filename]
    (some (.file bytes))

theorem uploadedDir_journal (filename : String) (bytes : List Byte) (node : Option (Node Byte)) :
    Function.update (Function.update (uploadedDir filename bytes) [stagingStateFilename] node)
      [stagingStateFilename] none = uploadedDir filename bytes := by
  have hnone : uploadedDir filename bytes [stagingStateFilename] = none := by
    rw [uploadedDir, Function.update_of_ne (by simp), Function.update_of_ne (by decide)]
    rfl
  rw [Function.update_idem, ← hnone, Function.update_eq_self]

theorem uploadedDir_journal_tmp (filename : String) (bytes journal : List Byte) :
    Function.update (uploadedDir filename bytes) [stagingStateFilename] (some (.file journal))
      [stagingStateFilename ++ ".tmp"] = none := by
  rw [Function.update_of_ne (by decide), uploadedDir, Function.update_of_ne (by simp),
    Function.update_of_ne (by decide)]
  rfl

omit [LawfulFloatText R] [FloatText R] in
theorem follows_receive {σ : Type} [BinaryStream ε σ] (filename : String) (stream : σ)
    (journal : List Byte) :
    (call (.create (P.staging ++ ["original"] ++ [filename])) >>= fun _ ↦
      LocalRawStorage.writeChunks (P.staging ++ ["original"] ++ [filename]) stream {} 0 :
      StorageProgram ε (ChunkedSha256 × ℕ)).Follows P.Next
      (fun result phase ↦ ∃ bytes, Delivers stream bytes (.ok ()) ∧ result = (⟨bytes⟩, bytes.length) ∧
        phase = .writing (Function.update (uploadedDir filename bytes) [stagingStateFilename]
          (some (.file journal))))
      PublishPhase.Holding (.writing (Function.update (Function.update View.emptyDir
        [stagingStateFilename] (some (.file journal))) ["original"] (some .dir))) := by
  have hfile : (["original", filename] : Path String) ≠ [] := List.cons_ne_nil _ _
  have hne : (["original", filename] : Path String) ≠ [stagingStateFilename] := by simp
  have hne' : (["original"] : Path String) ≠ [stagingStateFilename] := by decide
  rw [List.append_assoc]
  refine Program.Follows.bind (M := fun _ phase ↦ phase = .writing (Function.update (Function.update
      (Function.update View.emptyDir [stagingStateFilename] (some (.file journal))) ["original"]
        (some .dir)) ["original", filename] (some (.file []))))
    (follows_call (fun _ ↦ ⟨_, .write (.create hfile), rfl⟩)
      fun e ↦ ⟨_, .failed trivial, PublishPhase.holding_writing _⟩) ?_
  rintro - _ rfl
  refine (follows_writeChunks hfile stream (Function.update_self ..) {} 0).mono ?_ fun _ ↦ id
  rintro _ _ ⟨bytes, hstream, rfl, rfl⟩
  refine ⟨bytes, hstream, ?_, ?_⟩
  · rw [List.nil_append, Nat.zero_add]
  · rw [Function.update_idem, List.nil_append, uploadedDir, Function.update_comm hne,
      Function.update_comm hne']

theorem follows_discard {q : PublishPhase String Byte} (hq : q.Holding) :
    (discardStagingDir P.staging : StorageProgram ε Unit).Follows P.Next (fun _ _ ↦ True)
      (fun _ ↦ True) q :=
  follows_call (fun _ ↦ ⟨_, .discard hq, trivial⟩) fun _ ↦ ⟨_, .discard hq, trivial⟩

/-- **Saving keeps to the protocol**: when it returns, it has published all that the stream delivered,
and the size and the digest that it returns are those of what is visible. -/
theorem follows_save {σ : Type} [BinaryStream ε σ] {storage : LocalRawStorage}
    {customerId sessionId ingestionId : String} (hstaging : P.staging = storage.stagingDir ingestionId)
    (hfinal : P.final = storage.ingestionDir customerId sessionId ingestionId)
    (sha256 : List Byte → Sha256Digest) (process : Process) (filename : String) (stream : σ)
    (hcomplete : ∀ bytes, Delivers stream bytes (.ok ()) → P.Complete (uploadedDir filename bytes)) :
    (storage.save R sha256 process customerId sessionId ingestionId filename stream).Follows P.Next
      (fun saved phase ↦ ∃ bytes, Delivers stream bytes (.ok ()) ∧
        saved = ⟨fileUri (P.final ++ ["original", filename]), bytes.length, sha256 bytes⟩ ∧
        phase = .published (uploadedDir filename bytes))
      (fun _ ↦ True) .outside := by
  rw [LocalRawStorage.save]
  dsimp only
  rw [← hstaging, ← hfinal]
  refine Program.Follows.bind (M := fun _ phase ↦ phase = .outside)
    (follows_read (fun _ ↦ id) (fun _ ↦ rfl) trivial) ?_
  rintro present _ rfl
  cases present with
  | true =>
    exact Program.Follows.bind (M := fun _ _ ↦ False) (follows_throw trivial) fun _ _ ↦ False.elim
  | false =>
    rw [if_neg Bool.false_ne_true]
    refine Program.Follows.bind (Program.Follows.tryCatch
      (follows_createStagingDir process ingestionId ingestionId "ingestion" P.final) fun e q _ ↦ ?_) ?_
    · split <;> exact follows_throw trivial
    rintro - _ ⟨journal, rfl⟩
    -- the directory of the upload, in which the file is made
    refine Program.Follows.bind
      (M := fun _ phase ↦ phase = .writing (Function.update (Function.update View.emptyDir
        [stagingStateFilename] (some (.file journal))) ["original"] (some .dir)))
      (follows_call (fun _ ↦ ⟨_, .write (.makeDir true rfl rfl), rfl⟩)
        fun e ↦ ⟨_, .notMade (.inr ⟨PublishPhase.holding_writing _, List.dropLast_concat⟩), trivial⟩) ?_
    rintro - _ rfl
    refine Program.Follows.bind (Program.Follows.tryCatch (C := PublishPhase.Holding)
      (follows_receive filename stream journal) fun e q hq ↦ ?_) ?_
    · exact Program.Follows.bind (M := fun _ _ ↦ True) (follows_discard hq)
        fun _ _ _ ↦ follows_throw trivial
    rintro _ _ ⟨bytes, hstream, rfl, rfl⟩
    refine Program.Follows.bind (Program.Follows.tryCatch (follows_commitStagingDir
      (uploadedDir_journal_tmp filename bytes journal) ?_ storage.fsyncEnabled) fun e q hq ↦ ?_) ?_
    · rw [uploadedDir_journal]
      exact hcomplete bytes hstream
    · split
      · exact Program.Follows.bind (M := fun _ _ ↦ True) (follows_discard hq)
          fun _ _ _ ↦ follows_throw trivial
      · exact follows_throw trivial
    · rintro - _ rfl
      rw [uploadedDir_journal]
      exact follows_pure ⟨bytes, hstream, rfl, rfl⟩

end Staging

end Storage

end ForgeData
