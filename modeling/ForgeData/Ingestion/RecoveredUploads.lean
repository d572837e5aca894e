import ForgeData.Ingestion.ConcurrentUploads
import ForgeData.Storage.StaleCleanup

/-!
# Uploads after a crash

Uploads under one id have crashed, and a cleanup has removed what has become stale. A complete upload is
still there; otherwise there is room again, and an upload under the id succeeds.
-/

namespace ForgeData

namespace Ingestion

open Python Storage FileSystem LocalRawStorage Interleaving

/-- No step of the path is named like a staging area. -/
def NotStaging (path : Path String) : Prop := ∀ name ∈ path, name ≠ ".staging" ∧ isTmpName name = false

section Recovery

variable {F : Type} [DurationFloat F] {recovery : RecoverySettings F}

theorem NotStaging.mono {p q : Path String} (h : NotStaging q) (hle : p <+: q) : NotStaging p :=
  fun name hname ↦ h name (hle.subset hname)

omit [DurationFloat F] in
theorem not_notStaging {stage : String} {dir : Path String} (h : IsStagingDir recovery stage dir) :
    ¬NotStaging dir := by
  rintro hnot
  obtain ⟨root, -, ⟨name, rfl⟩ | ⟨q, name, hname, rfl⟩⟩ := h
  · exact (hnot ".staging" (by simp)).1 rfl
  · have hfalse := (hnot name (by simp)).2
    rw [hname] at hfalse
    cases hfalse

variable {σ : Type} [ByteStream σ] {R : Type} [FloatText R] {storage : LocalRawStorage}
  {settings : IngestionSettings} {env : Surroundings} {request : UploadRequest σ}

omit [DurationFloat F] in
/-- No staging directory is in or above a complete upload. -/
theorem Shows.not_prefix {t : Tree String Byte} {final : Path String} (hfinal : NotStaging final)
    (h : Shows R storage settings env request (t.sub final)) {stage : String} {dir : Path String}
    (hplace : IsStagingDir recovery stage dir) (hdir : t.isDir dir = true) {q : Path String} :
    ¬dir <+: final ++ q := by
  intro hle
  rcases List.prefix_or_prefix_of_prefix hle (List.prefix_append final q) with hle | ⟨r, rfl⟩
  · exact not_notStaging hplace (hfinal.mono hle)
  · -- what is in the upload and may be a directory has another name
    have hnames : ∀ name ∈ r, name ∈ ["original", "manifest.json", "manifest.json.tmp"] := by
      by_contra hnot
      have hnil : r ≠ [] := by
        rintro rfl
        exact hnot (List.forall_mem_nil _)
      have hnode : t.sub final r = some .dir :=
        (t.isDir_iff.mp hdir).resolve_left (List.append_ne_nil_of_right_ne_nil _ hnil)
      by_cases hr : r = ["original", sanitizeFilename env.nfkd request.filename]
      · rw [hr, h.original] at hnode
        cases hnode
      · rw [h.nothingElse r fun hmem ↦ hnot ?_] at hnode
        · cases hnode
        · simp only [List.mem_cons, hnil, hr, List.not_mem_nil, or_false, false_or] at hmem
          rcases hmem with rfl | rfl | rfl <;> simp
    refine not_notStaging hplace fun name hname ↦ ?_
    rcases List.mem_append.mp hname with hname | hname
    · exact hfinal name hname
    · have hmem := hnames name hname
      simp only [List.mem_cons, List.not_mem_nil, or_false] at hmem
      rcases hmem with rfl | rfl | rfl <;> decide +kernel

variable [LawfulFloatText R] {requests : Set (Surroundings × UploadRequest σ)}
  {customerId sessionId ingestionId : String}

/-- **Crash, cleanup, rerun.** Uploads under one id are started and crash, wherever they are; then a
cleanup runs. The staging directory, if one is left behind, is listed. What is at the destination is as it
was. And if the staging directory is not there or has become stale, and nothing has been published, then
an upload under the same id succeeds and is stored. -/
theorem rerun_after_crash
    (hstaging : ¬storage.stagingDir ingestionId <+: storage.ingestionDir customerId sessionId ingestionId)
    (hfinal : ¬storage.ingestionDir customerId sessionId ingestionId <+: storage.stagingDir ingestionId)
    (hvisible : NotStaging (storage.ingestionDir customerId sessionId ingestionId))
    (htargets : ∀ u ∈ requests, Targets customerId sessionId ingestionId u)
    {t t' : Tree String Byte} {h : List (PoolStep (Op String Byte) Op.Ans (Tree String Byte))}
    {qs : List (Prog (Op String Byte) Op.Ans Unit)}
    (hrun : PoolRun Effect
      (UploadParty R storage settings requests customerId sessionId ingestionId) [] t h qs t')
    (hclosed : t.Closed) (hnew : t.Absent (storage.ingestionDir customerId sessionId ingestionId))
    (hroot : recovery.rawStorageRoot = storage.root) {now : ℤ} {result : RecoveryScanResult R}
    (hscan : scan recovery now t' = .ok result) :
    ∃ t'', cleanupStale recovery now false t' = (.ok result.stale, t'') ∧
      (t'.isDir (storage.stagingDir ingestionId) = true → ∃ e ∈ result.entries,
        e.stage = "ingestion" ∧ e.stagingPath = storage.stagingDir ingestionId) ∧
      t''.sub (storage.ingestionDir customerId sessionId ingestionId) =
        t'.sub (storage.ingestionDir customerId sessionId ingestionId) ∧
      (t'.get? (storage.stagingDir ingestionId) = none ∨
          t'.isDir (storage.stagingDir ingestionId) = true ∧
          IsStale R recovery now t' (storage.stagingDir ingestionId) →
        t'.Absent (storage.ingestionDir customerId sessionId ingestionId) →
        (∀ p, p ≠ [] → p <+: (storage.ingestionDir customerId sessionId ingestionId).dropLast ∨
          p <+: (storage.stagingDir ingestionId).dropLast → t'.file? p = none) →
        ∀ (env : Surroundings) (request : UploadRequest σ),
        Targets customerId sessionId ingestionId (env, request) →
        extensionOf (sanitizeFilename env.nfkd request.filename) ∈ settings.allowedExtensions →
        settings.maxUploadSizeBytes + settings.diskReserveBytes ≤ env.availableBytes →
        ByteStream.pending request.stream ≠ [] →
        (ByteStream.pending request.stream).length ≤ settings.maxUploadSizeBytes →
        ∃ t''' response, Runs (ingest R storage settings env request) t'' (.ok response) t''' ∧
          Stored R t''' (uploadDir storage env request) (sanitizeFilename env.nfkd request.filename)
            (ByteStream.pending request.stream) (env.sha256 (ByteStream.pending request.stream))
            response) := by
  obtain ⟨hclosed', -⟩ := closed_of_poolRun hrun hclosed
  obtain ⟨hshows, -⟩ := (uploadPublishing R storage settings requests hstaging hfinal).visible_of_poolRun
    (F := fun _ _ ↦ True) (fun p hp ↦ follows_of_uploadParty htargets hp) hrun hnew
    (hclosed.absent (Publishing.staging_ne_nil (P := uploadPublishing R storage settings requests hstaging hfinal)))
  -- what the cleanup removes is exactly what lies under a stale staging directory
  have hgone {p : Path String} := outside_stale_eq_false_iff (p := p) hclosed' hscan
  have hnone {p : Path String} (hp : t'.get? p = none) :
      (t'.prune (outside result.stale)).get? p = none := by
    rw [t'.get?_prune, hp, ite_self]
  have hplace : IsStagingDir recovery "ingestion" (storage.stagingDir ingestionId) :=
    ⟨storage.root, hroot ▸ List.mem_cons_self, .inl ⟨ingestionId, rfl⟩⟩
  refine ⟨_, cleanupStale_eq hclosed' hscan, exists_entry hclosed' hscan hplace, ?_, ?_⟩
  -- a published upload is outside of every stale directory, hence untouched
  · rcases hshows with habsent | ⟨u, -, hu⟩
    · funext q
      have habsent := habsent _ (List.prefix_append _ q)
      exact (hnone habsent).trans habsent.symm
    · refine Tree.sub_congr fun p hp ↦ ?_
      obtain ⟨q, rfl⟩ := hp
      rw [t'.get?_prune, if_pos]
      by_contra hfalse
      obtain ⟨stage, dir, hplace, hdir, -, hle⟩ := hgone.mp (by simpa using hfalse)
      exact hu.not_prefix hvisible hplace hdir hle
  -- after the cleanup the way is free for the upload, so it succeeds
  · intro hold habsent habove env request htarget hextension hspace hcontent hlimit
    have hfree : UploadFree storage env request (t'.prune (outside result.stale)) := by
      obtain ⟨hid, hcustomer, hsession⟩ := htarget
      have hnofile {p : Path String} (hp : t'.file? p = none) :
          Tree.file? (t'.prune (outside result.stale)) p = none := by
        rw [Tree.file?_eq_none_iff, t'.get?_prune]
        split
        · exact t'.file?_eq_none_iff.mp hp
        · exact .inl rfl
      rw [UploadFree, hid, hcustomer, hsession]
      refine ⟨fun p hp ↦ hnone (habsent p hp), fun p hp ↦ ?_, fun p hne hp ↦ hnofile (habove p hne (.inl hp)),
        fun p hne hp ↦ hnofile (habove p hne (.inr hp)), hstaging, hfinal⟩
      rcases hold with hmissing | ⟨hdir, hold⟩
      · exact hnone (hclosed'.absent (Publishing.staging_ne_nil
          (P := uploadPublishing R storage settings requests hstaging hfinal)) hmissing p hp)
      · rw [t'.get?_prune, hgone.mpr ⟨_, _, hplace, hdir, hold, hp⟩, if_neg Bool.false_ne_true]
    exact runs_ingest_ok R hfree hextension hspace hcontent hlimit

end Recovery

/-- The upload of three bytes. -/
def plainUpload : Prog (Op String Byte) Op.Ans Unit :=
  (ingest BitFloat ⟨["data", "raw"], true⟩ plainSettings plainSurroundings plainRequest).run.discard

/-- It has crashed after its sixth call. -/
def crashedUpload : PoolPoint (Op String Byte) Op.Ans (Tree String Byte) :=
  simulatePool (fun (_ : Unit) o t ↦ perform o t) (.start plainUpload :: List.replicate 6 (.act 0 ())) []
    Dict.empty

theorem rerun_after_crash_threeBytes : ∃ result : RecoveryScanResult BitFloat, ∃ t₁ t₂ response,
    crashedUpload.state.isDir ["data", "raw", ".staging", "ing_1"] = true ∧
    cleanupStale plainRecoverySettings 2000000000000000 false crashedUpload.state =
      (.ok result.stale, t₁) ∧
    Runs (ingest BitFloat ⟨["data", "raw"], true⟩ plainSettings plainSurroundings plainRequest) t₁
      (.ok response) t₂ := by
  have hdir : crashedUpload.state.isDir ["data", "raw", ".staging", "ing_1"] = true := by decide +kernel
  have hentries : ((scan (R := BitFloat) plainRecoverySettings 2000000000000000
      crashedUpload.state).toOption.map fun r ↦ r.entries.map fun e ↦ (e.stagingPath, e.classification)) =
      some [(["data", "raw", ".staging", "ing_1"], .stale)] := by decide +kernel
  have htarget : Targets "anonymous" "sess_1" "ing_1" (plainSurroundings, plainRequest) :=
    ⟨rfl, by decide +kernel, by decide +kernel⟩
  have hrun : PoolRun Effect (UploadParty BitFloat ⟨["data", "raw"], true⟩ plainSettings
      {(plainSurroundings, plainRequest)} "anonymous" "sess_1" "ing_1") [] Dict.empty crashedUpload.history
      crashedUpload.threads crashedUpload.state := by
    refine poolRun_simulatePool (fun _ _ _ ↦ .inl rfl) (fun p hp ↦ .inl ⟨_, rfl, ?_⟩) [] Dict.empty
    exact List.mem_singleton.mp (PoolTurn.mem_started.mpr hp)
  have hclosed := (closed_of_poolRun hrun Tree.closed_empty).1
  have hvisible : ∀ name ∈ (⟨["data", "raw"], true⟩ : LocalRawStorage).ingestionDir "anonymous" "sess_1"
      "ing_1", name ≠ ".staging" ∧ isTmpName name = false := by decide +kernel
  have hmissing : crashedUpload.state.get? ((⟨["data", "raw"], true⟩ : LocalRawStorage).ingestionDir
      "anonymous" "sess_1" "ing_1") = none := by decide +kernel
  have habove : ∀ p ∈ (((⟨["data", "raw"], true⟩ : LocalRawStorage).ingestionDir "anonymous" "sess_1"
      "ing_1").dropLast.inits ++ ((⟨["data", "raw"], true⟩ : LocalRawStorage).stagingDir
      "ing_1").dropLast.inits), crashedUpload.state.file? p = none := by decide +kernel
  rcases hscan : scan (R := BitFloat) plainRecoverySettings 2000000000000000 crashedUpload.state with
    e | result
  · rw [hscan] at hentries
    cases hentries
  · rw [hscan] at hentries
    obtain ⟨e, he, heq⟩ := List.map_eq_singleton_iff.mp (Option.some.inj hentries)
    obtain ⟨hpath, hstale⟩ := Prod.mk.inj heq
    have hclassify := (isStagingDir_of_mem hclosed hscan (he ▸ List.mem_singleton_self e)).2.2
    rw [hpath] at hclassify
    obtain ⟨t₁, hcleanup, -, -, hrerun⟩ := rerun_after_crash (by decide +kernel) (by decide +kernel)
      hvisible (fun u hu ↦ hu ▸ htarget) hrun Tree.closed_empty (fun _ _ ↦ rfl) rfl hscan
    obtain ⟨t₂, response, hresponse, -⟩ := hrerun
      (.inr ⟨hdir, (classify_ok hclassify).2.2.mp hstale⟩)
      (hclosed.absent (by decide +kernel) hmissing)
      (fun p _ hp ↦ habove p (List.mem_append.mpr (hp.imp (List.mem_inits _ _).mpr (List.mem_inits _ _).mpr)))
      plainSurroundings plainRequest htarget (by decide +kernel) (by decide) (List.cons_ne_nil _ _)
      (by decide)
    exact ⟨result, t₁, t₂, response, hdir, hcleanup, hresponse⟩

end Ingestion

end ForgeData
