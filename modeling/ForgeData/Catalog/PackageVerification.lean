import ForgeData.Catalog.Verifier
import ForgeData.Packaging.Passes

/-!
# Does verification cover a package?

A package is committed with its split files, its split index, its report and, on request, an export of
every split; the manifest records a digest for each of them. Verification finds every change but those
of the exports, whose entries it does not look at.
-/

namespace ForgeData

open Python

/-! ## What a run records -/

/-- What a run that succeeds puts into the manifest are the digests of what it has written. -/
theorem recorded_of_runPackaging {R π : Type} [PyFloat R] {env : PackagingEnv π}
    {profile : PackagingProfile} {config : PackagingConfig R} {transformedSha256 : String}
    {sessionIds : List String} {lines : List (Option (Sample π))} {result : PackagingResult R}
    {staged : StagedSplits π}
    (h : runPackaging env profile config transformedSha256 sessionIds lines = .ok (result, staged)) :
    (∀ split, (result.splitManifestEntries split).sha256 = env.sha256 (staged.text env split) ∧
        (result.splitManifestEntries split).artifactUri = env.artifactUri (split.name ++ ".jsonl")) ∧
      result.splitIndexSha256 = env.sha256 (staged.indexText env) ∧
      result.parquetEntries =
        optionalExports env config.exports staged result.splitManifestEntries := by
  rw [runPackaging, bind_eq_ok_iff] at h
  obtain ⟨records, -, h⟩ := h
  split at h
  · cases h
    exact ⟨fun split ↦ ⟨rfl, rfl⟩, rfl, rfl⟩
  · simp only [packageRecords, bind_eq_ok_iff] at h
    obtain ⟨grouped, -, groupToSplit, -, indexToAssignment, -, leakageChecks, -, staged', hwrite, h⟩ := h
    cases h
    have hinv := writeInv_of_writeSplits hwrite
    refine ⟨fun split ↦ ⟨?_, rfl⟩, congrArg env.sha256 hinv.splitIndexDigest, rfl⟩
    exact congrArg env.sha256 (hinv.digests split)

/-! ## Committed packages -/

/-- The bytes of a text. -/
def utf8Bytes (text : String) : List Byte := (Utf8.encode (Str.ofString text)).getD []

theorem encode_ofString (text : String) :
    Utf8.encode (Str.ofString text) = some (utf8Bytes text) := by
  have hsome := (Utf8.isSome_encode_iff _).mpr (Utf8.encodable_ofString text)
  rw [utf8Bytes, ← Option.get_eq_getD _ (h := hsome), Option.some_get]

/-- The serializers of a packaging run. -/
structure PackageWriter (π : Type) where
  serializeSample : Sample π → String
  serializeIndex : SplitIndexRecord → String
  /-- The file that the Parquet exporter writes. -/
  parquet : String → List Byte

/-- What a run takes from the rest of the system, if its final directory is this one. -/
def PackageWriter.packagingEnv {π : Type} (writer : PackageWriter π) (env : VerifierEnv)
    (dir : List String) : PackagingEnv π where
  sha256 := fun text ↦ env.sha256 (utf8Bytes text)
  serializeSample := writer.serializeSample
  serializeIndex := writer.serializeIndex
  artifactUri := fun filename ↦ fileUri (dir ++ pathParts filename.toList)
  exportParquet := fun text ↦ (env.sha256 (writer.parquet text), (writer.parquet text).length)

/-- A `SplitManifestEntry` in the manifest. -/
def SplitManifestEntry.toJson (entry : SplitManifestEntry) : Json :=
  .obj [("samples", .int entry.samples), ("sha256", .str entry.sha256.1.text),
    ("size_bytes", .int entry.sizeBytes), ("artifact_uri", .str entry.artifactUri)]

/-- The entries of all splits. -/
def splitEntriesJson (entries : Split → SplitManifestEntry) : Json :=
  .obj (Split.all.map fun split ↦ (split.name, (entries split).toJson))

/-- The ids of a package, which the stores have accepted as names of directories. -/
structure PackageIds where
  transformationId : String
  packageId : String
  transformation_safe : isSafePathComponent transformationId = true
  package_safe : isSafePathComponent packageId = true

/-- The final directory. -/
def PackageIds.dir (ids : PackageIds) (root : List String) : List String :=
  root ++ [ids.transformationId, ids.packageId]

/-- The value of `PackageManifest`; the fields that neither the scanner's key nor the verifier reads are
given as a list. -/
def packageManifest {R : Type} (env : VerifierEnv) (root : List String) (ids : PackageIds)
    (result : PackagingResult R) (report : List Byte) (others : List (String × Json)) : Json :=
  .obj ([("package_id", .str ids.packageId), ("transformation_id", .str ids.transformationId),
    ("splits", splitEntriesJson result.splitManifestEntries),
    ("split_index_sha256", .str result.splitIndexSha256.1.text),
    ("split_index_size_bytes", .int result.splitIndexSizeBytes),
    ("split_index_uri", .str (fileUri (ids.dir root ++ ["split_index.jsonl"]))),
    ("exports", match result.parquetEntries with
      | none => .null
      | some entries => .obj [("parquet", splitEntriesJson entries)]),
    ("report_sha256", .str (env.hexdigest report)),
    ("report_uri", .str (fileUri (ids.dir root ++ ["report.json"])))] ++ others)

/-- A package that has been committed. The text of the manifest is the library's; it has no carriage
return, and it is read back as the value that was written. -/
structure CommittedPackage (R π : Type) [PyFloat R] (env : VerifierEnv) (root : List String) where
  root_components : ∀ part ∈ root, IsComponent part
  writer : PackageWriter π
  ids : PackageIds
  profile : PackagingProfile
  config : PackagingConfig R
  transformedSha256 : String
  sessionIds : List String
  lines : List (Option (Sample π))
  result : PackagingResult R
  staged : StagedSplits π
  run : runPackaging (writer.packagingEnv env (ids.dir root)) profile config transformedSha256 sessionIds
    lines = .ok (result, staged)
  report : List Byte
  others : List (String × Json)
  manifestText : Str
  manifestBytes : List Byte
  encoded : Utf8.encode manifestText = some manifestBytes
  unbroken : CodePoint.ofChar '\r' ∉ manifestText
  readBack : env.loads manifestBytes = some (packageManifest env root ids result report others)

namespace CommittedPackage

variable {R π : Type} [PyFloat R] {env : VerifierEnv} {root : List String}
  (p : CommittedPackage R π env root)

/-- The final directory. -/
def dir : List String := p.ids.dir root

/-- The environment that the run was in. -/
def packagingEnv : PackagingEnv π := p.writer.packagingEnv env p.dir

/-- The text of a split file. -/
def splitText (split : Split) : String := p.staged.text p.packagingEnv split

/-- The file of a split. -/
def splitFile (split : Split) : List String × List Byte :=
  (p.dir ++ [split.name ++ ".jsonl"], utf8Bytes (p.splitText split))

/-- The manifest. -/
def manifestFile : List String × List Byte := (p.dir ++ ["manifest.json"], p.manifestBytes)

/-- The split index. -/
def indexFile : List String × List Byte :=
  (p.dir ++ ["split_index.jsonl"], utf8Bytes (p.staged.indexText p.packagingEnv))

/-- The report. -/
def reportFile : List String × List Byte := (p.dir ++ ["report.json"], p.report)

/-- The manifest and the files that it records, but for the exports. -/
def coreFiles : List (List String × List Byte) :=
  p.manifestFile :: (Split.all.map p.splitFile ++ [p.indexFile, p.reportFile])

/-- The exported files that the manifest records. -/
def exportFiles : List (List String × List Byte) :=
  if "parquet" ∈ p.config.exports then
    Split.all.map fun split ↦
      (p.dir ++ ["optional", split.name ++ ".parquet"], p.writer.parquet (p.splitText split))
  else []

/-- The file is there, as it was committed. -/
def Unchanged (disk : Disk) (file : List String × List Byte) : Prop := disk file.1 = some file.2

/-! ## Paths and digests -/

variable {p}

theorem isComponent_of_safe {value : String} (h : isSafePathComponent value = true) :
    IsComponent value := by
  obtain ⟨hne, hslash, -, hdot, -⟩ := of_decide_eq_true h
  exact ⟨hne, hdot, hslash⟩

theorem dir_components : ∀ part ∈ p.dir, IsComponent part := by
  intro part hpart
  rcases List.mem_append.mp hpart with hpart | hpart
  · exact p.root_components part hpart
  · rcases List.mem_pair.mp hpart with rfl | rfl
    · exact isComponent_of_safe p.ids.transformation_safe
    · exact isComponent_of_safe p.ids.package_safe

theorem uriToPath_dir {names : List String} (h : ∀ name ∈ names, IsComponent name) :
    uriToPath (fileUri (p.dir ++ names)) = p.dir ++ names := by
  refine uriToPath_fileUri fun part hpart ↦ ?_
  rcases List.mem_append.mp hpart with hpart | hpart
  · exact dir_components part hpart
  · exact h part hpart

theorem pathParts_splitName (split : Split) :
    pathParts (split.name ++ ".jsonl").toList = [split.name ++ ".jsonl"] := by
  cases split <;> decide +kernel

theorem isComponent_splitName (split : Split) : IsComponent (split.name ++ ".jsonl") := by
  cases split <;> decide +kernel

theorem splitManifestEntries_eq (split : Split) :
    (p.result.splitManifestEntries split).sha256 = env.sha256 (p.splitFile split).2 ∧
      (p.result.splitManifestEntries split).artifactUri = fileUri (p.splitFile split).1 := by
  obtain ⟨hentries, -, -⟩ := recorded_of_runPackaging p.run
  obtain ⟨hsha, huri⟩ := hentries split
  refine ⟨hsha, huri.trans ?_⟩
  exact congrArg (fun names ↦ fileUri (p.dir ++ names)) (pathParts_splitName split)

/-- The value of the manifest. -/
def manifest (p : CommittedPackage R π env root) : Json :=
  packageManifest env root p.ids p.result p.report p.others

end CommittedPackage

/-! ## Registered packages -/

/-- The catalog has a row that agrees with what a scan makes of the manifest. -/
def RegisteredByScan (env : VerifierEnv) (db : CatalogDb) (file : List String × List Byte) : Prop :=
  ∃ sha256 d time row, env.manifestSha256 file.2 = some sha256 ∧
    scanPackage ⟨file.1, sha256, env.loads file.2⟩ = some d ∧ db.getArtifact d.key = some row ∧
    ∀ f ∈ CatalogDb.conflictFields row (d.record time), f.2 = true

/-- A scan that registers its package without a conflict leaves such a row. -/
theorem registeredByScan_of_upsertArtifact {env : VerifierEnv} {db db' : CatalogDb}
    {file : List String × List Byte} {sha256 : String} {d : DiscoveredArtifact} {time : String}
    {inserted : Bool} (hsha : env.manifestSha256 file.2 = some sha256)
    (hscan : scanPackage ⟨file.1, sha256, env.loads file.2⟩ = some d)
    (h : db.upsertArtifact d.key (d.record time) = .ok (inserted, db')) :
    RegisteredByScan env db' file := by
  rw [CatalogDb.upsertArtifact] at h
  split at h
  · cases h
    refine ⟨sha256, d, time, d.record time, hsha, hscan, Dict.get?_set_self .., ?_⟩
    simp [CatalogDb.conflictFields]
  · next existing hexisting =>
    split at h
    · cases h
    · next hagree =>
      cases h
      refine ⟨sha256, d, time, existing, hsha, hscan, hexisting, fun f hf ↦ ?_⟩
      simpa using List.find?_eq_none.mp hagree f hf

namespace CommittedPackage

variable {R π : Type} [PyFloat R] {env : VerifierEnv} {root : List String}
  {p : CommittedPackage R π env root} {db : CatalogDb} {disk : Disk}

theorem manifestSha256_eq : env.manifestSha256 p.manifestBytes = some (env.hexdigest p.manifestBytes) := by
  rw [VerifierEnv.manifestSha256, Utf8.decode_encode p.encoded, Option.bind_some,
    Str.universalNewlines_eq_self p.unbroken, p.encoded, Option.map_some]

theorem manifest_fields :
    p.manifest.getStr? "package_id" = some p.ids.packageId ∧
      p.manifest.getStr? "transformation_id" = some p.ids.transformationId ∧
      p.manifest.get? "splits" = some (splitEntriesJson p.result.splitManifestEntries) ∧
      recorded p.manifest "split_index_uri" = .str (fileUri p.indexFile.1) ∧
      recorded p.manifest "split_index_sha256" = .str p.result.splitIndexSha256.1.text ∧
      recorded p.manifest "report_sha256" = .str (env.hexdigest p.report) :=
  ⟨rfl, rfl, rfl, rfl, rfl, rfl⟩

/-- What the row of a registered package says. -/
theorem exists_row (h : RegisteredByScan env db p.manifestFile) :
    ∃ row, db.getArtifact (packageKey p.ids.packageId) = some row ∧
      row.manifestUri = some (fileUri p.manifestFile.1) ∧
      row.manifestSha256 = some (env.hexdigest p.manifestBytes) ∧
      isObject row.metadata = true ∧
      recorded row.metadata "transformation_id" = .str p.ids.transformationId := by
  obtain ⟨sha256, d, time, row, hsha, hscan, hrow, hagree⟩ := h
  obtain rfl := Option.some.inj (manifestSha256_eq.symm.trans hsha)
  have hvalue : env.loads p.manifestFile.2 = some p.manifest := p.readBack
  rw [hvalue, scanPackage] at hscan
  simp only [scanManifest, bind, Option.bind_eq_some_iff] at hscan
  obtain ⟨data, hdata, id, hid, status, -, storageUri, -, contentSha256, -, createdAt, -, sessionId, -,
    parents, -, hd⟩ := hscan
  obtain rfl := Option.some.inj hdata
  cases hd
  obtain rfl := Option.some.inj (manifest_fields.1.symm.trans hid)
  simp only [CatalogDb.conflictFields, List.forall_mem_cons, decide_eq_true_eq] at hagree
  obtain ⟨-, huri, hsha', -, hmetadata, -⟩ := hagree
  refine ⟨row, hrow, huri, hsha', ?_, ?_⟩
  · rw [hmetadata]
    rfl
  · have htext : row.metadata.getStr? "transformation_id" = some p.ids.transformationId := by
      rw [hmetadata, Json.getStr?_canonical, manifest_fields.2.1]
    rw [Json.getStr?] at htext
    split at htext
    · next s hs =>
      rw [recorded, hs, ← Option.some.inj htext]
      rfl
    · cases htext

/-! ## The checks -/

/-- The checks of the split files. -/
theorem splitChecks_manifest : env.splitChecks disk p.manifest =
    some (Split.all.map fun split ↦ env.checkContentFile disk ("split_" ++ split.name)
      (p.splitFile split).1 (.str (env.hexdigest (p.splitFile split).2))) := by
  have hentry : ∀ split, env.checkContentFile disk ("split_" ++ split.name)
      (uriToPath (p.result.splitManifestEntries split).artifactUri)
      (.str (p.result.splitManifestEntries split).sha256.1.text) =
      env.checkContentFile disk ("split_" ++ split.name) (p.splitFile split).1
        (.str (env.hexdigest (p.splitFile split).2)) := by
    intro split
    obtain ⟨hsha, huri⟩ := splitManifestEntries_eq (p := p) split
    rw [hsha, huri, splitFile, uriToPath_dir (List.forall_mem_singleton.mpr (isComponent_splitName split))]
    rfl
  rw [VerifierEnv.splitChecks, manifest_fields.2.2.1]
  simp only [splitEntriesJson, Split.all, List.map_cons, List.map_nil, List.mapM_cons, List.mapM_nil,
    ← hentry]
  rfl

theorem splitIndexCheck_manifest : env.splitIndexCheck disk p.manifest =
    some [env.checkContentFile disk "split_index" p.indexFile.1 (.str (env.hexdigest p.indexFile.2))] := by
  obtain ⟨-, hsha, -⟩ := recorded_of_runPackaging p.run
  obtain ⟨-, -, -, huri, hdigest, -⟩ := manifest_fields (p := p)
  have hpath : uriToPath (fileUri p.indexFile.1) = p.indexFile.1 :=
    uriToPath_dir (List.forall_mem_singleton.mpr (by decide +kernel))
  rw [VerifierEnv.splitIndexCheck, huri, hdigest, hsha]
  simp only []
  rw [if_neg ?_, hpath]
  · rfl
  · exact Bool.false_ne_true

/-- The checks of a package whose manifest is as it was committed. -/
def expectedChecks (p : CommittedPackage R π env root) (disk : Disk) : List Check :=
  env.checkManifestBytes disk p.manifestFile.1 (some (env.hexdigest p.manifestFile.2)) ::
    (Split.all.map (fun split ↦ env.checkContentFile disk ("split_" ++ split.name)
        (p.splitFile split).1 (.str (env.hexdigest (p.splitFile split).2))) ++
      [env.checkContentFile disk "split_index" p.indexFile.1 (.str (env.hexdigest p.indexFile.2))] ++
      [env.checkContentFile disk "package_report" p.reportFile.1 (.str (env.hexdigest p.reportFile.2))])

theorem append_dir (names : List String) :
    root ++ p.ids.transformationId :: p.ids.packageId :: names = p.dir ++ names := by
  rw [dir, PackageIds.dir, List.append_assoc]
  rfl

theorem verifyPackage_of_unchanged {row : ArtifactRow}
    (huri : row.manifestUri = some (fileUri p.manifestFile.1))
    (hsha : row.manifestSha256 = some (env.hexdigest p.manifestBytes))
    (hobject : isObject row.metadata = true)
    (htransformation : recorded row.metadata "transformation_id" = .str p.ids.transformationId)
    (h : Unchanged disk p.manifestFile) :
    env.verifyPackage disk root p.ids.packageId row = some (p.expectedChecks disk) := by
  have hpath : uriToPath (fileUri p.manifestFile.1) = p.manifestFile.1 :=
    uriToPath_dir (List.forall_mem_singleton.mpr (by decide +kernel))
  have hfound : env.findPackageManifest disk root p.ids.transformationId p.ids.packageId =
      some (some p.manifest) := by
    have hdisk : disk (root ++ [p.ids.transformationId, p.ids.packageId, "manifest.json"]) =
        some p.manifestBytes := by
      rw [append_dir]
      exact h
    rw [VerifierEnv.findPackageManifest, if_pos ⟨p.ids.transformation_safe, p.ids.package_safe⟩, hdisk]
    exact congrArg (Option.map some) p.readBack
  obtain ⟨-, -, -, -, -, hdigest⟩ := manifest_fields (p := p)
  rw [VerifierEnv.verifyPackage, if_pos hobject, htransformation]
  simp only [hfound]
  have hmanifest : isObject p.manifest = true := rfl
  rw [if_pos hmanifest, VerifierEnv.packageChecks, huri, splitChecks_manifest, splitIndexCheck_manifest,
    hdigest, append_dir, hsha]
  simp only [hpath, Option.pure_def, Option.bind_eq_bind, Option.bind_some]
  rfl

/-- A verified package has its manifest unchanged. -/
theorem unchanged_of_verified {row : ArtifactRow}
    (huri : row.manifestUri = some (fileUri p.manifestFile.1))
    (hsha : row.manifestSha256 = some (env.hexdigest p.manifestBytes))
    (hcollision : env.CollisionFree disk p.manifestFile.1 p.manifestFile.2) {checks : List Check}
    (h : env.verifyPackage disk root p.ids.packageId row = some checks)
    (hverified : overallStatus checks = .verified) : Unchanged disk p.manifestFile := by
  have hpath : uriToPath (fileUri p.manifestFile.1) = p.manifestFile.1 :=
    uriToPath_dir (List.forall_mem_singleton.mpr (by decide +kernel))
  rw [overallStatus_eq_verified_iff] at hverified
  have hmissing : ∀ detail, (⟨"manifest_file", .missing, detail⟩ : Check) ∉ checks :=
    fun detail hmem ↦ absurd (hverified _ hmem) nofun
  rw [VerifierEnv.verifyPackage] at h
  split at h
  swap
  · cases h
  split at h
  · split at h
    · cases h
    · cases h
      exact absurd (List.mem_singleton_self _) (hmissing _)
    · split at h
      swap
      · cases h
      simp only [VerifierEnv.packageChecks, huri, hsha, Option.pure_def, Option.bind_eq_bind,
        Option.bind_some, hpath, Option.bind_eq_some_iff, Option.some.injEq] at h
      obtain ⟨splits, -, index, -, rfl⟩ := h
      exact (VerifierEnv.checkManifestBytes_verified_iff hcollision).mp
        (hverified _ (List.mem_cons_self ..))
  · split at h
    · cases h
      exact absurd (List.mem_singleton_self _) (hmissing _)
    · cases h

/-- All expected checks pass if and only if the manifest, the split files, the index and the report are
unchanged. -/
theorem expectedChecks_verified_iff
    (hcollision : ∀ file ∈ p.coreFiles, env.CollisionFree disk file.1 file.2) :
    overallStatus (p.expectedChecks disk) = .verified ↔ ∀ file ∈ p.coreFiles, Unchanged disk file := by
  have hcontent : ∀ file ∈ p.coreFiles, ∀ name,
      (env.checkContentFile disk name file.1 (.str (env.hexdigest file.2))).status = .verified ↔
        Unchanged disk file :=
    fun file hfile name ↦ VerifierEnv.checkContentFile_verified_iff (hcollision file hfile)
  have hmanifest : (env.checkManifestBytes disk p.manifestFile.1
      (some (env.hexdigest p.manifestFile.2))).status = .verified ↔ Unchanged disk p.manifestFile :=
    VerifierEnv.checkManifestBytes_verified_iff (hcollision _ (List.mem_cons_self ..))
  rw [overallStatus_eq_verified_iff, expectedChecks]
  simp only [coreFiles, Split.all, List.map_cons, List.map_nil, List.cons_append, List.nil_append,
    List.forall_mem_cons] at hcontent ⊢
  obtain ⟨-, htrain, hvalidation, htest, hindex, hreport, -⟩ := hcontent
  simp [hmanifest, htrain, hvalidation, htest, hindex, hreport]

/-- Verification passes if and only if these files are unchanged. -/
theorem verify_iff (hscan : RegisteredByScan env db p.manifestFile)
    (hcollision : ∀ file ∈ p.coreFiles, env.CollisionFree disk file.1 file.2) :
    (∃ outcome, env.verify disk root db p.ids.packageId = some outcome ∧
        outcome.status = .verified) ↔ ∀ file ∈ p.coreFiles, Unchanged disk file := by
  obtain ⟨row, hrow, huri, hsha, hobject, htransformation⟩ := exists_row hscan
  rw [VerifierEnv.verify, hrow]
  constructor
  · rintro ⟨outcome, houtcome, hverified⟩
    obtain ⟨checks, hchecks, rfl⟩ := Option.map_eq_some_iff.mp houtcome
    have hmanifest :=
      unchanged_of_verified huri hsha (hcollision _ (List.mem_cons_self ..)) hchecks hverified
    have hexpected := verifyPackage_of_unchanged huri hsha hobject htransformation hmanifest
    obtain rfl := Option.some.inj (hchecks.symm.trans hexpected)
    exact (expectedChecks_verified_iff hcollision).mp hverified
  · intro hall
    have hexpected := verifyPackage_of_unchanged huri hsha hobject htransformation
      (hall _ (List.mem_cons_self ..))
    refine ⟨⟨overallStatus (p.expectedChecks disk), p.expectedChecks disk⟩, ?_, ?_⟩
    · exact congrArg (Option.map _) hexpected
    · exact (expectedChecks_verified_iff hcollision).mpr hall

/-- **Verification and the exports.** It reports a package verified if and only if every recorded file is
unchanged, exactly where all exports are unchanged or another file of the package is not. -/
theorem verify_covers_iff (p : CommittedPackage R π env root)
    (hscan : RegisteredByScan env db p.manifestFile)
    (hcollision : ∀ file ∈ p.coreFiles, env.CollisionFree disk file.1 file.2) :
    ((∃ outcome, env.verify disk root db p.ids.packageId = some outcome ∧
        outcome.status = .verified) ↔ ∀ file ∈ p.coreFiles ++ p.exportFiles, Unchanged disk file) ↔
      (∀ file ∈ p.exportFiles, Unchanged disk file) ∨ ∃ file ∈ p.coreFiles, ¬Unchanged disk file := by
  rw [verify_iff hscan hcollision, List.forall_mem_append]
  constructor
  · intro h
    by_cases hcore : ∀ file ∈ p.coreFiles, Unchanged disk file
    · exact .inl (h.mp hcore).2
    · push Not at hcore
      exact .inr hcore
  · rintro (hexports | ⟨file, hfile, hchanged⟩)
    · exact ⟨fun hcore ↦ ⟨hcore, hexports⟩, And.left⟩
    · exact ⟨fun hcore ↦ absurd (hcore file hfile) hchanged, And.left⟩

theorem exists_registeredByScan (p : CommittedPackage R π env root) (d : DiscoveredArtifact)
    (h : scanPackage ⟨p.manifestFile.1, env.hexdigest p.manifestBytes, some p.manifest⟩ = some d) :
    ∃ db, RegisteredByScan env db p.manifestFile := by
  have hread : env.loads p.manifestFile.2 = some p.manifest := p.readBack
  rw [← hread] at h
  have hput : CatalogDb.empty.upsertArtifact d.key (d.record "") = .ok (true,
      { CatalogDb.empty with
        artifacts := CatalogDb.empty.artifacts.set d.key (d.record "")
        edges_registered := nofun }) := rfl
  exact ⟨_, registeredByScan_of_upsertArtifact manifestSha256_eq h hput⟩

/-! ## An export that is not checked -/

end CommittedPackage

mutual

/-- The text of a value without a space; the strings are not escaped. -/
def plainText : Json → String
  | .null => "null"
  | .bool b => toString b
  | .int n => toString n
  | .real text => text
  | .str s => "\"" ++ s ++ "\""
  | .arr l => "[" ++ ",".intercalate (plainTexts l) ++ "]"
  | .obj fields => "\x7b" ++ ",".intercalate (plainFieldTexts fields) ++ "\x7d"

def plainTexts : List Json → List String
  | [] => []
  | j :: l => plainText j :: plainTexts l

def plainFieldTexts : List (String × Json) → List String
  | [] => []
  | (k, j) :: l => ("\"" ++ k ++ "\":" ++ plainText j) :: plainFieldTexts l

end

/-- The text of a value, where no string needs another escape than that of a carriage return. -/
def manifestJsonText (j : Json) : String :=
  String.ofList ((plainText j).toList.flatMap fun c ↦ if c = '\r' then ['\\', 'r'] else [c])

theorem return_notMem_manifestJsonText (j : Json) :
    CodePoint.ofChar '\r' ∉ Str.ofString (manifestJsonText j) := by
  intro h
  obtain ⟨c, hc, heq⟩ := List.mem_map.mp h
  rw [manifestJsonText, String.toList_ofList] at hc
  obtain ⟨a, -, ha⟩ := List.mem_flatMap.mp hc
  have hreturn : c = '\r' := Char.toNat_inj.mp (Fin.mk.inj heq)
  subst hreturn
  split at ha
  · exact absurd ha (by decide)
  · next hne => exact hne (List.mem_singleton.mp ha).symm

namespace CommittedPackage

/-- A digest that only knows lengths. -/
def lengthDigest (bytes : List Byte) : Sha256Digest :=
  ⟨Fin.ofNat 16 bytes.length :: List.replicate 63 0, rfl⟩

/-- An environment that reads nothing. -/
def blindEnv : VerifierEnv := ⟨lengthDigest, fun _ ↦ none⟩

/-- Serializers that write a sample as its id. -/
def listingWriter : PackageWriter Unit where
  serializeSample := fun s ↦ s.sampleId.getD "" ++ "\n"
  serializeIndex := fun r ↦ r.sampleId ++ " " ++ r.split.name ++ "\n"
  parquet := fun text ↦ utf8Bytes ("PAR1" ++ text ++ "PAR1")

/-- A configuration with an export. -/
def exportingConfig : PackagingConfig ℚ where
  split := { trainRatio := 1 / 2, validationRatio := 1 / 2, testRatio := 0 }
  exports := ["jsonl", "parquet"]

/-- The ids of the package. -/
def exportedIds : PackageIds := ⟨"t1", "p1", by decide +kernel, by decide +kernel⟩

/-- The result of a run over an empty source. -/
def exportedResult : PackagingResult ℚ × StagedSplits Unit :=
  finalizeEmptyResult (listingWriter.packagingEnv blindEnv (exportedIds.dir ["data"])) exportingConfig

/-- The value of its manifest. -/
def exportedManifest : Json :=
  packageManifest blindEnv ["data"] exportedIds exportedResult.1 (utf8Bytes "\x7b\x7d")
    [("qc_id", .str "q1"), ("status", .str "rejected"), ("created_at", .str "2026-01-01T00:00:00Z")]

/-- The reader of a manifest. -/
def readManifest (manifest : Json) (bytes : List Byte) : Option Json :=
  if bytes = utf8Bytes (manifestJsonText manifest) then some manifest else none

theorem readManifest_self (manifest : Json) :
    readManifest manifest (utf8Bytes (manifestJsonText manifest)) = some manifest := by
  rw [readManifest, if_pos rfl]

/-- An environment that reads the manifest. -/
def exportEnv : VerifierEnv where
  sha256 := lengthDigest
  loads := readManifest exportedManifest

theorem packageManifest_exportEnv : packageManifest exportEnv ["data"] exportedIds exportedResult.1
    (utf8Bytes "\x7b\x7d") [("qc_id", .str "q1"), ("status", .str "rejected"),
      ("created_at", .str "2026-01-01T00:00:00Z")] = exportedManifest := rfl

theorem loads_exportEnv : exportEnv.loads = readManifest exportedManifest := rfl

/-- The package. -/
def exportedPackage : CommittedPackage ℚ Unit exportEnv ["data"] where
  root_components := by decide +kernel
  writer := listingWriter
  ids := exportedIds
  profile := defaultMlPackage
  config := exportingConfig
  transformedSha256 := ""
  sessionIds := []
  lines := []
  result := exportedResult.1
  staged := exportedResult.2
  run := rfl
  report := utf8Bytes "\x7b\x7d"
  others :=
    [("qc_id", .str "q1"), ("status", .str "rejected"), ("created_at", .str "2026-01-01T00:00:00Z")]
  manifestText := Str.ofString (manifestJsonText exportedManifest)
  manifestBytes := utf8Bytes (manifestJsonText exportedManifest)
  encoded := encode_ofString _
  unbroken := return_notMem_manifestJsonText _
  readBack := by
    rw [packageManifest_exportEnv, loads_exportEnv, readManifest_self]

theorem exists_registered_exportedPackage :
    ∃ db, RegisteredByScan exportEnv db exportedPackage.manifestFile :=
  exists_registeredByScan exportedPackage _ rfl

/-- The disk that holds these files. -/
def diskOf (files : List (List String × List Byte)) : Disk :=
  fun path ↦ (files.find? (·.1 = path)).map Prod.snd

theorem unchanged_diskOf {files : List (List String × List Byte)}
    (hnodup : (files.map Prod.fst).Nodup) {file : List String × List Byte} (h : file ∈ files) :
    Unchanged (diskOf files) file := by
  induction files with
  | nil => cases h
  | cons first rest ih =>
    rw [List.map_cons, List.nodup_cons] at hnodup
    rw [Unchanged, diskOf, List.find?_cons]
    rcases List.mem_cons.mp h with rfl | hrest
    · rw [decide_eq_true rfl]
      rfl
    · have hne : first.1 ≠ file.1 := fun heq ↦ hnodup.1 (heq ▸ List.mem_map_of_mem hrest)
      rw [decide_eq_false hne]
      exact ih hnodup.2 hrest

theorem collisionFree_of_unchanged {env : VerifierEnv} {disk : Disk}
    {file : List String × List Byte} (h : Unchanged disk file) :
    env.CollisionFree disk file.1 file.2 :=
  fun _ hfound _ ↦ Option.some.inj (hfound.symm.trans h)

theorem nodup_exportedPackage :
    ((exportedPackage.coreFiles ++ exportedPackage.exportFiles).map Prod.fst).Nodup := by
  decide +kernel

/-- The equivalence for a disk that holds the committed files. -/
theorem verify_covers_iff_exportedPackage :
    ∃ db, (((∃ outcome, exportEnv.verify
        (diskOf (exportedPackage.coreFiles ++ exportedPackage.exportFiles)) ["data"] db "p1" =
          some outcome ∧ outcome.status = .verified) ↔
      ∀ file ∈ exportedPackage.coreFiles ++ exportedPackage.exportFiles,
        Unchanged (diskOf (exportedPackage.coreFiles ++ exportedPackage.exportFiles)) file) ↔
      (∀ file ∈ exportedPackage.exportFiles,
        Unchanged (diskOf (exportedPackage.coreFiles ++ exportedPackage.exportFiles)) file) ∨
      ∃ file ∈ exportedPackage.coreFiles,
        ¬Unchanged (diskOf (exportedPackage.coreFiles ++ exportedPackage.exportFiles)) file) := by
  obtain ⟨db, hdb⟩ := exists_registered_exportedPackage
  exact ⟨db, exportedPackage.verify_covers_iff hdb fun file hfile ↦ collisionFree_of_unchanged
    (unchanged_diskOf nodup_exportedPackage (List.mem_append_left _ hfile))⟩

/-- **Deleted exports go unnoticed**: the files of the Parquet export are gone, and the package is
verified. -/
theorem verified_without_exports :
    ∃ db, RegisteredByScan exportEnv db exportedPackage.manifestFile ∧
      (∃ outcome, exportEnv.verify (diskOf exportedPackage.coreFiles) ["data"] db "p1" = some outcome ∧
        outcome.status = .verified) ∧
      (∀ file ∈ exportedPackage.coreFiles,
        exportEnv.CollisionFree (diskOf exportedPackage.coreFiles) file.1 file.2) ∧
      exportedPackage.exportFiles.map Prod.fst = [["data", "t1", "p1", "optional", "train.parquet"],
        ["data", "t1", "p1", "optional", "validation.parquet"],
        ["data", "t1", "p1", "optional", "test.parquet"]] ∧
      ∀ file ∈ exportedPackage.exportFiles, diskOf exportedPackage.coreFiles file.1 = none := by
  obtain ⟨db, hdb⟩ := exists_registered_exportedPackage
  have hnodup := nodup_exportedPackage
  rw [List.map_append, List.nodup_append] at hnodup
  obtain ⟨hcore, -, hdisjoint⟩ := hnodup
  have hunchanged : ∀ file ∈ exportedPackage.coreFiles,
      Unchanged (diskOf exportedPackage.coreFiles) file :=
    fun file hfile ↦ unchanged_diskOf hcore hfile
  have hcollision : ∀ file ∈ exportedPackage.coreFiles,
      exportEnv.CollisionFree (diskOf exportedPackage.coreFiles) file.1 file.2 :=
    fun file hfile ↦ collisionFree_of_unchanged (hunchanged file hfile)
  refine ⟨db, hdb, (verify_iff hdb hcollision).mpr hunchanged, hcollision, rfl, fun file hfile ↦ ?_⟩
  rw [diskOf, Option.map_eq_none_iff, List.find?_eq_none]
  intro other hother heq
  exact hdisjoint _ (List.mem_map_of_mem hother) _ (List.mem_map_of_mem hfile) (of_decide_eq_true heq)

end CommittedPackage

end ForgeData
