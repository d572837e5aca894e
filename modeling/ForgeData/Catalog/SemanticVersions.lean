import ForgeData.Catalog.VersionPointers

/-!
# Versions and the numbers they denote

The table of versions is keyed by the text of a version, while the latest version is chosen by the
numbers that the text denotes. The two agree as long as every version is written in the usual way: then
no two versions of a dataset denote the same numbers, the latest one is the only maximum, and it does
not depend on the order of the registrations. The pattern accepts other spellings too, and with these
one dataset can have several versions of the same numbers.
-/

namespace ForgeData

open Python Interleaving

namespace CatalogDb

variable {db db' : CatalogDb} {datasetName version : String} {row : VersionRow} {v : SemVer}

/-- No two versions of one dataset denote the same numbers. -/
def UniqueVersions (db : CatalogDb) : Prop :=
  ∀ k ∈ db.datasetVersions.keys, ∀ k' ∈ db.datasetVersions.keys, k.1 = k'.1 →
    ∀ v, validateSemver k.2 = .ok v → validateSemver k'.2 = .ok v → k = k'

/-- The latest version of a dataset, if it has versions, denotes more than all others. -/
def LatestIsMaximum (db : CatalogDb) : Prop :=
  ∀ datasetName, (∃ k ∈ db.datasetVersions.keys, k.1 = datasetName) →
    ∃ version row v, db.getLatest datasetName = .ok (version, row) ∧
      db.getDatasetVersion (datasetName, version) = some row ∧ validateSemver version = .ok v ∧
      ∀ k ∈ db.datasetVersions.keys, k.1 = datasetName → k.2 ≠ version →
        ∃ v', validateSemver k.2 = .ok v' ∧ v' < v

/-- The dataset has a version of these numbers that points to the package. -/
def Registers (db : CatalogDb) (datasetName : String) (v : SemVer) (packageId : String) : Prop :=
  ∃ version row, db.getDatasetVersion (datasetName, version) = some row ∧
    validateSemver version = .ok v ∧ row.packageId = packageId

/-- Every version is valid and written in the usual way. -/
def CanonicalVersions (db : CatalogDb) : Prop :=
  ∀ k ∈ db.datasetVersions.keys, ∃ v, validateSemver k.2 = .ok v ∧ k.2 = v.text

theorem CanonicalVersions.uniqueVersions (h : db.CanonicalVersions) : db.UniqueVersions := by
  rintro ⟨name, version⟩ hk ⟨name', version'⟩ hk' hname v hv hv'
  obtain ⟨w, hw, htext⟩ := h _ hk
  obtain ⟨w', hw', htext'⟩ := h _ hk'
  rw [hv] at hw
  rw [hv'] at hw'
  cases hw
  cases hw'
  exact Prod.ext hname (htext.trans htext'.symm)

theorem mem_listDatasetVersions_iff :
    version ∈ (db.listDatasetVersions datasetName).map (·.1.2) ↔
      (datasetName, version) ∈ db.datasetVersions.keys := by
  simp only [listDatasetVersions, List.mem_map, mem_sortedBy, List.mem_filter, decide_eq_true_eq,
    Dict.keys]
  constructor
  · rintro ⟨⟨⟨name, version⟩, row⟩, ⟨hmem, rfl⟩, rfl⟩
    exact ⟨_, hmem, rfl⟩
  · rintro ⟨⟨k, row⟩, hmem, rfl⟩
    exact ⟨⟨_, row⟩, ⟨hmem, rfl⟩, rfl⟩

/-- **The latest of valid versions**: one of them, and none denotes more. -/
theorem exists_getLatest (hvalid : ∀ k ∈ db.datasetVersions.keys, ∃ v, validateSemver k.2 = .ok v)
    (hsome : ∃ k ∈ db.datasetVersions.keys, k.1 = datasetName) :
    ∃ version row v, db.getLatest datasetName = .ok (version, row) ∧
      db.getDatasetVersion (datasetName, version) = some row ∧ validateSemver version = .ok v ∧
      ∀ k ∈ db.datasetVersions.keys, k.1 = datasetName → ∀ v', validateSemver k.2 = .ok v' →
        v' ≤ v := by
  obtain ⟨k₀, hk₀, rfl⟩ := hsome
  obtain ⟨dataset, hdataset⟩ := Dict.mem_keys_iff.1 (db.versions_registered _ hk₀)
  have hne : (db.listDatasetVersions k₀.1).map (·.1.2) ≠ [] :=
    List.ne_nil_of_mem (mem_listDatasetVersions_iff.2 hk₀)
  obtain ⟨version, hversion, hhighest, v, hv, hmax⟩ := exists_highestVersion hne fun w hw ↦
    hvalid _ (mem_listDatasetVersions_iff.1 hw)
  obtain ⟨row, hrow⟩ := Dict.mem_keys_iff.1 (mem_listDatasetVersions_iff.1 hversion)
  refine ⟨version, row, v, ?_, hrow, hv, fun k hk hname v' hv' ↦ ?_⟩
  · rw [getLatest, hdataset, hhighest]
    simp only [getVersion, hdataset, getDatasetVersion, hrow]
  · exact hmax k.2 (mem_listDatasetVersions_iff.2 (hname ▸ hk)) v' hv'

theorem CanonicalVersions.latestIsMaximum (h : db.CanonicalVersions) : db.LatestIsMaximum := by
  intro datasetName hsome
  obtain ⟨version, row, v, hlatest, hrow, hv, hmax⟩ :=
    exists_getLatest (fun k hk ↦ (h k hk).imp fun _ ↦ And.left) hsome
  refine ⟨version, row, v, hlatest, hrow, hv, fun k hk hname hne ↦ ?_⟩
  obtain ⟨v', hv', -⟩ := h k hk
  refine ⟨v', hv', lt_of_le_of_ne (hmax k hk hname v' hv') ?_⟩
  rintro rfl
  have hkey := h.uniqueVersions k hk (datasetName, version) (Dict.mem_keys_iff.2 ⟨row, hrow⟩)
    hname v' hv' hv
  exact hne (congrArg Prod.snd hkey)

theorem getDatasetVersion_of_getLatest (h : db.getLatest datasetName = .ok (version, row)) :
    db.getDatasetVersion (datasetName, version) = some row := by
  rw [getLatest] at h
  split at h
  · cases h
  · split at h
    · cases h
    · cases h
    · rw [getVersion] at h
      split at h
      · cases h
      · split at h
        · cases h
        · next hrow =>
          cases h
          exact hrow

/-- The numbers of the latest version, and that no other version denotes more. -/
theorem CanonicalVersions.of_getLatest (h : db.CanonicalVersions)
    (hlatest : db.getLatest datasetName = .ok (version, row)) :
    ∃ v, version = v.text ∧ db.Registers datasetName v row.packageId ∧
      ∀ v' packageId, db.Registers datasetName v' packageId → v' ≤ v := by
  have hrow := getDatasetVersion_of_getLatest hlatest
  have hkey : (datasetName, version) ∈ db.datasetVersions.keys := Dict.mem_keys_iff.2 ⟨row, hrow⟩
  obtain ⟨version', row', v, hlatest', -, hv, hmax⟩ :=
    exists_getLatest (fun k hk ↦ (h k hk).imp fun _ ↦ And.left) ⟨_, hkey, rfl⟩
  rw [hlatest] at hlatest'
  cases hlatest'
  obtain ⟨w, hw, htext⟩ := h _ hkey
  rw [hv] at hw
  cases hw
  refine ⟨v, htext, ⟨version, row, hrow, hv, rfl⟩, fun v' packageId hreg ↦ ?_⟩
  obtain ⟨other, otherRow, hother, hv', -⟩ := hreg
  exact hmax _ (Dict.mem_keys_iff.2 ⟨otherRow, hother⟩) rfl v' hv'

/-- **The latest version depends only on the numbers and packages registered.** -/
theorem CanonicalVersions.getLatest_eq (h : db.CanonicalVersions) (h' : db'.CanonicalVersions)
    (hsame : ∀ v packageId, db.Registers datasetName v packageId ↔
      db'.Registers datasetName v packageId)
    (hlatest : db.getLatest datasetName = .ok (version, row)) :
    ∃ row', db'.getLatest datasetName = .ok (version, row') ∧ row'.packageId = row.packageId := by
  obtain ⟨v, rfl, hreg, hmax⟩ := h.of_getLatest hlatest
  obtain ⟨version', row', hrow', hv', howner⟩ := (hsame v row.packageId).1 hreg
  have hkey' : (datasetName, version') ∈ db'.datasetVersions.keys :=
    Dict.mem_keys_iff.2 ⟨row', hrow'⟩
  obtain ⟨latest, latestRow, w, hlatest', -⟩ :=
    exists_getLatest (fun k hk ↦ (h' k hk).imp fun _ ↦ And.left) ⟨_, hkey', rfl⟩
  obtain ⟨w, rfl, hregw, hmaxw⟩ := h'.of_getLatest hlatest'
  obtain rfl : w = v := le_antisymm (hmax w _ ((hsame w _).2 hregw))
    (hmaxw v _ ((hsame v _).1 hreg))
  obtain ⟨w', hw', htext⟩ := h' _ hkey'
  rw [hv'] at hw'
  cases hw'
  refine ⟨latestRow, hlatest', ?_⟩
  have hlatestRow := getDatasetVersion_of_getLatest hlatest'
  rw [← htext, hrow'] at hlatestRow
  rw [← Option.some.inj hlatestRow, howner]

end CatalogDb

/-! ## Runs of registrations -/

/-- A registration with a version that is rejected or written in the usual way. -/
def RegistersCanonical (sha : Json → String) (p : CatalogProg Unit) : Prop :=
  ∃ request : RegisterRequest, CanonicalVersion request.version ∧
    p = (registerVersion sha request).discard

/-- The transaction is about a version that is valid and written in the usual way. -/
def CanonicalOp (o : CatalogOp) : Prop :=
  ∀ k packageId description tags, o = .createDatasetVersion k packageId description tags →
    ∃ v, validateSemver k.2 = .ok v ∧ k.2 = v.text

theorem CatalogOp.Reads.canonicalOp {o : CatalogOp} (h : o.Reads) : CanonicalOp o := by
  rintro k packageId description tags rfl
  exact h.elim

theorem performs_commitVersion {request : RegisterRequest} (hcanonical : CanonicalVersion request.version) :
    (commitVersion request).Performs CanonicalOp := by
  have hread : ∀ o : CatalogOp,
      (∀ k packageId description tags, o ≠ .createDatasetVersion k packageId description tags) →
        CanonicalOp o := fun o ho k packageId description tags heq ↦ (ho _ _ _ _ heq).elim
  refine ⟨hread _ nofun, fun dataset ↦ ?_⟩
  rcases dataset with _ | dataset
  · exact trivial
  rcases hsemver : validateSemver request.version with e | v
  · simp only [Prog.pure_bind]
    exact trivial
  simp only [Prog.pure_bind]
  refine ⟨hread _ nofun, fun package ↦ ?_⟩
  rcases package with _ | row
  · exact trivial
  simp only [Prog.pure_bind]
  split
  · refine Prog.Performs.bind ⟨hread _ nofun, fun row ↦ ?_⟩ fun result ↦ ?_
    · rcases row with _ | row
      · exact trivial
      · exact ⟨hread _ nofun, fun direct ↦ ⟨hread _ nofun, fun l ↦
          (performs_readGovernance (fun k ↦ hread _ nofun) l).bind fun _ ↦ trivial⟩⟩
    · rcases result with e | ⟨⟩
      · exact trivial
      · refine ⟨fun k packageId description tags heq ↦ ?_, fun _ ↦ trivial⟩
        cases heq
        exact ⟨v, hsemver, hcanonical v hsemver⟩
  · exact trivial

theorem RegistersCanonical.performs {sha : Json → String} {p : CatalogProg Unit}
    (h : RegistersCanonical sha p) : p.Performs CanonicalOp := by
  obtain ⟨request, hcanonical, rfl⟩ := h
  refine Prog.Performs.discard ((performs_commitVersion hcanonical).bind ?_)
  rintro (e | created)
  · exact trivial
  · exact (performs_respondVersion ..).mono fun _ ho ↦ ho.canonicalOp

variable {sha : Json → String} {s s' : CatalogState} {qs : List (CatalogProg Unit)}
  {t : List CatalogStep}

theorem CatalogSem.canonicalVersions {o : CatalogOp} {a : o.Ans} (h : CatalogSem sha o s a s')
    (ho : CanonicalOp o) (hs : s.db.CanonicalVersions) : s'.db.CanonicalVersions := by
  rcases h.writes with hdb | hwrites
  · exact hdb ▸ hs
  rcases hwrites.datasetVersions with
    heq | ⟨k, packageId, description, tags, createdAt, created, rfl, hcreate⟩
  · rw [CatalogDb.CanonicalVersions, heq]
    exact hs
  · intro k' hk'
    obtain ⟨row, hrow⟩ := Dict.mem_keys_iff.1 hk'
    rcases CatalogDb.of_createDatasetVersion hcreate with ⟨-, -, hget⟩ | ⟨-, hdb, -⟩
    · have hrow' := hget k'
      rw [CatalogDb.getDatasetVersion, hrow] at hrow'
      split at hrow'
      · next heq => exact heq ▸ ho k packageId description tags rfl
      · exact hs k' (Dict.mem_keys_iff.2 ⟨row, hrow'.symm⟩)
    · exact hs k' (hdb ▸ hk')

theorem canonicalVersions_of_run (hs : s.db.datasetVersions = Dict.empty)
    (h : CatalogRun sha (RegistersCanonical sha) [] s t qs s') :
    (∀ x ∈ t, x.after.db.CanonicalVersions) ∧ s'.db.CanonicalVersions := by
  have hop := h.forall_op (fun _ hp ↦ hp.performs) (List.forall_mem_nil _)
  have hstart : s.db.CanonicalVersions := by
    intro k hk
    rw [hs] at hk
    cases hk
  exact (h.invariant (J := fun s ↦ s.db.CanonicalVersions)
    (fun x hx ↦ (h.sem_of_mem x hx).canonicalVersions (hop x hx)) hstart).symm

/-- **When versions are semantically unique.** If every registration is rejected or writes its version
in the usual way, then in every state that any number of them reach no two versions of a dataset denote
the same numbers, the latest version is the only maximum, and it depends only on the numbers and
packages registered. -/
theorem versions_unique_of_canonical (hs : s.db.datasetVersions = Dict.empty)
    (h : CatalogRun sha (RegistersCanonical sha) [] s t qs s') :
    ((∀ x ∈ t, x.after.db.UniqueVersions ∧ x.after.db.LatestIsMaximum) ∧
      s'.db.UniqueVersions ∧ s'.db.LatestIsMaximum) ∧
    ∀ (s₁ s₁' : CatalogState) (t₁ : List CatalogStep) (qs₁ : List (CatalogProg Unit))
      (datasetName version : String) (row : VersionRow),
      s₁.db.datasetVersions = Dict.empty → CatalogRun sha (RegistersCanonical sha) [] s₁ t₁ qs₁ s₁' →
      (∀ v packageId, s'.db.Registers datasetName v packageId ↔
        s₁'.db.Registers datasetName v packageId) →
      s'.db.getLatest datasetName = .ok (version, row) →
        ∃ row', s₁'.db.getLatest datasetName = .ok (version, row') ∧
          row'.packageId = row.packageId := by
  obtain ⟨hsteps, hlast⟩ := canonicalVersions_of_run hs h
  refine ⟨⟨fun x hx ↦ ⟨(hsteps x hx).uniqueVersions, (hsteps x hx).latestIsMaximum⟩,
    hlast.uniqueVersions, hlast.latestIsMaximum⟩, ?_⟩
  intro s₁ s₁' t₁ qs₁ datasetName version row hs₁ h₁ hsame hlatest
  exact hlast.getLatest_eq (canonicalVersions_of_run hs₁ h₁).2 hsame hlatest

/-! ## Two spellings of one version -/

/-- A package that may be registered. -/
def acceptedPackage : ArtifactRow where
  pipelineStage := 9
  status := some "completed"
  storageUri := none
  contentSha256 := none
  manifestUri := some "file:///packages/p1/manifest.json"
  manifestSha256 := some "00"
  createdAt := none
  sessionId := none
  metadata := .obj [("package_id", .str "p1"), ("source_qc_status", .str "passed")]
  registeredAt := ""

/-- A catalog with one dataset and one package. -/
def packagedDb : CatalogDb :=
  { CatalogDb.empty with
    artifacts := Dict.empty.set (packageKey "p1") acceptedPackage
    datasets := Dict.empty.set "walks" ⟨none, .obj [], ""⟩
    edges_registered := List.forall_mem_nil _
    versions_registered := List.forall_mem_nil _ }

def packagedState : CatalogState := ⟨packagedDb, .empty, Dict.empty, false, []⟩

/-- A registration of the package as a version of the dataset. -/
def registerWalks (version : String) : RegisterRequest :=
  ⟨"walks", version, "p1", none, [], false⟩

/-- The registrations of some versions, one after the other. -/
def registerEach (versions : List String) : List CatalogTurn :=
  (versions.map fun version ↦ .start (registerVersion (fun _ ↦ "") (registerWalks version)).discard) ++
    (List.range versions.length).flatMap fun thread ↦
      List.replicate 14 (.act thread quietCatalogInput)

theorem exists_of_start_mem {versions : List String} {p : CatalogProg Unit}
    (h : .start p ∈ registerEach versions) :
    ∃ version ∈ versions, p = (registerVersion (fun _ ↦ "") (registerWalks version)).discard := by
  rcases List.mem_append.1 h with h | h
  · obtain ⟨version, hversion, hp⟩ := List.mem_map.1 h
    cases hp
    exact ⟨version, hversion, rfl⟩
  · obtain ⟨thread, -, hact⟩ := List.mem_flatMap.1 h
    cases (List.mem_replicate.1 hact).2

/-- Two versions in the usual spelling. -/
theorem versions_unique_of_canonical_two :
    (simulateCatalog (fun _ ↦ "") (registerEach ["1.0.0", "1.1.0"]) packagedState).state.db
        |>.UniqueVersions := by
  have hcanonical : ∀ version ∈ ["1.0.0", "1.1.0"], CanonicalVersion version := by
    intro version hversion v hv
    rcases List.mem_pair.1 hversion with rfl | rfl
    · obtain rfl : toLex (1, toLex (0, 0)) = v :=
        Except.ok.inj ((by decide +kernel : validateSemver "1.0.0" = .ok _).symm.trans hv)
      decide +kernel
    · obtain rfl : toLex (1, toLex (1, 0)) = v :=
        Except.ok.inj ((by decide +kernel : validateSemver "1.1.0" = .ok _).symm.trans hv)
      decide +kernel
  have hrun : CatalogRun (fun _ ↦ "") (RegistersCanonical fun _ ↦ "") [] packagedState
      (simulateCatalog (fun _ ↦ "") (registerEach ["1.0.0", "1.1.0"]) packagedState).history
      (simulateCatalog (fun _ ↦ "") (registerEach ["1.0.0", "1.1.0"]) packagedState).threads
      (simulateCatalog (fun _ ↦ "") (registerEach ["1.0.0", "1.1.0"]) packagedState).state := by
    refine catalogRun_simulate (fun p hp ↦ ?_) packagedState
    obtain ⟨version, hversion, rfl⟩ := exists_of_start_mem hp
    exact ⟨registerWalks version, hcanonical version hversion, rfl⟩
  exact (versions_unique_of_canonical rfl hrun).1.2.1

/-- The registrations of `1.0.0` and `01.0.0` both succeed, and denote the same numbers. -/
theorem versions_not_unique :
    ¬ ∀ (t : List CatalogStep) (qs : List (CatalogProg Unit)) (s' : CatalogState),
      CatalogRun (fun _ ↦ "")
        (fun p ↦ ∃ request, p = (registerVersion (fun _ ↦ "") request).discard) [] packagedState t qs s' → s'.db.UniqueVersions := by
  intro h
  have hrun : CatalogRun (fun _ ↦ "")
      (fun p ↦ ∃ request, p = (registerVersion (fun _ ↦ "") request).discard) [] packagedState
      (simulateCatalog (fun _ ↦ "") (registerEach ["1.0.0", "01.0.0"]) packagedState).history
      (simulateCatalog (fun _ ↦ "") (registerEach ["1.0.0", "01.0.0"]) packagedState).threads
      (simulateCatalog (fun _ ↦ "") (registerEach ["1.0.0", "01.0.0"]) packagedState).state := by
    refine catalogRun_simulate (fun p hp ↦ ?_) packagedState
    obtain ⟨version, -, rfl⟩ := exists_of_start_mem hp
    exact ⟨_, rfl⟩
  have hkeys : (simulateCatalog (fun _ ↦ "") (registerEach ["1.0.0", "01.0.0"])
      packagedState).state.db.datasetVersions.keys = [("walks", "1.0.0"), ("walks", "01.0.0")] := by
    decide +kernel
  have heq := h _ _ _ hrun ("walks", "1.0.0") (by simp [hkeys]) ("walks", "01.0.0")
    (by simp [hkeys]) rfl (toLex (1, toLex (0, 0))) (by decide +kernel) (by decide +kernel)
  exact absurd heq (by decide)

end ForgeData
