import ForgeData.Catalog.ScanLists

/-!
# Scanning again

A second scan of the same files finds everything in place: it succeeds, and no row and no edge changes.
The issues are another matter. Every scan records an issue for each reference whose parent is missing,
whether it has been recorded before or not, and nothing takes an issue back when the parent arrives. So
the recorded issues are the missing references only as long as there are none.
-/

namespace ForgeData

open Python Graph Relation

namespace ArtifactRow.Agrees

theorem symm {row row' : ArtifactRow} (h : row.Agrees row') : row'.Agrees row :=
  ⟨h.1.symm, h.2.symm, h.3.symm, h.4.symm, h.5.symm⟩

end ArtifactRow.Agrees

namespace CatalogDb

/-- The issues about the references whose parent is neither registered nor found. -/
def missingReferences (db : CatalogDb) (files : Files) : List ScanIssue :=
  (discovered files).flatMap fun d ↦
    (d.parents.filter fun ref ↦ ¬ db.Known (discovered files) ref.artifact).map d.missingParent

/-- The two catalogs have the same rows and the same edges. -/
structure SameIndex (db db' : CatalogDb) : Prop where
  rows : ∀ k, db'.getArtifact k = db.getArtifact k
  edges : ∀ e, e ∈ db'.lineageEdges ↔ e ∈ db.lineageEdges

variable {db db' : CatalogDb} {clock : ScanClock} {files : Files} {st : ScanState}
  {outcome : ScanOutcome}

theorem known_of_scanCatalog (h : db.scanCatalog clock files = (.ok outcome, db'))
    (k : ArtifactKey) : db'.Known (discovered files) k ↔ db.Known (discovered files) k := by
  have hreg : db'.Registered k ↔ db.Known (discovered files) k :=
    (scanned_of_scanCatalog h).registered k
  exact ⟨fun hk ↦ hk.elim hreg.1 .inr, fun hk ↦ .inl (hreg.2 hk)⟩

/-- **A second scan succeeds**: what it checks is what the first one has stored. -/
theorem exists_rescan (h : db.scanCatalog clock files = (.ok outcome, db')) (clock' : ScanClock) :
    ∃ outcome' db'', db'.scanCatalog clock' files = (.ok outcome', db'') := by
  have hscan := scanned_of_scanCatalog h
  have hagrees : ∀ d ∈ discovered files, ∀ row, db'.getArtifact d.key = some row →
      row.Agrees (d.record "") := hscan.agrees
  have hregister : ∃ st', (discovered files).foldlM (registerArtifact false clock') ⟨db', {}⟩
      = .ok st' := by
    refine exists_foldlM_registerArtifact clock' (stagedList_discovered files) (E := db'.Edge)
      (fun _ _ ↦ id) (fun d hd ref href hknown ↦ ?_) hagrees (fun d hd d' hd' hkey ↦ ?_) nofun
    · have hstored : ∃ d' ∈ discovered files, ∃ ref' ∈ d'.parents,
          db.Known (discovered files) ref'.artifact ∧ d.edge ref = d'.edge ref' :=
        ⟨d, hd, ref, href, (known_of_scanCatalog h _).1 hknown, rfl⟩
      exact ⟨⟨d.edge ref, (hscan.edges _).2 (.inr hstored), rfl, rfl⟩,
        hscan.offCycle (d.edge ref) (.inr hstored)⟩
    · obtain ⟨row, hrow⟩ := registered_iff.1 ((hscan.registered d.key).2
        (.inr (List.mem_map_of_mem hd)))
      exact (hagrees d' hd' row (hkey ▸ hrow)).symm.trans (hagrees d hd row hrow)
  obtain ⟨st', hst'⟩ := hregister
  obtain ⟨st, hst, -⟩ := scanCatalog_eq_ok_iff.1 h
  exact ⟨_, _, scanCatalog_eq_ok_iff.2
    ⟨st', scan_eq_ok_iff.2 ⟨(scan_eq_ok_iff.1 hst).1, hst'⟩, rfl, rfl⟩⟩

theorem sameIndex_of_rescan {clock' : ScanClock} {outcome' : ScanOutcome} {db'' : CatalogDb}
    (h : db.scanCatalog clock files = (.ok outcome, db'))
    (h' : db'.scanCatalog clock' files = (.ok outcome', db'')) : db'.SameIndex db'' := by
  have hscan := scanned_of_scanCatalog h
  have hscan' := scanned_of_scanCatalog h'
  refine ⟨fun k ↦ ?_, fun e ↦ ⟨fun he ↦ ?_, fun he ↦ (hscan'.edges e).2 (.inl he)⟩⟩
  · by_cases hk : db'.Registered k
    · exact hscan'.oldRows k hk
    · have hk' : ¬ db''.Registered k := fun hreg ↦
        hk ((hscan.registered k).2 ((known_of_scanCatalog h k).1 ((hscan'.registered k).1 hreg)))
      rw [getArtifact_eq_none_iff.2 hk, getArtifact_eq_none_iff.2 hk']
  · rcases (hscan'.edges e).1 he with he | ⟨d, hd, ref, href, hknown, rfl⟩
    · exact he
    · exact (hscan.edges _).2
        (.inr ⟨d, hd, ref, href, (known_of_scanCatalog h _).1 hknown, rfl⟩)

/-- **What a scan adds to the issues**: one for each missing reference. -/
theorem issues_of_scanCatalog (h : db.scanCatalog clock files = (.ok outcome, db')) :
    ∃ rows, db'.lineageIssues = db.lineageIssues ++ rows ∧
      rows.map IssueRow.issue = db.missingReferences files := (scanned_of_scanCatalog h).issues

theorem missingReferences_of_scanCatalog (h : db.scanCatalog clock files = (.ok outcome, db')) :
    db'.missingReferences files = db.missingReferences files := by
  simp only [missingReferences, known_of_scanCatalog h]

/-! ## Runs of scans -/

/-- One scan, of the given files, with the catalogs before it and after it. -/
structure ScanStep where
  files : Files
  before : CatalogDb
  after : CatalogDb

/-- Successful scans, one after the other. -/
inductive ScanRun : CatalogDb → List ScanStep → Prop
  | nil (db : CatalogDb) : ScanRun db []
  | cons {db db' : CatalogDb} {clock : ScanClock} {files : Files} {outcome : ScanOutcome}
      {steps : List ScanStep} : db.scanCatalog clock files = (.ok outcome, db') →
      ScanRun db' steps → ScanRun db (⟨files, db, db'⟩ :: steps)

/-- A further scan of the files leaves rows, edges and issues as they are. -/
def RescanKeeps (db : CatalogDb) (files : Files) : Prop :=
  ∀ clock, db.SameIndex (db.scanCatalog clock files).2 ∧
    (db.scanCatalog clock files).2.lineageIssues = db.lineageIssues

/-- The recorded issues are the missing references, and the health report counts missing parents
exactly while there are some. -/
def IssuesCurrent (db : CatalogDb) (files : Files) : Prop :=
  (∀ issue, issue ∈ db.lineageIssues.map IssueRow.issue ↔ issue ∈ db.missingReferences files) ∧
    (0 < db.missingParentReferences ↔ db.missingReferences files ≠ [])

/-- **A scan that can be repeated** is one that finds no missing reference. -/
theorem rescanKeeps_iff (h : db.scanCatalog clock files = (.ok outcome, db')) :
    db'.RescanKeeps files ↔ db.missingReferences files = [] := by
  have hissues : ∀ clock', ∃ rows, (db'.scanCatalog clock' files).2.lineageIssues
      = db'.lineageIssues ++ rows ∧ rows.map IssueRow.issue = db.missingReferences files ∧
        db'.SameIndex (db'.scanCatalog clock' files).2 := fun clock' ↦ by
    obtain ⟨outcome', db'', h'⟩ := exists_rescan h clock'
    obtain ⟨rows, hrows, hmap⟩ := issues_of_scanCatalog h'
    rw [h']
    exact ⟨rows, hrows, hmap.trans (missingReferences_of_scanCatalog h), sameIndex_of_rescan h h'⟩
  constructor
  · intro hkeeps
    obtain ⟨rows, hrows, hmap, -⟩ := hissues clock
    rw [(hkeeps clock).2, List.self_eq_append_right] at hrows
    rw [← hmap, hrows, List.map_nil]
  · intro hnone clock'
    obtain ⟨rows, hrows, hmap, hsame⟩ := hissues clock'
    rw [hnone, List.map_eq_nil_iff] at hmap
    exact ⟨hsame, by rw [hrows, hmap, List.append_nil]⟩

theorem ScanRun.lineageIssues_eq_nil {steps : List ScanStep} (hrun : ScanRun db steps)
    (hissues : db.lineageIssues = [])
    (hnone : ∀ x ∈ steps, x.before.missingReferences x.files = []) :
    ∀ x ∈ steps, x.after.lineageIssues = [] ∧ x.after.missingReferences x.files = [] := by
  induction hrun with
  | nil => exact List.forall_mem_nil _
  | @cons db db' _ _ _ _ hscan _ ih =>
    rw [List.forall_mem_cons] at hnone ⊢
    obtain ⟨rows, hrows, hmap⟩ := issues_of_scanCatalog hscan
    rw [hnone.1, List.map_eq_nil_iff] at hmap
    have hafter : db'.lineageIssues = [] := by rw [hrows, hissues, hmap, List.append_nil]
    exact ⟨⟨hafter, (missingReferences_of_scanCatalog hscan).trans hnone.1⟩, ih hafter hnone.2⟩

/-- **Scans can be repeated, and their issues are current, exactly as long as no scan of the run finds
a missing reference.** The second half is about runs that start without recorded issues. -/
theorem scanRun_current_iff {db₀ : CatalogDb} {steps : List ScanStep} (hrun : ScanRun db₀ steps) :
    (∀ x ∈ steps, x.after.RescanKeeps x.files ∧
        (db₀.lineageIssues = [] → x.after.IssuesCurrent x.files)) ↔
      ∀ x ∈ steps, x.before.missingReferences x.files = [] := by
  have hkeeps : ∀ x ∈ steps,
      x.after.RescanKeeps x.files ↔ x.before.missingReferences x.files = [] := by
    induction hrun with
    | nil => exact List.forall_mem_nil _
    | cons hscan _ ih => exact List.forall_mem_cons.2 ⟨rescanKeeps_iff hscan, ih⟩
  refine ⟨fun h x hx ↦ (hkeeps x hx).1 (h x hx).1, fun h x hx ↦ ⟨(hkeeps x hx).2 (h x hx),
    fun hissues ↦ ?_⟩⟩
  obtain ⟨hnil, hmissing⟩ := hrun.lineageIssues_eq_nil hissues h x hx
  simp [IssuesCurrent, missingParentReferences, hnil, hmissing]

/-! ### A parent that arrives late -/

/-- A validation report of an ingestion. -/
def lateReport : ManifestFile := ⟨["validated", "i", "v", "report.json"], "h1",
  some (.obj [("validation_id", .str "v"), ("ingestion_id", .str "i"), ("status", .str "passed")])⟩

/-- The manifest of the ingestion. -/
def lateIngestion : ManifestFile := ⟨["raw", "s", "imu", "i", "manifest.json"], "h2",
  some (.obj [("ingestion_id", .str "i")])⟩

/-- The report alone. -/
def filesBefore : Files := fun type ↦ if type = .validation then [lateReport] else []

/-- The report and the manifest. -/
def filesAfter : Files := fun type ↦
  if type = .validation then [lateReport] else if type = .ingestion then [lateIngestion] else []

/-- A clock that stands still. -/
def stillClock : ScanClock := ⟨fun _ ↦ "t", fun _ ↦ "t", "t"⟩

theorem exists_outcome (h : (db.scanCatalog clock files).1.toBool = true) :
    ∃ outcome, db.scanCatalog clock files = (.ok outcome, (db.scanCatalog clock files).2) := by
  rcases hscan : db.scanCatalog clock files with ⟨e | outcome, db'⟩
  · rw [hscan] at h
    cases h
  · exact ⟨outcome, rfl⟩

/-- The report has been scanned. -/
def scannedOnce : CatalogDb := (empty.scanCatalog stillClock filesBefore).2

/-- The report has been scanned again. -/
def scannedTwice : CatalogDb := (scannedOnce.scanCatalog stillClock filesBefore).2

/-- The manifest has arrived. -/
def scannedAfter : CatalogDb := (scannedTwice.scanCatalog stillClock filesAfter).2

/-- The second scan records the issue again, and after the third, which finds nothing missing, both
issues are still there. -/
theorem issues_kept :
    ScanRun empty [⟨filesBefore, empty, scannedOnce⟩, ⟨filesBefore, scannedOnce, scannedTwice⟩,
      ⟨filesAfter, scannedTwice, scannedAfter⟩] ∧
    ¬ scannedOnce.RescanKeeps filesBefore ∧
    scannedAfter.missingReferences filesAfter = [] ∧ scannedAfter.missingParentReferences = 2 := by
  obtain ⟨o₁, h₁⟩ := exists_outcome (show (empty.scanCatalog stillClock filesBefore).1.toBool = true
    by decide +kernel)
  obtain ⟨o₂, h₂⟩ := exists_outcome
    (show (scannedOnce.scanCatalog stillClock filesBefore).1.toBool = true by decide +kernel)
  obtain ⟨o₃, h₃⟩ := exists_outcome
    (show (scannedTwice.scanCatalog stillClock filesAfter).1.toBool = true by decide +kernel)
  refine ⟨.cons h₁ (.cons h₂ (.cons h₃ (.nil _))), fun hkeeps ↦ ?_, by decide +kernel,
    by decide +kernel⟩
  have hne : scannedTwice.lineageIssues ≠ scannedOnce.lineageIssues := by decide +kernel
  exact hne (hkeeps stillClock).2

/-- Scanning both files at once finds nothing missing. -/
theorem scanRun_current_iff_filesAfter : ∃ steps, ScanRun empty steps ∧ steps.length = 1 ∧
    ((∀ x ∈ steps, x.after.RescanKeeps x.files ∧
        (empty.lineageIssues = [] → x.after.IssuesCurrent x.files)) ↔
      ∀ x ∈ steps, x.before.missingReferences x.files = []) := by
  obtain ⟨o, hscan⟩ := exists_outcome (show (empty.scanCatalog stillClock filesAfter).1.toBool = true
    by decide +kernel)
  exact ⟨_, .cons hscan (.nil _), rfl, scanRun_current_iff (.cons hscan (.nil _))⟩

end CatalogDb

end ForgeData
