import ForgeData.FileSystem.Closed
import ForgeData.Storage.ReportStores
import ForgeData.Storage.StagedSaves

/-!
# Reports are read whole

Any number of reports are written to one store at the same time, and the calls of any of them may fail.
Each report is published on its own, so a lookup made at any point finds exactly the reports that have
been published, each of them whole, and finds them again ever after.
-/

namespace ForgeData

namespace Storage

open Python FileSystem Interleaving

/-! ## Writing a report keeps to the protocol -/

/-- The directory of a report. -/
def reportDir (bytes : List Byte) : View String Byte :=
  Function.update View.emptyDir ["report.json"] (some (.file bytes))

theorem reportDir_journal (bytes : List Byte) (node : Option (Node Byte)) :
    Function.update (Function.update (reportDir bytes) [stagingStateFilename] node)
      [stagingStateFilename] none = reportDir bytes := by
  have hnone : reportDir bytes [stagingStateFilename] = none := by
    rw [reportDir, Function.update_of_ne (by decide)]
    rfl
  rw [Function.update_idem, ← hnone, Function.update_eq_self]

section Writing

variable {R : Type} [FloatText R] {P : Publishing String Byte} {ε : Type}

theorem follows_writeManifestFile (journal bytes : List Byte) :
    (writeManifestFile P.staging "report.json" bytes : StorageProgram ε Unit).Follows P.Next
      (fun _ q ↦ q = .writing (Function.update (reportDir bytes) [stagingStateFilename]
        (some (.file journal)))) PublishPhase.Holding
      (.writing (Function.update View.emptyDir [stagingStateFilename] (some (.file journal)))) := by
  have hfile : (["report.json"] : Path String) ≠ [] := List.cons_ne_nil _ _
  have hne : (["report.json"] : Path String) ≠ [stagingStateFilename] := by decide
  rw [writeManifestFile]
  refine Program.Follows.bind (M := fun _ q ↦ q = .writing (Function.update (Function.update
      View.emptyDir [stagingStateFilename] (some (.file journal))) ["report.json"] (some (.file []))))
    (follows_call (fun _ ↦ ⟨_, .write (.create hfile), rfl⟩)
      fun e ↦ ⟨_, .failed trivial, PublishPhase.holding_writing _⟩) ?_
  rintro - _ rfl
  refine follows_call (fun _ ↦ ⟨_, .write (.append hfile (Function.update_self ..)), ?_⟩)
    fun e ↦ ⟨_, .writeFailed hfile, PublishPhase.holding_spoiled⟩
  rw [Function.update_idem, List.nil_append, reportDir, Function.update_comm hne]

variable [LawfulFloatText R]

/-- **Writing a report** publishes its text, or nothing. -/
theorem follows_writeReport {store : ReportStore} {ingestionId reportId : String}
    (hstaging : P.staging = store.stagingDir reportId)
    (hfinal : P.final = store.finalDir ingestionId reportId) (process : Process) {report : Record R}
    (hcomplete : ∀ bytes, Utf8.encode (journalText report) = some bytes →
      P.Complete (reportDir bytes)) :
    (store.writeReport R process ingestionId reportId report).Follows P.Next (fun _ _ ↦ True)
      (fun _ ↦ True) .outside := by
  obtain ⟨bytes, hbytes⟩ := exists_encode_journalText report
  have hcomplete' := hcomplete bytes hbytes
  rw [journalText] at hbytes
  rw [ReportStore.writeReport]
  dsimp only
  rw [← hstaging, ← hfinal]
  refine Program.Follows.bind (M := fun _ q ↦ q = .outside)
    (follows_read (fun _ ↦ id) (fun _ ↦ rfl) trivial) ?_
  rintro present _ rfl
  split
  · exact Program.Follows.bind (M := fun _ _ ↦ False) (follows_throw trivial) fun _ _ ↦ False.elim
  refine Program.Follows.bind (follows_createStagingDir process reportId reportId store.stage P.final) ?_
  rintro - _ ⟨journal, rfl⟩
  refine Program.Follows.bind (M := fun _ _ ↦ True) ?_ fun _ _ _ ↦ follows_pure trivial
  have htmp : Function.update (reportDir bytes) [stagingStateFilename] (some (.file journal))
      [stagingStateFilename ++ ".tmp"] = none := by
    rw [Function.update_of_ne (by decide), reportDir, Function.update_of_ne (by decide)]
    rfl
  rw [hbytes]
  refine Program.Follows.tryCatch (C := PublishPhase.Holding)
    (Program.Follows.bind (follows_writeManifestFile journal bytes) ?_) fun e q hq ↦ ?_
  · rintro - _ rfl
    refine (follows_commitStagingDir htmp ?_ store.fsyncEnabled).mono (fun _ _ _ ↦ trivial) fun _ ↦ id
    rw [reportDir_journal]
    exact hcomplete'
  · split
    · exact Program.Follows.bind (M := fun _ _ ↦ True) (follows_discard hq)
        fun _ _ _ ↦ follows_throw trivial
    · exact Program.Follows.bind (M := fun _ _ ↦ True) (follows_discard hq)
        fun _ _ _ ↦ follows_throw trivial

end Writing

/-! ## Where the reports are -/

section Places

variable {store : ReportStore}

open LocalRawStorage (IsPlain joinSegment_of_isPlain resolveDots_of_notMem)

theorem ingestionDir_eq (hroot : ".." ∉ store.root) {ingestionId : String} (hid : IsPlain ingestionId) :
    store.ingestionDir ingestionId = store.root ++ [ingestionId] := by
  rw [ReportStore.ingestionDir, joinSegment_of_isPlain hid]
  refine resolveDots_of_notMem ?_
  simp only [List.mem_append, List.mem_singleton, not_or]
  exact ⟨hroot, hid.2.symm⟩

theorem isPlain_of_isSafePathComponent {value : String} (h : isSafePathComponent value = true) :
    IsPlain value := by
  rw [isSafePathComponent, decide_eq_true_eq] at h
  exact ⟨⟨h.1, h.2.2.2.1, h.2.1⟩, h.2.2.2.2⟩

theorem finalDir_eq (hroot : ".." ∉ store.root) {ingestionId reportId : String}
    (hingestion : IsPlain ingestionId) (hreport : IsPlain reportId) :
    store.finalDir ingestionId reportId = store.root ++ [ingestionId, reportId] := by
  rw [ReportStore.finalDir, joinSegment_of_isPlain hingestion, joinSegment_of_isPlain hreport,
    List.append_assoc]
  refine resolveDots_of_notMem ?_
  simp only [List.mem_append, List.mem_cons, List.not_mem_nil, or_false, not_or]
  exact ⟨hroot, hingestion.2.symm, hreport.2.symm⟩

theorem eq_of_near {root p : Path String} {a b a' b' : String} (hp : root ++ [a, b] <+: p)
    (hp' : root ++ [a', b'] <+: p ∨ p <+: root ++ [a', b']) : a = a' ∧ b = b' := by
  have hle : root ++ [a, b] <+: root ++ [a', b'] ∨ root ++ [a', b'] <+: root ++ [a, b] := by
    rcases hp' with hp' | hp'
    · exact List.prefix_or_prefix_of_prefix hp hp'
    · exact .inl (hp.trans hp')
  have heq : root ++ [a, b] = root ++ [a', b'] := by
    rcases hle with hle | hle
    · exact hle.eq_of_length_le (by simp)
    · exact (hle.eq_of_length_le (by simp)).symm
  simpa using List.append_cancel_left heq

end Places

/-! ## Looking the reports up -/

section Lookup

variable {R : Type} [FloatText R] [LawfulFloatText R] {store : ReportStore} {t : Tree String Byte}
  {ingestionId : String}

/-- The report that is in a directory of the ingestion. -/
def ReportStore.HoldsReport (store : ReportStore) (t : Tree String Byte) (ingestionId name : String)
    (report : Record R) : Prop :=
  (Value.dict report.items).Storable ∧ ∃ bytes, Utf8.encode (journalText report) = some bytes ∧
    t.get? (store.root ++ [ingestionId, name, "report.json"]) = some (.file bytes)

theorem mem_reportNames {below : List (Path String)} {name : String} :
    name ∈ ReportStore.reportNames below ↔ [name, "report.json"] ∈ below := by
  rw [ReportStore.reportNames, List.mem_insertionSort, List.mem_filterMap]
  constructor
  · rintro ⟨path, hpath, heq⟩
    split at heq
    · next name' file =>
      split at heq
      · next hfile =>
        obtain rfl := Option.some.inj heq
        rwa [hfile] at hpath
      · cases heq
    · cases heq
  · intro h
    exact ⟨_, h, if_pos rfl⟩

theorem runs_readReport {path : Path String} {report : Record R}
    (hstorable : (Value.dict report.items).Storable) {bytes : List Byte}
    (hbytes : Utf8.encode (journalText report) = some bytes)
    (hfile : t.get? path = some (.file bytes)) :
    Runs (ReportStore.readReport R path) t (.ok (journalStyle.arranged (.dict report.items))) t := by
  have hread := runs_readText_of_file (ε := ReportError)
    (t.file?_eq_some_iff.mpr hfile)
  rw [Utf8.decode_encode hbytes, Option.elim_some, universalNewlines_journalText] at hread
  rw [ReportStore.readReport]
  refine hread.bind ?_
  rw [journalText, loads_dumps journalStyle hstorable]
  exact Runs.pure _ t

theorem ReportStore.HoldsReport.unique {name : String} {report report' : Record R}
    (h : store.HoldsReport t ingestionId name report) (h' : store.HoldsReport t ingestionId name report') :
    journalStyle.arranged (.dict report.items) = journalStyle.arranged (.dict report'.items) := by
  obtain ⟨hstorable, bytes, hbytes, hfile⟩ := h
  obtain ⟨hstorable', bytes', hbytes', hfile'⟩ := h'
  exact Except.ok.inj ((runs_readReport hstorable hbytes hfile).unique
    (runs_readReport hstorable' hbytes' hfile')).1

/-- **A lookup finds what is there**: if every report that is in a directory of the ingestion is
whole, a lookup returns all of them and nothing else. -/
theorem runs_findReports (hroot : ".." ∉ store.root) (hclosed : t.Closed)
    (hid : isSafePathComponent ingestionId = true)
    (hwhole : ∀ name node, t.get? (store.root ++ [ingestionId, name, "report.json"]) = some node →
      ∃ report : Record R, store.HoldsReport t ingestionId name report) :
    ∃ reports, Runs (store.findReports R ingestionId) t (.ok reports) t ∧
      ∀ v, v ∈ reports ↔ ∃ name, ∃ report : Record R, store.HoldsReport t ingestionId name report ∧
        v = journalStyle.arranged (.dict report.items) := by
  have hne : store.root ++ [ingestionId] ≠ [] := List.append_ne_nil_of_right_ne_nil _ (by simp)
  have hpath (name : String) : store.root ++ [ingestionId] ++ [name, "report.json"] =
      store.root ++ [ingestionId, name, "report.json"] := by
    rw [List.append_assoc]
    rfl
  have hplain : LocalRawStorage.IsPlain ingestionId := isPlain_of_isSafePathComponent hid
  rw [ReportStore.findReports, hid, ingestionDir_eq hroot hplain]
  dsimp only
  rw [if_neg (by decide)]
  by_cases hpresent : t.pathExists (store.root ++ [ingestionId]) = true
  · have hbody : ∀ name ∈ ReportStore.reportNames (t.below (store.root ++ [ingestionId])),
        ∃ report : Record R, store.HoldsReport t ingestionId name report := by
      intro name hname
      rw [mem_reportNames, Tree.mem_below, hpath] at hname
      obtain ⟨node, hnode⟩ := Option.isSome_iff_exists.mp hname.2
      exact hwhole name node hnode
    have hruns {name : String} {report : Record R} (h : store.HoldsReport t ingestionId name report) :
        Runs (ReportStore.readReport R (store.root ++ [ingestionId] ++ [name, "report.json"])) t
          (.ok (journalStyle.arranged (.dict report.items))) t := by
      obtain ⟨hstorable, bytes, hbytes, hfile⟩ := h
      exact runs_readReport hstorable hbytes (by rwa [hpath])
    obtain ⟨reports, hreports, hall⟩ := Runs.mapM (F := fun name ↦
        ReportStore.readReport R (store.root ++ [ingestionId] ++ [name, "report.json"]))
      fun name hname ↦ (hbody name hname).elim fun report hreport ↦ ⟨_, hruns hreport⟩
    refine ⟨reports, ?_, fun v ↦ ⟨fun hv ↦ ?_, ?_⟩⟩
    · refine Runs.bind (Runs.call (o := .pathExists (store.root ++ [ingestionId]))
        (v := t.pathExists (store.root ++ [ingestionId])) rfl) ?_
      rw [hpresent, if_neg (by decide)]
      exact Runs.bind (Runs.call (o := .list (store.root ++ [ingestionId]))
        (v := t.below (store.root ++ [ingestionId])) rfl) hreports
    · obtain ⟨name, hname, hv⟩ := exists_of_forall₂_right hall hv
      obtain ⟨report, hreport⟩ := hbody name hname
      exact ⟨name, report, hreport, Except.ok.inj ((hv.unique (hruns hreport)).1)⟩
    · rintro ⟨name, report, hreport, rfl⟩
      have hname : name ∈ ReportStore.reportNames (t.below (store.root ++ [ingestionId])) := by
        obtain ⟨-, bytes, -, hfile⟩ := hreport
        rw [mem_reportNames, Tree.mem_below, hpath, hfile]
        exact ⟨List.cons_ne_nil _ _, rfl⟩
      obtain ⟨v, hv, hrun⟩ : ∃ v ∈ reports, Runs (ReportStore.readReport R
          (store.root ++ [ingestionId] ++ [name, "report.json"])) t (.ok v) t :=
        exists_of_forall₂_right hall.flip hname
      rwa [← Except.ok.inj ((hrun.unique (hruns hreport)).1)]
  · -- where the directory of the ingestion is missing, there is nothing below it
    refine ⟨[], ?_, fun v ↦ ⟨fun hv ↦ absurd hv List.not_mem_nil, ?_⟩⟩
    · refine Runs.bind (Runs.call (o := .pathExists (store.root ++ [ingestionId]))
        (v := t.pathExists (store.root ++ [ingestionId])) rfl) ?_
      rw [if_pos (by simp [hpresent])]
      exact Runs.pure _ t
    · rintro ⟨name, report, ⟨-, bytes, -, hfile⟩, -⟩
      have hnone : t.get? (store.root ++ [ingestionId]) = none := by
        simpa [Tree.pathExists] using hpresent
      have habsent := hclosed.absent hne hnone _ (List.prefix_append _ [name, "report.json"])
      rw [hpath, hfile] at habsent
      cases habsent

end Lookup

/-! ## Many reports at a time -/

/-- A report that is to be written. -/
structure ReportJob (R : Type) where
  process : Process
  ingestionId : String
  reportId : String
  report : Record R

/-- What callers of `write_report` see to: ids are single steps of a path, no ingestion is called like the
staging area, a report belongs to one ingestion, and it is a JSON value that can be read back. -/
structure ValidJobs {R : Type} [FloatText R] (jobs : Set (ReportJob R)) : Prop where
  ingestion : ∀ j ∈ jobs, LocalRawStorage.IsPlain j.ingestionId ∧ j.ingestionId ≠ ".staging"
  report : ∀ j ∈ jobs, LocalRawStorage.IsPlain j.reportId
  unique : ∀ j ∈ jobs, ∀ j' ∈ jobs, j.reportId = j'.reportId → j.ingestionId = j'.ingestionId
  storable : ∀ j ∈ jobs, (Value.dict j.report.items).Storable

/-- The programs that run: reports are written, and other programs work outside the store. -/
def ReportParty (R : Type) [FloatText R] (store : ReportStore) (jobs : Set (ReportJob R))
    (p : Prog (Op String Byte) Op.Ans Unit) : Prop :=
  (∃ j ∈ jobs, p = (store.writeReport R j.process j.ingestionId j.reportId j.report).run.discard) ∨
    p.Performs fun o ↦ ∀ path, store.root <+: path → ¬o.Touches path

section Pool

variable {R : Type} [FloatText R] {store : ReportStore} {jobs : Set (ReportJob R)}
  {ingestionId reportId : String}

/-- The directory is that of a report for the two ids. -/
def ShowsReport (jobs : Set (ReportJob R)) (ingestionId reportId : String) (v : View String Byte) :
    Prop :=
  ∃ j ∈ jobs, j.ingestionId = ingestionId ∧ j.reportId = reportId ∧
    ∃ bytes, Utf8.encode (journalText j.report) = some bytes ∧ v = reportDir bytes

theorem exists_ne_nil_of_showsReport {v : View String Byte}
    (h : ShowsReport jobs ingestionId reportId v) : ∃ q, q ≠ [] ∧ v q ≠ none := by
  obtain ⟨-, -, -, -, bytes, -, rfl⟩ := h
  refine ⟨["report.json"], List.cons_ne_nil _ _, ?_⟩
  rw [reportDir, Function.update_self]
  exact Option.some_ne_none _

theorem staging_not_prefix (root : Path String) {ingestionId : String} (reportId : String)
    (h : ingestionId ≠ ".staging") :
    ¬root ++ [".staging", reportId] <+: root ++ [ingestionId, reportId] := fun hle ↦
  h (eq_of_near hle (.inl List.prefix_rfl)).1.symm

theorem final_not_prefix (root : Path String) {ingestionId : String} (reportId : String)
    (h : ingestionId ≠ ".staging") :
    ¬root ++ [ingestionId, reportId] <+: root ++ [".staging", reportId] := fun hle ↦
  h (eq_of_near hle (.inl List.prefix_rfl)).1

/-- The publication of a report. -/
def reportPublishing (root : Path String) (jobs : Set (ReportJob R)) {ingestionId : String}
    (reportId : String) (h : ingestionId ≠ ".staging") : Publishing String Byte where
  staging := root ++ [".staging", reportId]
  final := root ++ [ingestionId, reportId]
  Complete := ShowsReport jobs ingestionId reportId
  Scratch _ := False
  Free o := ∀ p, root ++ [".staging", reportId] <+: p ∨ root ++ [ingestionId, reportId] <+: p →
    ¬o.Touches p
  free h := h _
  exists_of_complete := exists_ne_nil_of_showsReport
  notInStaging := staging_not_prefix root reportId h
  notInFinal := final_not_prefix root reportId h

variable [LawfulFloatText R]

theorem follows_job (hroot : ".." ∉ store.root) (hjobs : ValidJobs jobs) {j : ReportJob R} (hj : j ∈ jobs)
    {P : Publishing String Byte} (hstaging : P.staging = store.root ++ [".staging", j.reportId])
    (hfinal : P.final = store.root ++ [j.ingestionId, j.reportId])
    (hcomplete : P.Complete = ShowsReport jobs j.ingestionId j.reportId) :
    (store.writeReport R j.process j.ingestionId j.reportId j.report).Follows P.Next
      (fun _ _ ↦ True) (fun _ ↦ True) .outside := by
  refine follows_writeReport hstaging ?_ j.process fun bytes hbytes ↦ ?_
  · rw [hfinal, finalDir_eq hroot (hjobs.ingestion j hj).1 (hjobs.report j hj)]
  · rw [hcomplete]
    exact ⟨j, hj, rfl, rfl, bytes, hbytes, rfl⟩

theorem performs_job (hroot : ".." ∉ store.root) (hjobs : ValidJobs jobs) {j : ReportJob R}
    (hj : j ∈ jobs) :
    (store.writeReport R j.process j.ingestionId j.reportId j.report).run.Performs fun o ↦
      ∀ p, o.Touches p → (store.root ++ [".staging", j.reportId] <+: p ∨
        p <+: store.root ++ [".staging", j.reportId]) ∨
        store.root ++ [j.ingestionId, j.reportId] <+: p ∨
          p <+: store.root ++ [j.ingestionId, j.reportId] := by
  let P : Publishing String Byte :=
    { reportPublishing store.root jobs j.reportId (hjobs.ingestion j hj).2 with
      Free := fun _ ↦ False
      free := False.elim }
  have hfollows := follows_job (P := P) hroot hjobs hj rfl rfl rfl
  refine Prog.Follows.performs_of_pick (fun o ↦ .ok o.someVal) (fun hnext p hp ↦ ?_) hfollows
  exact (hnext.touches hp).resolve_left id

theorem performs_job_of_ne (hroot : ".." ∉ store.root) (hjobs : ValidJobs jobs) {j : ReportJob R}
    (hj : j ∈ jobs) (hstaging : ingestionId ≠ ".staging") (hreport : j.reportId ≠ reportId) :
    (store.writeReport R j.process j.ingestionId j.reportId j.report).run.Performs fun o ↦
      ∀ p, store.root ++ [".staging", reportId] <+: p ∨ store.root ++ [ingestionId, reportId] <+: p →
        ¬o.Touches p := by
  refine (performs_job hroot hjobs hj).mono fun o ho p hp htouches ↦ ?_
  rcases hp with hp | hp <;> rcases ho p htouches with hnear | hnear
  · exact hreport (eq_of_near hp hnear).2.symm
  · exact (hjobs.ingestion j hj).2 (eq_of_near hp hnear).1.symm
  · exact hstaging (eq_of_near hp hnear).1
  · exact hreport (eq_of_near hp hnear).2.symm

variable {t t' : Tree String Byte} {h : List (PoolStep (Op String Byte) Op.Ans (Tree String Byte))}
  {qs : List (Prog (Op String Byte) Op.Ans Unit)}

/-- Every program keeps to the protocol of every report. -/
theorem follows_of_reportParty (hroot : ".." ∉ store.root) (hjobs : ValidJobs jobs) {j : ReportJob R}
    (hj : j ∈ jobs) {p : Prog (Op String Byte) Op.Ans Unit} (hp : ReportParty R store jobs p) :
    p.Follows (reportPublishing store.root jobs j.reportId (hjobs.ingestion j hj).2).Next
      (fun _ _ ↦ True) .outside := by
  have hfree {p : Prog (Op String Byte) Op.Ans Unit}
      (hp : p.Performs (reportPublishing store.root jobs j.reportId (hjobs.ingestion j hj).2).Free) :
      p.Follows (reportPublishing store.root jobs j.reportId (hjobs.ingestion j hj).2).Next
        (fun _ _ ↦ True) .outside :=
    (hp.follows (fun q _ _ ho ↦ ⟨q, .free ho⟩) _).mono fun _ _ _ ↦ trivial
  rcases hp with ⟨j', hj', rfl⟩ | hp
  · by_cases heq : j'.reportId = j.reportId
    · have hingestion := hjobs.unique j' hj' j hj heq
      refine Prog.Follows.bind (follows_job hroot hjobs hj' ?_ ?_ ?_) fun _ _ _ ↦ trivial
      · rw [heq]
        rfl
      · rw [heq, hingestion]
        rfl
      · rw [heq, hingestion]
        rfl
    · exact hfree (performs_job_of_ne hroot hjobs hj' (hjobs.ingestion j hj).2 heq).discard
  · refine hfree (hp.mono fun o ho p hp ↦ ho p ?_)
    rcases hp with hp | hp
    · exact (List.prefix_append _ _).trans hp
    · exact (List.prefix_append _ _).trans hp

/-- What is at the place of a report is whole, and stays. -/
theorem report_whole (hroot : ".." ∉ store.root) (hjobs : ValidJobs jobs)
    (hrun : PoolRun Effect (ReportParty R store jobs) [] t h qs t')
    (hempty : ∀ p, p ≠ [] → t.get? (store.root ++ p) = none) {j : ReportJob R} (hj : j ∈ jobs) :
    (t'.Absent (store.root ++ [j.ingestionId, j.reportId]) ∨
      ShowsReport jobs j.ingestionId j.reportId
        (t'.sub (store.root ++ [j.ingestionId, j.reportId]))) ∧
      ∀ x ∈ h, ∀ q, x.after.sub (store.root ++ [j.ingestionId, j.reportId]) q ≠ none →
        t'.sub (store.root ++ [j.ingestionId, j.reportId]) q =
          x.after.sub (store.root ++ [j.ingestionId, j.reportId]) q := by
  have hnone (name file : String) : t.Absent (store.root ++ [name, file]) := by
    rintro _ ⟨r, rfl⟩
    rw [List.append_assoc]
    exact hempty _ (List.cons_ne_nil _ _)
  obtain ⟨hvisible, hlasting⟩ := Publishing.visible_of_poolRun
    (fun p hp ↦ follows_of_reportParty hroot hjobs hj hp) hrun (hnone j.ingestionId j.reportId)
    fun _ ↦ hnone ".staging" j.reportId
  exact ⟨hvisible, fun x hx q ↦ hlasting x hx q id⟩

/-- A report that is found has been written for the ingestion. -/
theorem exists_job (hroot : ".." ∉ store.root) (hjobs : ValidJobs jobs)
    (hrun : PoolRun Effect (ReportParty R store jobs) [] t h qs t')
    (hempty : ∀ p, p ≠ [] → t.get? (store.root ++ p) = none) (hstaging : ingestionId ≠ ".staging")
    {name : String} {node : Node Byte}
    (hnode : t'.get? (store.root ++ [ingestionId, name, "report.json"]) = some node) :
    ∃ j ∈ jobs, j.ingestionId = ingestionId ∧ j.reportId = name := by
  by_contra hnot
  -- nobody touches the place, so it is as empty as it was
  have huntouched : ∀ x ∈ h, ¬x.op.Touches (store.root ++ [ingestionId, name, "report.json"]) := by
    refine hrun.forall_op (P := fun o ↦ ¬o.Touches (store.root ++ [ingestionId, name, "report.json"]))
      ?_ fun p hp ↦ absurd hp List.not_mem_nil
    rintro p (⟨j, hj, rfl⟩ | hp)
    · refine ((performs_job hroot hjobs hj).mono fun o ho htouches ↦ ?_).discard
      have hpath : store.root ++ [ingestionId, name] <+:
          store.root ++ [ingestionId, name, "report.json"] :=
        ⟨["report.json"], by rw [List.append_assoc]; rfl⟩
      rcases ho _ htouches with hnear | hnear
      · exact hstaging (eq_of_near hpath hnear).1
      · obtain ⟨heq, heq'⟩ := eq_of_near hpath hnear
        exact hnot ⟨j, hj, heq.symm, heq'.symm⟩
    · exact hp.mono fun o ho ↦ ho _ (List.prefix_append _ _)
  have hsame := (hrun.invariant (J := fun t ↦
    t.get? (store.root ++ [ingestionId, name, "report.json"]) = none)
    (fun x hx hbefore ↦ ((hrun.sem_of_mem x hx).frame (huntouched x hx)).trans hbefore)
    (hempty _ (List.cons_ne_nil _ _))).1
  rw [hsame] at hnode
  cases hnode

/-- A report that is found is that of a job. -/
theorem exists_holdsReport (hroot : ".." ∉ store.root) (hjobs : ValidJobs jobs)
    (hrun : PoolRun Effect (ReportParty R store jobs) [] t h qs t')
    (hempty : ∀ p, p ≠ [] → t.get? (store.root ++ p) = none) (hstaging : ingestionId ≠ ".staging")
    {name : String} {node : Node Byte}
    (hnode : t'.get? (store.root ++ [ingestionId, name, "report.json"]) = some node) :
    ∃ j ∈ jobs, j.ingestionId = ingestionId ∧ j.reportId = name ∧
      store.HoldsReport t' ingestionId name j.report := by
  obtain ⟨j, hj, rfl, rfl⟩ := exists_job hroot hjobs hrun hempty hstaging hnode
  have hpath : store.root ++ [j.ingestionId, j.reportId] ++ ["report.json"] =
      store.root ++ [j.ingestionId, j.reportId, "report.json"] := List.append_assoc ..
  rcases (report_whole hroot hjobs hrun hempty hj).1 with habsent | ⟨j', hj', hing, hrep, bytes, hbytes, hv⟩
  · have hnone := habsent _ (List.prefix_append _ ["report.json"])
    rw [hpath, hnode] at hnone
    cases hnone
  · refine ⟨j', hj', hing, hrep, hjobs.storable j' hj', bytes, hbytes, ?_⟩
    rw [← hpath]
    exact (congrFun hv ["report.json"]).trans (Function.update_self ..)

/-- **Reports are read whole**: reports are written at the same time, and any call may fail or any
writer stop. A lookup made at any point returns reports that have been written for the ingestion, each of
them whole; it returns one for every directory of a report that is there, and every report that has been
found once is found again ever after. -/
theorem findReports_whole (hroot : ".." ∉ store.root) (hjobs : ValidJobs jobs)
    (hrun : PoolRun Effect (ReportParty R store jobs) [] t h qs t') (hclosed : t.Closed)
    (hempty : ∀ p, p ≠ [] → t.get? (store.root ++ p) = none) (hid : isSafePathComponent ingestionId = true)
    (hstaging : ingestionId ≠ ".staging") :
    ∃ reports, Runs (store.findReports R ingestionId) t' (.ok reports) t' ∧
      (∀ v ∈ reports, ∃ j ∈ jobs, j.ingestionId = ingestionId ∧
        v = journalStyle.arranged (.dict j.report.items)) ∧
      (∀ j ∈ jobs, j.ingestionId = ingestionId →
        t'.get? (store.finalDir ingestionId j.reportId) ≠ none →
        ∃ j' ∈ jobs, j'.ingestionId = ingestionId ∧ j'.reportId = j.reportId ∧
          journalStyle.arranged (.dict j'.report.items) ∈ reports) ∧
      ∀ x ∈ h, ∀ earlier, Runs (store.findReports R ingestionId) x.after (.ok earlier) x.after →
        earlier ⊆ reports := by
  obtain ⟨hclosed', hclosedAfter⟩ := closed_of_poolRun hrun hclosed
  have hwhole {s : Tree String Byte} {h' : List (PoolStep (Op String Byte) Op.Ans (Tree String Byte))}
      {qs' : List (Prog (Op String Byte) Op.Ans Unit)}
      (hrun' : PoolRun Effect (ReportParty R store jobs) [] t h' qs' s) (name : String)
      (node : Node Byte) (hnode : s.get? (store.root ++ [ingestionId, name, "report.json"]) = some node) :=
    exists_holdsReport hroot hjobs hrun' hempty hstaging hnode
  obtain ⟨reports, hreports, hmem⟩ := runs_findReports hroot hclosed' hid fun name node hnode ↦
    (hwhole hrun name node hnode).elim fun j hj ↦ ⟨j.report, hj.2.2.2⟩
  refine ⟨reports, hreports, fun v hv ↦ ?_, fun j hj hing hthere ↦ ?_, fun x hx earlier hearlier v hv ↦ ?_⟩
  · obtain ⟨name, report, hreport, rfl⟩ := (hmem v).mp hv
    obtain ⟨-, bytes, -, hfile⟩ := id hreport
    obtain ⟨j, hj, hing, -, hholds⟩ := hwhole hrun name _ hfile
    exact ⟨j, hj, hing, hreport.unique hholds⟩
  · -- the directory holds a whole report, so the lookup goes through it
    rw [← hing, finalDir_eq hroot (hjobs.ingestion j hj).1 (hjobs.report j hj)] at hthere
    rcases (report_whole hroot hjobs hrun hempty hj).1 with habsent | ⟨j', hj', hing', hrep, bytes, hbytes, hv⟩
    · exact absurd (habsent _ List.prefix_rfl) hthere
    · refine ⟨j', hj', hing'.trans hing, hrep, (hmem _).mpr ⟨j.reportId, j'.report,
        ⟨hjobs.storable j' hj', bytes, hbytes, ?_⟩, rfl⟩⟩
      have hfile := congrFun hv ["report.json"]
      rw [Tree.sub, reportDir, Function.update_self, List.append_assoc] at hfile
      rwa [← hing]
  · -- what was found earlier is a file that stays
    obtain ⟨h₁, h₂, rfl⟩ := List.append_of_mem hx
    obtain ⟨qs₁, hrun₁⟩ := hrun.exists_upto
    obtain ⟨reports₁, hreports₁, hmem₁⟩ := runs_findReports hroot (hclosedAfter x hx) hid
      fun name node hnode ↦ (hwhole hrun₁ name node hnode).elim fun j hj ↦ ⟨j.report, hj.2.2.2⟩
    rw [Except.ok.inj (hearlier.unique hreports₁).1] at hv
    obtain ⟨name, report, ⟨hstorable, bytes, hbytes, hfile⟩, rfl⟩ := (hmem₁ v).mp hv
    refine (hmem _).mpr ⟨name, report, ⟨hstorable, bytes, hbytes, ?_⟩, rfl⟩
    obtain ⟨j, hj, rfl, rfl, -⟩ := hwhole hrun₁ name _ hfile
    have hlasting := (report_whole hroot hjobs hrun hempty hj).2 x hx ["report.json"]
    rw [Tree.sub, Tree.sub, List.append_assoc] at hlasting
    exact (hlasting (by rw [List.cons_append, List.cons_append, List.nil_append, hfile]; simp)).trans hfile

end Pool

/-! ## Two reports on one ingestion -/

/-- A report with one entry. -/
def shortReport (reportId : String) (passed : Bool) : ReportJob BitFloat where
  process := ⟨1, "2024-01-01T00:00:00+00:00"⟩
  ingestionId := "ing"
  reportId := reportId
  report := Dict.empty.set (Str.ofString "passed") (.bool passed)

/-- Its writer. -/
def shortReportWriter (reportId : String) (passed : Bool) : Prog (Op String Byte) Op.Ans Unit :=
  ((localValidationReportStore ["reports"] true).writeReport BitFloat (shortReport reportId passed).process
    "ing" reportId (shortReport reportId passed).report).run.discard

/-- The second writer starts while the first is at work, and is stopped after it has written its report,
before it would have renamed its directory. -/
def twoReports : PoolPoint (Op String Byte) Op.Ans (Tree String Byte) :=
  simulatePool (fun (_ : Unit) o t ↦ perform o t)
    ([.start (shortReportWriter "val" true), .start (shortReportWriter "late" false)] ++
      List.replicate 5 (.act 0 ()) ++ List.replicate 12 (.act 1 ()) ++ List.replicate 12 (.act 0 ()))
    [] Dict.empty

theorem findReports_whole_twoReports : ∃ reports,
    Runs ((localValidationReportStore ["reports"] true).findReports BitFloat "ing") twoReports.state
      (.ok reports) twoReports.state ∧
    journalStyle.arranged (.dict (shortReport "val" true).report.items) ∈ reports ∧
    (∀ v ∈ reports, ∃ j ∈ ({shortReport "val" true, shortReport "late" false} : Set (ReportJob BitFloat)),
      v = journalStyle.arranged (.dict j.report.items)) ∧
    (twoReports.state.file? ["reports", ".staging", "late", "report.json"]).isSome = true := by
  let store := localValidationReportStore ["reports"] true
  have hjobs : ValidJobs {shortReport "val" true, shortReport "late" false} := by
    refine ⟨?_, ?_, ?_, ?_⟩
    · rintro j (rfl | rfl) <;> exact ⟨⟨by decide +kernel, by decide +kernel⟩, by decide +kernel⟩
    · rintro j (rfl | rfl) <;> exact ⟨by decide +kernel, by decide +kernel⟩
    · rintro j (rfl | rfl) j' (rfl | rfl) - <;> rfl
    · rintro j (rfl | rfl) <;> exact
        ⟨by decide +kernel, wellPaired_of_forall (Utf8.encodable_ofString "passed"), trivial, trivial⟩
  have hrun : PoolRun Effect (ReportParty BitFloat store {shortReport "val" true, shortReport "late" false}) []
      Dict.empty twoReports.history twoReports.threads twoReports.state := by
    refine poolRun_simulatePool (fun _ _ _ ↦ .inl rfl) (fun p hp ↦ .inl ?_) [] Dict.empty
    rcases List.mem_pair.mp (PoolTurn.mem_started.mpr hp) with rfl | rfl
    · exact ⟨_, .inl rfl, rfl⟩
    · exact ⟨_, .inr rfl, rfl⟩
  have hthere : (twoReports.state.get? (store.finalDir "ing" "val")).isSome = true := by
    decide +kernel
  have hid : isSafePathComponent "ing" = true := by decide +kernel
  obtain ⟨reports, hreports, hmem, hfound, -⟩ := findReports_whole (by decide +kernel) hjobs hrun
    Tree.closed_empty (fun _ _ ↦ rfl) hid (by decide)
  refine ⟨reports, hreports, ?_, fun v hv ↦ ?_, by decide +kernel⟩
  · obtain ⟨j, hj, -, hsame, hreport⟩ := hfound _ (.inl rfl) rfl (Option.isSome_iff_ne_none.mp hthere)
    rcases hj with rfl | rfl
    · exact hreport
    · exact absurd hsame (by decide)
  · obtain ⟨j, hj, -, hv⟩ := hmem v hv
    exact ⟨j, hj, hv⟩

end Storage

end ForgeData
