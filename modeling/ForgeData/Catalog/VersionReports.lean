import ForgeData.Catalog.SemanticVersions
import ForgeData.Interleaving.Schedule

/-!
# What the caller of a registration is told

After its transaction a registration reads the catalog again to put its response together. Nothing holds
the package in place then: if it is there at the first read and a full rebuild has taken it out of the
catalog before the second, the call raises although it has committed. What is committed does not depend
on that. So pointers are permanent and the first registration creates the version, but a caller is told
so exactly if the response finds the package again.
-/

namespace ForgeData

open Python Interleaving

variable {sha : Json → String}

/-! ## The transaction of a registration -/

/-- A step of a registration beside other parties. -/
abbrev RegistrationStep (Env : Type) := Step CatalogOp CatalogOp.Ans CatalogState Env

section Transaction

variable {Env : Type} {env : Env → CatalogState → CatalogState → Prop} {request : RegisterRequest}
  {s s' : CatalogState} {t : List (RegistrationStep Env)}

/-- The answer of the transaction, if the step is that of the registration. -/
def transactionAnswer (request : RegisterRequest) (x : RegistrationStep Env) :
    Option (Except CatalogError Bool) :=
  match x.event with
  | .own (.createDatasetVersion k packageId _ _) answer =>
    if k = (request.datasetName, request.version) ∧ packageId = request.packageId then some answer
    else none
  | _ => none

theorem transactionAnswer_eq_none {o : CatalogOp} (a : o.Ans) (s s' : CatalogState) (ho : ¬o.Registers) :
    transactionAnswer request (⟨.own o a, s, s'⟩ : RegistrationStep Env) = none := by
  cases o with
  | createDatasetVersion => exact absurd trivial ho
  | _ => rfl

theorem exists_of_transactionAnswer {x : RegistrationStep Env} {answer : Except CatalogError Bool}
    (h : transactionAnswer request x = some answer) : ∃ description tags, x.event =
      .own (.createDatasetVersion (request.datasetName, request.version) request.packageId description
        tags) answer := by
  obtain ⟨event, before, after⟩ := x
  cases event with
  | env e => cases h
  | own o a =>
    cases o with
    | createDatasetVersion k packageId description tags =>
      by_cases hsame : k = (request.datasetName, request.version) ∧ packageId = request.packageId
      · have heq := (if_pos hsame).symm.trans h
        obtain ⟨rfl, rfl⟩ := hsame
        exact ⟨description, tags, by rw [Option.some.inj heq]⟩
      · cases (if_neg hsame).symm.trans h
    | _ => cases h

/-- The history ends with a transaction that has given this answer, and whatever others have done since. -/
def Transacted (request : RegisterRequest) (answer : Except CatalogError Bool)
    (h : List (RegistrationStep Env)) : Prop :=
  ∃ before x after, h = before ++ x :: after ∧ transactionAnswer request x = some answer ∧
    before.filterMap (transactionAnswer request) = [] ∧ ownSteps after = []

/-- How far the transaction of a registration is, by its phase. -/
def TransactedBy (request : RegisterRequest) (h : List (RegistrationStep Env)) : RegisterPhase → Prop
  | .answered answer => Transacted request answer h
  | _ => h.filterMap (transactionAnswer request) = []

theorem TransactedBy.step {q q' : RegisterPhase} {o : CatalogOp} {a : o.Ans}
    {h : List (RegistrationStep Env)} (hq : TransactedBy request h q) (hnext : RegisterNext request q o a q') :
    TransactedBy request (h ++ [⟨.own o a, s, s'⟩]) q' := by
  have hread {q : RegisterPhase} (hq : h.filterMap (transactionAnswer request) = [])
      (ho : ¬o.Registers) :
      (h ++ [(⟨.own o a, s, s'⟩ : RegistrationStep Env)]).filterMap (transactionAnswer request) = [] := by
    rw [List.filterMap_append, hq, List.nil_append, List.filterMap_cons_none, List.filterMap_nil]
    exact transactionAnswer_eq_none a s s' ho
  cases hnext with
  | register answer hphase =>
    refine ⟨h, _, [], rfl, if_pos ⟨rfl, rfl⟩, ?_, rfl⟩
    rcases hphase with rfl | ⟨direct, rows, rfl, -⟩
    · exact hq
    · exact hq
  | _ => exact hread (q := .lookingUp) hq id

theorem TransactedBy.append_env {q : RegisterPhase} {e : Env} {h : List (RegistrationStep Env)}
    (hq : TransactedBy request h q) : TransactedBy request (h ++ [⟨.env e, s, s'⟩]) q := by
  cases q with
  | answered answer =>
    obtain ⟨before, x, after, rfl, hx, hbefore, hafter⟩ := hq
    refine ⟨before, x, after ++ [⟨.env e, s, s'⟩], List.append_assoc .., hx, hbefore, ?_⟩
    rw [ownSteps_append, hafter]
    rfl
  | _ =>
    have hnone : h.filterMap (transactionAnswer request) = [] := hq
    refine (List.filterMap_append ..).trans ?_
    rw [hnone]
    rfl

/-- **Before the response**: a registration fails, or it performs one transaction and has its answer. -/
theorem exec_commitVersion {answer : Except CatalogError Bool}
    (h : Exec (catalogSystem sha env) (commitVersion request) s t (.pure answer) s') :
    (t.filterMap (transactionAnswer request) = [] ∧ ∃ e, answer = .error e) ∨
      Transacted request answer t := by
  obtain ⟨q, hq, hend⟩ := (follows_commitVersion request).invariant
    (J := fun q h _ ↦ TransactedBy request h q) (h := [])
    (fun hq hnext _ ↦ hq.step hnext) (fun hq _ ↦ hq.append_env) rfl h
  rw [List.nil_append] at hq
  cases q with
  | answered answer' =>
    obtain rfl : answer = answer' := hend
    exact .inr hq
  | _ => exact .inl ⟨hq, hend⟩

theorem filterMap_transactionAnswer_of_ownSteps {t : List (RegistrationStep Env)}
    (h : ∀ x ∈ ownSteps t, ∃ (o : CatalogOp) (a : o.Ans), o.Reads ∧ x.event = .own o a) :
    t.filterMap (transactionAnswer request) = [] := by
  refine List.filterMap_eq_nil_iff.mpr fun x hx ↦ ?_
  obtain ⟨event, before, after⟩ := x
  cases event with
  | env e => rfl
  | own o a =>
    obtain ⟨o', a', hreads, heq⟩ := h _ ((mem_ownSteps_iff rfl).mpr hx)
    cases heq
    refine transactionAnswer_eq_none a before after fun hregisters ↦ ?_
    cases o with
    | createDatasetVersion => exact hreads
    | _ => exact hregisters

end Transaction

/-! ## The response -/

section Response

variable {Env : Type} {env : Env → CatalogState → CatalogState → Prop} {k : String × String}
  {packageId : String} {row : VersionRow} {created : Bool} {s s' : CatalogState}
  {t : List (RegistrationStep Env)}

/-- The catalogs that the own operations of a history have met, in order. -/
def readStates (t : List (RegistrationStep Env)) : List CatalogDb := (ownSteps t).map (·.before.db)

theorem readStates_append (t t' : List (RegistrationStep Env)) :
    readStates (t ++ t') = readStates t ++ readStates t' := by
  rw [readStates, ownSteps_append, List.map_append]
  rfl

theorem readStates_of_ownSteps {x : RegistrationStep Env} {t' : List (RegistrationStep Env)}
    (h : ownSteps t = x :: ownSteps t') : readStates t = x.before.db :: readStates t' := by
  rw [readStates, h]
  rfl

theorem readStates_eq_nil (h : ownSteps t = []) : readStates t = [] := by
  rw [readStates, h]
  rfl

/-- What the reads behind a fingerprint have to find: the package again, in the first of the catalogs, and
its manifest and the manifests upstream of it in the second as their models say. -/
def FingerprintFinds (packageId : String) : List CatalogDb → Prop
  | first :: second :: _ =>
    ∃ package, first.getArtifact (packageKey packageId) = some package ∧
      ∃ data, reproducibilityData package.metadata (second.upstreamManifests packageId) = some data
  | _ => False

/-- What the reads of a response have to find. The version is read in the first of the catalogs and the
package in the second. Only if the package is there the others are read for its fingerprint. -/
def ResponseFinds (packageId : String) : List CatalogDb → Prop
  | _ :: first :: rest =>
    ∀ package, first.getArtifact (packageKey packageId) = some package →
      (∃ status, sourceQcStatus (some package) = .ok status) ∧ FingerprintFinds packageId rest
  | _ => False

theorem exec_readReproducibilityData {result : Except CatalogError ReproducibilityData}
    (h : Exec (catalogSystem sha env) (readReproducibilityData packageId) s t (.pure result) s')
    (later : List CatalogDb) :
    (∃ data, result = .ok data) ↔ FingerprintFinds packageId (readStates t ++ later) := by
  obtain ⟨a, s₁, s₂, t₁, hown, ⟨i, hrun⟩, hrest⟩ := h.ownSteps_of_op_bind
  have ha : s₁.db.getArtifact (packageKey packageId) = a := congrArg Prod.fst hrun
  have hreads := readStates_of_ownSteps hown
  rcases a with _ | package
  · obtain ⟨rfl, hnone⟩ := hrest.ownSteps_of_pure
    rw [hreads, readStates_eq_nil hnone]
    refine iff_of_false (by simp) fun hfinds ↦ ?_
    cases later with
    | nil => exact hfinds.elim
    | cons db later =>
      obtain ⟨package, hpackage, -⟩ := hfinds
      cases ha.symm.trans hpackage
  obtain ⟨nodes, s₃, s₄, t₂, hown', ⟨i', hrun'⟩, hend⟩ := hrest.ownSteps_of_op_bind
  have hnodes : (s₃.db.traverse (packageKey packageId) .upstream none).nodes = nodes :=
    congrArg Prod.fst hrun'
  obtain ⟨rfl, -⟩ := hend.ownSteps_of_pure
  rw [hreads, readStates_of_ownSteps hown', ← hnodes]
  have hfinds : FingerprintFinds packageId (s₁.db :: s₃.db :: (readStates t₂ ++ later)) ↔
      ∃ data, reproducibilityData package.metadata (s₃.db.upstreamManifests packageId) = some data := by
    simp [FingerprintFinds, ha]
  refine Iff.trans ?_ hfinds.symm
  change (∃ data, (reproducibilityData package.metadata (s₃.db.upstreamManifests packageId)).elim
      (Except.error (CatalogError.unreadable "")) Except.ok = Except.ok data) ↔ _
  cases reproducibilityData package.metadata (s₃.db.upstreamManifests packageId) <;> simp

theorem exec_readFingerprint {package : ArtifactRow} {result : Except CatalogError (Option String)}
    (h : Exec (catalogSystem sha env) (readFingerprint sha packageId (some package)) s t (.pure result) s')
    (later : List CatalogDb) :
    (∃ fingerprint, result = .ok fingerprint) ↔ FingerprintFinds packageId (readStates t ++ later) := by
  obtain ⟨data, s₁, t₁, t₂, rfl, hdata, hend⟩ := h.of_bind_pure
  rw [readStates_append, List.append_assoc, ← exec_readReproducibilityData hdata]
  rcases data with e | data
  · obtain ⟨rfl, -⟩ := hend.ownSteps_of_pure
    exact iff_of_false (by simp) (by simp)
  · obtain ⟨rfl, -⟩ := hend.ownSteps_of_pure
    exact iff_of_true ⟨_, rfl⟩ ⟨data, rfl⟩

theorem exists_versionResponse_iff (package : Option ArtifactRow) (fingerprint : Option String)
    (effective : EffectiveStatus) :
    (∃ response, versionResponse k row package fingerprint effective = .ok response) ↔
      ∃ status, sourceQcStatus package = .ok status := by
  rw [versionResponse]
  cases sourceQcStatus package with
  | error e => exact iff_of_false (by simp [Bind.bind, Except.bind]) (by simp)
  | ok status => exact iff_of_true ⟨_, rfl⟩ ⟨status, rfl⟩

/-- **What a response comes to**: it is put together if the reads find what they have to, and it raises if
they do not. -/
theorem exec_toVersionResponse {result : Except CatalogError DatasetVersionResponse}
    (h : Exec (catalogSystem sha env) (toVersionResponse sha k row) s t (.pure result) s') (db : CatalogDb) :
    (∃ response, result = .ok response) ↔ ResponseFinds row.packageId (db :: readStates t) := by
  obtain ⟨package, s₁, s₂, t₁, hown, ⟨i, hrun⟩, hrest⟩ := h.ownSteps_of_op_bind
  have hpackage : s₁.db.getArtifact (packageKey row.packageId) = package := congrArg Prod.fst hrun
  have hreads := readStates_of_ownSteps hown
  obtain ⟨fingerprint, s₃, t₂, t₃, rfl, hfingerprint, hend⟩ := hrest.of_bind_pure
  -- once the fingerprint is there, only the status of the package can spoil the response
  have hresponse : (∃ response, result = .ok response) ↔
      (∃ f, fingerprint = .ok f) ∧ ∃ status, sourceQcStatus package = .ok status := by
    rcases fingerprint with e | fingerprint
    · obtain ⟨rfl, -⟩ := hend.ownSteps_of_pure
      exact iff_of_false (by simp) (by simp)
    · obtain ⟨effective, s₄, t₄, t₅, -, -, hdone⟩ := hend.of_bind_pure
      obtain ⟨rfl, -⟩ := hdone.ownSteps_of_pure
      rw [exists_versionResponse_iff]
      exact ⟨fun hstatus ↦ ⟨⟨fingerprint, rfl⟩, hstatus⟩, fun hboth ↦ hboth.2⟩
  rw [hresponse, hreads, readStates_append]
  cases package with
  | none =>
    obtain ⟨rfl, -⟩ := hfingerprint.ownSteps_of_pure
    refine ⟨fun _ found hfound ↦ ?_, fun _ ↦ ⟨⟨none, rfl⟩, none, rfl⟩⟩
    cases hpackage.symm.trans hfound
  | some package =>
    rw [exec_readFingerprint hfingerprint (readStates t₃)]
    refine ⟨fun hboth found hfound ↦ ?_, fun hfinds ↦ (hfinds package hpackage).symm⟩
    obtain rfl : package = found := Option.some.inj (hpackage.symm.trans hfound)
    exact hboth.symm

/-- What the caller is answered, if the version points to its package whenever it is read. -/
theorem exec_respondVersion {result : Except CatalogError (DatasetVersionResponse × Bool)}
    (h : Exec (catalogSystem sha env) (respondVersion sha k created) s t (.pure result) s')
    (hrow : ∀ db ∈ readStates t, ∃ row, db.getDatasetVersion k = some row ∧ row.packageId = packageId) :
    ((∃ e, result = .error e) ∨ ∃ response, result = .ok (response, created)) ∧
      ((∃ response, result = .ok (response, created)) ↔ ResponseFinds packageId (readStates t)) := by
  obtain ⟨a, s₁, s₂, t₁, hown, ⟨i, hrun⟩, hrest⟩ := h.ownSteps_of_op_bind
  have hreads := readStates_of_ownSteps hown
  have ha : s₁.db.getDatasetVersion k = a := congrArg Prod.fst hrun
  obtain ⟨row, hsome, rfl⟩ := hrow s₁.db (hreads ▸ List.mem_cons_self)
  rw [hsome] at ha
  subst ha
  obtain ⟨answer, s₃, t₂, t₃, rfl, hresponse, hend⟩ := hrest.of_bind_pure
  have hanswer := exec_toVersionResponse hresponse s₁.db
  have hnone : readStates t₃ = [] := by
    rcases answer with e | response
    all_goals exact readStates_eq_nil hend.ownSteps_of_pure.2
  rw [hreads, readStates_append, hnone, List.append_nil, ← hanswer]
  rcases answer with e | response
  · obtain ⟨rfl, -⟩ := hend.ownSteps_of_pure
    exact ⟨.inl ⟨e, rfl⟩, iff_of_false (by simp) (by simp)⟩
  · obtain ⟨rfl, -⟩ := hend.ownSteps_of_pure
    exact ⟨.inr ⟨response, rfl⟩, iff_of_true ⟨response, rfl⟩ ⟨response, rfl⟩⟩

end Response

/-! ## Beside other calls -/

/-- Another caller performs an operation on the catalog, whatever it draws from outside. -/
def OtherCalls (sha : Json → String) (o : CatalogOp) (s s' : CatalogState) : Prop :=
  ∃ a, CatalogSem sha o s a s'

section Reports

variable {request : RegisterRequest} {s s' : CatalogState} {t : List (RegistrationStep CatalogOp)}
  {k : String × String} {row : VersionRow} {created : Bool}
  {result : Except CatalogError (DatasetVersionResponse × Bool)}

theorem exists_row_of_register {packageId : String} {description : Option String} {tags : List String}
    (h : CatalogSem sha (.createDatasetVersion k packageId description tags) s (.ok created) s') :
    ∃ row, s'.db.getDatasetVersion k = some row ∧ row.packageId = packageId := by
  obtain ⟨i, hrun⟩ := h
  rcases CatalogInput.transact_cases hrun with ⟨a, db, -, hresult, -, rfl⟩ | ⟨⟨e, he, -⟩, -⟩
  · rcases CatalogDb.of_createDatasetVersion hresult with ⟨-, -, hget⟩ | ⟨-, rfl, existing, hrow, hsame⟩
    · exact ⟨_, by rw [hget, if_pos rfl], rfl⟩
    · exact ⟨existing, hrow, hsame⟩
  · cases he

theorem getDatasetVersion_of_exec {α : Type} {p q : CatalogProg α}
    (h : Exec (catalogSystem sha (OtherCalls sha)) p s t q s')
    (hrow : s.db.getDatasetVersion k = some row) :
    ∀ x ∈ t, x.before.db.getDatasetVersion k = some row := by
  induction h with
  | nil => exact List.forall_mem_nil _
  | own hsem _ ih =>
    exact List.forall_mem_cons.2 ⟨hrow, ih (CatalogSem.getDatasetVersion hsem hrow)⟩
  | env henv _ ih =>
    obtain ⟨a, hsem⟩ := henv
    exact List.forall_mem_cons.2 ⟨hrow, ih (CatalogSem.getDatasetVersion hsem hrow)⟩

/-- The caller is told what the transaction of its call has answered. -/
def ReportsTransaction (request : RegisterRequest) (t : List (RegistrationStep CatalogOp))
    (result : Except CatalogError (DatasetVersionResponse × Bool)) : Prop :=
  ∀ x ∈ t, ∀ answer, transactionAnswer request x = some answer → result.map Prod.snd = answer

/-- After a transaction that was committed, the reads of the response find what they have to. -/
def ResponseFound (request : RegisterRequest) (t : List (RegistrationStep CatalogOp)) : Prop :=
  ∀ before x after created, t = before ++ x :: after → transactionAnswer request x = some (.ok created) →
    ResponseFinds request.packageId (readStates after)

/-- A registration comes to an error without a transaction, or to one transaction. Its answer or another
error is reported. -/
def ReportsOnce (request : RegisterRequest) (t : List (RegistrationStep CatalogOp))
    (result : Except CatalogError (DatasetVersionResponse × Bool)) : Prop :=
  (t.filterMap (transactionAnswer request) = [] ∧ ∃ e, result = .error e) ∨
    ∃ answer, t.filterMap (transactionAnswer request) = [answer] ∧
      (result.map Prod.snd = answer ∨ ∃ e, result = .error e)

theorem eq_of_filterMap_transactionAnswer {before after before' after' : List (RegistrationStep CatalogOp)}
    {x x' : RegistrationStep CatalogOp} {answer : Except CatalogError Bool}
    (heq : before ++ x :: after = before' ++ x' :: after')
    (hbefore : before.filterMap (transactionAnswer request) = [])
    (hafter : after.filterMap (transactionAnswer request) = [])
    (hx' : transactionAnswer request x' = some answer) : x = x' ∧ after = after' := by
  rw [List.filterMap_eq_nil_iff] at hbefore hafter
  rcases List.append_eq_append_iff.1 heq with ⟨l, rfl, hl⟩ | ⟨l, rfl, hl⟩
  · cases l with
    | nil =>
      cases hl
      exact ⟨rfl, rfl⟩
    | cons y l =>
      cases hl
      cases (hafter x' (by simp)).symm.trans hx'
  · cases l with
    | nil =>
      cases hl
      exact ⟨rfl, rfl⟩
    | cons y l =>
      cases hl
      cases (hbefore x' (by simp)).symm.trans hx'

theorem reportsTransaction_iff {answer : Except CatalogError Bool}
    (h : t.filterMap (transactionAnswer request) = [answer]) :
    ReportsTransaction request t result ↔ result.map Prod.snd = answer := by
  constructor
  · intro hreports
    obtain ⟨x, hx, hanswer⟩ := List.mem_filterMap.1 (h ▸ List.mem_singleton_self answer)
    exact hreports x hx answer hanswer
  · intro hresult x hx answer' hanswer
    have hmem : answer' ∈ t.filterMap (transactionAnswer request) := List.mem_filterMap.2 ⟨x, hx, hanswer⟩
    rw [h, List.mem_singleton] at hmem
    rw [hmem, hresult]

theorem responseFound_of_forall_error
    (h : ∀ answer ∈ t.filterMap (transactionAnswer request), ∃ e, answer = .error e) :
    ResponseFound request t := by
  rintro before x after created rfl hx
  obtain ⟨e, he⟩ := h _ (List.mem_filterMap.2 ⟨x, List.mem_append_right _ List.mem_cons_self, hx⟩)
  cases he

/-- **What a registration reports** beside any other calls: nothing but its one transaction or an error,
and the transaction if and only if the response finds what it reads. -/
theorem registerVersion_reports
    (h : Exec (catalogSystem sha (OtherCalls sha)) (registerVersion sha request) s t (.pure result) s') :
    ReportsOnce request t result ∧
      (ReportsTransaction request t result ↔ ResponseFound request t) := by
  obtain ⟨answer, s₁, t₁, t₂, rfl, hcommit, hrest⟩ := Exec.of_bind_pure h
  have hreads {l : List (RegistrationStep CatalogOp)} (hl : ownSteps l = []) :
      l.filterMap (transactionAnswer request) = [] :=
    filterMap_transactionAnswer_of_ownSteps (by simp [hl])
  rcases exec_commitVersion hcommit with ⟨hnone, e, rfl⟩ | ⟨before, x, after, rfl, hx, hbefore, hafter⟩
  · obtain ⟨rfl, hown⟩ := hrest.ownSteps_of_pure
    have hall : (t₁ ++ t₂).filterMap (transactionAnswer request) = [] := by
      rw [List.filterMap_append, hnone, hreads hown, List.append_nil]
    refine ⟨.inl ⟨hall, e, rfl⟩, iff_of_true (fun x hx answer hanswer ↦ ?_) ?_⟩
    · cases (List.filterMap_eq_nil_iff.1 hall x hx).symm.trans hanswer
    · exact responseFound_of_forall_error (by simp [hall])
  have hone (hown : t₂.filterMap (transactionAnswer request) = []) :
      (before ++ x :: after ++ t₂).filterMap (transactionAnswer request) = [answer] := by
    rw [List.filterMap_append, List.filterMap_append, hbefore, List.filterMap_cons_some hx, hreads hafter,
      hown]
    rfl
  rcases answer with e | created
  · obtain ⟨rfl, hown⟩ := hrest.ownSteps_of_pure
    have hall := hone (hreads hown)
    refine ⟨.inr ⟨_, hall, .inl rfl⟩, iff_of_true ((reportsTransaction_iff hall).2 rfl) ?_⟩
    refine responseFound_of_forall_error fun answer hanswer ↦ ⟨e, ?_⟩
    rwa [hall, List.mem_singleton] at hanswer
  -- the version is there from the transaction on, so that the response reads its row
  have hperforms := performs_respondVersion sha (request.datasetName, request.version) created
  have hnone : t₂.filterMap (transactionAnswer request) = [] :=
    filterMap_transactionAnswer_of_ownSteps (hperforms.forall_ownSteps hrest)
  have hall := hone hnone
  obtain ⟨row, hrow, hpackage⟩ : ∃ row, x.after.db.getDatasetVersion (request.datasetName, request.version)
      = some row ∧ row.packageId = request.packageId := by
    obtain ⟨description, tags, hevent⟩ := exists_of_transactionAnswer hx
    exact exists_row_of_register (h.sem_of_mem (by simp) hevent)
  have hlater : ∀ y ∈ after ++ t₂,
      y.before.db.getDatasetVersion (request.datasetName, request.version) = some row := by
    rw [List.append_assoc, List.cons_append] at h
    obtain ⟨r, hlater⟩ := h.exists_of_append
    exact getDatasetVersion_of_exec hlater hrow
  have hrows : ∀ db ∈ readStates t₂, ∃ row, db.getDatasetVersion (request.datasetName, request.version) =
      some row ∧ row.packageId = request.packageId := by
    intro db hdb
    obtain ⟨y, hy, rfl⟩ := List.mem_map.1 hdb
    exact ⟨row, hlater y (List.mem_append_right _ (List.mem_of_mem_filter hy)), hpackage⟩
  obtain ⟨hends, hfinds⟩ := exec_respondVersion hrest hrows
  have hsame : result.map Prod.snd = .ok created ↔ ∃ response, result = .ok (response, created) := by
    rcases hends with ⟨e, rfl⟩ | ⟨response, rfl⟩
    · exact iff_of_false (by simp [Except.map]) (by simp)
    · exact iff_of_true rfl ⟨response, rfl⟩
  refine ⟨.inr ⟨_, hall, ?_⟩, ?_⟩
  · exact hends.symm.imp_left hsame.2
  rw [reportsTransaction_iff hall, hsame, hfinds]
  have hreadsAfter : readStates (after ++ t₂) = readStates t₂ := by
    rw [readStates_append, readStates_eq_nil hafter, List.nil_append]
  constructor
  · rintro hfound before' x' after' created' heq hx'
    rw [List.append_assoc, List.cons_append] at heq
    have hafter' : (after ++ t₂).filterMap (transactionAnswer request) = [] := by
      rw [List.filterMap_append, hreads hafter, hnone]
      rfl
    obtain ⟨-, rfl⟩ := eq_of_filterMap_transactionAnswer heq hbefore hafter' hx'
    rwa [hreadsAfter]
  · intro hfound
    have hfinds' := hfound before x (after ++ t₂) created (by simp) hx
    rwa [hreadsAfter] at hfinds'

end Reports

/-! ## The result -/

section Permanence

variable {Party : CatalogProg Unit → Prop} {ps qs : List (CatalogProg Unit)} {t : List CatalogStep}
  {s s' : CatalogState}

/-- **Version pointers are permanent.** A version that is there after some step is there with the same
row in every later state. Of the registrations of a version that is not there yet, exactly the first is
answered as created; the others are unchanged or fail, and change nothing. Beside any other calls a caller
is told what its one transaction has answered if and only if the response then finds what it reads: the
package, if it is there at the first read, is not taken out of the catalog before the second. -/
theorem versionPointers_permanent (h : CatalogRun sha Party ps s t qs s') :
    (∀ (t₁ t₂ : List CatalogStep) (x : CatalogStep) (k : String × String) (row : VersionRow),
      t = t₁ ++ x :: t₂ → x.after.db.getDatasetVersion k = some row →
        (∀ y ∈ t₂, y.after.db.getDatasetVersion k = some row) ∧
          s'.db.getDatasetVersion k = some row) ∧
    (∀ k : String × String, k.1 ∈ s.db.datasets.keys → s.db.getDatasetVersion k = none →
      (∃ x ∈ t, ∃ packageId answer, RegisterStep k packageId answer x) →
        ∃ t₁ x t₂ owner, t = t₁ ++ x :: t₂ ∧ RegisterStep k owner (.ok true) x ∧
          (∀ y ∈ t₁, ∀ packageId answer, ¬ RegisterStep k packageId answer y) ∧
          ∀ y ∈ t₂, ∀ packageId answer, RegisterStep k packageId answer y →
            y.after = y.before ∧ answer = if owner = packageId then .ok false
              else .error (.datasetVersionImmutable k.1 k.2 owner packageId)) ∧
    ∀ (request : RegisterRequest) (s s' : CatalogState) (t : List (RegistrationStep CatalogOp))
      (result : Except CatalogError (DatasetVersionResponse × Bool)),
      Exec (catalogSystem sha (OtherCalls sha)) (registerVersion sha request) s t (.pure result) s' →
        ReportsOnce request t result ∧
          (ReportsTransaction request t result ↔ ResponseFound request t) := by
  refine ⟨fun t₁ t₂ x k row ht hrow ↦ ?_, fun k hk hnone hsome ↦
    exists_first_registration h hk hnone hsome,
    fun request s s' t result hexec ↦ registerVersion_reports hexec⟩
  subst ht
  obtain ⟨ps', hrest⟩ := h.exists_of_append
  have hlater := getDatasetVersion_of_run hrest hrow
  exact ⟨fun y hy ↦ (hlater.1 y hy).2, hlater.2⟩

end Permanence

/-! ## A full rebuild beside registrations -/

/-- The registration that a step has performed: of which version, for which package, with which answer. -/
def registrationOf (x : CatalogStep) : Option ((String × String) × String × Except CatalogError Bool) :=
  match x with
  | ⟨_, .createDatasetVersion k packageId _ _, answer, _, _⟩ => some (k, packageId, answer)
  | _ => none

theorem registerStep_of_registrationOf {x : CatalogStep} {k : String × String} {packageId : String}
    {created : Bool} (h : registrationOf x = some (k, packageId, .ok created)) :
    RegisterStep k packageId (.ok created) x := by
  obtain ⟨thread, o, answer, before, after⟩ := x
  cases o with
  | createDatasetVersion k' packageId' description tags =>
    cases h
    exact ⟨.ok created, thread, description, tags, before, after, rfl⟩
  | _ => cases h

/-- A registration of `1.0.0` beside others, in these turns. -/
def registerWalksBeside (turns : List (Turn CatalogInput CatalogOp)) :
    Point CatalogOp CatalogOp.Ans CatalogState CatalogOp
      (Except CatalogError (DatasetVersionResponse × Bool)) :=
  simulate (fun i o s ↦ o.run (fun _ ↦ "") i s) (fun o s ↦ (o.run (fun _ ↦ "") quietCatalogInput s).2)
    turns (registerVersion (fun _ ↦ "") (registerWalks "1.0.0")) packagedState

theorem exec_registerWalksBeside (turns : List (Turn CatalogInput CatalogOp))
    {result : Except CatalogError (DatasetVersionResponse × Bool)}
    (hresult : (registerWalksBeside turns).rest.result? = some result) :
    Exec (catalogSystem (fun _ ↦ "") (OtherCalls fun _ ↦ ""))
      (registerVersion (fun _ ↦ "") (registerWalks "1.0.0")) packagedState
      (registerWalksBeside turns).history (.pure result) (registerWalksBeside turns).state := by
  have hexec : Exec (catalogSystem (fun _ ↦ "") (OtherCalls fun _ ↦ ""))
      (registerVersion (fun _ ↦ "") (registerWalks "1.0.0")) packagedState
      (registerWalksBeside turns).history (registerWalksBeside turns).rest
      (registerWalksBeside turns).state := by
    refine exec_simulate (fun i o s ↦ ?_) (fun o s ↦ ?_) turns _ packagedState
    · exact ⟨i, rfl⟩
    · exact ⟨_, quietCatalogInput, rfl⟩
  exact Prog.eq_pure_of_result? hresult ▸ hexec

/-- The turns of a registration beside a full rebuild that finds no manifests on disk. -/
def rebuildingAfter (n : ℕ) : List (Turn CatalogInput CatalogOp) :=
  List.replicate n (.own quietCatalogInput) ++ .env .rebuildIndex ::
    List.replicate (14 - n) (.own quietCatalogInput)

/-- What the caller is answered if the package is there when its response begins, and if it is not. -/
def walksResponse (found : Bool) : DatasetVersionResponse :=
  { datasetName := "walks", version := "1.0.0", packageId := "p1", description := none, tags := []
    status := "active", createdAt := ""
    packageStatus := if found then some "completed" else none
    sourceQcStatus := if found then some "passed" else none
    lineageFingerprint := if found then some "" else none
    effectiveStatus := "healthy", effectiveStatusReason := none }

/-- The rebuild takes the package out of the catalog after the response has found it: the version is
there, and nobody is told that it was created. -/
theorem registration_not_reported :
    ¬ ∀ (t : List (RegistrationStep CatalogOp)) (result : Except CatalogError (DatasetVersionResponse × Bool))
      (s' : CatalogState), Exec (catalogSystem (fun _ ↦ "") (OtherCalls fun _ ↦ ""))
        (registerVersion (fun _ ↦ "") (registerWalks "1.0.0")) packagedState t (.pure result) s' →
          ReportsTransaction (registerWalks "1.0.0") t result := by
  intro h
  have hexec := exec_registerWalksBeside (rebuildingAfter 8)
    (show _ = some (.error (.packageNotFound "p1")) by decide +kernel)
  obtain ⟨x, hx, hanswer⟩ : ∃ x ∈ (registerWalksBeside (rebuildingAfter 8)).history,
      transactionAnswer (registerWalks "1.0.0") x = some (.ok true) := by decide +kernel
  cases h _ _ _ hexec x hx _ hanswer

/-- The artifacts of a catalog with another package. -/
def twoPackages : Dict ArtifactKey ArtifactRow :=
  packagedDb.artifacts.set (packageKey "p2") acceptedPackage

theorem edges_registered_twoPackages : ∀ e ∈ packagedDb.lineageEdges, e.parent ∈ twoPackages.keys ∧
    e.child ∈ twoPackages.keys := List.forall_mem_nil _

/-- The catalog with another package. -/
def twoPackagesDb : CatalogDb :=
  { packagedDb with artifacts := twoPackages, edges_registered := edges_registered_twoPackages }

/-- Two registrations of one version for different packages beside a full rebuild. Both have passed the
gate when the second commits; then the rebuild clears the index, and only then the first goes on. -/
def twoRegistrations : List CatalogTurn :=
  [.start (registerVersion (fun _ ↦ "") (registerWalks "1.0.0")).discard,
    .start (registerVersion (fun _ ↦ "") { registerWalks "1.0.0" with packageId := "p2" }).discard,
    .start rebuild.discard] ++
    ([0, 1].flatMap fun thread ↦ List.replicate 5 (.act thread quietCatalogInput)) ++
    .act 1 quietCatalogInput :: List.replicate 19 (.act 2 quietCatalogInput) ++
    .act 0 quietCatalogInput :: List.replicate 8 (.act 1 quietCatalogInput)

/-- Where they lead to. -/
def registeredTwice : PoolPoint CatalogOp CatalogOp.Ans CatalogState :=
  simulateCatalog (fun _ ↦ "") twoRegistrations { packagedState with db := twoPackagesDb }

/-- The pointer to the package of the second survives the rebuild, and the first registration changes
nothing. A rebuild right after the transaction takes the package away before the response has found it,
and one after the package has been read twice comes too late. -/
theorem versionPointers_permanent_twoRegistrations :
    (∀ (t₁ t₂ : List CatalogStep) (x : CatalogStep) (row : VersionRow),
      registeredTwice.history = t₁ ++ x :: t₂ →
        x.after.db.getDatasetVersion ("walks", "1.0.0") = some row →
          registeredTwice.state.db.getDatasetVersion ("walks", "1.0.0") = some row) ∧
      registeredTwice.state.db.getDatasetVersion ("walks", "1.0.0") = some ⟨"p2", none, [], "active", ""⟩ ∧
      (∃ t₁ x t₂ owner, registeredTwice.history = t₁ ++ x :: t₂ ∧
        RegisterStep ("walks", "1.0.0") owner (.ok true) x ∧
        ∀ y ∈ t₂, ∀ packageId answer, RegisterStep ("walks", "1.0.0") packageId answer y →
          y.after = y.before) ∧
      ∀ n ∈ [6, 9],
        ResponseFound (registerWalks "1.0.0") (registerWalksBeside (rebuildingAfter n)).history := by
  have hrun : CatalogRun (fun _ ↦ "") (fun _ ↦ True) [] { packagedState with db := twoPackagesDb }
      registeredTwice.history registeredTwice.threads registeredTwice.state :=
    catalogRun_simulate (fun _ _ ↦ trivial) _
  obtain ⟨hstays, hfirst, hreports⟩ := versionPointers_permanent hrun
  refine ⟨fun t₁ t₂ x row ht hrow ↦ (hstays t₁ t₂ x _ row ht hrow).2, by decide +kernel, ?_, ?_⟩
  · obtain ⟨x, hx, hregistered⟩ : ∃ x ∈ registeredTwice.history,
        registrationOf x = some (("walks", "1.0.0"), "p2", .ok true) := by decide +kernel
    obtain ⟨t₁, y, t₂, owner, ht, hy, -, hrest⟩ := hfirst ("walks", "1.0.0") (by decide +kernel)
      (by decide +kernel) ⟨x, hx, "p2", _, registerStep_of_registrationOf hregistered⟩
    exact ⟨t₁, y, t₂, owner, ht, hy, fun z hz packageId answer hstep ↦
      (hrest z hz packageId answer hstep).1⟩
  · intro n hn
    rcases List.mem_pair.1 hn with rfl | rfl
    · have hexec := exec_registerWalksBeside (rebuildingAfter 6)
        (show _ = some (.ok (walksResponse false, true)) by decide +kernel)
      exact (hreports _ _ _ _ _ hexec).2.1 ((reportsTransaction_iff (by decide +kernel)).2 rfl)
    · have hexec := exec_registerWalksBeside (rebuildingAfter 9)
        (show _ = some (.ok (walksResponse true, true)) by decide +kernel)
      exact (hreports _ _ _ _ _ hexec).2.1 ((reportsTransaction_iff (by decide +kernel)).2 rfl)

end ForgeData
