import ForgeData.Catalog.Registration
import ForgeData.Catalog.Writes

/-!
# Version pointers are permanent

A dataset version points to a package. No transaction takes a row out of the table of versions or
changes one, so whatever the callers do and in whatever order, a pointer that is there stays. Of the
registrations of one version the first that is carried out creates it; a later one for the same package
finds it there, and one for another package fails and changes nothing.
-/

namespace ForgeData

open Python Interleaving

/-! ## The table of versions -/

namespace CatalogDb

variable {db db' : CatalogDb} {k : String × String} {row : VersionRow} {created : Bool}

/-- **What inserting a version does.** -/
theorem of_createDatasetVersion (h : db.createDatasetVersion k row = .ok (created, db')) :
    (created = true ∧ db.getDatasetVersion k = none ∧
        ∀ k', db'.getDatasetVersion k' = if k' = k then some row else db.getDatasetVersion k') ∨
      created = false ∧ db' = db ∧
        ∃ existing, db.getDatasetVersion k = some existing ∧ existing.packageId = row.packageId := by
  rw [createDatasetVersion] at h
  split at h
  · next existing hexisting =>
    split at h
    · next hsame =>
      cases h
      exact .inr ⟨rfl, rfl, existing, hexisting, hsame⟩
    · cases h
  · next hnone =>
    split at h
    · cases h
      exact .inl ⟨rfl, hnone, fun k' ↦ Dict.get?_set _ _ _ _⟩
    · cases h

theorem createDatasetVersion_eq (row : VersionRow) (hk : k.1 ∈ db.datasets.keys) :
    (db.getDatasetVersion k = none ∧ ∃ db', db.createDatasetVersion k row = .ok (true, db')) ∨
      ∃ existing, db.getDatasetVersion k = some existing ∧ db.createDatasetVersion k row =
        if existing.packageId = row.packageId then .ok (false, db)
        else .error (.datasetVersionImmutable k.1 k.2 existing.packageId row.packageId) := by
  rw [createDatasetVersion]
  split
  · next existing hexisting => exact .inr ⟨existing, hexisting, rfl⟩
  · next hnone =>
    rw [dif_pos hk]
    exact .inl ⟨hnone, _, rfl⟩

end CatalogDb

namespace Writes

variable {db db' : CatalogDb} {o : CatalogOp}

/-- Only a registration changes the table of versions. -/
theorem datasetVersions (h : Writes db o db') : db'.datasetVersions = db.datasetVersions ∨
    ∃ k packageId description tags createdAt created,
      o = .createDatasetVersion k packageId description tags ∧
      db.createDatasetVersion k ⟨packageId, description, tags, "active", createdAt⟩
        = .ok (created, db') := by
  cases h with
  | changeGovernance h =>
    obtain ⟨-, state, reason, -, rfl⟩ := CatalogDb.of_changeGovernance h
    exact .inl rfl
  | changeVersionGovernance h =>
    obtain ⟨previous, row, hk, rfl⟩ := CatalogDb.of_changeVersionGovernance h
    exact .inl rfl
  | markSuperseded => exact .inl rfl
  | createDataset datasetName description metadata createdAt =>
    rw [CatalogDb.createDataset]
    split <;> exact .inl rfl
  | createDatasetVersion h => exact .inr ⟨_, _, _, _, _, _, rfl, h⟩
  | scan h => exact .inl (CatalogDb.scanned_of_scan h).tables.datasetVersions
  | rebuildIndex h => exact .inl (CatalogDb.scanned_of_scan h).tables.datasetVersions

/-- No dataset is removed. -/
theorem mem_datasets (h : Writes db o db') {datasetName : String}
    (hmem : datasetName ∈ db.datasets.keys) : datasetName ∈ db'.datasets.keys := by
  cases h with
  | changeGovernance h =>
    obtain ⟨-, state, reason, -, rfl⟩ := CatalogDb.of_changeGovernance h
    exact hmem
  | changeVersionGovernance h =>
    obtain ⟨previous, row, hk, rfl⟩ := CatalogDb.of_changeVersionGovernance h
    exact hmem
  | markSuperseded => exact hmem
  | createDataset =>
    rw [CatalogDb.createDataset]
    split
    · exact hmem
    · rw [Dict.keys_set]
      split
      · exact hmem
      · exact List.mem_append_left _ hmem
  | createDatasetVersion h =>
    rw [CatalogDb.createDatasetVersion] at h
    split at h
    · split at h
      · cases h
        exact hmem
      · cases h
    · split at h
      · cases h
        exact hmem
      · cases h
  | scan h =>
    have hdatasets := (CatalogDb.scanned_of_scan h).tables.datasets
    exact hdatasets ▸ hmem
  | rebuildIndex h =>
    have hdatasets := (CatalogDb.scanned_of_scan h).tables.datasets
    exact hdatasets ▸ hmem

/-- **No row of a version is removed or changed.** -/
theorem getDatasetVersion (h : Writes db o db') {k : String × String} {row : VersionRow}
    (hrow : db.getDatasetVersion k = some row) : db'.getDatasetVersion k = some row := by
  rcases h.datasetVersions with heq | ⟨k', packageId, description, tags, createdAt, created, -, hk'⟩
  · rwa [CatalogDb.getDatasetVersion, heq]
  · rcases CatalogDb.of_createDatasetVersion hk' with ⟨-, hnone, hget⟩ | ⟨-, rfl, -⟩
    · rw [hget, if_neg, hrow]
      rintro rfl
      rw [hnone] at hrow
      cases hrow
    · exact hrow

end Writes

/-! ## Steps -/

variable {sha : Json → String} {o : CatalogOp} {s s' : CatalogState} {k : String × String}
  {packageId : String} {description : Option String} {tags : List String} {row : VersionRow}

theorem CatalogSem.getDatasetVersion {a : o.Ans} (h : CatalogSem sha o s a s')
    (hrow : s.db.getDatasetVersion k = some row) : s'.db.getDatasetVersion k = some row := by
  rcases h.writes with hdb | hwrites
  · rwa [hdb]
  · exact hwrites.getDatasetVersion hrow

theorem CatalogSem.mem_datasets {a : o.Ans} (h : CatalogSem sha o s a s') {datasetName : String}
    (hmem : datasetName ∈ s.db.datasets.keys) : datasetName ∈ s'.db.datasets.keys := by
  rcases h.writes with hdb | hwrites
  · rwa [hdb]
  · exact hwrites.mem_datasets hmem

/-- The answer says that the registration was carried out, or rejected by the catalog itself. -/
def Decided (answer : Except CatalogError Bool) : Prop := ∀ e, answer = .error e → ¬ e.IsRefusal

theorem Decided.ok (created : Bool) : Decided (.ok created) := by
  intro e he
  cases he

/-- **What a registration answers**, for a dataset that exists: the version is created, or was there
already, or points to another package. -/
theorem of_register {answer : Except CatalogError Bool}
    (h : CatalogSem sha (.createDatasetVersion k packageId description tags) s answer s')
    (hk : k.1 ∈ s.db.datasets.keys) (hanswer : Decided answer) :
    (s.db.getDatasetVersion k = none ∧ answer = .ok true ∧
        ∃ row, s'.db.getDatasetVersion k = some row ∧ row.packageId = packageId) ∨
      ∃ existing, s.db.getDatasetVersion k = some existing ∧ s' = s ∧ answer =
        if existing.packageId = packageId then .ok false
        else .error (.datasetVersionImmutable k.1 k.2 existing.packageId packageId) := by
  obtain ⟨i, hrun⟩ := h
  have heq := s.db.createDatasetVersion_eq ⟨packageId, description, tags, "active", i.now⟩ hk
  rcases CatalogInput.transact_cases hrun with
    ⟨a, db, -, hresult, rfl, rfl⟩ | ⟨⟨e, rfl, hrefused | ⟨-, hresult⟩⟩, rfl⟩
  · rcases heq with ⟨hnone, db', hdb'⟩ | ⟨existing, hexisting, hdb'⟩
    · rw [hdb'] at hresult
      cases hresult
      rcases CatalogDb.of_createDatasetVersion hdb' with ⟨-, -, hget⟩ | ⟨h, -⟩
      · exact .inl ⟨hnone, rfl, _, by rw [hget, if_pos rfl], rfl⟩
      · cases h
    · rw [hdb'] at hresult
      refine .inr ⟨existing, hexisting, ?_⟩
      split at hresult
      · next hsame =>
        cases hresult
        exact ⟨rfl, by rw [if_pos hsame]⟩
      · cases hresult
  · exact (hanswer e rfl (i.isRefusal e hrefused)).elim
  · rcases heq with ⟨hnone, db', hdb'⟩ | ⟨existing, hexisting, hdb'⟩
    · rw [hdb'] at hresult
      cases hresult
    · rw [hdb'] at hresult
      refine .inr ⟨existing, hexisting, rfl, ?_⟩
      split at hresult
      · cases hresult
      · next hother =>
        cases hresult
        rw [if_neg hother]

theorem eq_of_register_error {e : CatalogError}
    (h : CatalogSem sha (.createDatasetVersion k packageId description tags) s (.error e) s') :
    s' = s := by
  obtain ⟨i, hrun⟩ := h
  rcases CatalogInput.transact_cases hrun with ⟨a, db, -, -, hanswer, -⟩ | ⟨-, hs⟩
  · cases hanswer
  · exact hs

/-! ## Runs -/

/-- The step is a registration of the version for the package, with an answer of the catalog. -/
def RegisterStep (k : String × String) (packageId : String) (answer : Except CatalogError Bool)
    (x : CatalogStep) : Prop :=
  Decided answer ∧ ∃ thread description tags before after,
    x = ⟨thread, .createDatasetVersion k packageId description tags, answer, before, after⟩

/-- The step is a registration of a version that points to the package `owner` already: it changes
nothing, and it is unchanged or fails. -/
def RepeatedRegistration (k : String × String) (owner packageId : String)
    (answer : Except CatalogError Bool) (x : CatalogStep) : Prop :=
  x.after = x.before ∧ answer =
    if owner = packageId then .ok false
    else .error (.datasetVersionImmutable k.1 k.2 owner packageId)

variable {Party : CatalogProg Unit → Prop} {ps qs : List (CatalogProg Unit)} {t : List CatalogStep}

/-- **Pointers stay**, in every state after one in which they are there. -/
theorem getDatasetVersion_of_run (h : CatalogRun sha Party ps s t qs s')
    (hrow : s.db.getDatasetVersion k = some row) :
    (∀ x ∈ t, x.before.db.getDatasetVersion k = some row ∧
        x.after.db.getDatasetVersion k = some row) ∧
      s'.db.getDatasetVersion k = some row := by
  have hstep : ∀ x ∈ t, x.before.db.getDatasetVersion k = some row →
      x.after.db.getDatasetVersion k = some row := fun x hx ↦ (h.sem_of_mem x hx).getDatasetVersion
  have hafter := h.invariant (J := fun s ↦ s.db.getDatasetVersion k = some row) hstep hrow
  have hbefore := h.invariant_before (J := fun s ↦ s.db.getDatasetVersion k = some row) hstep hrow
  exact ⟨fun x hx ↦ ⟨hbefore x hx, hafter.2 x hx⟩, hafter.1⟩

theorem mem_datasets_of_run (h : CatalogRun sha Party ps s t qs s') {datasetName : String}
    (hmem : datasetName ∈ s.db.datasets.keys) :
    ∀ x ∈ t, datasetName ∈ x.before.db.datasets.keys :=
  h.invariant_before (J := fun s ↦ datasetName ∈ s.db.datasets.keys)
    (fun x hx ↦ (h.sem_of_mem x hx).mem_datasets) hmem

theorem repeatedRegistration_of_run (h : CatalogRun sha Party ps s t qs s')
    (hk : k.1 ∈ s.db.datasets.keys) (hrow : s.db.getDatasetVersion k = some row) {x : CatalogStep}
    (hx : x ∈ t) {answer : Except CatalogError Bool} (hstep : RegisterStep k packageId answer x) :
    RepeatedRegistration k row.packageId packageId answer x := by
  have hbefore := ((getDatasetVersion_of_run h hrow).1 x hx).1
  have hdataset := mem_datasets_of_run h hk x hx
  have hsem := h.sem_of_mem x hx
  obtain ⟨hdecided, thread, description, tags, before, after, rfl⟩ := hstep
  rcases of_register hsem hdataset hdecided with ⟨hnone, -⟩ | ⟨existing, hexisting, heq, hanswer⟩
  · rw [hbefore] at hnone
    cases hnone
  · rw [hbefore] at hexisting
    cases hexisting
    exact ⟨heq, hanswer⟩

/-- **The first registration of a version creates it**, and those after it repeat. -/
theorem exists_first_registration (h : CatalogRun sha Party ps s t qs s')
    (hk : k.1 ∈ s.db.datasets.keys) (hnone : s.db.getDatasetVersion k = none)
    (hsome : ∃ x ∈ t, ∃ packageId answer, RegisterStep k packageId answer x) :
    ∃ t₁ x t₂ owner, t = t₁ ++ x :: t₂ ∧ RegisterStep k owner (.ok true) x ∧
      (∀ y ∈ t₁, ∀ packageId answer, ¬ RegisterStep k packageId answer y) ∧
      ∀ y ∈ t₂, ∀ packageId answer, RegisterStep k packageId answer y →
        RepeatedRegistration k owner packageId answer y := by
  induction h with
  | nil =>
    obtain ⟨x, hx, -⟩ := hsome
    cases hx
  | start _ _ ih => exact ih hk hnone hsome
  | @step i o _ a ps qs s s₁ s' t _ hsem hrest ih =>
    have hk₁ := CatalogSem.mem_datasets hsem hk
    -- either this step registers the version, or it is not there after the step either
    by_cases hfirst : ∃ owner answer, RegisterStep k owner answer ⟨i, o, a, s, s₁⟩
    · obtain ⟨owner, answer, hstep⟩ := hfirst
      refine ⟨[], ⟨i, o, a, s, s₁⟩, t, owner, rfl, ?_, List.forall_mem_nil _,
        fun y hy packageId answer' hy' ↦ ?_⟩ <;>
        obtain ⟨hdecided, thread, description, tags, before, after, heq⟩ := hstep <;>
        cases heq <;>
        rcases of_register hsem hk hdecided with
          ⟨-, hanswer, row, hrow, howner⟩ | ⟨existing, hexisting, -⟩
      · exact ⟨hanswer ▸ hdecided, i, description, tags, s, s₁, by rw [hanswer]⟩
      · rw [hnone] at hexisting
        cases hexisting
      · exact howner ▸ repeatedRegistration_of_run hrest hk₁ hrow hy hy'
      · rw [hnone] at hexisting
        cases hexisting
    · have hnone₁ : s₁.db.getDatasetVersion k = none := by
        rcases CatalogSem.writes hsem with hdb | hwrites
        · rwa [hdb]
        -- only a registration writes this table, and that of another version adds another row
        · rcases hwrites.datasetVersions with
            heq | ⟨k', packageId, description, tags, createdAt, created, rfl, hk'⟩
          · rwa [CatalogDb.getDatasetVersion, heq]
          · rcases a with e | answer
            · rwa [eq_of_register_error hsem]
            · have hne : k ≠ k' := by
                rintro rfl
                exact hfirst ⟨packageId, .ok answer, .ok answer, i, description, tags, s, s₁, rfl⟩
              rcases CatalogDb.of_createDatasetVersion hk' with ⟨-, -, hget⟩ | ⟨-, heq, -⟩
              · rwa [hget, if_neg hne]
              · rwa [heq]
      have hsome₁ : ∃ x ∈ t, ∃ packageId answer, RegisterStep k packageId answer x := by
        obtain ⟨x, hx, hrest⟩ := hsome
        rcases List.mem_cons.1 hx with rfl | hx
        · exact (hfirst hrest).elim
        · exact ⟨x, hx, hrest⟩
      obtain ⟨t₁, x, t₂, owner, rfl, hx, hbefore, hafter⟩ := ih hk₁ hnone₁ hsome₁
      refine ⟨⟨i, o, a, s, s₁⟩ :: t₁, x, t₂, owner, rfl, hx,
        List.forall_mem_cons.2 ⟨fun packageId answer hstep ↦ ?_, hbefore⟩, hafter⟩
      exact hfirst ⟨packageId, answer, hstep⟩

end ForgeData
