import ForgeData.Catalog.DocumentedLineage
import ForgeData.Catalog.Operations
import ForgeData.Catalog.ScanConvergence

/-!
# What an operation can do to the tables

The only place where `CatalogOp.run` is unfolded for the tables. An operation leaves them as they are, or
it is one of seven transactions that was committed. What holds in every state of every run is proved by
going through these.
-/

namespace ForgeData

open Python Interleaving Graph

/-- The transactions that were committed, with the tables after them. -/
inductive Writes (db : CatalogDb) : CatalogOp → CatalogDb → Prop
  | changeGovernance {k : ArtifactKey} {request : CatalogDb.GovernanceRequest} {updatedAt : String}
      {db' : CatalogDb} : db.changeGovernance k request updatedAt = .ok db' →
      Writes db (.changeGovernance k request) db'
  | changeVersionGovernance {k : String × String} {newState reason' updatedAt : String}
      {reason actor : Option String} {db' : CatalogDb} :
      db.changeVersionGovernance k newState reason' actor updatedAt = .ok db' →
      Writes db (.changeVersionGovernance k newState reason actor) db'
  | markSuperseded (k : ArtifactKey) (previousState : GovernanceState) (newId updatedAt : String) :
      Writes db (.markSuperseded k previousState newId)
        (db.setArtifactGovernance k previousState (CatalogDb.supersededRow k newId updatedAt))
  | createDataset (datasetName : String) (description : Option String) (metadata : Json)
      (createdAt : String) :
      Writes db (.createDataset datasetName description metadata)
        (db.createDataset datasetName ⟨description, metadata.canonical, createdAt⟩).2
  | createDatasetVersion {k : String × String} {packageId createdAt : String}
      {description : Option String} {tags : List String} {created : Bool} {db' : CatalogDb} :
      db.createDatasetVersion k ⟨packageId, description, tags, "active", createdAt⟩
        = .ok (created, db') →
      Writes db (.createDatasetVersion k packageId description tags) db'
  | scan {clock : ScanClock} {files : Files} {st : ScanState} :
      db.scan false clock files = .ok st →
      Writes db .scan (st.db.setMetadata "last_scan_at" clock.finishedAt)
  | rebuildIndex {clock : ScanClock} {files : Files} {st : ScanState} :
      db.clearArtifactIndex.scan true clock files = .ok st →
      Writes db .rebuildIndex (st.db.setMetadata "last_scan_at" clock.finishedAt)

namespace CatalogInput

variable {α : Type} {i : CatalogInput} {s s' : CatalogState}
  {result : Except CatalogError (α × CatalogDb)} {answer : Except CatalogError α}

/-- **What a transaction does**: it is committed, or it answers with an error and changes nothing. -/
theorem transact_cases (h : i.transact s result = (answer, s')) :
    (∃ a db, i.refusal = none ∧ result = .ok (a, db) ∧ answer = .ok a ∧ s' = { s with db }) ∨
      (∃ e, answer = .error e ∧ (i.refusal = some e ∨ i.refusal = none ∧ result = .error e)) ∧
        s' = s := by
  rw [transact.eq_def] at h
  split at h
  · next e hrefusal =>
    cases h
    exact .inr ⟨⟨e, rfl, .inl hrefusal⟩, rfl⟩
  · next e hrefusal =>
    cases h
    exact .inr ⟨⟨e, rfl, .inr ⟨hrefusal, rfl⟩⟩, rfl⟩
  · next a db hrefusal =>
    cases h
    exact .inl ⟨a, db, hrefusal, rfl, rfl, rfl⟩

end CatalogInput

variable {sha : Json → String} {o : CatalogOp} {s s' : CatalogState}

/-- **What an operation can do to the tables.** -/
theorem CatalogSem.writes {a : o.Ans} (h : CatalogSem sha o s a s') :
    s'.db = s.db ∨ Writes s.db o s'.db := by
  obtain ⟨i, hrun⟩ := h
  cases o with
  | changeGovernance k request =>
    simp only [CatalogOp.run] at hrun
    split at hrun
    · cases hrun
      exact .inl rfl
    -- either the transaction was committed, or it was rolled back and nothing was written
    · rcases CatalogInput.transact_cases hrun with ⟨_, db, -, hresult, -, rfl⟩ | ⟨-, rfl⟩
      · rcases hchange : s.db.changeGovernance k request i.now with e | db'
        · rw [hchange] at hresult
          cases hresult
        · rw [hchange] at hresult
          cases hresult
          exact .inr (.changeGovernance hchange)
      · exact .inl rfl
  | changeVersionGovernance k newState reason actor =>
    simp only [CatalogOp.run] at hrun
    split at hrun
    · cases hrun
      exact .inl rfl
    · next reason' _ =>
      rcases CatalogInput.transact_cases hrun with ⟨_, db, -, hresult, -, rfl⟩ | ⟨-, rfl⟩
      · rcases hchange : s.db.changeVersionGovernance k newState reason' actor i.now with e | db'
        · rw [hchange] at hresult
          cases hresult
        · rw [hchange] at hresult
          cases hresult
          exact .inr (.changeVersionGovernance hchange)
      · exact .inl rfl
  | markSuperseded k previousState newId =>
    rcases CatalogInput.transact_cases hrun with ⟨_, db, -, hresult, -, rfl⟩ | ⟨-, rfl⟩
    · cases hresult
      exact .inr (.markSuperseded k previousState newId i.now)
    · exact .inl rfl
  | createDataset datasetName description metadata =>
    rcases CatalogInput.transact_cases hrun with ⟨_, db, -, hresult, -, rfl⟩ | ⟨-, rfl⟩
    · have hdb : (s.db.createDataset datasetName ⟨description, metadata.canonical, i.now⟩).2 = db :=
        congrArg Prod.snd (Except.ok.inj hresult)
      exact .inr (hdb ▸ .createDataset datasetName description metadata i.now)
    · exact .inl rfl
  | createDatasetVersion k packageId description tags =>
    rcases CatalogInput.transact_cases hrun with ⟨_, db, -, hresult, -, rfl⟩ | ⟨-, rfl⟩
    · exact .inr (.createDatasetVersion hresult)
    · exact .inl rfl
  -- a scan that raises leaves the tables; so does one that finds the index locked
  | scan =>
    simp only [CatalogOp.run] at hrun
    split at hrun
    · cases hrun
      exact .inl rfl
    · cases hrun
      simp only [CatalogDb.scanCatalog]
      split
      · exact .inl rfl
      · next st hst => exact .inr (.scan hst)
  | rebuildIndex =>
    simp only [CatalogOp.run] at hrun
    split at hrun
    · cases hrun
      exact .inl rfl
    · cases hrun
      simp only [CatalogDb.rebuildIndex]
      split
      · exact .inl rfl
      · next st hst => exact .inr (.rebuildIndex hst)
  -- only the rows of the locks are touched here
  | acquireIndexLock | acquireRebuildLock =>
    simp only [CatalogOp.run] at hrun
    split at hrun
    · cases hrun
      exact .inl rfl
    · split at hrun <;> cases hrun <;> exact .inl rfl
  | _ =>
    cases hrun
    exact .inl rfl

/-! ## Which tables are written -/

theorem CatalogDb.of_changeVersionGovernance {db db' : CatalogDb} {k : String × String}
    {newState reason updatedAt : String} {actor : Option String}
    (h : db.changeVersionGovernance k newState reason actor updatedAt = .ok db') :
    ∃ previous row hk, db' = db.setDatasetVersionGovernance k previous row hk := by
  rw [changeVersionGovernance] at h
  split at h
  · next hk =>
    simp only at h
    split at h
    · cases h
    · cases h
      exact ⟨_, _, hk, rfl⟩
  · cases h

/-- The operations that may write artifacts and edges. -/
def CatalogOp.WritesIndex : CatalogOp → Prop
  | scan | rebuildIndex => True
  | _ => False

/-- **What a transaction does to the index**: it leaves artifacts and edges as they are, or it scans
into the index or into an empty one. -/
theorem Writes.index {db db' : CatalogDb} (h : Writes db o db') :
    (db'.artifacts = db.artifacts ∧ db'.lineageEdges = db.lineageEdges) ∨ o.WritesIndex ∧
      ∃ (start : CatalogDb) (strict : Bool) (clock : ScanClock) (files : Files) (st : ScanState),
        (start = db ∨ start = db.clearArtifactIndex) ∧ start.scan strict clock files = .ok st ∧
          db'.artifacts = st.db.artifacts ∧ db'.lineageEdges = st.db.lineageEdges := by
  cases h with
  | changeGovernance h =>
    obtain ⟨-, state, reason, -, rfl⟩ := CatalogDb.of_changeGovernance h
    exact .inl ⟨rfl, rfl⟩
  | changeVersionGovernance h =>
    obtain ⟨previous, row, hk, rfl⟩ := CatalogDb.of_changeVersionGovernance h
    exact .inl ⟨rfl, rfl⟩
  | markSuperseded => exact .inl ⟨rfl, rfl⟩
  | createDataset datasetName description metadata createdAt =>
    rw [CatalogDb.createDataset]
    split <;> exact .inl ⟨rfl, rfl⟩
  | createDatasetVersion h =>
    rw [CatalogDb.createDatasetVersion] at h
    split at h
    · split at h
      · cases h
        exact .inl ⟨rfl, rfl⟩
      · cases h
    · split at h
      · cases h
        exact .inl ⟨rfl, rfl⟩
      · cases h
  | scan h => exact .inr ⟨trivial, db, false, _, _, _, .inl rfl, h, rfl, rfl⟩
  | rebuildIndex h => exact .inr ⟨trivial, _, true, _, _, _, .inr rfl, h, rfl, rfl⟩

/-- **What a transaction does to the governance of artifacts**: nothing, unless it changes the state of
an artifact or marks one as superseded. -/
theorem Writes.governance {db db' : CatalogDb} (h : Writes db o db') :
    (db'.artifactGovernance = db.artifactGovernance ∧
        db'.artifactGovernanceEvents = db.artifactGovernanceEvents) ∨
      (∃ k request row, o = .changeGovernance k request ∧ row.state.text = request.newState ∧
        db' = db.setArtifactGovernance k (db.governanceState k) row) ∨
      ∃ k previousState newId updatedAt, o = .markSuperseded k previousState newId ∧
        db' = db.setArtifactGovernance k previousState
          (CatalogDb.supersededRow k newId updatedAt) := by
  cases h with
  | changeGovernance h =>
    obtain ⟨-, state, reason, hstate, rfl⟩ := CatalogDb.of_changeGovernance h
    exact .inr (.inl ⟨_, _, _, rfl, hstate, rfl⟩)
  | changeVersionGovernance h =>
    obtain ⟨previous, row, hk, rfl⟩ := CatalogDb.of_changeVersionGovernance h
    exact .inl ⟨rfl, rfl⟩
  | markSuperseded => exact .inr (.inr ⟨_, _, _, _, rfl, rfl⟩)
  | createDataset datasetName description metadata createdAt =>
    rw [CatalogDb.createDataset]
    split <;> exact .inl ⟨rfl, rfl⟩
  | createDatasetVersion h =>
    rw [CatalogDb.createDatasetVersion] at h
    split at h
    · split at h
      · cases h
        exact .inl ⟨rfl, rfl⟩
      · cases h
    · split at h
      · cases h
        exact .inl ⟨rfl, rfl⟩
      · cases h
  | scan h =>
    have htables := (CatalogDb.scanned_of_scan h).tables
    exact .inl ⟨htables.artifactGovernance, htables.artifactGovernanceEvents⟩
  | rebuildIndex h =>
    have htables := (CatalogDb.scanned_of_scan h).tables
    exact .inl ⟨htables.artifactGovernance, htables.artifactGovernanceEvents⟩

theorem CatalogSem.of_markSuperseded {k : ArtifactKey} {previousState : GovernanceState}
    {newId : String} {a : Except CatalogError Unit}
    (h : CatalogSem sha (.markSuperseded k previousState newId) s a s') :
    (a = .ok () ∧ ∃ updatedAt, s' = { s with
        db := s.db.setArtifactGovernance k previousState
          (CatalogDb.supersededRow k newId updatedAt) }) ∨
      (∃ e, a = .error e) ∧ s' = s := by
  obtain ⟨i, hrun⟩ := h
  rcases CatalogInput.transact_cases hrun with ⟨_, db, -, hresult, rfl, rfl⟩ | ⟨⟨e, rfl, -⟩, rfl⟩
  · cases hresult
    exact .inl ⟨rfl, i.now, rfl⟩
  · exact .inr ⟨⟨e, rfl⟩, rfl⟩

/-- The artifact whose supersession is written by an operation with this answer. -/
def CatalogOp.marked : (o : CatalogOp) → o.Ans → Option ArtifactKey
  | .markSuperseded k _ _, .ok () => some k
  | _, _ => none

/-- The artifact that is to be made again, and the request to its stage service. -/
def CatalogOp.attempted : CatalogOp → Option (ArtifactKey × StageRequest)
  | .runStage k request => some (k, request)
  | _ => none

/-- The artifact that was made again, and the id that its stage service has returned. -/
def CatalogOp.made : (o : CatalogOp) → o.Ans → Option (ArtifactKey × String)
  | .runStage k _, .ok id => some (k, id)
  | _, _ => none

/-- The artifact whose supersession is refused by an operation with this answer. -/
def CatalogOp.refusedMark : (o : CatalogOp) → o.Ans → Option ArtifactKey
  | .markSuperseded k _ _, .error _ => some k
  | _, _ => none

/-- The artifact whose supersession the step has written. -/
def markedBy (x : CatalogStep) : Option ArtifactKey := x.op.marked x.ans

theorem exists_of_markedBy {x : CatalogStep} {k : ArtifactKey} (h : k ∈ markedBy x) :
    ∃ i previousState newId s s', x = ⟨i, .markSuperseded k previousState newId, .ok (), s, s'⟩ := by
  obtain ⟨i, o, a, s, s'⟩ := x
  cases o with
  | markSuperseded k' previousState newId =>
    cases a with
    | error e => cases h
    | ok =>
      cases h
      exact ⟨i, previousState, newId, s, s', rfl⟩
  | _ => cases h

theorem CatalogSem.index_eq {a : o.Ans} (h : CatalogSem sha o s a s') (ho : ¬ o.WritesIndex) :
    s'.db.artifacts = s.db.artifacts ∧ s'.db.lineageEdges = s.db.lineageEdges := by
  rcases h.writes with hdb | hwrites
  · rw [hdb]
    exact ⟨rfl, rfl⟩
  · exact hwrites.index.resolve_right fun hscan ↦ ho hscan.1

end ForgeData
