import ForgeData.Catalog.Governance
import ForgeData.Catalog.RebuildPlanner
import ForgeData.Catalog.Scanner
import ForgeData.Catalog.StageRequests
import ForgeData.Interleaving.Pool
import ForgeData.Runs.Repository

/-!
# The atomic operations of the catalog

The tables are read by single statements and written by `BEGIN IMMEDIATE` transactions, so every access
happens at one point in time. A traversal of the lineage graph and a planning pass read several rows
without a transaction; each is taken as one read here. Beside the tables there are the plans that the
process keeps in memory and the two kinds of lock files.

What an operation draws from outside is a `CatalogInput`: the clock, fresh identifiers, the manifests on
disk, the error with which the database or the file system refuses to proceed, and how the stage services
end. The stage services write their own stores; the catalog learns of it by the next scan.
-/

namespace ForgeData

open Python Interleaving

/-- The tables whose rows a full rebuild counts before and after. -/
inductive UserTable where
  | datasets
  | datasetVersions
  | artifactGovernance
  | versionGovernance
  | pipelineRuns
  | pipelineStageRuns
  | runArtifacts
  | runEvents
  deriving DecidableEq, Repr

inductive CatalogOp where
  | getArtifact (k : ArtifactKey)
  | getArtifactGovernance (k : ArtifactKey)
  /-- The artifacts that `traverse` finds upstream, without the root. -/
  | ancestors (k : ArtifactKey)
  /-- The nodes that `traverse` finds upstream, with their rows. -/
  | upstream (k : ArtifactKey)
  | getDataset (datasetName : String)
  | getDatasetVersion (k : String × String)
  | getDatasetVersionGovernance (k : String × String)
  | count (table : UserTable)
  /-- The transaction of `set_artifact_governance`. -/
  | changeGovernance (k : ArtifactKey) (request : CatalogDb.GovernanceRequest)
  /-- The transaction of `set_dataset_version_governance`. -/
  | changeVersionGovernance (k : String × String) (newState : String) (reason actor : Option String)
  /-- The transaction of `_mark_superseded`, with the state that was read before it. -/
  | markSuperseded (k : ArtifactKey) (previousState : GovernanceState) (newId : String)
  | createDataset (datasetName : String) (description : Option String) (metadata : Json)
  /-- The transaction of `register_version`. -/
  | createDatasetVersion (k : String × String) (packageId : String) (description : Option String)
      (tags : List String)
  | scan
  | acquireIndexLock
  | rebuildIndex
  | releaseIndexLock
  | buildPlan (old new : ArtifactKey)
  | storePlan (plan : RebuildPlan)
  | getPlan (planId : String)
  | discardPlan (planId : String)
  | acquireRebuildLock (old : ArtifactKey)
  | releaseRebuildLock (old : ArtifactKey)
  /-- A stage service is called to make an artifact again. -/
  | runStage (k : ArtifactKey) (request : StageRequest)
  deriving DecidableEq

/-- What an operation answers. -/
@[reducible] def CatalogOp.Ans : CatalogOp → Type
  | getArtifact _ => Option ArtifactRow
  | getArtifactGovernance _ => Option GovernanceRow
  | ancestors _ => List ArtifactKey
  | upstream _ => List (ArtifactKey × ArtifactRow)
  | getDataset _ => Option DatasetRow
  | getDatasetVersion _ => Option VersionRow
  | getDatasetVersionGovernance _ => Option VersionGovernanceRow
  | count _ => ℕ
  | createDataset .. | createDatasetVersion .. => Except CatalogError Bool
  | scan | rebuildIndex => Except CatalogError ScanOutcome
  | buildPlan .. => Except CatalogError RebuildPlan
  | getPlan _ => Option RebuildPlan
  | storePlan _ => String
  | runStage .. => Except CatalogError String
  | releaseIndexLock | discardPlan _ | releaseRebuildLock _ => Unit
  | _ => Except CatalogError Unit

/-- What the callers of the catalog share. -/
structure CatalogState where
  db : CatalogDb
  /-- The run tables, which are in the same database. -/
  runs : RunDb
  /-- `_plans`. -/
  plans : Dict String RebuildPlan
  /-- Whether the lock file of the full rebuild is locked. -/
  indexLocked : Bool
  /-- The artifacts whose lock file of the selective rebuild is locked. -/
  rebuildLocks : List ArtifactKey

/-- What one operation draws from outside. -/
structure CatalogInput where
  now : String
  /-- The result of `uuid4().hex`. -/
  fresh : String
  clock : ScanClock
  files : Files
  /-- The error with which a transaction or a lock file is refused: nothing is done then. -/
  refusal : Option CatalogError
  isRefusal : ∀ e ∈ refusal, e.IsRefusal
  /-- How the stage services end. -/
  outcome : ArtifactKey → StageRequest → Except CatalogError String

namespace CatalogDb

variable (db : CatalogDb)

/-- `CatalogService.set_dataset_version_governance`, after the reason has been checked. -/
def changeVersionGovernance (k : String × String) (newState reason : String)
    (actor : Option String) (updatedAt : String) : Except CatalogError CatalogDb :=
  if hk : k ∈ db.datasetVersions.keys then
    let previous := (db.getDatasetVersionGovernance k).elim .active VersionGovernanceRow.state
    match validateTransition previous newState with
    | .error e => .error e
    | .ok state =>
      .ok (db.setDatasetVersionGovernance k previous ⟨state, reason, actor, updatedAt⟩ hk)
  else .error (.datasetVersionNotFound s!"No version '{k.2}' registered for dataset '{k.1}'")

/-- The row that `_mark_superseded` writes. -/
def supersededRow (k : ArtifactKey) (newId updatedAt : String) : GovernanceRow where
  state := .deprecated
  reason := s!"superseded by {k.artifactType.text}/{newId} via selective rebuild"
  actor := none
  supersededByType := some k.artifactType.text
  supersededById := some newId
  updatedAt := updatedAt

end CatalogDb

/-- The number of rows of a table. -/
def CatalogState.count (s : CatalogState) : UserTable → ℕ
  | .datasets => s.db.datasets.items.length
  | .datasetVersions => s.db.datasetVersions.items.length
  | .artifactGovernance => s.db.artifactGovernance.items.length
  | .versionGovernance => s.db.versionGovernance.items.length
  | .pipelineRuns => s.runs.pipelineRuns.items.length
  | .pipelineStageRuns => s.runs.stageRuns.items.length
  | .runArtifacts => s.runs.runArtifacts.length
  | .runEvents => s.runs.runEvents.length

namespace CatalogInput

variable {α : Type} (i : CatalogInput)

/-- A transaction: it is refused, or rolled back, or committed. -/
def transact (s : CatalogState) (result : Except CatalogError (α × CatalogDb)) :
    Except CatalogError α × CatalogState :=
  match i.refusal, result with
  | some e, _ => (.error e, s)
  | none, .error e => (.error e, s)
  | none, .ok (a, db) => (.ok a, { s with db })

/-- How a scan reports that its transaction was refused. -/
def scanError : CatalogError → CatalogError
  | .catalogBusy operation timeoutMs dbPath => .catalogBusy operation timeoutMs dbPath
  | _ => .catalogScanFailed "Catalog scan failed"

/-- How a full rebuild reports that its transaction was refused. -/
def rebuildRefusal : CatalogError → CatalogError
  | .catalogBusy operation timeoutMs dbPath => .catalogBusy operation timeoutMs dbPath
  | e => CatalogDb.rebuildError e

end CatalogInput

/-- What an operation does, and what it answers. -/
def CatalogOp.run (sha : Json → String) (i : CatalogInput) :
    (o : CatalogOp) → CatalogState → o.Ans × CatalogState
  | getArtifact k, s => (s.db.getArtifact k, s)
  | getArtifactGovernance k, s => (s.db.getArtifactGovernance k, s)
  | ancestors k, s => ((s.db.traverse k .upstream none).others k, s)
  | upstream k, s => ((s.db.traverse k .upstream none).nodes, s)
  | getDataset datasetName, s => (s.db.datasets.get? datasetName, s)
  | getDatasetVersion k, s => (s.db.getDatasetVersion k, s)
  | getDatasetVersionGovernance k, s => (s.db.getDatasetVersionGovernance k, s)
  | count table, s => (s.count table, s)
  | changeGovernance k request, s =>
    match requireReason request.reason with
    | .error e => (.error e, s)
    | .ok _ => i.transact s ((s.db.changeGovernance k request i.now).map fun db ↦ ((), db))
  | changeVersionGovernance k newState reason actor, s =>
    match requireReason reason with
    | .error e => (.error e, s)
    | .ok reason =>
      i.transact s ((s.db.changeVersionGovernance k newState reason actor i.now).map fun db ↦
        ((), db))
  | markSuperseded k previousState newId, s =>
    i.transact s
      (.ok ((), s.db.setArtifactGovernance k previousState (CatalogDb.supersededRow k newId i.now)))
  | createDataset datasetName description metadata, s =>
    i.transact s (.ok (s.db.createDataset datasetName ⟨description, metadata.canonical, i.now⟩))
  | createDatasetVersion k packageId description tags, s =>
    i.transact s (s.db.createDatasetVersion k ⟨packageId, description, tags, "active", i.now⟩)
  | scan, s =>
    match i.refusal with
    | some e => (.error (CatalogInput.scanError e), s)
    | none => ((s.db.scanCatalog i.clock i.files).1,
        { s with db := (s.db.scanCatalog i.clock i.files).2 })
  | acquireIndexLock, s =>
    if s.indexLocked then (.error .catalogRebuildInProgress, s)
    else match i.refusal with
    | some e => (.error e, s)
    | none => (.ok (), { s with indexLocked := true })
  | rebuildIndex, s =>
    match i.refusal with
    | some e => (.error (CatalogInput.rebuildRefusal e), s)
    | none => ((s.db.rebuildIndex i.clock i.files).1,
        { s with db := (s.db.rebuildIndex i.clock i.files).2 })
  | releaseIndexLock, s => ((), { s with indexLocked := false })
  | buildPlan old new, s => (s.db.buildPlan sha old new, s)
  | storePlan plan, s => (i.fresh, { s with plans := s.plans.set i.fresh plan })
  | getPlan planId, s => (s.plans.get? planId, s)
  | discardPlan planId, s => ((), { s with plans := s.plans.erase planId })
  | acquireRebuildLock old, s =>
    if old ∈ s.rebuildLocks then (.error .catalogRebuildInProgress, s)
    else match i.refusal with
    | some e => (.error e, s)
    | none => (.ok (), { s with rebuildLocks := old :: s.rebuildLocks })
  | releaseRebuildLock old, s => ((), { s with rebuildLocks := s.rebuildLocks.erase old })
  | runStage k request, s => (i.outcome k request, s)

/-- An input without manifests on disk, where nothing is refused and every stage service fails. -/
def quietCatalogInput : CatalogInput :=
  ⟨"", "", ⟨fun _ ↦ "", fun _ ↦ "", ""⟩, fun _ ↦ [], none, nofun, fun _ _ ↦
    .error (.otherException "")⟩

/-- The operations, whatever is drawn from outside. -/
abbrev CatalogSem (sha : Json → String) :
    (o : CatalogOp) → CatalogState → o.Ans → CatalogState → Prop :=
  fun o s a s' ↦ ∃ i : CatalogInput, o.run sha i s = (a, s')

/-- The programs of the catalog. -/
abbrev CatalogProg := Prog CatalogOp CatalogOp.Ans

/-- One operation on the catalog. -/
abbrev CatalogOp.perform (o : CatalogOp) : CatalogProg o.Ans := Prog.op o

/-- A step of the callers of the catalog. -/
abbrev CatalogStep := PoolStep CatalogOp CatalogOp.Ans CatalogState

/-- The catalog as one program sees it: the parties named by `env` act between its operations. -/
def catalogSystem (sha : Json → String) {Env : Type} (env : Env → CatalogState → CatalogState → Prop) :
    System CatalogOp CatalogOp.Ans CatalogState Env where
  sem := CatalogSem sha
  env := env

/-- Runs of any number of callers of the given kind, from the programs at work and a state. -/
abbrev CatalogRun (sha : Json → String) (Party : CatalogProg Unit → Prop) :
    List (CatalogProg Unit) → CatalogState → List CatalogStep → List (CatalogProg Unit) →
      CatalogState → Prop := PoolRun (CatalogSem sha) Party

/-- A catalog without rows, runs, plans and locks. -/
def CatalogState.empty : CatalogState := ⟨.empty, .empty, Dict.empty, false, []⟩

/-- A turn of the callers: a further program is started, or one performs its next operation. -/
abbrev CatalogTurn := PoolTurn CatalogOp CatalogOp.Ans CatalogInput

/-- The point that a schedule leads to. -/
def simulateCatalog (sha : Json → String) (turns : List CatalogTurn) (s : CatalogState) :
    PoolPoint CatalogOp CatalogOp.Ans CatalogState :=
  simulatePool (fun i o s ↦ o.run sha i s) turns [] s

theorem catalogRun_simulate {sha : Json → String} {Party : CatalogProg Unit → Prop}
    {turns : List CatalogTurn} (hparty : ∀ p, .start p ∈ turns → Party p) (s : CatalogState) :
    CatalogRun sha Party [] s (simulateCatalog sha turns s).history
      (simulateCatalog sha turns s).threads (simulateCatalog sha turns s).state :=
  poolRun_simulatePool (fun i _ _ ↦ ⟨i, rfl⟩) hparty [] s

end ForgeData
