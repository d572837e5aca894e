import ForgeData.Interleaving.Program
import ForgeData.Runs.Repository
import ForgeData.Runs.StageWork

/-!
# The atomic operations of the run subsystem

Every access to the run tables is a read or a `BEGIN IMMEDIATE` transaction, so it happens at one
point in time. `RunOp` lists them, `RunOp.run` says what each does, and the programs of the next file
are put together from them. Calling a stage service takes time, and other parties act meanwhile; it
is two operations here, one when the call starts and one when it ends, and neither touches the run
tables.

What an operation draws from outside (the clock, fresh identifiers, how a stage service ends) is an
`Input`. An identifier may turn out to be taken already: the insertion then fails and the transaction
is rolled back.
-/

namespace ForgeData

open Python Interleaving

inductive RunOp where
  /-- The row read by `get_run`. -/
  | getRun (runId : String)
  /-- `CancellationToken.check(force=True)`: whether it raises. -/
  | check (runId : String)
  | createRun (runType requestJson configHash : String)
  | markRunning (runId executorId : String)
  | markCompleted (runId : String)
  | markFailed (runId errorCode errorMessage : String)
  | markCancelled (runId : String)
  | requestCancel (runId : String)
  | findStaleRunningRuns (olderThan : String)
  /-- One pass of the loop of `reconcile`. -/
  | reconcileStale (runId threshold : String)
  | touchHeartbeat (runId : String)
  /-- The transaction `update_run_current_stage`. -/
  | updateCurrentStage (runId : String) (stage : StageName)
  | createAllStageRuns (runId : String) (plannedStages : List StageName)
  | startStage (stageRunId : String)
  | completeStage (stageRunId : String) (out : StageOutput)
  | failStage (stageRunId errorCode errorMessage : String)
  | skipStage (stageRunId : String)
  | cancelStage (stageRunId : String)
  | updateRecordsTotal (stageRunId : String) (recordsTotal : ℕ)
  | recordArtifact (runId : String) (stage : StageName) (artifactType artifactId : String)
  /-- A stage service is called. -/
  | beginWork (w : Work)
  /-- The call ends. -/
  | endWork (w : Work)

/-- What an operation answers. -/
@[reducible] def RunOp.Ans : RunOp → Type
  | getRun _ => Option RunRow
  | check _ => Bool
  | createRun .. => Except RunError String
  | markRunning .. | markCompleted _ | markFailed .. | markCancelled _ | requestCancel _ =>
    Except RunError Unit
  | findStaleRunningRuns _ => List String
  | reconcileStale .. => Bool
  | createAllStageRuns .. => Except RunError (Dict StageName String)
  | endWork _ => StageOutcome
  | _ => Unit

/-- What one operation draws from outside. -/
structure Input where
  /-- The successive readings of the clock. -/
  now : ℕ → String
  /-- The successive results of `uuid4().hex`. -/
  fresh : ℕ → String
  /-- How the stage services end. -/
  outcome : Work → StageOutcome
  /-- A service that refuses its request does not return. -/
  returnable : ∀ w out, outcome w = .returned out → w.Returnable

namespace RunDb

variable (db : RunDb)

/-- `_require_run`. -/
def requireRun (runId : String) : Except RunError RunRow :=
  match db.getRun runId with
  | none => .error (.runNotFound s!"No run with id '{runId}'")
  | some row => .ok row

/-- What the `mark_*` transactions have in common: the transition is checked against the table, the
columns are set and an event is recorded. -/
def markStatus (runId : String) (status : RunStatus) (columns : RunRow → RunRow)
    (eventType : String) (detail : Option String) (createdAt : String) :
    Except RunError Unit × RunDb :=
  match db.requireRun runId with
  | .error e => (.error e, db)
  | .ok row =>
    match validateRunTransition row.status status with
    | .error e => (.error e, db)
    | .ok () =>
      (.ok (), (db.updateRun runId fun row ↦ { columns row with status := status }).recordEvent
        ⟨runId, eventType, detail, createdAt⟩)

/-- `mark_running`. -/
def markRunning (runId executorId : String) (now : ℕ → String) : Except RunError Unit × RunDb :=
  db.markStatus runId .running
    (fun row ↦ { row with
      startedAt := some (now 0), executorId := some executorId, lastHeartbeatAt := some (now 1) })
    "RUN_STARTED" none (now 2)

/-- `mark_completed`. -/
def markCompleted (runId : String) (now : ℕ → String) : Except RunError Unit × RunDb :=
  db.markStatus runId .completed (fun row ↦ { row with finishedAt := some (now 0) })
    "RUN_COMPLETED" none (now 1)

/-- `mark_failed`. -/
def markFailed (runId errorCode errorMessage : String) (now : ℕ → String) :
    Except RunError Unit × RunDb :=
  db.markStatus runId .failed
    (fun row ↦ { row with
      finishedAt := some (now 0), errorCode := some errorCode, errorMessage := some errorMessage })
    "RUN_FAILED" (some errorMessage) (now 1)

/-- `mark_cancelled`. -/
def markCancelled (runId : String) (now : ℕ → String) : Except RunError Unit × RunDb :=
  db.markStatus runId .cancelled (fun row ↦ { row with finishedAt := some (now 0) })
    "RUN_CANCELLED" none (now 1)

/-- `request_cancel`: a run that is neither queued nor running is left as it is. -/
def requestCancel (runId : String) (now : ℕ → String) : Except RunError Unit × RunDb :=
  match db.requireRun runId with
  | .error e => (.error e, db)
  | .ok row =>
    if row.status = .queued ∨ row.status = .running then
      db.markStatus runId .cancelRequested id "CANCEL_REQUESTED" none (now 0)
    else (.ok (), db)

/-- The transaction of `create_run`. -/
def admitRun (maxRuns : ℕ) (runType requestJson configHash : String) (now fresh : ℕ → String) :
    Except RunError String × RunDb :=
  let runId := "run_" ++ fresh 0
  if maxRuns ≤ db.countActiveRuns then
    (.error (.runCapacityExceeded maxRuns db.countActiveRuns), db)
  else
    match db.createRun runId
      { runType, status := .queued, createdAt := now 0, requestJson, configHash } with
    | none => (.error .integrityError, db)
    | some db' => (.ok runId, db'.recordEvent ⟨runId, "RUN_CREATED", none, now 1⟩)

/-- One pass of the loop of `reconcile`: the row is read again, and left alone if it is no longer in
progress or its heartbeat has moved on. -/
def reconcileStale (runId threshold : String) (now : ℕ → String) : Bool × RunDb :=
  match db.getRun runId with
  | none => (false, db)
  | some row =>
    if Stale row threshold then
      (true, (db.updateRun runId fun row ↦ { row with
          status := .failed
          finishedAt := some (now 0)
          errorCode := some "RUN_PROCESS_LOST"
          errorMessage := some ("No heartbeat observed within the configured staleness threshold"
            ++ " -- the owning process is presumed lost") }).recordEvent
        ⟨runId, "RUN_FAILED", some "RUN_PROCESS_LOST", now 1⟩)
    else (false, db)

/-- The loop of `_create_all_stage_runs`: the ids are remembered by stage name, and `none` means
that an insertion failed. -/
def insertStageRuns (runId : String) (fresh : ℕ → String) :
    List StageName → ℕ → RunDb → Dict StageName String → Option (RunDb × Dict StageName String)
  | [], _, db, ids => some (db, ids)
  | stage :: rest, n, db, ids =>
    let stageRunId := "stagerun_" ++ fresh n
    match db.createStageRun stageRunId { runId, stage := stage.text, status := .pending } with
    | none => none
    | some db' => insertStageRuns runId fresh rest (n + 1) db' (ids.set stage stageRunId)

/-- `_create_all_stage_runs`: one transaction for all rows. -/
def createAllStageRuns (runId : String) (plannedStages : List StageName) (fresh : ℕ → String) :
    Except RunError (Dict StageName String) × RunDb :=
  match insertStageRuns runId fresh plannedStages 0 db Dict.empty with
  | none => (.error .integrityError, db)
  | some (db', ids) => (.ok ids, db')

end RunDb

/-- What an operation does to the run tables, and what it answers. -/
def RunOp.run (maxRuns : ℕ) (i : Input) : (o : RunOp) → RunDb → o.Ans × RunDb
  | getRun runId, db => (db.getRun runId, db)
  | check runId, db => (decide (db.runStatus runId = some .cancelRequested), db)
  | createRun runType requestJson configHash, db =>
    db.admitRun maxRuns runType requestJson configHash i.now i.fresh
  | markRunning runId executorId, db => db.markRunning runId executorId i.now
  | markCompleted runId, db => db.markCompleted runId i.now
  | markFailed runId errorCode errorMessage, db => db.markFailed runId errorCode errorMessage i.now
  | markCancelled runId, db => db.markCancelled runId i.now
  | requestCancel runId, db => db.requestCancel runId i.now
  | findStaleRunningRuns olderThan, db => (db.findStaleRunningRuns olderThan, db)
  | reconcileStale runId threshold, db => db.reconcileStale runId threshold i.now
  | touchHeartbeat runId, db => ((), db.touchHeartbeat runId (i.now 0))
  | updateCurrentStage runId stage, db =>
    ((), db.updateRun runId fun row ↦
      { row with status := .running, currentStage := some stage.text })
  | createAllStageRuns runId plannedStages, db =>
    db.createAllStageRuns runId plannedStages i.fresh
  | startStage stageRunId, db =>
    ((), db.updateStageRun stageRunId fun row ↦
      { row with status := .running, startedAt := some (i.now 0) })
  | completeStage stageRunId out, db =>
    ((), db.updateStageRun stageRunId fun row ↦ { row with
      status := .completed
      finishedAt := some (i.now 0)
      recordsProcessed := some out.recordsProcessed
      bytesProcessed := some (out.bytesProcessed.getD 0)
      artifactsCreated := 1 })
  | failStage stageRunId errorCode errorMessage, db =>
    ((), db.updateStageRun stageRunId fun row ↦ { row with
      status := .failed
      finishedAt := some (i.now 0)
      recordsProcessed := some 0
      bytesProcessed := some 0
      errorCode := some errorCode
      errorMessage := some errorMessage })
  | skipStage stageRunId, db =>
    ((), db.updateStageRun stageRunId fun row ↦ { row with status := .skipped })
  | cancelStage stageRunId, db =>
    ((), db.updateStageRun stageRunId fun row ↦
      { row with status := .cancelled, finishedAt := some (i.now 0) })
  | updateRecordsTotal stageRunId recordsTotal, db =>
    ((), db.updateStageRun stageRunId fun row ↦ { row with recordsTotal := some recordsTotal })
  | recordArtifact runId stage artifactType artifactId, db =>
    ((), db.recordRunArtifact ⟨runId, stage.text, artifactType, artifactId, i.now 0⟩)
  | beginWork _, db => ((), db)
  | endWork w, db => (i.outcome w, db)

/-- The operations, whatever is drawn from outside. -/
abbrev RunSem (maxRuns : ℕ) : (o : RunOp) → RunDb → o.Ans → RunDb → Prop := fun o db a db' ↦
  ∃ i : Input, o.run maxRuns i db = (a, db')

/-- The run subsystem as one program sees it: the parties named by `env` act between its
operations. -/
def runSystem (maxRuns : ℕ) {Env : Type} (env : Env → RunDb → RunDb → Prop) :
    System RunOp RunOp.Ans RunDb Env where
  sem := RunSem maxRuns
  env := env

/-- One step, of the program or of a party beside it. -/
abbrev RunStep (Env : Type) := Step RunOp RunOp.Ans RunDb Env

/-- The steps of a program and of the parties beside it. -/
abbrev RunHistory (Env : Type) := History RunOp RunOp.Ans RunDb Env

end ForgeData
