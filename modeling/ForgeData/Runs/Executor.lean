import ForgeData.Runs.Operations

/-!
# The executor and the other parties

The programs of the run subsystem: the pipeline executor with its stage bookkeeping, the local
executor that drives a run from queued to its end, and the three calls that other threads and
processes make meanwhile.

The `try` block of `execute` is written as a program of its own, `pipelineBody`, which asks for the
work of one stage after the other; `runBody` performs it, each piece of work as the next planned
stage.
-/

namespace ForgeData

open Python Interleaving

/-- The programs of the run subsystem. -/
abbrev RunProg := Prog RunOp RunOp.Ans

/-- One operation on the run tables. -/
abbrev RunOp.perform (o : RunOp) : RunProg o.Ans := Prog.op o

/-- How the execution of a pipeline ends when it does not return. -/
inductive StageExit where
  /-- `PipelineExecutionFailed`. -/
  | failed (failure : StageFailure)
  /-- `RunCancellationRequested`. -/
  | cancellationRequested
  /-- Any other exception. -/
  | raised (exc : PyException)
  deriving DecidableEq, Repr

/-- A stage that is not a key of `_stage_run_ids`. -/
def keyError (stage : StageName) : PyException := ⟨"builtins", "KeyError", "'" ++ stage.text ++ "'"⟩

/-- `remaining.pop(0)` on an empty list. -/
def popError : PyException := ⟨"builtins", "IndexError", "pop from empty list"⟩

/-! ## One stage -/

/-- The end of a stage whose service raised. -/
def failStage (stageRunId : String) (failure : StageFailure) :
    RunProg (Except StageExit String) := do
  RunOp.perform (.failStage stageRunId failure.code failure.message)
  return .error (.failed failure)

/-- The end of a stage that observes the cancellation. -/
def cancelStage (stageRunId : String) : RunProg (Except StageExit String) := do
  RunOp.perform (.cancelStage stageRunId)
  return .error .cancellationRequested

/-- The bookkeeping after a stage service has returned. -/
def recordStage (runId stageRunId : String) (stage : StageName) (artifactType : String)
    (out : StageOutput) : RunProg (Except StageExit String) := do
  RunOp.perform (.completeStage stageRunId out)
  match out.recordsTotal with
  | none => pure ()
  | some recordsTotal => RunOp.perform (.updateRecordsTotal stageRunId recordsTotal)
  RunOp.perform (.recordArtifact runId stage artifactType out.artifactId)
  return .ok out.artifactId

/-- `_run_stage`. The cancellation is checked before the status of the run is touched. -/
def runStage (runId : String) (ids : Dict StageName String) (stage : StageName) (w : Work) :
    RunProg (Except StageExit String) := do
  RunOp.perform (.touchHeartbeat runId)
  match ids.get? stage with
  | none => return .error (.raised (keyError stage))
  | some stageRunId =>
    let cancelled ← RunOp.perform (.check runId)
    if cancelled then
      cancelStage stageRunId
    else
      RunOp.perform (.updateCurrentStage runId stage)
      RunOp.perform (.startStage stageRunId)
      RunOp.perform (.beginWork w)
      match ← RunOp.perform (.endWork w) with
      | .returned out => recordStage runId stageRunId stage w.artifactType out
      | .cancellationRequested => cancelStage stageRunId
      | .governance code message => failStage stageRunId ⟨stage.text, code, message⟩
      | .raised exc => failStage stageRunId (normalizeStageError stage.text exc)

/-! ## The pipeline -/

/-- The `try` block of `execute`: every request for work is answered with the artifact id. -/
abbrev PipelineBody := Prog Work fun _ ↦ String

/-- The work of one stage. -/
abbrev Work.perform (w : Work) : PipelineBody String := Prog.op w

/-- The four stages of one stream. -/
def streamBody (registered : List String) (request : PipelineRunRequest) (sessionId : String)
    (normalizationIds : Dict String String) (f : StreamFile) :
    PipelineBody (Except PyException (Dict String String)) :=
  if f.sensorType ∉ registered then
    return .error ⟨"app.sensors.base", "SensorPluginNotFoundError",
      s!"Unknown sensor type '{f.sensorType}'. Available: {listRepr registered.mergeSort}"⟩
  else do
    let ingestionId ← Work.perform (.ingest f sessionId request)
    let _validationId ← Work.perform (.validate ingestionId f.sensorType)
    let _integrityId ← Work.perform (.integrity ingestionId f.sensorType)
    let normId ← Work.perform (.normalize ingestionId f.sensorType f)
    return .ok (normalizationIds.set f.sensorType normId)

/-- The loop over the stream files. -/
def streamsBody (registered : List String) (request : PipelineRunRequest) (sessionId : String) :
    List StreamFile → Dict String String → PipelineBody (Except PyException (Dict String String))
  | [], normalizationIds => return .ok normalizationIds
  | f :: files, normalizationIds =>
    (streamBody registered request sessionId normalizationIds f).andThen
      (streamsBody registered request sessionId files)

/-- The five shared stages. -/
def sharedBody (request : PipelineRunRequest) (normalizationIds : Dict String String) :
    PipelineBody (Except PyException String) := do
  let syncId ← Work.perform (.synchronize request normalizationIds)
  let cleaningId ← Work.perform (.clean request syncId)
  let xformId ← Work.perform (.transform request cleaningId)
  let qcId ← Work.perform (.qc request xformId)
  let packageId ← Work.perform (.package request xformId qcId)
  return .ok packageId

def pipelineBody (registered : List String) (request : PipelineRunRequest) (sessionId : String)
    (files : List StreamFile) : PipelineBody (Except PyException String) :=
  (streamsBody registered request sessionId files Dict.empty).andThen (sharedBody request)

/-- Perform the body, each piece of work as the next of the remaining stages. Answers how it ended
and the stages that were still remaining. -/
def runBody (runId : String) (ids : Dict StageName String) :
    PipelineBody (Except PyException String) → List StageName →
      RunProg (Except StageExit String × List StageName)
  | .pure (.ok packageId), remaining => return (.ok packageId, remaining)
  | .pure (.error exc), remaining => return (.error (.raised exc), remaining)
  | .call _ _, [] => return (.error (.raised popError), [])
  | .call w k, stage :: remaining => do
    match ← runStage runId ids stage w with
    | .ok artifactId => runBody runId ids (k artifactId) remaining
    | .error exit => return (.error exit, remaining)

/-- The loop of `_skip_remaining` and `_cancel_remaining`, and then the exception at hand. -/
def closeRemaining (close : String → RunProg Unit) (ids : Dict StageName String)
    (exit : StageExit) : List StageName → RunProg StageExit
  | [] => return exit
  | stage :: remaining =>
    match ids.get? stage with
    | none => return .raised (keyError stage)
    | some stageRunId => do
      close stageRunId
      closeRemaining close ids exit remaining

/-- `_skip_remaining`. -/
def skipRemaining := closeRemaining fun stageRunId ↦ RunOp.perform (.skipStage stageRunId)

/-- `_cancel_remaining`. -/
def cancelRemaining := closeRemaining fun stageRunId ↦ RunOp.perform (.cancelStage stageRunId)

/-- The error of `_create_all_stage_runs`, as an exception. -/
def insertError : PyException :=
  ⟨"sqlite3", "IntegrityError", "UNIQUE constraint failed: pipeline_stage_runs.stage_run_id"⟩

/-- The session of all streams of a run: the request's own, or a fresh one. -/
def sessionIdOf (request : PipelineRunRequest) (freshSession : String) : String :=
  match request.sessionId.getD "" with
  | "" => "sess_" ++ freshSession
  | sessionId => sessionId

/-- `PipelineRunner.execute`. -/
def execute (registered : List String) (runId : String) (request : PipelineRunRequest)
    (files : List StreamFile) (freshSession : String) : RunProg (Except StageExit String) := do
  let sessionId := sessionIdOf request freshSession
  let plannedStages := planStages (files.map StreamFile.sensorType)
  match ← RunOp.perform (.createAllStageRuns runId plannedStages) with
  | .error _ => return .error (.raised insertError)
  | .ok ids =>
    let body := pipelineBody registered request sessionId files
    match ← runBody runId ids body plannedStages with
    | (.ok packageId, _) => return .ok packageId
    | (.error (.failed failure), remaining) =>
      return .error (← skipRemaining ids (.failed failure) remaining)
    | (.error .cancellationRequested, remaining) =>
      return .error (← cancelRemaining ids .cancellationRequested remaining)
    | (.error (.raised exc), _) => return .error (.raised exc)

/-! ## The local executor -/

/-- `LocalRunExecutor.run`. Errors of `mark_running` and `mark_completed` are logged and swallowed,
those of the other transitions are raised. -/
def localRun (registered : List String) (runId executorId : String) (request : PipelineRunRequest)
    (files : List StreamFile) (freshSession : String) : RunProg (Except RunError Unit) := do
  match ← RunOp.perform (.getRun runId) with
  | none => return .error (.runNotFound s!"No run with id '{runId}'")
  | some current =>
    if current.status = .cancelRequested then
      RunOp.perform (.markCancelled runId)
    else
      match ← RunOp.perform (.markRunning runId executorId) with
      | .error _ => return .ok ()
      | .ok () =>
        match ← execute registered runId request files freshSession with
        | .error .cancellationRequested => RunOp.perform (.markCancelled runId)
        | .error (.failed failure) =>
          RunOp.perform (.markFailed runId failure.code failure.message)
        | .error (.raised exc) =>
          let failure := normalizeStageError "pipeline" exc
          RunOp.perform (.markFailed runId failure.code failure.message)
        | .ok _ =>
          let _ ← RunOp.perform (.markCompleted runId)
          return .ok ()

/-! ## The other parties -/

/-- `RunService.create_run`. -/
def createRun (registered : List String) (request : PipelineRunRequest)
    (runType requestJson configHash : String) : RunProg (Except RunError String) :=
  match validateRequest registered request with
  | .error e => return .error e
  | .ok () => RunOp.perform (.createRun runType requestJson configHash)

/-- `RunService.request_cancel`. -/
def requestCancel (runId : String) : RunProg (Except RunError Unit) :=
  RunOp.perform (.requestCancel runId)

/-- The loop of `reconcile`, counting the runs marked failed. -/
def reconcileAll (threshold : String) : List String → ℕ → RunProg ℕ
  | [], reconciled => return reconciled
  | runId :: stale, reconciled => do
    let lost ← RunOp.perform (.reconcileStale runId threshold)
    reconcileAll threshold stale (if lost then reconciled + 1 else reconciled)

/-- `RunRecoveryService.reconcile`. -/
def reconcile (threshold : String) : RunProg ℕ := do
  let stale ← RunOp.perform (.findStaleRunningRuns threshold)
  reconcileAll threshold stale 0

end ForgeData
