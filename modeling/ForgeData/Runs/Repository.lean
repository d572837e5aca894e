import ForgeData.Python.Dict
import ForgeData.Runs.StateMachine

/-!
# The run tables

Rows are kept in dictionaries under their primary keys, in insertion order, so a table cannot hold
two rows with one key. Every function here is the body of an SQL statement; transactions are put
together from them in the next file.

Timestamps are ISO-8601 texts, and like the SQL the code compares them as texts.
-/

namespace ForgeData

open Python

/-- A row of `pipeline_runs`. -/
structure RunRow where
  runType : String
  status : RunStatus
  createdAt : String
  startedAt : Option String := none
  finishedAt : Option String := none
  currentStage : Option String := none
  requestJson : String
  configHash : String
  executorId : Option String := none
  lastHeartbeatAt : Option String := none
  errorCode : Option String := none
  errorMessage : Option String := none
  deriving DecidableEq, Repr

/-- A row of `pipeline_stage_runs`. -/
structure StageRow where
  runId : String
  stage : String
  status : StageStatus
  startedAt : Option String := none
  finishedAt : Option String := none
  recordsTotal : Option ℕ := none
  recordsProcessed : Option ℕ := none
  bytesProcessed : Option ℕ := none
  artifactsCreated : ℕ := 0
  errorCode : Option String := none
  errorMessage : Option String := none
  deriving DecidableEq, Repr

/-- A row of `run_events`. -/
structure RunEvent where
  runId : String
  eventType : String
  detail : Option String
  createdAt : String
  deriving DecidableEq, Repr

/-- A row of `run_artifacts`: which stage of a run produced an artifact. -/
structure RunArtifact where
  runId : String
  stage : String
  artifactType : String
  artifactId : String
  createdAt : String
  deriving DecidableEq, Repr

/-- The run tables. -/
structure RunDb where
  pipelineRuns : Dict String RunRow
  stageRuns : Dict String StageRow
  runArtifacts : List RunArtifact
  runEvents : List RunEvent

namespace RunDb

/-- The tables without rows. -/
def empty : RunDb := ⟨Dict.empty, Dict.empty, [], []⟩

variable (db : RunDb)

/-- `get_run`. -/
def getRun (runId : String) : Option RunRow := db.pipelineRuns.get? runId

/-- The status of a run. -/
def runStatus (runId : String) : Option RunStatus := (db.getRun runId).map RunRow.status

/-- The status of a stage row. -/
def stageStatus (stageRunId : String) : Option StageStatus :=
  (db.stageRuns.get? stageRunId).map StageRow.status

/-- `count_active_runs`. -/
def countActiveRuns : ℕ := db.pipelineRuns.items.countP fun p ↦ p.2.status.Active

/-- `UPDATE pipeline_runs SET .. WHERE run_id = ..`: nothing happens if there is no such row. -/
def updateRun (runId : String) (f : RunRow → RunRow) : RunDb :=
  { db with pipelineRuns := db.pipelineRuns.modify runId f }

/-- `UPDATE pipeline_stage_runs SET .. WHERE stage_run_id = ..`. -/
def updateStageRun (stageRunId : String) (f : StageRow → StageRow) : RunDb :=
  { db with stageRuns := db.stageRuns.modify stageRunId f }

/-- `create_run`; `none` if the id is taken. -/
def createRun (runId : String) (row : RunRow) : Option RunDb :=
  if db.pipelineRuns.contains runId then none
  else some { db with pipelineRuns := db.pipelineRuns.set runId row }

/-- `create_stage_run`; `none` if the id is taken, or the run it refers to has no row. -/
def createStageRun (stageRunId : String) (row : StageRow) : Option RunDb :=
  if db.stageRuns.contains stageRunId then none
  else if db.pipelineRuns.contains row.runId then
    some { db with stageRuns := db.stageRuns.set stageRunId row }
  else none

/-- `touch_heartbeat`: only a run that is running or cancel-requested is touched. -/
def touchHeartbeat (runId : String) (at_ : String) : RunDb :=
  db.updateRun runId fun row ↦
    if row.status = .running ∨ row.status = .cancelRequested then
      { row with lastHeartbeatAt := some at_ }
    else row

/-- A run whose row says it is in progress, and whose last heartbeat is absent or before the
threshold. -/
def Stale (row : RunRow) (threshold : String) : Prop :=
  (row.status = .running ∨ row.status = .cancelRequested) ∧
    ∀ at_ ∈ row.lastHeartbeatAt, at_ < threshold

instance (row : RunRow) (threshold : String) : Decidable (Stale row threshold) :=
  inferInstanceAs (Decidable (_ ∧ ∀ at_ ∈ row.lastHeartbeatAt, _))

/-- `find_stale_running_runs`: the ids of the stale rows. -/
def findStaleRunningRuns (olderThan : String) : List String :=
  (db.pipelineRuns.items.filter fun p ↦ Stale p.2 olderThan).map Prod.fst

/-- `record_event`. The caller has read or inserted the row that the event refers to. -/
def recordEvent (event : RunEvent) : RunDb := { db with runEvents := db.runEvents ++ [event] }

/-- `record_run_artifact`: an artifact already recorded for the run is left as it is. The run has a row
when its stages are executed, and no statement deletes one. -/
def recordRunArtifact (artifact : RunArtifact) : RunDb :=
  if db.runArtifacts.any fun a ↦ a.runId = artifact.runId ∧
      a.artifactType = artifact.artifactType ∧ a.artifactId = artifact.artifactId then db
  else { db with runArtifacts := db.runArtifacts ++ [artifact] }

/-! ## What each statement leaves alone -/

variable {db}

@[simp] theorem getRun_updateRun (runId r : String) (f : RunRow → RunRow) :
    (db.updateRun runId f).getRun r = if r = runId then (db.getRun r).map f else db.getRun r :=
  Dict.get?_modify ..

@[simp] theorem runStatus_updateRun (runId r : String) (f : RunRow → RunRow) :
    (db.updateRun runId f).runStatus r
      = if r = runId then (db.getRun r).map fun row ↦ (f row).status else db.runStatus r := by
  rw [runStatus, getRun_updateRun]
  split
  · rw [Option.map_map]
    rfl
  · rfl

@[simp] theorem stageRuns_updateRun (runId : String) (f : RunRow → RunRow) :
    (db.updateRun runId f).stageRuns = db.stageRuns := rfl

@[simp] theorem pipelineRuns_updateStageRun (stageRunId : String) (f : StageRow → StageRow) :
    (db.updateStageRun stageRunId f).pipelineRuns = db.pipelineRuns := rfl

@[simp] theorem stageStatus_updateStageRun (stageRunId x : String) (f : StageRow → StageRow) :
    (db.updateStageRun stageRunId f).stageStatus x
      = if x = stageRunId then (db.stageRuns.get? x).map fun row ↦ (f row).status
        else db.stageStatus x := by
  rw [stageStatus, updateStageRun, Dict.get?_modify]
  split
  · rw [Option.map_map]
    rfl
  · rfl

@[simp] theorem pipelineRuns_recordEvent (event : RunEvent) :
    (db.recordEvent event).pipelineRuns = db.pipelineRuns := rfl

@[simp] theorem stageRuns_recordEvent (event : RunEvent) :
    (db.recordEvent event).stageRuns = db.stageRuns := rfl

@[simp] theorem pipelineRuns_recordRunArtifact (artifact : RunArtifact) :
    (db.recordRunArtifact artifact).pipelineRuns = db.pipelineRuns := by
  rw [recordRunArtifact]
  split <;> rfl

@[simp] theorem runEvents_recordRunArtifact (artifact : RunArtifact) :
    (db.recordRunArtifact artifact).runEvents = db.runEvents := by
  rw [recordRunArtifact]
  split <;> rfl

@[simp] theorem stageRuns_recordRunArtifact (artifact : RunArtifact) :
    (db.recordRunArtifact artifact).stageRuns = db.stageRuns := by
  rw [recordRunArtifact]
  split <;> rfl

theorem runStatus_congr {db' : RunDb} (h : db'.pipelineRuns = db.pipelineRuns) (r : String) :
    db'.runStatus r = db.runStatus r := by
  rw [runStatus, runStatus, getRun, getRun, h]

end RunDb

end ForgeData
