import ForgeData.Interleaving.Schedule
import ForgeData.Runs.Lifecycle
import ForgeData.Runs.OperationEffects

/-!
# A run beside cancellation requests

The executor runs while other threads and processes call `request_cancel`. `PhaseStatus` says which
statuses the run can have in each phase; both the executor's steps and the cancellation requests keep
to it.
-/

namespace ForgeData

open Python Interleaving

/-- Another party calls `request_cancel`, for any run. -/
def CancelEnv (e : String × Input) (db db' : RunDb) : Prop :=
  db' = (db.requestCancel e.1 e.2.now).2

theorem CancelEnv.runStatus {e : String × Input} {db db' : RunDb} (h : CancelEnv e db db')
    (r : String) : db'.runStatus r = db.runStatus r ∨
      (db.runStatus r = some .queued ∨ db.runStatus r = some .running) ∧
        db'.runStatus r = some .cancelRequested := by
  rw [h, RunDb.runStatus_requestCancel]
  split
  · next hst =>
    rw [Function.update_apply]
    split
    · next hr =>
      rw [hr]
      exact .inr ⟨hst, rfl⟩
    · exact .inl rfl
  · exact .inl rfl

/-- The run is waiting to be started, or its cancellation is already requested. -/
def Startable (st : Option RunStatus) : Prop := st = some .queued ∨ st = some .cancelRequested

/-- The run is being executed. -/
def InProgress (st : Option RunStatus) : Prop := st = some .running ∨ st = some .cancelRequested

/-- The statuses of a run in each phase of its execution. -/
def PhaseStatus : Phase → Option RunStatus → Prop
  | .queued, st | .found, st => Startable st
  | .cancelledEarly, st => st = some .cancelRequested
  | .done, _ => True
  | _, st => InProgress st

theorem PhaseStatus.env {q : Phase} {e : String × Input} {db db' : RunDb} {r : String}
    (h : PhaseStatus q (db.runStatus r)) (henv : CancelEnv e db db') :
    PhaseStatus q (db'.runStatus r) := by
  rcases henv.runStatus r with heq | ⟨hold, hnew⟩
  · rwa [heq]
  · rw [hnew]
    cases q with
    | cancelledEarly => rfl
    | done => trivial
    | queued | found | starting | boundary | inStage | closing | ended => exact .inr rfl

theorem PhaseStatus.ne_completed {q : Phase} {st : Option RunStatus} (h : PhaseStatus q st)
    (hq : q ≠ .done) : st ≠ some .completed := by
  rintro rfl
  cases q with
  | queued | found | starting | boundary | inStage | closing | ended =>
    exact absurd h (not_or.2 ⟨nofun, nofun⟩)
  | cancelledEarly => cases h
  | done => exact hq rfl

theorem phaseStatus_arrive {ids : Dict StageName String}
    {p : PipelineBody (Except PyException String)} {remaining : List StageName}
    {st : Option RunStatus} (h : InProgress st) : PhaseStatus (arrive ids p remaining) st := by
  rcases p with (exc | packageId) | _
  · exact h
  · exact h
  · cases remaining <;> exact h

theorem phaseStatus_closeFrom {ids : Dict StageName String} {exit : StageExit}
    {remaining : List StageName} {st : Option RunStatus} (h : InProgress st) :
    PhaseStatus (closeFrom ids exit remaining) st := by
  cases remaining with
  | nil => exact h
  | cons stage remaining =>
    rw [closeFrom]
    split <;> exact h

section

variable {maxRuns : ℕ} {i : Input} {r : String}
  {body : PipelineBody (Except PyException String)} {plannedStages : List StageName}

/-- **The executor's own steps keep to the statuses of the phases.** -/
theorem PhaseStatus.own {q q' : Phase} {o : RunOp} {a : o.Ans} {db db' : RunDb}
    (h : PhaseStatus q (db.runStatus r)) (hnext : Next r body plannedStages q o a q')
    (hrun : o.run maxRuns i db = (a, db')) : PhaseStatus q' (db'.runStatus r) := by
  cases hnext with
  | notFound | cancelEarly | refused | markCompleted | markCancelled | markFailed => trivial
  | foundCancelled hrow =>
    rw [RunOp.runStatus_of_quiet hrun trivial, RunDb.runStatus,
      show db.getRun r = _ from congrArg Prod.fst hrun, Option.map_some, hrow]
    rfl
  | found | lost | beat => rwa [RunOp.runStatus_of_quiet hrun trivial]
  | accepted executorId =>
    rw [(RunDb.of_markStatus_eq_ok hrun).2, Function.update_self]
    exact .inl rfl
  | notCreated e =>
    rw [RunOp.runStatus_of_quiet hrun trivial]
    exact h
  | created ids =>
    rw [RunOp.runStatus_of_quiet hrun trivial]
    exact phaseStatus_arrive h
  | stage hstep =>
    cases hstep with
    | current =>
      have hst : ∃ st, db.runStatus r = some st := h.elim (⟨_, ·⟩) (⟨_, ·⟩)
      rw [RunOp.runStatus_of_updateCurrentStage hrun hst.choose_spec, Function.update_self]
      exact .inl rfl
    | observed | passed | start | begin | returned | interrupted | blocked | raised | complete
    | completeCounting | count =>
      rw [RunOp.runStatus_of_quiet hrun trivial]
      exact h
  | record out =>
    rw [RunOp.runStatus_of_quiet hrun trivial]
    exact phaseStatus_arrive h
  | cancelStage | failStage | skip | cancel =>
    rw [RunOp.runStatus_of_quiet hrun trivial]
    exact phaseStatus_closeFrom h

end

/-! ## Schedules -/

/-- The point that a schedule of the executor's operations and of cancellation requests leads to. -/
def runTurns {α : Type} (maxRuns : ℕ) (turns : List (Turn Input (String × Input))) (p : RunProg α)
    (db : RunDb) : Point RunOp RunOp.Ans RunDb (String × Input) α :=
  simulate (fun i o db ↦ o.run maxRuns i db) (fun e db ↦ (db.requestCancel e.1 e.2.now).2) turns p db

theorem exec_runTurns {α : Type} (maxRuns : ℕ) (turns : List (Turn Input (String × Input)))
    (p : RunProg α) (db : RunDb) :
    Exec (runSystem maxRuns CancelEnv) p db (runTurns maxRuns turns p db).history
      (runTurns maxRuns turns p db).rest (runTurns maxRuns turns p db).state :=
  exec_simulate (S := runSystem maxRuns CancelEnv) (fun i _ _ ↦ ⟨i, rfl⟩) (fun _ _ ↦ rfl) turns p db

/-! ## A small run -/

/-- A clock that stands still, numbered identifiers, and stage services that all fail. -/
def quietInput : Input where
  now _ := "2026-01-01T00:00:00+00:00"
  fresh n := toString n
  outcome _ := .raised ⟨"builtins", "OSError", ""⟩
  returnable _ _ h := nomatch h

/-- A request with one stream. -/
def imuRequest : PipelineRunRequest where
  sessionId := none
  customerId := none
  deviceId := none
  streams := [⟨"imu", []⟩]
  synchronization := ⟨.stream, some "imu", none, none⟩

/-- The run tables with one run in the given status. -/
def dbWithRun (status : RunStatus) : RunDb where
  pipelineRuns := Dict.empty.set "run_1"
    { runType := "pipeline", status, createdAt := "2026-01-01T00:00:00+00:00",
      requestJson := "\x7b\x7d", configHash := "" }
  stageRuns := Dict.empty
  runArtifacts := []
  runEvents := []

/-- The executor of that run. -/
def imuLocalRun : RunProg (Except RunError Unit) :=
  localRun ["imu"] "run_1" "host:1" imuRequest [⟨"imu", "imu.csv", none, []⟩] "0"

/-- The point that a schedule of the run leads to. -/
def imuRun (turns : List (Turn Input (String × Input))) :
    Point RunOp RunOp.Ans RunDb (String × Input) (Except RunError Unit) :=
  runTurns 2 turns imuLocalRun (dbWithRun .queued)

theorem exec_imuRun (turns : List (Turn Input (String × Input))) :
    Exec (runSystem 2 CancelEnv) imuLocalRun (dbWithRun .queued) (imuRun turns).history
      (imuRun turns).rest (imuRun turns).state :=
  exec_runTurns 2 turns imuLocalRun (dbWithRun .queued)

end ForgeData
