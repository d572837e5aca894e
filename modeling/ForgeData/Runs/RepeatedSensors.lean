import ForgeData.Runs.CancelRequests
import ForgeData.Runs.StageClosing

/-!
# Stage rows of repeated sensor types

A request may name two streams of one sensor type. Their stages have the same names, so the second
row of such a stage takes the place of the first under its name, and the executor never touches the
first one again. Together with the previous file this tells exactly which requests leave a stage row
open: those with a repeated sensor type.
-/

namespace ForgeData

open Python Interleaving

/-! ## The forgotten row -/

/-- No id that the executor knows is `x`. -/
def Phase.Forgets (x : String) : Phase → Prop
  | .boundary c => ∀ s, c.ids.get? s ≠ some x
  | .inStage c y _ => (∀ s, c.ids.get? s ≠ some x) ∧ y ≠ x
  | .closing ids _ y _ => (∀ s, ids.get? s ≠ some x) ∧ y ≠ x
  | .ended _ | .done => True
  | _ => False

section

variable {maxRuns : ℕ} {i : Input} {r x : String}
  {body : PipelineBody (Except PyException String)} {planned remaining : List StageName}
  {ids : Dict StageName String} {q q' : Phase} {o : RunOp} {a : o.Ans} {db db' : RunDb}

theorem forgets_arrive {p : PipelineBody (Except PyException String)}
    (h : ∀ s, ids.get? s ≠ some x) : (arrive ids p remaining).Forgets x := by
  rcases p with (exc | packageId) | _
  · trivial
  · trivial
  · cases remaining with
    | nil => trivial
    | cons stage remaining => exact h

theorem forgets_closeFrom {exit : StageExit} (h : ∀ s, ids.get? s ≠ some x) :
    (closeFrom ids exit remaining).Forgets x := by
  cases remaining with
  | nil => trivial
  | cons stage remaining =>
    rw [closeFrom]
    split
    · trivial
    · next y hid => exact ⟨h, fun hy ↦ h stage (hy ▸ hid)⟩

/-- **A forgotten row stays as it is.** -/
theorem Next.forgets (hnext : Next r body planned q o a q') (hq : q.Forgets x)
    (hrun : o.run maxRuns i db = (a, db')) :
    q'.Forgets x ∧ db'.stageRow r x = db.stageRow r x := by
  have hquiet : o.OffStageRows → db'.stageRow r x = db.stageRow r x := fun ho ↦
    stageRow_eq_of_offStageRows hrun ho x
  have hother {y : String} {g : StageRow → StageRow} (hdb : db.updateStageRun y g = db')
      (hg : ∀ row, (g row).runId = row.runId) (hy : y ≠ x) :
      db'.stageRow r x = db.stageRow r x := by
    rw [← hdb, RunDb.stageRow_updateStageRun hg, if_neg hy.symm]
  cases hnext with
  | notFound | foundCancelled | found | cancelEarly | refused | accepted | notCreated | created =>
    exact hq.elim
  | lost | markCompleted | markCancelled | markFailed => exact ⟨trivial, hquiet trivial⟩
  | @beat c y hid => exact ⟨⟨hq, fun hy ↦ hq c.stage (hy ▸ hid)⟩, hquiet trivial⟩
  | record => exact ⟨forgets_arrive hq.1, hquiet trivial⟩
  | stage hstep =>
    refine ⟨hq, ?_⟩
    cases hstep with
    | observed | passed | current | begin | returned | interrupted | blocked | raised =>
      exact hquiet trivial
    | start | complete | completeCounting | count =>
      exact hother (congrArg Prod.snd hrun) (fun _ ↦ rfl) hq.2
  | cancelStage | failStage | skip | cancel =>
    exact ⟨forgets_closeFrom hq.1, hother (congrArg Prod.snd hrun) (fun _ ↦ rfl) hq.2⟩

theorem stageRow_eq_of_forgets {Env α : Type} {env : Env → RunDb → RunDb → Prop}
    {fin : α → Phase → Prop} {p p' : RunProg α} {t : RunHistory Env}
    (hp : p.Follows (Next r body planned) fin q) (hq : q.Forgets x)
    (henv : ∀ e db db', env e db db' → db'.stageRow r x = db.stageRow r x)
    (hexec : Exec (runSystem maxRuns env) p db t p' db') :
    db'.stageRow r x = db.stageRow r x := by
  obtain ⟨_, ⟨-, heq⟩, -⟩ := run_invariant (J := fun q _ s ↦
      q.Forgets x ∧ s.stageRow r x = db.stageRow r x) (h := [])
    (fun hJ hnext hrun ↦
      let hstep := hnext.forgets hJ.1 hrun
      ⟨hstep.1, hstep.2.trans hJ.2⟩)
    (fun hJ he ↦ ⟨hJ.1, (henv _ _ _ he).trans hJ.2⟩) hp ⟨hq, rfl⟩ hexec
  exact heq

end

/-! ## Executions -/

/-- A clock that stands still, identifiers of growing length, and services that all fail. -/
def lengtheningInput : Input := { quietInput with fresh := fun n ↦ String.ofList (List.replicate n '0') }

theorem lengtheningInput_fresh_injective : Function.Injective lengtheningInput.fresh := by
  intro m n h
  have hlist := String.ofList_injective h
  simpa using congrArg List.length hlist

/-- The run tables with one run, which has been started and has no stage rows yet. -/
def startedDb (r : String) : RunDb where
  pipelineRuns := Dict.empty.set r
    { runType := "pipeline", status := .running, createdAt := "2026-01-01T00:00:00+00:00",
      requestJson := "\x7b\x7d", configHash := "" }
  stageRuns := Dict.empty
  runArtifacts := []
  runEvents := []

theorem contains_startedDb (r : String) : (startedDb r).pipelineRuns.contains r = true := by
  rw [Dict.contains, startedDb, Dict.get?_set_self, Option.isSome_some]

/-- **A repeated sensor type leaves a row pending** in some execution. -/
theorem exists_pending_of_not_nodup (registered : List String) (r : String)
    (request : PipelineRunRequest) {files : List StreamFile}
    (hdup : ¬ (files.map StreamFile.sensorType).Nodup) (maxRuns : ℕ) (freshSession : String) :
    ∃ t result db', Exec (runSystem maxRuns (OthersEnv r))
      (execute registered r request files freshSession) (startedDb r) t (.pure result) db' ∧
      ∃ x row, db'.stageRow r x = some row ∧ row.status = .pending := by
  have hnone : ∀ x, (startedDb r).stageRow r x = none := fun _ ↦ rfl
  have hfree : ∀ m, 0 ≤ m →
      "stagerun_" ++ lengtheningInput.fresh m ∉ (startedDb r).stageRuns.keys :=
    fun _ _ ↦ List.not_mem_nil
  obtain ⟨db₁, ids, hinsert⟩ := exists_insertStageRuns
    (planStages (files.map StreamFile.sensorType)) Dict.empty lengtheningInput_fresh_injective
    (contains_startedDb r) hfree
  have hcreate : (RunOp.createAllStageRuns r (planStages (files.map StreamFile.sensorType))).run
      maxRuns lengtheningInput (startedDb r) = (.ok ids, db₁) := by
    rw [RunOp.run, RunDb.createAllStageRuns, hinsert]
  obtain ⟨x, row, hrow, hpending, hforgotten⟩ :=
    (inserted_createAllStageRuns hnone hcreate).exists_orphan (mt nodup_planStages_iff.1 hdup)
  -- the execution goes on from the created rows, in the phase that the protocol names
  have hfollows : (execute registered r request files freshSession).Follows
      (Next r _ (planStages (files.map StreamFile.sensorType))) _ .starting :=
    follows_execute registered request files freshSession
  obtain ⟨q, hnext, hrest⟩ := hfollows (.ok ids)
  have hq : q.Forgets x := by
    cases hnext
    exact forgets_arrive hforgotten
  obtain ⟨t, result, db', hexec⟩ := Exec.exists_complete (S := runSystem maxRuns (OthersEnv r))
    (fun o s ↦ ⟨_, _, lengtheningInput, rfl⟩) _ db₁
  refine ⟨_, result, db', .own ⟨lengtheningInput, hcreate⟩ hexec, x, row, ?_, hpending⟩
  rw [stageRow_eq_of_forgets hrest hq (fun _ _ _ he ↦ he x) hexec, hrow]

/-- **Which requests leave a stage row open.** All rows of a run are closed in every execution of an
accepted request exactly when the sensor types of its streams are pairwise different. -/
theorem stageRowsClosed_iff {registered : List String} {r : String} {request : PipelineRunRequest}
    {files : List StreamFile} (haccepted : Accepted registered request files) :
    (∀ maxRuns freshSession db t result db', (∀ x, db.stageRow r x = none) →
      Exec (runSystem maxRuns (OthersEnv r)) (execute registered r request files freshSession) db t
        (.pure result) db' → StageRowsClosed r t db') ↔
      (files.map StreamFile.sensorType).Nodup := by
  refine ⟨fun hall ↦ ?_, fun hnodup _ _ _ _ _ _ hnone hexec ↦
    stageRowsClosed_of_nodup haccepted hnodup hnone hexec⟩
  by_contra hdup
  obtain ⟨t, result, db', hexec, x, row, hrow, hpending⟩ :=
    exists_pending_of_not_nodup registered r request hdup 1 ""
  have hclosed := (hall 1 "" (startedDb r) t result db' (fun _ ↦ rfl) hexec).closed x row hrow
  rw [hpending] at hclosed
  exact absurd hclosed (by decide)

/-! ## Two streams of one sensor type -/

/-- A request with two streams of one sensor type. -/
def imuTwiceRequest : PipelineRunRequest :=
  { imuRequest with streams := [⟨"imu", []⟩, ⟨"imu", []⟩] }

/-- Their files. -/
def imuTwiceFiles : List StreamFile := [⟨"imu", "left.csv", none, []⟩, ⟨"imu", "right.csv", none, []⟩]

theorem accepted_imuTwice : Accepted ["imu"] imuTwiceRequest imuTwiceFiles :=
  ⟨by decide, by decide⟩

theorem stageRowsClosed_iff_imuTwice :
    (∀ maxRuns freshSession db t result db', (∀ x, db.stageRow "run_1" x = none) →
      Exec (runSystem maxRuns (OthersEnv "run_1"))
        (execute ["imu"] "run_1" imuTwiceRequest imuTwiceFiles freshSession) db t (.pure result) db' →
      StageRowsClosed "run_1" t db') ↔
      (imuTwiceFiles.map StreamFile.sensorType).Nodup :=
  stageRowsClosed_iff accepted_imuTwice

/-- The execution of that request, without interference. -/
def imuTwicePoint : Point RunOp RunOp.Ans RunDb Unit (Except StageExit String) :=
  simulate (fun i o db ↦ o.run 2 i db) (fun _ db ↦ db) (List.replicate 20 (.own lengtheningInput))
    (execute ["imu"] "run_1" imuTwiceRequest imuTwiceFiles "0") (startedDb "run_1")

theorem exec_imuTwicePoint : Exec (runSystem 2 (OthersEnv "run_1"))
    (execute ["imu"] "run_1" imuTwiceRequest imuTwiceFiles "0") (startedDb "run_1")
    imuTwicePoint.history imuTwicePoint.rest imuTwicePoint.state :=
  exec_simulate (S := runSystem 2 (OthersEnv "run_1")) (fun i _ _ ↦ ⟨i, rfl⟩) (fun _ _ _ ↦ rfl) _ _ _

/-- The first ingestion fails, the remaining rows are skipped, and the row of the first stream's
ingestion is still pending when the execution has ended. -/
theorem stageRows_left_pending :
    Accepted ["imu"] imuTwiceRequest imuTwiceFiles ∧
      (∀ x, (startedDb "run_1").stageRow "run_1" x = none) ∧
      ∃ t result db', Exec (runSystem 2 (OthersEnv "run_1"))
        (execute ["imu"] "run_1" imuTwiceRequest imuTwiceFiles "0") (startedDb "run_1") t
        (.pure result) db' ∧
        ¬ StageRowsClosed "run_1" t db' := by
  have hexec := exec_imuTwicePoint
  rw [Prog.eq_pure_of_result? (by decide +kernel : imuTwicePoint.rest.result? = some (.error (.failed
    ⟨"ingestion:imu", "INTERNAL_STAGE_ERROR",
      "An internal error occurred while executing this stage"⟩)))] at hexec
  refine ⟨accepted_imuTwice, fun _ ↦ rfl, _, _, _, hexec, fun hclosed ↦ ?_⟩
  have hrow : (imuTwicePoint.state.stageRow "run_1" "stagerun_").map StageRow.status
      = some .pending := by
    decide +kernel
  obtain ⟨row, hrow, hpending⟩ := Option.map_eq_some_iff.1 hrow
  have hst := hclosed.closed _ row hrow
  rw [hpending] at hst
  exact absurd hst (by decide)

end ForgeData
