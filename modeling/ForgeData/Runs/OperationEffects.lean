import ForgeData.Runs.Operations
import Mathlib.Logic.Function.Basic

/-!
# What an operation can do to the run tables

The only place where `RunOp.run` is unfolded for the status of a run. A validated transition either
follows the table or changes nothing; the write at a stage boundary and the creation of a run are
the two operations that write a status without looking at the table.
-/

namespace ForgeData

open Python Interleaving

namespace RunDb

variable {db : RunDb}

theorem runStatus_updateRun_of_eq_some {runId : String} {st new : RunStatus} {f : RunRow → RunRow}
    (h : db.runStatus runId = some st) (hf : ∀ row, (f row).status = new) :
    (db.updateRun runId f).runStatus = Function.update db.runStatus runId (some new) := by
  rw [runStatus, Option.map_eq_some_iff] at h
  obtain ⟨row, hrow, -⟩ := h
  funext r
  rw [runStatus_updateRun, Function.update_apply]
  split
  · next hr => rw [hr, hrow, Option.map_some, hf]
  · rfl

/-- A validated transition: it is in the table and made, or nothing is changed. -/
theorem markStatus_cases (db : RunDb) (runId : String) (new : RunStatus) (columns : RunRow → RunRow)
    (eventType : String) (detail : Option String) (createdAt : String) :
    (∃ st, db.runStatus runId = some st ∧ new ∈ st.transitions ∧
        (db.markStatus runId new columns eventType detail createdAt).1 = .ok () ∧
        (db.markStatus runId new columns eventType detail createdAt).2.runStatus
          = Function.update db.runStatus runId (some new)) ∨
      (∀ st, db.runStatus runId = some st → new ∉ st.transitions) ∧
        ∃ e, db.markStatus runId new columns eventType detail createdAt = (.error e, db) := by
  rcases h : db.getRun runId with _ | row
  · right
    simp [runStatus, markStatus, requireRun, h]
  · have hst : db.runStatus runId = some row.status := by rw [runStatus, h, Option.map_some]
    by_cases hnew : new ∈ row.status.transitions
    · refine .inl ⟨row.status, hst, hnew, ?_⟩
      simp only [markStatus, requireRun, h, validateRunTransition, if_pos hnew, true_and]
      rw [funext (runStatus_congr (pipelineRuns_recordEvent _))]
      exact runStatus_updateRun_of_eq_some hst fun _ ↦ rfl
    · refine .inr ⟨fun st h' ↦ ?_, ?_⟩
      · rwa [Option.some.inj (h'.symm.trans hst)]
      · simp [markStatus, requireRun, h, validateRunTransition, if_neg hnew]

theorem stageRuns_markStatus (db : RunDb) (runId : String) (new : RunStatus)
    (columns : RunRow → RunRow) (eventType : String) (detail : Option String) (createdAt : String) :
    (db.markStatus runId new columns eventType detail createdAt).2.stageRuns = db.stageRuns := by
  rw [markStatus]
  split
  · rfl
  · split <;> rfl

theorem requestCancel_eq_markStatus (db : RunDb) (runId : String) (now : ℕ → String) :
    (∃ st, db.runStatus runId = some st ∧ (st = .queued ∨ st = .running) ∧
        db.requestCancel runId now
          = db.markStatus runId .cancelRequested id "CANCEL_REQUESTED" none (now 0)) ∨
      (∀ st, db.runStatus runId = some st → st ≠ .queued ∧ st ≠ .running) ∧
        (db.requestCancel runId now).2 = db := by
  rcases h : db.getRun runId with _ | row
  · right
    simp [runStatus, requestCancel, requireRun, h]
  · have hst : db.runStatus runId = some row.status := by rw [runStatus, h, Option.map_some]
    by_cases hrow : row.status = .queued ∨ row.status = .running
    · refine .inl ⟨row.status, hst, hrow, ?_⟩
      simp only [requestCancel, requireRun, h, if_pos hrow]
    · refine .inr ⟨fun st h' ↦ ?_, ?_⟩
      · rw [Option.some.inj (h'.symm.trans hst)]
        exact not_or.1 hrow
      · simp only [requestCancel, requireRun, h, if_neg hrow]

/-- **What `request_cancel` does to the statuses**: a queued or running run becomes
cancel-requested, nothing else changes. -/
theorem runStatus_requestCancel (db : RunDb) (runId : String) (now : ℕ → String) :
    (db.requestCancel runId now).2.runStatus
      = if db.runStatus runId = some .queued ∨ db.runStatus runId = some .running then
          Function.update db.runStatus runId (some .cancelRequested) else db.runStatus := by
  rcases db.requestCancel_eq_markStatus runId now with ⟨st, hst, hcase, heq⟩ | ⟨hne, heq⟩
  · have htrans : RunStatus.cancelRequested ∈ st.transitions := by
      rcases hcase with rfl | rfl <;> decide
    rw [heq, if_pos (by rcases hcase with rfl | rfl <;> simp [hst])]
    rcases db.markStatus_cases runId .cancelRequested id "CANCEL_REQUESTED" none (now 0) with
      ⟨-, -, -, -, hstatus⟩ | ⟨hno, -⟩
    · exact hstatus
    · exact absurd htrans (hno st hst)
  · rw [heq, if_neg]
    rintro (h | h)
    · exact (hne _ h).1 rfl
    · exact (hne _ h).2 rfl

theorem stageRuns_requestCancel (db : RunDb) (runId : String) (now : ℕ → String) :
    (db.requestCancel runId now).2.stageRuns = db.stageRuns := by
  rcases db.requestCancel_eq_markStatus runId now with ⟨-, -, -, heq⟩ | ⟨-, heq⟩
  · rw [heq, stageRuns_markStatus]
  · rw [heq]

/-- What a pass of `reconcile` does to the statuses: a run in progress becomes failed, or nothing
changes. -/
theorem runStatus_reconcileStale (db : RunDb) (runId threshold : String) (now : ℕ → String) :
    (db.reconcileStale runId threshold now).2 = db ∨
      ∃ st, db.runStatus runId = some st ∧ (st = .running ∨ st = .cancelRequested) ∧
        (db.reconcileStale runId threshold now).2.runStatus
          = Function.update db.runStatus runId (some .failed) := by
  rcases h : db.getRun runId with _ | row
  · left
    simp only [reconcileStale, h]
  · by_cases hstale : Stale row threshold
    · have hst : db.runStatus runId = some row.status := by rw [runStatus, h, Option.map_some]
      refine .inr ⟨row.status, hst, hstale.1, ?_⟩
      simp only [reconcileStale, h, if_pos hstale]
      rw [funext (runStatus_congr (pipelineRuns_recordEvent _))]
      exact runStatus_updateRun_of_eq_some hst fun _ ↦ rfl
    · left
      simp only [reconcileStale, h, if_neg hstale]

/-- What `create_run` does to the statuses: a run that did not exist becomes queued, while there is
room, or nothing changes. -/
theorem admitRun_cases (db : RunDb) (maxRuns : ℕ) (runType requestJson configHash : String)
    (now fresh : ℕ → String) :
    (db.admitRun maxRuns runType requestJson configHash now fresh).2 = db ∨
      ∃ runId, db.runStatus runId = none ∧ db.countActiveRuns < maxRuns ∧
        (db.admitRun maxRuns runType requestJson configHash now fresh).2.runStatus
          = Function.update db.runStatus runId (some .queued) := by
  rw [admitRun]
  split
  · exact .inl rfl
  · next hroom =>
    rcases h : db.createRun ("run_" ++ fresh 0)
      { runType, status := .queued, createdAt := now 0, requestJson, configHash } with _ | db'
    · exact .inl rfl
    · right
      rw [createRun] at h
      split at h
      · cases h
      · next hfree =>
        cases h
        rw [Dict.contains, Bool.not_eq_true, Option.isSome_eq_false_iff, Option.isNone_iff_eq_none]
          at hfree
        refine ⟨"run_" ++ fresh 0, by rw [runStatus, getRun, hfree]; rfl, Nat.not_le.1 hroom, ?_⟩
        funext r
        rw [runStatus_congr (pipelineRuns_recordEvent _), runStatus, getRun, Dict.get?_set,
          Function.update_apply]
        split <;> rfl

theorem runStatus_touchHeartbeat (db : RunDb) (runId at_ : String) :
    (db.touchHeartbeat runId at_).runStatus = db.runStatus := by
  funext r
  rw [touchHeartbeat, runStatus_updateRun]
  split
  · rw [runStatus]
    congr 1
    funext row
    split <;> rfl
  · rfl

/-- The creation of the stage rows writes to no other table. -/
theorem exists_createAllStageRuns_eq (db : RunDb) (runId : String) (plannedStages : List StageName)
    (fresh : ℕ → String) :
    ∃ rows, (db.createAllStageRuns runId plannedStages fresh).2 = { db with stageRuns := rows } := by
  rw [createAllStageRuns]
  suffices h : ∀ (stages : List StageName) (n : ℕ) (db₁ db₂ : RunDb) (ids₁ ids₂),
      insertStageRuns runId fresh stages n db₁ ids₁ = some (db₂, ids₂) →
        ∃ rows, db₂ = { db₁ with stageRuns := rows } by
    split
    · exact ⟨db.stageRuns, rfl⟩
    · next heq => exact h _ _ _ _ _ _ heq
  intro stages
  induction stages with
  | nil =>
    intro n db₁ db₂ ids₁ ids₂ h
    cases h
    exact ⟨db₁.stageRuns, rfl⟩
  | cons stage rest ih =>
    intro n db₁ db₂ ids₁ ids₂ h
    rw [insertStageRuns] at h
    split at h
    · cases h
    · next db' heq =>
      obtain ⟨rows, rfl⟩ := ih _ _ _ _ _ h
      rw [createStageRun] at heq
      split at heq
      · cases heq
      · split at heq
        · cases heq
          exact ⟨rows, rfl⟩
        · cases heq

theorem pipelineRuns_createAllStageRuns (db : RunDb) (runId : String) (plannedStages : List StageName)
    (fresh : ℕ → String) :
    (db.createAllStageRuns runId plannedStages fresh).2.pipelineRuns = db.pipelineRuns := by
  obtain ⟨rows, heq⟩ := db.exists_createAllStageRuns_eq runId plannedStages fresh
  rw [heq]

theorem runEvents_createAllStageRuns (db : RunDb) (runId : String) (plannedStages : List StageName)
    (fresh : ℕ → String) :
    (db.createAllStageRuns runId plannedStages fresh).2.runEvents = db.runEvents := by
  obtain ⟨rows, heq⟩ := db.exists_createAllStageRuns_eq runId plannedStages fresh
  rw [heq]

end RunDb

/-! ## One operation -/

/-- What may become of the status of a run in one step, `none` standing for a run that does not
exist. -/
inductive StatusStep : Option RunStatus → Option RunStatus → Prop where
  | same (st : Option RunStatus) : StatusStep st st
  | transition {st new : RunStatus} (h : new ∈ st.transitions) : StatusStep (some st) (some new)
  | created : StatusStep none (some .queued)

theorem StatusStep.update {f : String → Option RunStatus} {runId : String}
    {new : Option RunStatus} (h : StatusStep (f runId) new) (r : String) :
    StatusStep (f r) (Function.update f runId new r) := by
  rw [Function.update_apply]
  split
  · next hr => rwa [hr]
  · exact .same _

namespace RunDb

theorem statusStep_markStatus (db : RunDb) (runId : String) (new : RunStatus)
    (columns : RunRow → RunRow) (eventType : String) (detail : Option String) (createdAt : String)
    (r : String) : StatusStep (db.runStatus r)
      ((db.markStatus runId new columns eventType detail createdAt).2.runStatus r) := by
  rcases db.markStatus_cases runId new columns eventType detail createdAt with
    ⟨st, hst, hnew, -, hstatus⟩ | ⟨-, e, heq⟩
  · rw [hstatus]
    exact .update (by rw [hst]; exact .transition hnew) r
  · rw [heq]
    exact .same _

end RunDb

open RunDb in
/-- **Every operation but the stage boundary write follows the transition table**, whatever state it
is performed in. -/
theorem RunOp.statusStep_run {maxRuns : ℕ} {i : Input} {o : RunOp} {db : RunDb} {r : String}
    (h : ∀ stage, o ≠ .updateCurrentStage r stage) :
    StatusStep (db.runStatus r) ((o.run maxRuns i db).2.runStatus r) := by
  cases o with
  | updateCurrentStage runId stage =>
    rw [run, runStatus_updateRun, if_neg fun hr ↦ h stage (by rw [hr])]
    exact .same _
  | markRunning | markCompleted | markFailed | markCancelled => exact statusStep_markStatus ..
  | requestCancel runId =>
    rw [run, runStatus_requestCancel]
    split
    · next hst =>
      refine .update ?_ r
      rcases hst with hst | hst <;> exact hst ▸ .transition (by decide)
    · exact .same _
  | createRun runType requestJson configHash =>
    rcases db.admitRun_cases maxRuns runType requestJson configHash i.now i.fresh with
      heq | ⟨runId, hnone, -, heq⟩
    · rw [run, heq]
      exact .same _
    · rw [run, heq]
      exact .update (hnone ▸ .created) r
  | reconcileStale runId threshold =>
    rcases db.runStatus_reconcileStale runId threshold i.now with heq | ⟨st, hst, hcase, heq⟩
    · rw [run, heq]
      exact .same _
    · rw [run, heq]
      refine .update ?_ r
      rcases hcase with rfl | rfl <;> exact hst ▸ .transition (by decide)
  | touchHeartbeat runId =>
    rw [run, runStatus_touchHeartbeat]
    exact .same _
  | createAllStageRuns runId plannedStages =>
    rw [run, runStatus_congr (pipelineRuns_createAllStageRuns ..)]
    exact .same _
  | recordArtifact runId stage artifactType artifactId =>
    rw [run, runStatus_congr (pipelineRuns_recordRunArtifact ..)]
    exact .same _
  | getRun | check | findStaleRunningRuns | startStage | completeStage | failStage | skipStage
  | cancelStage | updateRecordsTotal | beginWork | endWork => exact .same _

/-- The operations that do not write the status of any run. -/
def RunOp.Quiet : RunOp → Prop
  | createRun .. | markRunning .. | markCompleted _ | markFailed .. | markCancelled _
  | requestCancel _ | reconcileStale .. | updateCurrentStage .. => False
  | _ => True

open RunDb in
theorem RunOp.runStatus_of_quiet {maxRuns : ℕ} {i : Input} {o : RunOp} {a : o.Ans} {db db' : RunDb}
    (hrun : o.run maxRuns i db = (a, db')) (h : o.Quiet) : db'.runStatus = db.runStatus := by
  rw [show db' = (o.run maxRuns i db).2 from (congrArg Prod.snd hrun).symm]
  cases o with
  | createRun | markRunning | markCompleted | markFailed | markCancelled | requestCancel
  | reconcileStale | updateCurrentStage => exact h.elim
  | touchHeartbeat runId => exact runStatus_touchHeartbeat ..
  | createAllStageRuns => exact funext (runStatus_congr (pipelineRuns_createAllStageRuns ..))
  | recordArtifact => exact funext (runStatus_congr (pipelineRuns_recordRunArtifact ..))
  | getRun | check | findStaleRunningRuns | startStage | completeStage | failStage | skipStage
  | cancelStage | updateRecordsTotal | beginWork | endWork => rfl

/-- The operations that do not touch the stage rows. -/
def RunOp.OffStageRows : RunOp → Prop
  | createAllStageRuns .. | startStage _ | completeStage .. | failStage .. | skipStage _
  | cancelStage _ | updateRecordsTotal .. => False
  | _ => True

open RunDb in
theorem RunOp.stageRuns_of_offStageRows {maxRuns : ℕ} {i : Input} {o : RunOp} {a : o.Ans}
    {db db' : RunDb} (hrun : o.run maxRuns i db = (a, db')) (h : o.OffStageRows) :
    db'.stageRuns = db.stageRuns := by
  rw [show db' = (o.run maxRuns i db).2 from (congrArg Prod.snd hrun).symm]
  cases o with
  | createAllStageRuns | startStage | completeStage | failStage | skipStage | cancelStage
  | updateRecordsTotal => exact h.elim
  | markRunning | markCompleted | markFailed | markCancelled => exact stageRuns_markStatus ..
  | requestCancel => exact stageRuns_requestCancel ..
  | createRun runType requestJson configHash =>
    rw [run, admitRun]
    split
    · rfl
    · split
      · rfl
      · next hcreate =>
        rw [RunDb.createRun] at hcreate
        split at hcreate
        · cases hcreate
        · cases hcreate
          rfl
  | reconcileStale runId threshold =>
    rw [run, RunDb.reconcileStale]
    split
    · rfl
    · split <;> rfl
  | recordArtifact => exact stageRuns_recordRunArtifact ..
  | getRun | check | findStaleRunningRuns | touchHeartbeat | updateCurrentStage | beginWork
  | endWork => rfl

theorem RunOp.runStatus_of_updateCurrentStage {maxRuns : ℕ} {i : Input} {runId : String}
    {stage : StageName} {a : Unit} {db db' : RunDb} {st : RunStatus}
    (hrun : (updateCurrentStage runId stage).run maxRuns i db = (a, db'))
    (h : db.runStatus runId = some st) :
    db'.runStatus = Function.update db.runStatus runId (some .running) := by
  rw [show db' = ((updateCurrentStage runId stage).run maxRuns i db).2 from
    (congrArg Prod.snd hrun).symm]
  exact RunDb.runStatus_updateRun_of_eq_some h fun _ ↦ rfl

theorem RunDb.of_markStatus_eq_ok {runId : String} {new : RunStatus} {columns : RunRow → RunRow}
    {eventType : String} {detail : Option String} {createdAt : String} {db db' : RunDb}
    (h : db.markStatus runId new columns eventType detail createdAt = (.ok (), db')) :
    (∃ st, db.runStatus runId = some st ∧ new ∈ st.transitions) ∧
      db'.runStatus = Function.update db.runStatus runId (some new) := by
  rcases db.markStatus_cases runId new columns eventType detail createdAt with
    ⟨st, hst, hnew, -, hstatus⟩ | ⟨-, e, heq⟩
  · rw [h] at hstatus
    exact ⟨⟨st, hst, hnew⟩, hstatus⟩
  · rw [h] at heq
    cases heq

theorem RunDb.of_markStatus_eq_error {runId : String} {new : RunStatus} {columns : RunRow → RunRow}
    {eventType : String} {detail : Option String} {createdAt : String} {db db' : RunDb} {e : RunError}
    (h : db.markStatus runId new columns eventType detail createdAt = (.error e, db')) :
    (∀ st, db.runStatus runId = some st → new ∉ st.transitions) ∧ db' = db := by
  rcases db.markStatus_cases runId new columns eventType detail createdAt with
    ⟨st, -, -, hok, -⟩ | ⟨hno, e, heq⟩
  · rw [h] at hok
    cases hok
  · rw [h] at heq
    cases heq
    exact ⟨hno, rfl⟩

theorem RunDb.runStatus_of_markStatus {runId : String} {st new : RunStatus}
    {columns : RunRow → RunRow} {eventType : String} {detail : Option String} {createdAt : String}
    {db db' : RunDb} {a : Except RunError Unit}
    (h : db.markStatus runId new columns eventType detail createdAt = (a, db'))
    (hst : db.runStatus runId = some st) :
    db'.runStatus runId = some (if new ∈ st.transitions then new else st) := by
  rcases a with e | ⟨⟩
  · obtain ⟨hno, rfl⟩ := of_markStatus_eq_error h
    rw [hst, if_neg (hno st hst)]
  · obtain ⟨⟨st', hst', hnew⟩, hstatus⟩ := of_markStatus_eq_ok h
    rw [hstatus, Function.update_self, Option.some.inj (hst.symm.trans hst'), if_pos hnew]

theorem RunDb.runStatus_ne_of_markStatus {runId : String} {new other : RunStatus}
    {columns : RunRow → RunRow} {eventType : String} {detail : Option String} {createdAt : String}
    {db db' : RunDb} {a : Except RunError Unit}
    (h : db.markStatus runId new columns eventType detail createdAt = (a, db'))
    (hnew : new ≠ other) (hst : db.runStatus runId ≠ some other) :
    db'.runStatus runId ≠ some other := by
  rcases a with e | ⟨⟩
  · rwa [(of_markStatus_eq_error h).2]
  · rw [(of_markStatus_eq_ok h).2, Function.update_self]
    exact fun heq ↦ hnew (Option.some.inj heq)

end ForgeData
