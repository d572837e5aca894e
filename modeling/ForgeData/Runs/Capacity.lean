import ForgeData.Runs.Transitions

/-!
# Is the run capacity kept?

A run is only created while fewer than `MAX_LOCAL_PIPELINE_RUNS` runs are active, and every validated
transition and every reconciliation starts from an active status, so none of them occupies a slot. The
stage boundary write may: it can make a run active whose slot has been given away. The bound holds in
every run of the pool whose boundary writes find their run active, or find room.
-/

namespace ForgeData

open Python Interleaving

namespace RunDb

variable {db : RunDb} {r : String} {f : RunRow → RunRow}

theorem countActiveRuns_congr {db' : RunDb} (h : db'.pipelineRuns = db.pipelineRuns) :
    db'.countActiveRuns = db.countActiveRuns := by
  rw [countActiveRuns, countActiveRuns, h]

theorem countActiveRuns_updateRun {row : RunRow} (h : db.getRun r = some row) :
    (db.updateRun r f).countActiveRuns + (if row.status.Active then 1 else 0)
      = db.countActiveRuns + (if (f row).status.Active then 1 else 0) := by
  obtain ⟨l₁, l₂, hold, hnew⟩ := Dict.exists_items_modify h f
  rw [countActiveRuns, countActiveRuns, updateRun, hold, hnew]
  simp only [List.countP_append, List.countP_cons, decide_eq_true_eq]
  omega

theorem updateRun_of_getRun_eq_none (h : db.getRun r = none) : db.updateRun r f = db := by
  rw [updateRun, Dict.modify_eq_self_of_get?_eq_none h]

theorem countActiveRuns_updateRun_le
    (h : ∀ row, db.getRun r = some row → (f row).status.Active → row.status.Active) :
    (db.updateRun r f).countActiveRuns ≤ db.countActiveRuns := by
  rcases hrow : db.getRun r with _ | row
  · exact Nat.le_of_eq (congrArg _ (updateRun_of_getRun_eq_none hrow))
  · have hcount := countActiveRuns_updateRun (f := f) hrow
    by_cases hnew : (f row).status.Active
    · rw [if_pos hnew, if_pos (h row hrow hnew)] at hcount
      omega
    · rw [if_neg hnew] at hcount
      omega

theorem countActiveRuns_updateRun_le_succ :
    (db.updateRun r f).countActiveRuns ≤ db.countActiveRuns + 1 := by
  rcases hrow : db.getRun r with _ | row
  · rw [updateRun_of_getRun_eq_none hrow]
    exact Nat.le_succ _
  · have hcount := countActiveRuns_updateRun (f := f) hrow
    split at hcount <;> split at hcount <;> omega

theorem active_of_mem_transitions {st new : RunStatus} (h : new ∈ st.transitions) : st.Active := by
  by_contra hst
  rw [← RunStatus.terminal_iff_not_active, RunStatus.terminal_iff_transitions_eq_nil] at hst
  rw [hst] at h
  cases h

theorem countActiveRuns_markStatus_le (db : RunDb) (runId : String) (new : RunStatus)
    (columns : RunRow → RunRow) (eventType : String) (detail : Option String) (createdAt : String) :
    (db.markStatus runId new columns eventType detail createdAt).2.countActiveRuns
      ≤ db.countActiveRuns := by
  rcases hrow : db.getRun runId with _ | row
  · simp [markStatus, requireRun, hrow]
  · by_cases hnew : new ∈ row.status.transitions
    · simp only [markStatus, requireRun, hrow, validateRunTransition, if_pos hnew]
      rw [countActiveRuns_congr (pipelineRuns_recordEvent _)]
      refine countActiveRuns_updateRun_le fun row' hrow' _ ↦ ?_
      rw [hrow] at hrow'
      cases hrow'
      exact active_of_mem_transitions hnew
    · simp [markStatus, requireRun, hrow, validateRunTransition, if_neg hnew]

theorem countActiveRuns_requestCancel_le (db : RunDb) (runId : String) (now : ℕ → String) :
    (db.requestCancel runId now).2.countActiveRuns ≤ db.countActiveRuns := by
  rcases db.requestCancel_eq_markStatus runId now with ⟨st, -, -, heq⟩ | ⟨-, heq⟩
  · rw [heq]
    exact countActiveRuns_markStatus_le ..
  · exact Nat.le_of_eq (congrArg _ heq)

theorem countActiveRuns_reconcileStale_le (db : RunDb) (runId threshold : String)
    (now : ℕ → String) :
    (db.reconcileStale runId threshold now).2.countActiveRuns ≤ db.countActiveRuns := by
  rw [reconcileStale]
  split
  · exact Nat.le_refl _
  · next row hrow =>
    split
    · rw [countActiveRuns_congr (pipelineRuns_recordEvent _)]
      refine countActiveRuns_updateRun_le fun _ _ h ↦ absurd h ?_
      exact (by decide : ¬ RunStatus.failed.Active)
    · exact Nat.le_refl _

theorem countActiveRuns_touchHeartbeat_le (db : RunDb) (runId at_ : String) :
    (db.touchHeartbeat runId at_).countActiveRuns ≤ db.countActiveRuns := by
  refine countActiveRuns_updateRun_le fun row _ h ↦ ?_
  split at h <;> exact h

/-- A run is created only while there is room. -/
theorem countActiveRuns_admitRun_le (db : RunDb) (maxRuns : ℕ)
    (runType requestJson configHash : String) (now fresh : ℕ → String)
    (h : db.countActiveRuns ≤ maxRuns) :
    (db.admitRun maxRuns runType requestJson configHash now fresh).2.countActiveRuns ≤ maxRuns := by
  rw [admitRun]
  split
  · exact h
  · next hroom =>
    split
    · exact h
    · next db' hcreate =>
      rw [createRun] at hcreate
      split at hcreate
      · cases hcreate
      · next hfree =>
        cases hcreate
        rw [Dict.contains, Bool.not_eq_true, Option.isSome_eq_false_iff, Option.isNone_iff_eq_none,
          Dict.get?_eq_none_iff] at hfree
        rw [countActiveRuns_congr (pipelineRuns_recordEvent _), countActiveRuns,
          Dict.items_set_of_notMem hfree, List.countP_append, ← countActiveRuns,
          List.countP_singleton]
        split <;> omega

end RunDb

/-! ## One operation and whole runs -/

/-- If the operation is a stage boundary write, it finds its run active, or finds room. -/
def boundaryInCapacity (maxRuns : ℕ) : RunOp → RunDb → Bool
  | .updateCurrentStage r _, db =>
    ((db.runStatus r).all fun st ↦ st.Active) || decide (db.countActiveRuns < maxRuns)
  | _, _ => true

open RunDb in
/-- **One operation keeps the bound.** -/
theorem RunOp.countActiveRuns_run_le {maxRuns : ℕ} {i : Input} {o : RunOp} {db : RunDb}
    (h : db.countActiveRuns ≤ maxRuns) (hroom : boundaryInCapacity maxRuns o db) :
    (o.run maxRuns i db).2.countActiveRuns ≤ maxRuns := by
  cases o with
  | updateCurrentStage r stage =>
    rw [boundaryInCapacity, Bool.or_eq_true, decide_eq_true_eq] at hroom
    rcases hroom with hactive | hroom
    · refine Nat.le_trans (countActiveRuns_updateRun_le fun row hrow _ ↦ ?_) h
      rw [runStatus, hrow] at hactive
      simpa using hactive
    · exact Nat.le_trans countActiveRuns_updateRun_le_succ hroom
  | createRun runType requestJson configHash => exact countActiveRuns_admitRun_le _ _ _ _ _ _ _ h
  | markRunning | markCompleted | markFailed | markCancelled =>
    exact Nat.le_trans (countActiveRuns_markStatus_le ..) h
  | requestCancel runId => exact Nat.le_trans (countActiveRuns_requestCancel_le ..) h
  | reconcileStale runId threshold => exact Nat.le_trans (countActiveRuns_reconcileStale_le ..) h
  | touchHeartbeat runId => exact Nat.le_trans (countActiveRuns_touchHeartbeat_le ..) h
  | createAllStageRuns =>
    rwa [run, countActiveRuns_congr (pipelineRuns_createAllStageRuns ..)]
  | recordArtifact =>
    rwa [run, countActiveRuns_congr (pipelineRuns_recordRunArtifact ..)]
  | getRun | check | findStaleRunningRuns | startStage | completeStage | failStage | skipStage
  | cancelStage | updateRecordsTotal | beginWork | endWork => exact h

/-- **Run capacity.** From a state within the bound, every run of the pool whose boundary writes find
their run active, or find room, stays within the bound. -/
theorem countActiveRuns_le {maxRuns : ℕ} {registered : List String} {ps qs : List (RunProg Unit)}
    {db db' : RunDb} {t : List RunPoolStep}
    (hpool : PoolRun (RunSem maxRuns) (RunParty registered) ps db t qs db')
    (hstart : db.countActiveRuns ≤ maxRuns)
    (hboundary : ∀ x ∈ t, boundaryInCapacity maxRuns x.op x.before) :
    db'.countActiveRuns ≤ maxRuns ∧ ∀ x ∈ t, x.after.countActiveRuns ≤ maxRuns := by
  refine hpool.invariant (J := fun db ↦ db.countActiveRuns ≤ maxRuns) (fun x hx hbefore ↦ ?_) hstart
  obtain ⟨i, hrun⟩ := hpool.sem_of_mem x hx
  rw [show x.after = (x.op.run maxRuns i x.before).2 from (congrArg Prod.snd hrun).symm]
  exact RunOp.countActiveRuns_run_le hbefore (hboundary x hx)

/-! ## A slot that is taken twice

With room for one run, the executor passes a boundary check, the run is reconciled and another one is
created in its place; then the executor goes on and writes. -/

/-- The schedule that fills the slot twice. -/
def overbookedTurns : List (PoolTurn RunOp RunOp.Ans Input) :=
  .start imuLocalRun.discard :: List.replicate 5 (.act 0 quietInput)
    ++ [.start (reconcile "2026-01-01T00:01:00+00:00").discard, .act 1 quietInput,
      .act 1 quietInput, .start (createRun ["imu"] imuRequest "pipeline" "" "").discard,
      .act 2 quietInput, .act 0 quietInput]

theorem countActiveRuns_le_first_stage :
    (poolPoint 1 firstStageTurns).state.countActiveRuns ≤ 1 ∧
      ∀ x ∈ (poolPoint 1 firstStageTurns).history, x.after.countActiveRuns ≤ 1 :=
  countActiveRuns_le (poolRun_poolPoint 1 runParty_firstStageTurns) (by decide) (by decide +kernel)

theorem runParty_overbookedTurns : ∀ p, .start p ∈ overbookedTurns → RunParty ["imu"] p := by
  intro p hp
  rcases List.mem_cons.1 (PoolTurn.mem_started.2 hp) with rfl | hp
  · exact .localRun ..
  rcases List.mem_pair.1 hp with rfl | rfl
  · exact .reconcile _
  · exact .createRun ..

/-- There is room for one run, and two are active. -/
theorem capacity_exceeded :
    PoolRun (RunSem 1) (RunParty ["imu"]) [] (dbWithRun .queued)
        (poolPoint 1 overbookedTurns).history (poolPoint 1 overbookedTurns).threads
        (poolPoint 1 overbookedTurns).state ∧
      (dbWithRun .queued).countActiveRuns = 1 ∧
      (poolPoint 1 overbookedTurns).state.countActiveRuns = 2 :=
  ⟨poolRun_poolPoint 1 runParty_overbookedTurns, by decide, by decide +kernel⟩

end ForgeData
