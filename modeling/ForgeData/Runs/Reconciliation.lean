import ForgeData.Interleaving.PoolProtocol
import ForgeData.Python.IsoOrder
import ForgeData.Runs.Transitions

/-!
# Reconciliation

Reconciliation reads the stale runs first and comes back to each of them in a transaction of its own,
while executors go on with their heartbeats. It is safe since the transaction reads the row again, and
since the texts of heartbeats and thresholds sort as their times do. What a second reconciliation finds
is what has become stale in the meantime.
-/

namespace ForgeData

open Python Interleaving

/-! ## Clocks -/

/-- What a clock shows: the text of a time in UTC. -/
def ClockTime (text : String) : Prop := ∃ t : Datetime, text = t.isoText

/-- The operations on the run tables, with clocks that show times. -/
abbrev ClockedSem (maxRuns : ℕ) : (o : RunOp) → RunDb → o.Ans → RunDb → Prop := fun o db a db' ↦
  ∃ i : Input, (∀ n, ClockTime (i.now n)) ∧ o.run maxRuns i db = (a, db')

/-- The programs that write to the run tables; a reconciliation takes its threshold from the clock. -/
inductive ClockedParty (registered : List String) : RunProg Unit → Prop
  | localRun (r executorId : String) (request : PipelineRunRequest) (files : List StreamFile)
      (freshSession : String) :
    ClockedParty registered (localRun registered r executorId request files freshSession).discard
  | requestCancel (r : String) : ClockedParty registered (requestCancel r).discard
  | reconcile (threshold : Datetime) : ClockedParty registered (reconcile threshold.isoText).discard
  | createRun (request : PipelineRunRequest) (runType requestJson configHash : String) :
    ClockedParty registered (createRun registered request runType requestJson configHash).discard

/-- All heartbeats are from clocks. -/
def RunDb.Clocked (db : RunDb) : Prop :=
  ∀ r row, db.getRun r = some row → ∀ text ∈ row.lastHeartbeatAt, ClockTime text

/-- The run is in progress, and its last heartbeat is absent or earlier than the threshold. -/
def RunDb.Lost (db : RunDb) (r : String) (threshold : Datetime) : Prop :=
  ∃ row, db.getRun r = some row ∧ (row.status = .running ∨ row.status = .cancelRequested) ∧
    ∀ text ∈ row.lastHeartbeatAt, ∃ heartbeat : Datetime, text = heartbeat.isoText ∧
      heartbeat.epochUs < threshold.epochUs

namespace RunDb

variable {db : RunDb}

/-- **What is stale as a text is stale in time.** -/
theorem Clocked.stale_iff (h : db.Clocked) {r : String} {row : RunRow} (hrow : db.getRun r = some row)
    {threshold : Datetime} : Stale row threshold.isoText ↔ db.Lost r threshold := by
  constructor
  · rintro ⟨hstatus, hheartbeat⟩
    refine ⟨row, hrow, hstatus, fun text htext ↦ ?_⟩
    obtain ⟨heartbeat, rfl⟩ := h r row hrow text htext
    exact ⟨heartbeat, rfl, Datetime.isoText_lt_iff.mp (hheartbeat _ htext)⟩
  · rintro ⟨row', hrow', hstatus, hheartbeat⟩
    obtain rfl := Option.some.inj (hrow'.symm.trans hrow)
    refine ⟨hstatus, fun text htext ↦ ?_⟩
    obtain ⟨heartbeat, rfl, hlt⟩ := hheartbeat text htext
    exact Datetime.isoText_lt_iff.mpr hlt

/-! ## What keeps the heartbeats -/

theorem Clocked.congr {db' : RunDb} (h : db.Clocked) (heq : db'.pipelineRuns = db.pipelineRuns) :
    db'.Clocked := by
  intro r row hrow
  rw [getRun, heq] at hrow
  exact h r row hrow

theorem Clocked.recordEvent (h : db.Clocked) (event : RunEvent) : (db.recordEvent event).Clocked := h

theorem Clocked.updateRun (h : db.Clocked) {runId : String} {f : RunRow → RunRow}
    (hf : ∀ row, ∀ text ∈ (f row).lastHeartbeatAt, text ∈ row.lastHeartbeatAt ∨ ClockTime text) :
    (db.updateRun runId f).Clocked := by
  intro r row hrow text htext
  rw [getRun_updateRun] at hrow
  split at hrow
  · obtain ⟨old, hold, rfl⟩ := Option.map_eq_some_iff.mp hrow
    exact (hf old text htext).elim (h r old hold text) id
  · exact h r row hrow text htext

theorem Clocked.markStatus (h : db.Clocked) {runId : String} {status : RunStatus}
    {columns : RunRow → RunRow} {eventType : String} {detail : Option String} {createdAt : String}
    (hcolumns : ∀ row, ∀ text ∈ (columns row).lastHeartbeatAt, text ∈ row.lastHeartbeatAt ∨ ClockTime text) :
    (db.markStatus runId status columns eventType detail createdAt).2.Clocked := by
  rw [RunDb.markStatus]
  split
  · exact h
  · split
    · exact h
    · refine recordEvent (h.updateRun ?_) _
      exact hcolumns

theorem Clocked.requestCancel (h : db.Clocked) (runId : String) (now : ℕ → String) :
    (db.requestCancel runId now).2.Clocked := by
  rcases db.requestCancel_eq_markStatus runId now with ⟨st, -, -, heq⟩ | ⟨-, heq⟩
  · rw [heq]
    exact h.markStatus fun row text htext ↦ .inl htext
  · rwa [heq]

theorem Clocked.admitRun (h : db.Clocked) (maxRuns : ℕ) (runType requestJson configHash : String)
    (now fresh : ℕ → String) :
    (db.admitRun maxRuns runType requestJson configHash now fresh).2.Clocked := by
  rw [RunDb.admitRun]
  split
  · exact h
  split
  · exact h
  next db' hcreate =>
  rw [createRun] at hcreate
  split at hcreate
  · cases hcreate
  obtain rfl := Option.some.inj hcreate
  intro r row hrow text htext
  have hrow' : (db.pipelineRuns.set ("run_" ++ fresh 0) _).get? r = some row := hrow
  rw [Dict.get?_set] at hrow'
  split at hrow'
  · rw [← Option.some.inj hrow'] at htext
    cases htext
  · exact h r row hrow' text htext

theorem Clocked.reconcileStale (h : db.Clocked) (runId threshold : String) (now : ℕ → String) :
    (db.reconcileStale runId threshold now).2.Clocked := by
  rw [RunDb.reconcileStale]
  split
  · exact h
  split
  · refine recordEvent (h.updateRun ?_) _
    exact fun row text htext ↦ .inl htext
  · exact h

end RunDb

/-- Every operation keeps the heartbeats on the clock. -/
theorem RunOp.clocked_run {maxRuns : ℕ} {i : Input} (hclock : ∀ n, ClockTime (i.now n)) {o : RunOp}
    {db : RunDb} (h : db.Clocked) : (o.run maxRuns i db).2.Clocked := by
  cases o with
  | createRun => exact h.admitRun _ _ _ _ _ _
  | markRunning =>
    refine h.markStatus fun row text htext ↦ .inr ?_
    rw [← Option.some.inj htext]
    exact hclock 1
  | markCompleted | markFailed | markCancelled => exact h.markStatus fun row text htext ↦ .inl htext
  | requestCancel => exact h.requestCancel _ _
  | reconcileStale => exact h.reconcileStale _ _ _
  | touchHeartbeat =>
    refine h.updateRun fun row text htext ↦ ?_
    split at htext
    · refine .inr ?_
      rw [← Option.some.inj htext]
      exact hclock 0
    · exact .inl htext
  | updateCurrentStage => exact h.updateRun fun row text htext ↦ .inl htext
  | createAllStageRuns => exact h.congr (RunDb.pipelineRuns_createAllStageRuns ..)
  | recordArtifact => exact h.congr (RunDb.pipelineRuns_recordRunArtifact _)
  | getRun | check | findStaleRunningRuns | startStage | completeStage | failStage | skipStage
  | cancelStage | updateRecordsTotal | beginWork | endWork => exact h

/-! ## One pass of a reconciliation -/

/-- The run has been failed by a reconciliation: its row, and one more event. -/
def RunDb.LostRun (before after : RunDb) (r : String) : Prop :=
  ∃ row finishedAt createdAt, before.getRun r = some row ∧
    after.getRun r = some { row with
      status := .failed
      finishedAt := some finishedAt
      errorCode := some "RUN_PROCESS_LOST"
      errorMessage := some ("No heartbeat observed within the configured staleness threshold"
        ++ " -- the owning process is presumed lost") } ∧
    (∀ r' ≠ r, after.getRun r' = before.getRun r') ∧
    after.runEvents = before.runEvents ++ [⟨r, "RUN_FAILED", some "RUN_PROCESS_LOST", createdAt⟩]

/-- **One pass** fails a run that is lost when it is written, and does nothing to any other. -/
theorem RunDb.Clocked.reconcileStale_cases {db : RunDb} (h : db.Clocked) (r : String)
    (threshold : Datetime) (now : ℕ → String) :
    (db.Lost r threshold ∧ (db.reconcileStale r threshold.isoText now).1 = true ∧
        db.LostRun (db.reconcileStale r threshold.isoText now).2 r) ∨
      ¬db.Lost r threshold ∧ db.reconcileStale r threshold.isoText now = (false, db) := by
  rw [RunDb.reconcileStale]
  split
  · next hrow =>
    refine .inr ⟨?_, rfl⟩
    rintro ⟨row, hrow', -⟩
    cases hrow.symm.trans hrow'
  next row hrow =>
  split
  · next hstale =>
    refine .inl ⟨(h.stale_iff hrow).mp hstale, rfl, row, now 0, now 1, hrow, ?_, fun r' hr' ↦ ?_, rfl⟩
    · exact (getRun_updateRun ..).trans (by rw [if_pos rfl, hrow]; rfl)
    · exact (getRun_updateRun ..).trans (if_neg hr')
  · next hfresh => exact .inr ⟨fun hlost ↦ hfresh ((h.stale_iff hrow).mpr hlost), rfl⟩

/-! ## Failures and their events -/

/-- How often a run has been recorded as failed. -/
def RunDb.failures (db : RunDb) (r : String) : ℕ :=
  db.runEvents.countP fun e ↦ e.runId = r ∧ e.eventType = "RUN_FAILED"

/-- What a step does to the failures: none is added, or one run becomes failed, with one event. -/
inductive FailureStep (db db' : RunDb) : Prop
  | quiet (events : List RunEvent) (hevents : db'.runEvents = db.runEvents ++ events)
      (hquiet : ∀ e ∈ events, e.eventType ≠ "RUN_FAILED")
      (hstatus : ∀ r, db'.runStatus r = some .failed → db.runStatus r = some .failed)
  | failure (event : RunEvent) (hevents : db'.runEvents = db.runEvents ++ [event])
      (htype : event.eventType = "RUN_FAILED") (hbefore : db.runStatus event.runId ≠ some .failed)
      (hstatus : db'.runStatus = Function.update db.runStatus event.runId (some .failed))

/-- The run becomes failed. -/
def Fails (before after : RunDb) (r : String) : Prop :=
  before.runStatus r ≠ some .failed ∧ after.runStatus r = some .failed

instance (before after : RunDb) (r : String) : Decidable (Fails before after r) :=
  inferInstanceAs (Decidable (_ ∧ _))

theorem FailureStep.failures_eq {db db' : RunDb} (h : FailureStep db db') (r : String) :
    db'.failures r = db.failures r + if Fails db db' r then 1 else 0 := by
  cases h with
  | quiet events hevents hquiet hstatus =>
    have hcount : events.countP (fun e ↦ e.runId = r ∧ e.eventType = "RUN_FAILED") = 0 := by
      refine List.countP_eq_zero.mpr fun e he hfailed ↦ ?_
      exact hquiet e he (of_decide_eq_true hfailed).2
    rw [RunDb.failures, hevents, List.countP_append, hcount, ← RunDb.failures,
      if_neg fun hfails ↦ hfails.1 (hstatus r hfails.2)]
  | failure event hevents htype hbefore hstatus =>
    rw [RunDb.failures, hevents, List.countP_append, List.countP_singleton, ← RunDb.failures]
    by_cases hr : event.runId = r
    · subst hr
      have hfails : Fails db db' event.runId := ⟨hbefore, by rw [hstatus, Function.update_self]⟩
      rw [if_pos (decide_eq_true ⟨rfl, htype⟩), if_pos hfails]
    · have hkept : ¬Fails db db' r := by
        rintro ⟨hne, hfailed⟩
        rw [hstatus, Function.update_of_ne (Ne.symm hr)] at hfailed
        exact hne hfailed
      rw [if_neg fun hevent ↦ hr (of_decide_eq_true hevent).1, if_neg hkept]

theorem FailureStep.of_same {db db' : RunDb} (hevents : db'.runEvents = db.runEvents)
    (hstatus : db'.runStatus = db.runStatus) : FailureStep db db' :=
  .quiet [] (hevents.trans (List.append_nil _).symm) (fun e he ↦ absurd he List.not_mem_nil)
    fun r hr ↦ by rwa [← hstatus]

namespace RunDb

variable {db : RunDb}

theorem failureStep_markStatus (runId : String) {new : RunStatus} (columns : RunRow → RunRow)
    {eventType : String} (detail : Option String) (createdAt : String)
    (h : eventType = "RUN_FAILED" ↔ new = .failed) :
    FailureStep db (db.markStatus runId new columns eventType detail createdAt).2 := by
  rcases hrow : db.getRun runId with _ | row
  · rw [markStatus, requireRun, hrow]
    exact .of_same rfl rfl
  by_cases hnew : new ∈ row.status.transitions
  · have hstatus : db.runStatus runId = some row.status := by rw [runStatus, hrow]; rfl
    have hupdate : (db.updateRun runId fun row ↦ { columns row with status := new }).runStatus =
        Function.update db.runStatus runId (some new) := runStatus_updateRun_of_eq_some hstatus fun _ ↦ rfl
    simp only [markStatus, requireRun, hrow, validateRunTransition, if_pos hnew]
    by_cases hfailed : new = .failed
    · subst hfailed
      refine .failure ⟨runId, eventType, detail, createdAt⟩ rfl (h.mpr rfl) ?_ hupdate
      rw [hstatus]
      intro heq
      rw [Option.some.inj heq] at hnew
      exact absurd hnew List.not_mem_nil
    · refine .quiet [⟨runId, eventType, detail, createdAt⟩] rfl ?_ fun r hr ↦ ?_
      · intro e he htype
        rw [List.mem_singleton.mp he] at htype
        exact hfailed (h.mp htype)
      · have hr' : (db.updateRun runId fun row ↦ { columns row with status := new }).runStatus r =
            some .failed := hr
        rw [hupdate, Function.update_apply] at hr'
        split at hr'
        · exact absurd (Option.some.inj hr') hfailed
        · exact hr'
  · simp only [markStatus, requireRun, hrow, validateRunTransition, if_neg hnew]
    exact .of_same rfl rfl

theorem failureStep_requestCancel (runId : String) (now : ℕ → String) :
    FailureStep db (db.requestCancel runId now).2 := by
  rcases db.requestCancel_eq_markStatus runId now with ⟨st, -, -, heq⟩ | ⟨-, heq⟩
  · rw [heq]
    exact failureStep_markStatus runId id none (now 0) (by decide)
  · rw [heq]
    exact .of_same rfl rfl

theorem failureStep_admitRun (maxRuns : ℕ) (runType requestJson configHash : String)
    (now fresh : ℕ → String) :
    FailureStep db (db.admitRun maxRuns runType requestJson configHash now fresh).2 := by
  rw [admitRun]
  split
  · exact .of_same rfl rfl
  split
  · exact .of_same rfl rfl
  next db' hcreate =>
  rw [createRun] at hcreate
  split at hcreate
  · cases hcreate
  obtain rfl := Option.some.inj hcreate
  refine .quiet [⟨"run_" ++ fresh 0, "RUN_CREATED", none, now 1⟩] rfl ?_ fun r hr ↦ ?_
  · intro e he
    rw [List.mem_singleton.mp he]
    exact (by decide : ("RUN_CREATED" : String) ≠ "RUN_FAILED")
  · obtain ⟨row, hrow, hfailed⟩ := Option.map_eq_some_iff.mp hr
    have hrow' : (db.pipelineRuns.set ("run_" ++ fresh 0) _).get? r = some row := hrow
    rw [Dict.get?_set] at hrow'
    split at hrow'
    · rw [← Option.some.inj hrow'] at hfailed
      cases hfailed
    · rw [runStatus, getRun, hrow', Option.map_some, hfailed]

theorem failureStep_reconcileStale (runId threshold : String) (now : ℕ → String) :
    FailureStep db (db.reconcileStale runId threshold now).2 := by
  rw [reconcileStale]
  split
  · exact .of_same rfl rfl
  next row hrow =>
  split
  · next hstale =>
    have hstatus : db.runStatus runId = some row.status := by rw [runStatus, hrow]; rfl
    refine .failure ⟨runId, "RUN_FAILED", some "RUN_PROCESS_LOST", now 1⟩ rfl rfl ?_ ?_
    · rw [hstatus]
      intro heq
      rcases hstale.1 with hrunning | hrequested
      · cases hrunning.symm.trans (Option.some.inj heq)
      · cases hrequested.symm.trans (Option.some.inj heq)
    · exact runStatus_updateRun_of_eq_some hstatus fun _ ↦ rfl
  · exact .of_same rfl rfl

theorem failureStep_updateCurrentStage (runId : String) (stage : StageName) :
    FailureStep db (db.updateRun runId fun row ↦
      { row with status := .running, currentStage := some stage.text }) := by
  refine .quiet [] (List.append_nil _).symm (fun e he ↦ absurd he List.not_mem_nil) fun r hr ↦ ?_
  rw [runStatus_updateRun] at hr
  split at hr
  · obtain ⟨row, -, hfailed⟩ := Option.map_eq_some_iff.mp hr
    exact absurd hfailed nofun
  · exact hr

end RunDb

end ForgeData
