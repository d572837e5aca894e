import ForgeData.Runs.CancelRequests

/-!
# Does a run end?

`localRun` reads the run, marks it running, executes its pipeline and marks the ending; each mark may
be refused by the transition table because a cancellation request has moved the status in between. The
main result says which two of these gaps can strand the run: it is terminal when `localRun` returns
exactly when `mark_running` found it queued and `mark_cancelled` found its cancellation requested.
-/

namespace ForgeData

open Python Interleaving

/-- The run has a terminal status. -/
def RunDb.Finished (db : RunDb) (r : String) : Prop := ∃ st, db.runStatus r = some st ∧ st.Terminal

/-- The two marks that depend on the status of the run come in time: `mark_running` finds it still
queued, `mark_cancelled` finds its cancellation requested. -/
structure InTime {Env : Type} (r : String) (x : RunStep Env) : Prop where
  markRunning : ∀ executorId a, x.event = .own (.markRunning r executorId) a →
    x.before.runStatus r = some .queued
  markCancelled : ∀ a, x.event = .own (.markCancelled r) a →
    x.before.runStatus r = some .cancelRequested

theorem RunDb.finished_iff {db : RunDb} {r : String} {st : RunStatus}
    (h : db.runStatus r = some st) : db.Finished r ↔ st.Terminal :=
  ⟨fun ⟨_, h', ht⟩ ↦ Option.some.inj (h.symm.trans h') ▸ ht, fun ht ↦ ⟨st, h, ht⟩⟩

theorem CancelEnv.finished_iff {e : String × Input} {db db' : RunDb} (h : CancelEnv e db db')
    (r : String) : db'.Finished r ↔ db.Finished r := by
  rcases h.runStatus r with heq | ⟨hold, hnew⟩
  · rw [RunDb.Finished, heq, RunDb.Finished]
  · rw [RunDb.finished_iff hnew]
    rcases hold with hold | hold <;> rw [RunDb.finished_iff hold] <;> decide

section

variable {Env : Type} {r : String} {h : RunHistory Env} {db db' : RunDb}

theorem inTime_env (e : Env) : InTime r ⟨.env e, db, db'⟩ :=
  ⟨fun _ _ heq ↦ (nomatch heq), fun _ heq ↦ (nomatch heq)⟩

theorem inTime_own {o : RunOp} {a : o.Ans} (hrunning : ∀ executorId, o ≠ .markRunning r executorId)
    (hcancelled : o ≠ .markCancelled r) :
    InTime r (⟨.own o a, db, db'⟩ : RunStep Env) := by
  refine ⟨fun executorId a' heq ↦ ?_, fun a' heq ↦ ?_⟩
  · cases heq
    exact absurd rfl (hrunning executorId)
  · cases heq
    exact absurd rfl hcancelled

end

section

variable {Env : Type} {maxRuns : ℕ} {i : Input} {r : String}
  {body : PipelineBody (Except PyException String)} {plannedStages : List StageName}
  {q q' : Phase} {o : RunOp} {a : o.Ans} {db db' : RunDb}

/-- A step that goes on is in time. -/
theorem inTime_of_next_ne_done (hnext : Next r body plannedStages q o a q')
    (hst : PhaseStatus q (db.runStatus r)) (hrun : o.run maxRuns i db = (a, db')) (hq : q' ≠ .done) :
    InTime r (⟨.own o a, db, db'⟩ : RunStep Env) := by
  cases hnext with
  | notFound | cancelEarly | refused | markCompleted | markCancelled | markFailed =>
    exact absurd rfl hq
  | accepted executorId =>
    obtain ⟨⟨st, hst', hnew⟩, -⟩ := RunDb.of_markStatus_eq_ok hrun
    refine ⟨fun _ _ _ ↦ hst.resolve_right fun hreq ↦ ?_, fun _ heq ↦ (nomatch heq)⟩
    rw [hreq] at hst'
    cases hst'
    revert hnew
    decide
  | foundCancelled | found | notCreated | created | lost | beat | record | cancelStage | failStage
  | skip | cancel => exact inTime_own (fun _ ↦ nofun) nofun
  | stage hstep => cases hstep <;> exact inTime_own (fun _ ↦ nofun) nofun

/-- The last step finishes the run exactly if it is in time. -/
theorem finished_iff_inTime_of_next_done (hnext : Next r body plannedStages q o a .done)
    (hst : PhaseStatus q (db.runStatus r)) (hrun : o.run maxRuns i db = (a, db')) :
    db'.Finished r ↔ InTime r (⟨.own o a, db, db'⟩ : RunStep Env) := by
  generalize hdone : Phase.done = q' at hnext
  cases hnext with
  | notFound =>
    have hnone : db.runStatus r = none := by
      rw [RunDb.runStatus, show db.getRun r = none from congrArg Prod.fst hrun, Option.map_none]
    rw [hnone] at hst
    rcases hst with hst | hst <;> cases hst
  | cancelEarly =>
    have hst' := RunDb.runStatus_of_markStatus hrun hst
    refine ⟨fun _ ↦ ⟨fun _ _ heq ↦ ?_, fun _ _ ↦ hst⟩, fun _ ↦ ?_⟩
    · cases heq
    · exact (RunDb.finished_iff hst').2 (by decide)
  -- the write is refused only if a cancellation has come before it
  | refused executorId e =>
    obtain ⟨hno, rfl⟩ := RunDb.of_markStatus_eq_error hrun
    have hreq : db'.runStatus r = some .cancelRequested :=
      hst.resolve_left fun hq ↦ hno _ hq (by decide)
    refine ⟨fun hfin ↦ ?_, fun hin ↦ ?_⟩
    · rw [RunDb.finished_iff hreq] at hfin
      exact absurd hfin (by decide)
    · have hq := hin.markRunning executorId (.error e) rfl
      rw [show db'.runStatus r = _ from hq] at hreq
      cases hreq
  | markCompleted packageId =>
    refine iff_of_true ?_ (inTime_own (by rintro _ ⟨⟩) (by rintro ⟨⟩))
    rcases hst with hst | hst <;>
      exact (RunDb.finished_iff (RunDb.runStatus_of_markStatus hrun hst)).2 (by decide)
  | markFailed exit errorCode errorMessage =>
    refine iff_of_true ?_ (inTime_own (by rintro _ ⟨⟩) (by rintro ⟨⟩))
    rcases hst with hst | hst <;>
      exact (RunDb.finished_iff (RunDb.runStatus_of_markStatus hrun hst)).2 (by decide)
  -- a cancelled mark finishes the run only if it is written over the request
  | markCancelled a =>
    have hiff : InTime r (⟨.own (.markCancelled r) a, db, db'⟩ : RunStep Env) ↔
        db.runStatus r = some .cancelRequested := by
      refine ⟨fun hin ↦ hin.markCancelled a rfl, fun h ↦ ⟨fun _ _ heq ↦ ?_, fun _ _ ↦ h⟩⟩
      cases heq
    rw [hiff]
    rcases hst with hst | hst
    · rw [RunDb.finished_iff (RunDb.runStatus_of_markStatus hrun hst), hst]
      decide
    · rw [RunDb.finished_iff (RunDb.runStatus_of_markStatus hrun hst), hst]
      decide
  | foundCancelled | found | accepted | notCreated | lost | beat | stage => cases hdone
  | created | record => exact (arrive_ne_done _ _ _ hdone.symm).elim
  | cancelStage | failStage | skip | cancel => exact (closeFrom_ne_done _ _ _ hdone.symm).elim

end

/-- What is kept while the run is executed: no mark has come too late, and once the run has been
marked for the last time it is finished exactly if none has. -/
structure Ending (r : String) (q : Phase) (h : RunHistory (String × Input))
    (db : RunDb) : Prop where
  status : PhaseStatus q (db.runStatus r)
  inTime : q ≠ .done → ∀ x ∈ h, InTime r x
  finished : q = .done → (db.Finished r ↔ ∀ x ∈ h, InTime r x)

theorem Ending.env {r : String} {q : Phase} {h : RunHistory (String × Input)}
    {db db' : RunDb} {e : String × Input} (hJ : Ending r q h db) (henv : CancelEnv e db db') :
    Ending r q (h ++ [⟨.env e, db, db'⟩]) db' where
  status := hJ.status.env henv
  inTime hq := by
    rw [List.forall_mem_append, List.forall_mem_singleton]
    exact ⟨hJ.inTime hq, inTime_env e⟩
  finished hq := by
    rw [henv.finished_iff, hJ.finished hq, List.forall_mem_append, List.forall_mem_singleton]
    exact (and_iff_left (inTime_env e)).symm

theorem Ending.own {maxRuns : ℕ} {i : Input} {r : String}
    {body : PipelineBody (Except PyException String)} {plannedStages : List StageName}
    {q q' : Phase} {o : RunOp} {a : o.Ans} {h : RunHistory (String × Input)}
    {db db' : RunDb} (hJ : Ending r q h db) (hnext : Next r body plannedStages q o a q')
    (hrun : o.run maxRuns i db = (a, db')) : Ending r q' (h ++ [⟨.own o a, db, db'⟩]) db' where
  status := hJ.status.own hnext hrun
  inTime hq := by
    rw [List.forall_mem_append, List.forall_mem_singleton]
    exact ⟨hJ.inTime hnext.ne_done, inTime_of_next_ne_done hnext hJ.status hrun hq⟩
  finished hq := by
    subst hq
    rw [finished_iff_inTime_of_next_done hnext hJ.status hrun, List.forall_mem_append,
      List.forall_mem_singleton]
    exact (and_iff_right (hJ.inTime hnext.ne_done)).symm

/-- **When a run ends.** Beside any cancellation requests, a queued run is terminal when `localRun`
returns exactly when neither of its two delicate marks came too late. -/
theorem localRun_finished_iff {maxRuns : ℕ} {registered : List String} {r executorId : String}
    {request : PipelineRunRequest} {files : List StreamFile} {freshSession : String}
    {db db' : RunDb} {t : RunHistory (String × Input)}
    {result : Except RunError Unit} (hqueued : db.runStatus r = some .queued)
    (hexec : Exec (runSystem maxRuns CancelEnv)
      (localRun registered r executorId request files freshSession) db t (.pure result) db') :
    db'.Finished r ↔ ∀ x ∈ t, InTime r x := by
  have hstart : Ending r .queued [] db :=
    ⟨.inl hqueued, fun _ _ hx ↦ (nomatch hx), nofun⟩
  obtain ⟨q, hJ, hfin⟩ := run_invariant Ending.own Ending.env
    (follows_localRun registered executorId request files freshSession) hstart hexec
  exact hJ.finished hfin

/-! ## A run that is stranded

The run is cancelled after `localRun` has read it and before it is marked running. The transition is
refused, the refusal is logged, and the run stays cancel-requested with nobody left to finish it. -/

/-- The schedule that strands the run. -/
def strandedTurns : List (Turn Input (String × Input)) :=
  [.own quietInput, .env ("run_1", quietInput), .own quietInput]

theorem localRun_finished_iff_stranded :
    (imuRun strandedTurns).state.Finished "run_1" ↔
      ∀ x ∈ (imuRun strandedTurns).history, InTime "run_1" x :=
  localRun_finished_iff rfl (exec_imuRun strandedTurns)

/-- `localRun` returns here and leaves its run cancel-requested. -/
theorem localRun_stranded :
    (dbWithRun .queued).runStatus "run_1" = some .queued ∧
      (∃ result, Exec (runSystem 2 CancelEnv) imuLocalRun (dbWithRun .queued)
        (imuRun strandedTurns).history (.pure result) (imuRun strandedTurns).state) ∧
      ¬ (imuRun strandedTurns).state.Finished "run_1" := by
  refine ⟨rfl, ⟨.ok (), exec_imuRun strandedTurns⟩, fun h ↦ ?_⟩
  have hst : (imuRun strandedTurns).state.runStatus "run_1" = some .cancelRequested := by
    decide +kernel
  exact absurd ((RunDb.finished_iff hst).1 h) (by decide)

end ForgeData
