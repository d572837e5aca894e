import ForgeData.Runs.CancelRequests
import ForgeData.Runs.Progress
import ForgeData.Runs.Termination

/-!
# Is an accepted cancellation kept?

The boundary check and the write that follows it are two transactions. A cancellation that is
committed between them is overwritten: the run is running again. Anywhere else the cancellation is
kept: the run is never running again, and no stage goes on except those whose check had passed.
-/

namespace ForgeData

open Python Interleaving

/-! ## The window between the check and the write -/

/-- The step is taken by the executor. -/
def isOwn {Env : Type} : Event RunOp RunOp.Ans Env → Bool
  | .own _ _ => true
  | .env _ => false

/-- The last thing the executor did was to pass a boundary check: its write comes next. -/
def WritePending {Env : Type} (r : String) (t : RunHistory Env) : Prop :=
  ∃ x ∈ (t.filter fun x ↦ isOwn x.event).getLast?, isPassedCheck r x.event

theorem writePending_append_env {Env : Type} {r : String} {t : RunHistory Env} {e : Env}
    {db db' : RunDb} : WritePending r (t ++ [⟨.env e, db, db'⟩]) ↔ WritePending r t := by
  rw [WritePending, WritePending, List.filter_append,
    List.filter_cons_of_neg (by simp [isOwn]), List.filter_nil, List.append_nil]

theorem writePending_append_own {Env : Type} {r : String} {t : RunHistory Env} {o : RunOp}
    {a : o.Ans} {db db' : RunDb} : WritePending r (t ++ [⟨.own o a, db, db'⟩]) ↔
      isPassedCheck r (.own o a : Event _ _ Env) := by
  rw [WritePending, List.filter_append, List.filter_cons_of_pos (by simp [isOwn]), List.filter_nil,
    List.getLast?_concat]
  simp

/-- The phase in which the write is pending. -/
def Phase.Pending : Phase → Prop
  | .inStage _ _ .passed => True
  | _ => False

theorem not_pending_arrive (ids : Dict StageName String)
    (p : PipelineBody (Except PyException String)) (remaining : List StageName) :
    ¬ (arrive ids p remaining).Pending := by
  rcases p with (exc | packageId) | _
  · exact not_false
  · exact not_false
  · cases remaining <;> exact not_false

theorem not_pending_closeFrom (ids : Dict StageName String) (exit : StageExit)
    (remaining : List StageName) : ¬ (closeFrom ids exit remaining).Pending := by
  cases remaining with
  | nil => exact not_false
  | cons stage remaining =>
    rw [closeFrom]
    split <;> exact not_false

theorem Next.pending_iff {Env : Type} {r : String} {body : PipelineBody (Except PyException String)}
    {plannedStages : List StageName} {q q' : Phase} {o : RunOp} {a : o.Ans}
    (h : Next r body plannedStages q o a q') :
    q'.Pending ↔ isPassedCheck r (.own o a : Event _ _ Env) := by
  cases h with
  | created | record => exact iff_of_false (not_pending_arrive _ _ _) Bool.false_ne_true
  | cancelStage | failStage | skip | cancel => exact iff_of_false (not_pending_closeFrom _ _ _) Bool.false_ne_true
  | stage hstep => cases hstep <;> simp [isPassedCheck, Phase.Pending]
  | notFound | foundCancelled | found | cancelEarly | refused | accepted | notCreated | lost | beat
  | markCompleted | markCancelled | markFailed => exact iff_of_false not_false Bool.false_ne_true

/-! ## What is kept -/

/-- The step is a cancellation request that is committed for the running run. -/
structure CommitsCancel {Env : Type} (r : String) (x : RunStep Env) : Prop where
  env : isOwn x.event = false
  running : x.before.runStatus r = some .running
  requested : x.after.runStatus r = some .cancelRequested

/-- A step from a state in which the cancellation is requested, with no write pending: the run does
not become running, and no boundary check passes. -/
theorem Next.keeps_cancelRequested (Env : Type) {maxRuns : ℕ} {i : Input} {r : String}
    {body : PipelineBody (Except PyException String)} {plannedStages : List StageName}
    {q q' : Phase} {o : RunOp} {a : o.Ans} {db db' : RunDb} (h : Next r body plannedStages q o a q')
    (hrun : o.run maxRuns i db = (a, db')) (hq : ¬ q.Pending)
    (hst : db.runStatus r = some .cancelRequested) :
    isPassedCheck r (.own o a : Event _ _ Env) = false ∧
      db'.runStatus r ≠ some .queued ∧ db'.runStatus r ≠ some .running := by
  have hquiet : o.Quiet →
      db'.runStatus r ≠ some .queued ∧ db'.runStatus r ≠ some .running := fun ho ↦ by
    rw [RunOp.runStatus_of_quiet hrun ho, hst]
    exact ⟨nofun, nofun⟩
  cases h with
  | cancelEarly | refused | markCompleted | markCancelled | markFailed =>
    rw [RunDb.runStatus_of_markStatus hrun hst]
    exact ⟨rfl, by decide, by decide⟩
  | accepted executorId =>
    obtain ⟨⟨st, hst', hnew⟩, -⟩ := RunDb.of_markStatus_eq_ok hrun
    rw [hst] at hst'
    cases hst'
    exact absurd hnew (by decide)
  | stage hstep =>
    cases hstep with
    | passed =>
      have hanswer : decide (db.runStatus r = some .cancelRequested) = false :=
        congrArg Prod.fst hrun
      exact absurd hst (of_decide_eq_false hanswer)
    | current => exact absurd trivial hq
    | observed => exact ⟨by simp [isPassedCheck], hquiet trivial⟩
    | start | begin | returned | interrupted | blocked | raised | complete | completeCounting
    | count => exact ⟨rfl, hquiet trivial⟩
  | notFound | foundCancelled | found | notCreated | created | lost | beat | record | cancelStage
  | failStage | skip | cancel => exact ⟨rfl, hquiet trivial⟩

/-- The run has not been taken up again: no write is pending, and its status says so. -/
def NotRevived (r : String) (h : RunHistory (String × Input)) (db : RunDb) : Prop :=
  ¬ WritePending r h ∧ db.runStatus r ≠ some .queued ∧ db.runStatus r ≠ some .running

/-- The cancellations committed so far with no write pending: since then no boundary check has
passed and the run has not been running. -/
def CancelsKept (r : String) (h : RunHistory (String × Input)) (db : RunDb) : Prop :=
  ∀ t₁ x t₂, h = t₁ ++ x :: t₂ → CommitsCancel r x → ¬ WritePending r t₁ →
    checksPassed r h = checksPassed r t₁ ∧ (∀ y ∈ t₂, y.after.runStatus r ≠ some .running) ∧
      NotRevived r h db

/-- One more step: it keeps the older cancellations, and it may be a cancellation itself. -/
theorem CancelsKept.append {r : String} {h : RunHistory (String × Input)} {db : RunDb}
    {y : RunStep (String × Input)} (hkept : CancelsKept r h db)
    (hold : NotRevived r h db →
      isPassedCheck r y.event = false ∧ NotRevived r (h ++ [y]) y.after)
    (hnew : CommitsCancel r y → ¬ WritePending r h →
      isPassedCheck r y.event = false ∧ NotRevived r (h ++ [y]) y.after) :
    CancelsKept r (h ++ [y]) y.after := by
  intro t₁ x t₂ hsplit hcommit hpending
  rw [checksPassed_append, checksPassed_singleton]
  rcases append_singleton_eq_append_cons hsplit with ⟨rfl, rfl, rfl⟩ | ⟨t₂', rfl, rfl⟩
  · obtain ⟨hcheck, hst⟩ := hnew hcommit hpending
    exact ⟨by simp [hcheck], List.forall_mem_nil _, hst⟩
  · obtain ⟨hchecks, hrunning, hrevived⟩ := hkept t₁ x t₂' rfl hcommit hpending
    obtain ⟨hcheck, hst⟩ := hold hrevived
    refine ⟨by simp [hcheck, hchecks], ?_, hst⟩
    rw [List.forall_mem_append, List.forall_mem_singleton]
    exact ⟨hrunning, hst.2.2⟩

/-- What holds in every phase beside cancellation requests. -/
structure Cancellable (raises : Prop) (r : String) (planned : ℕ) (q : Phase)
    (h : RunHistory (String × Input)) (db : RunDb) : Prop where
  counted : Counted raises r planned q h
  status : PhaseStatus q (db.runStatus r)
  pending : WritePending r h ↔ q.Pending
  kept : CancelsKept r h db
  completed : q = .done → db.runStatus r = some .completed → checksPassed r h = planned

theorem PhaseStatus.eq_cancelRequested {q : Phase} {st : Option RunStatus} (h : PhaseStatus q st)
    (hq : q ≠ .done) (hqueued : st ≠ some .queued) (hrunning : st ≠ some .running) :
    st = some .cancelRequested := by
  cases q with
  | queued | found => exact h.resolve_left hqueued
  | cancelledEarly => exact h
  | done => exact absurd rfl hq
  | starting | boundary | inStage | closing | ended => exact h.resolve_left hrunning

section

variable {raises : Prop} {maxRuns : ℕ} {i : Input} {r : String} {planned : ℕ}
  {body : PipelineBody (Except PyException String)} {plannedStages : List StageName}
  {q q' : Phase} {o : RunOp} {a : o.Ans} {h : RunHistory (String × Input)} {db db' : RunDb}
  {e : String × Input}

theorem Cancellable.kept_env (hJ : Cancellable raises r planned q h db)
    (henv : CancelEnv e db db') : CancelsKept r (h ++ [⟨.env e, db, db'⟩]) db' := by
  refine CancelsKept.append (y := ⟨.env e, db, db'⟩) hJ.kept (fun hold ↦ ⟨rfl, ?_⟩)
    fun hcommit hpending ↦ ⟨rfl, ?_⟩
  · refine ⟨fun h' ↦ hold.1 (writePending_append_env.1 h'), ?_⟩
    rcases henv.runStatus r with heq | ⟨hst, -⟩
    · rw [heq]
      exact hold.2
    · exact absurd hst (not_or.2 hold.2)
  · refine ⟨fun h' ↦ hpending (writePending_append_env.1 h'), ?_⟩
    rw [hcommit.requested]
    exact ⟨nofun, nofun⟩

theorem Cancellable.kept_own (hJ : Cancellable raises r planned q h db)
    (hnext : Next r body plannedStages q o a q') (hrun : o.run maxRuns i db = (a, db')) :
    CancelsKept r (h ++ [⟨.own o a, db, db'⟩]) db' := by
  refine CancelsKept.append (y := ⟨.own o a, db, db'⟩) hJ.kept (fun hold ↦ ?_)
    fun hcommit ↦ absurd hcommit.env nofun
  have hreq := hJ.status.eq_cancelRequested hnext.ne_done hold.2.1 hold.2.2
  have hpending : ¬ q.Pending := fun hq ↦ hold.1 (hJ.pending.2 hq)
  obtain ⟨hcheck, hst⟩ := hnext.keeps_cancelRequested (String × Input) hrun hpending hreq
  refine ⟨hcheck, fun h' ↦ ?_, hst⟩
  rw [writePending_append_own, hcheck] at h'
  exact absurd h' nofun

theorem Cancellable.env (hJ : Cancellable raises r planned q h db) (henv : CancelEnv e db db') :
    Cancellable raises r planned q (h ++ [⟨.env e, db, db'⟩]) db' where
  counted := hJ.counted.env
  status := hJ.status.env henv
  pending := writePending_append_env.trans hJ.pending
  kept := hJ.kept_env henv
  completed hq hst := by
    rw [checksPassed_append, checksPassed_singleton]
    refine hJ.completed hq ?_
    rcases henv.runStatus r with heq | ⟨-, hnew⟩
    · rwa [← heq]
    · rw [hnew] at hst
      cases hst

theorem Counted.completed (hJ : Counted raises r planned q h)
    (hnext : Next r body plannedStages q o a .done) (hstatus : PhaseStatus q (db.runStatus r))
    (hrun : o.run maxRuns i db = (a, db')) (hst : db'.runStatus r = some .completed) :
    checksPassed r h = planned := by
  generalize hdone : Phase.done = q' at hnext
  cases hnext with
  | markCompleted packageId => exact hJ.left 0 rfl
  | notFound =>
    rw [RunOp.runStatus_of_quiet hrun trivial] at hst
    exact absurd hst (hstatus.ne_completed nofun)
  | cancelEarly | refused | markCancelled | markFailed =>
    exact absurd hst (RunDb.runStatus_ne_of_markStatus hrun nofun (hstatus.ne_completed nofun))
  | foundCancelled | found | accepted | notCreated | lost | beat | stage => cases hdone
  | created | record => exact (arrive_ne_done _ _ _ hdone.symm).elim
  | cancelStage | failStage | skip | cancel => exact (closeFrom_ne_done _ _ _ hdone.symm).elim

theorem Cancellable.own (hJ : Cancellable raises r plannedStages.length q h db)
    (hbody : Conforms raises body plannedStages) (hnext : Next r body plannedStages q o a q')
    (hrun : o.run maxRuns i db = (a, db')) :
    Cancellable raises r plannedStages.length q' (h ++ [⟨.own o a, db, db'⟩]) db' where
  counted := hJ.counted.own hbody hnext
  status := hJ.status.own hnext hrun
  pending := writePending_append_own.trans hnext.pending_iff.symm
  kept := hJ.kept_own hnext hrun
  completed hq hst := by
    subst hq
    have hcheck : isPassedCheck r (.own o a : Event _ _ (String × Input)) = false :=
      Bool.eq_false_iff.2 fun h' ↦ hnext.pending_iff.2 h'
    rw [checksPassed_append, checksPassed_singleton, hcheck]
    exact hJ.counted.completed hnext hJ.status hrun hst

end

/-! ## The main result -/

/-- What an accepted cancellation promises for the steps `t₂` after it, when the run had taken the
steps `t₁`: the run is not running again, at most one more call of a stage service ends, only stages
whose check had passed are worked on, and the run completes only if all checks had passed. -/
structure CancelKept (r : String) (planned : ℕ) (t₁ t₂ : RunHistory (String × Input)) (db : RunDb) :
    Prop where
  notRunning : ∀ y ∈ t₂, y.after.runStatus r ≠ some .running
  ended : worksEnded t₂ ≤ 1
  endedPassed : worksEnded t₁ + worksEnded t₂ ≤ checksPassed r t₁
  started : worksStarted t₁ + worksStarted t₂ ≤ checksPassed r t₁
  completed : db.runStatus r = some .completed → checksPassed r t₁ = planned

theorem Phase.toEnd_le_one (q : Phase) : q.toEnd ≤ 1 := by
  unfold Phase.toEnd
  split <;> omega

/-- A program whose write is pending writes next, and makes the run running again. -/
theorem exists_exec_running_of_pending {α : Type} {maxRuns : ℕ} {r : String}
    {body : PipelineBody (Except PyException String)} {plannedStages : List StageName}
    {p : RunProg α} {q : Phase} {db : RunDb} {st : RunStatus}
    (hp : p.Follows (Next r body plannedStages) (fun _ q ↦ q = .done) q) (hq : q.Pending)
    (hst : db.runStatus r = some st) :
    ∃ x p' db', Exec (runSystem maxRuns CancelEnv) p db [x] p' db' ∧
      x.after.runStatus r = some .running := by
  cases p with
  | pure a =>
    rw [Prog.follows_pure] at hp
    rw [hp] at hq
    exact hq.elim
  | call o k =>
    obtain ⟨q', hnext, -⟩ := hp (o.run maxRuns quietInput db).1
    cases q with
    | inStage c stageRunId step =>
      cases step with
      | passed =>
        generalize (o.run maxRuns quietInput db).1 = a at hnext
        cases hnext with
        | stage hstep =>
          cases hstep with
          | current =>
            have hrun : (RunOp.updateCurrentStage r c.stage).run maxRuns quietInput db = ((), _) :=
              rfl
            refine ⟨_, _, _, .own ⟨quietInput, hrun⟩ (.nil _ _), ?_⟩
            rw [RunOp.runStatus_of_updateCurrentStage hrun hst, Function.update_self]
      | beat | current | started | working | returned | counting | recording | cancelling
      | failing => exact hq.elim
    | queued | cancelledEarly | found | starting | boundary | closing | ended | done => exact hq.elim

/-- Every point of an execution of `localRun` is in a phase of the run. -/
theorem exists_cancellable {maxRuns : ℕ} {registered : List String} {r executorId : String}
    {request : PipelineRunRequest} {files : List StreamFile} {freshSession : String}
    {db db' : RunDb} {t : RunHistory (String × Input)} {p : RunProg (Except RunError Unit)}
    (hqueued : db.runStatus r = some .queued)
    (hexec : Exec (runSystem maxRuns CancelEnv)
      (localRun registered r executorId request files freshSession) db t p db') :
    ∃ q, Cancellable (∃ f ∈ files, f.sensorType ∉ registered) r
        (planStages (files.map StreamFile.sensorType)).length q t db' ∧
      p.Follows (Next r (pipelineBody registered request (sessionIdOf request freshSession) files)
        (planStages (files.map StreamFile.sensorType))) (fun _ q ↦ q = .done) q := by
  have hbody := conforms_pipelineBody registered request (sessionIdOf request freshSession) files
  refine run_invariant (J := Cancellable (∃ f ∈ files, f.sensorType ∉ registered) r
      (planStages (files.map StreamFile.sensorType)).length) (h := [])
    (fun hJ hnext hrun ↦ hJ.own hbody hnext hrun) Cancellable.env
    (follows_localRun registered executorId request files freshSession) ?_ hexec
  refine ⟨⟨trivial, rfl, rfl, ?_⟩, .inl hqueued, iff_of_false ?_ not_false, ?_, nofun⟩
  · rintro l ⟨⟩
    exact Nat.zero_add _
  · rintro ⟨x, hx, -⟩
    cases hx
  · intro t₁ x t₂ hnil
    cases t₁ <;> cases hnil

/-- **When an accepted cancellation is kept.** Let `localRun` have taken the steps `t₁` when a
cancellation is committed for its running run. What the cancellation promises holds of every
continuation exactly when no write was pending. -/
theorem cancelKept_iff {maxRuns : ℕ} {registered : List String} {r executorId : String}
    {request : PipelineRunRequest} {files : List StreamFile} {freshSession : String}
    {db db₁ db₂ : RunDb} {t₁ : RunHistory (String × Input)} {p : RunProg (Except RunError Unit)}
    {e : String × Input} (hqueued : db.runStatus r = some .queued)
    (hexec : Exec (runSystem maxRuns CancelEnv)
      (localRun registered r executorId request files freshSession) db t₁ p db₁)
    (hcancel : CancelEnv e db₁ db₂) (hrunning : db₁.runStatus r = some .running)
    (hrequested : db₂.runStatus r = some .cancelRequested) :
    (∀ t₂ p' db₃, Exec (runSystem maxRuns CancelEnv) p db₂ t₂ p' db₃ →
        CancelKept r (planStages (files.map StreamFile.sensorType)).length t₁ t₂ db₃) ↔
      ¬ WritePending r t₁ := by
  obtain ⟨q, hJ, hfollows⟩ := exists_cancellable hqueued hexec
  constructor
  · intro hkept hpending
    obtain ⟨x, p', db₃, hnext, hx⟩ := exists_exec_running_of_pending hfollows
      (hJ.pending.1 hpending) hrequested
    exact (hkept _ _ _ hnext).notRunning x (List.mem_singleton_self x) hx
  · intro hpending t₂ p' db₃ hrest
    -- the whole execution, with the cancellation in its place
    obtain ⟨q', hJ', -⟩ := exists_cancellable hqueued (hexec.append (.env hcancel hrest))
    obtain ⟨hchecks, hnot, -, -, -⟩ :=
      hJ'.kept t₁ ⟨.env e, db₁, db₂⟩ t₂ rfl ⟨rfl, hrunning, hrequested⟩ hpending
    have hstarted := hJ'.counted.started
    have hended := hJ'.counted.ended
    have hbefore := hJ.counted.ended
    have hone := q.toEnd_le_one
    rw [← List.singleton_append, worksStarted_append, worksStarted_append,
      worksStarted_singleton] at hstarted
    rw [← List.singleton_append, worksEnded_append, worksEnded_append,
      worksEnded_singleton] at hended
    simp only [isBeginWork, isEndWork, Bool.false_eq_true, if_false] at hstarted hended
    rw [← List.singleton_append] at hchecks
    refine ⟨hnot, by omega, by omega, by omega, fun hcompleted ↦ ?_⟩
    rw [← hchecks]
    refine hJ'.completed (not_not.1 fun hq' ↦ ?_) hcompleted
    exact hJ'.status.ne_completed hq' hcompleted

/-! ## A cancellation that is lost

The cancellation is committed after the first boundary check has passed and before the write that
follows it. -/

/-- Up to the first boundary check. -/
def checkedTurns : List (Turn Input (String × Input)) := List.replicate 5 (.own quietInput)

/-- The run tables when the cancellation is committed there. -/
def checkedCancelledDb : RunDb :=
  ((imuRun checkedTurns).state.requestCancel "run_1" quietInput.now).2

/-- What the executor does next. -/
def lostPoint : Point RunOp RunOp.Ans RunDb (String × Input) (Except RunError Unit) :=
  runTurns 2 [.own quietInput] (imuRun checkedTurns).rest checkedCancelledDb

theorem cancelKept_iff_checked :
    (∀ t₂ p' db₃, Exec (runSystem 2 CancelEnv) (imuRun checkedTurns).rest checkedCancelledDb
        t₂ p' db₃ → CancelKept "run_1" 9 (imuRun checkedTurns).history t₂ db₃) ↔
      ¬ WritePending "run_1" (imuRun checkedTurns).history :=
  cancelKept_iff (e := ("run_1", quietInput)) rfl (exec_imuRun checkedTurns) rfl
    (by decide +kernel) (by decide +kernel)

/-- The cancellation is committed for a running run, and the next step makes it running again. -/
theorem cancellation_lost :
    (dbWithRun .queued).runStatus "run_1" = some .queued ∧
      Exec (runSystem 2 CancelEnv) imuLocalRun (dbWithRun .queued) (imuRun checkedTurns).history
        (imuRun checkedTurns).rest (imuRun checkedTurns).state ∧
      CancelEnv ("run_1", quietInput) (imuRun checkedTurns).state checkedCancelledDb ∧
      (imuRun checkedTurns).state.runStatus "run_1" = some .running ∧
      checkedCancelledDb.runStatus "run_1" = some .cancelRequested ∧
      Exec (runSystem 2 CancelEnv) (imuRun checkedTurns).rest checkedCancelledDb lostPoint.history
        lostPoint.rest lostPoint.state ∧
      lostPoint.state.runStatus "run_1" = some .running :=
  ⟨rfl, exec_imuRun checkedTurns, rfl, by decide +kernel, by decide +kernel,
    exec_runTurns 2 _ _ _, by decide +kernel⟩

end ForgeData
