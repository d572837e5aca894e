import ForgeData.Interleaving.Pool
import ForgeData.Runs.CancelRequests

/-!
# Does the status of a run follow the transition table?

Executors, cancellation requests, reconciliation and the creation of runs, any number of each, act on
the run tables in any order. Every status change is a transition of the table in every such run whose
stage boundary writes find their run still running; and then a terminal status is never left. The
write itself looks at nothing, so a run that was reconciled in the meantime is running again.
-/

namespace ForgeData

open Python Interleaving

/-- The programs that write to the run tables. -/
inductive RunParty (registered : List String) : RunProg Unit → Prop
  | localRun (r executorId : String) (request : PipelineRunRequest) (files : List StreamFile)
      (freshSession : String) :
    RunParty registered (localRun registered r executorId request files freshSession).discard
  | requestCancel (r : String) : RunParty registered (requestCancel r).discard
  | reconcile (threshold : String) : RunParty registered (reconcile threshold).discard
  | createRun (request : PipelineRunRequest) (runType requestJson configHash : String) :
    RunParty registered (createRun registered request runType requestJson configHash).discard

/-- One step of a pool of these programs. -/
abbrev RunPoolStep := PoolStep RunOp RunOp.Ans RunDb

/-- If the operation is a stage boundary write, it finds its run still running. -/
def boundaryOnRunning : RunOp → RunDb → Bool
  | .updateCurrentStage r _, db => db.runStatus r = some .running
  | _, _ => true

theorem statusStep_of_boundaryOnRunning {maxRuns : ℕ} {x : RunPoolStep}
    (hsem : RunSem maxRuns x.op x.before x.ans x.after) (hx : boundaryOnRunning x.op x.before) (r : String) :
    StatusStep (x.before.runStatus r) (x.after.runStatus r) := by
  obtain ⟨thread, o, a, db, db'⟩ := x
  obtain ⟨i, hrun⟩ := hsem
  by_cases hop : ∃ stage, o = .updateCurrentStage r stage
  · obtain ⟨stage, rfl⟩ := hop
    have hst : db.runStatus r = some .running := of_decide_eq_true hx
    rw [RunOp.runStatus_of_updateCurrentStage hrun hst, Function.update_self, hst]
    exact .same _
  · rw [show db' = (o.run maxRuns i db).2 from (congrArg Prod.snd hrun).symm]
    exact RunOp.statusStep_run fun stage hstage ↦ hop ⟨stage, hstage⟩

theorem StatusStep.eq_of_terminal {st : RunStatus} {st' : Option RunStatus}
    (h : StatusStep (some st) st') (hst : st.Terminal) : st' = some st := by
  generalize hold : some st = old at h
  cases h with
  | same => rfl
  | transition hnew =>
    cases hold
    rw [RunStatus.terminal_iff_transitions_eq_nil.1 hst] at hnew
    cases hnew
  | created => cases hold

/-- **The status machine of a run.** In every run of the pool whose stage boundary writes find their
run running, every status change is a transition, and no step leaves a terminal status. -/
theorem status_follows_transitions {maxRuns : ℕ} {registered : List String}
    {ps qs : List (RunProg Unit)} {db db' : RunDb} {t : List RunPoolStep}
    (hpool : PoolRun (RunSem maxRuns) (RunParty registered) ps db t qs db')
    (hboundary : ∀ x ∈ t, boundaryOnRunning x.op x.before) :
    (∀ x ∈ t, ∀ r, StatusStep (x.before.runStatus r) (x.after.runStatus r)) ∧
      ∀ t₁ x t₂, t = t₁ ++ x :: t₂ → ∀ r st, x.after.runStatus r = some st → st.Terminal →
        db'.runStatus r = some st ∧ ∀ y ∈ t₂, y.after.runStatus r = some st := by
  have hsteps : ∀ x ∈ t, ∀ r, StatusStep (x.before.runStatus r) (x.after.runStatus r) :=
    fun x hx ↦ statusStep_of_boundaryOnRunning (hpool.sem_of_mem x hx) (hboundary x hx)
  refine ⟨hsteps, ?_⟩
  rintro t₁ x t₂ rfl r st hx hst
  obtain ⟨_, hrest⟩ := hpool.exists_of_append
  refine hrest.invariant (J := fun db ↦ db.runStatus r = some st) (fun y hy hbefore ↦ ?_) hx
  have hy' := hsteps y (List.mem_append_right t₁ (List.mem_cons_of_mem x hy)) r
  rw [hbefore] at hy'
  exact hy'.eq_of_terminal hst

/-! ## A finished run that is taken up again

The executor passes a boundary check; another process, with a staleness threshold that the last
heartbeat does not reach, reconciles the run and marks it failed; the executor goes on and writes. -/

/-- The point that a schedule leads to, from one queued run. -/
def poolPoint (maxRuns : ℕ) (turns : List (PoolTurn RunOp RunOp.Ans Input)) :
    PoolPoint RunOp RunOp.Ans RunDb :=
  simulatePool (fun i o db ↦ o.run maxRuns i db) turns [] (dbWithRun .queued)

theorem poolRun_poolPoint (maxRuns : ℕ) {turns : List (PoolTurn RunOp RunOp.Ans Input)}
    (hparty : ∀ p, .start p ∈ turns → RunParty ["imu"] p) :
    PoolRun (RunSem maxRuns) (RunParty ["imu"]) [] (dbWithRun .queued)
      (poolPoint maxRuns turns).history (poolPoint maxRuns turns).threads
      (poolPoint maxRuns turns).state :=
  poolRun_simulatePool (fun i _ _ ↦ ⟨i, rfl⟩) hparty [] (dbWithRun .queued)

/-- The executor gets to its first boundary write. -/
def firstStageTurns : List (PoolTurn RunOp RunOp.Ans Input) :=
  .start imuLocalRun.discard :: List.replicate 6 (.act 0 quietInput)

/-- Just before that write the run is reconciled. -/
def revivedTurns : List (PoolTurn RunOp RunOp.Ans Input) :=
  .start imuLocalRun.discard :: List.replicate 5 (.act 0 quietInput)
    ++ [.start (reconcile "2026-01-01T00:01:00+00:00").discard, .act 1 quietInput,
      .act 1 quietInput, .act 0 quietInput]

theorem runParty_revivedTurns : ∀ p, .start p ∈ revivedTurns → RunParty ["imu"] p := by
  intro p hp
  rcases List.mem_pair.1 (PoolTurn.mem_started.2 hp) with rfl | rfl
  · exact .localRun ..
  · exact .reconcile _

theorem runParty_firstStageTurns : ∀ p, .start p ∈ firstStageTurns → RunParty ["imu"] p := by
  intro p hp
  rw [List.mem_singleton.1 (PoolTurn.mem_started.2 hp)]
  exact .localRun ..

theorem status_follows_transitions_first_stage :
    (∀ x ∈ (poolPoint 2 firstStageTurns).history, ∀ r,
        StatusStep (x.before.runStatus r) (x.after.runStatus r)) ∧
      ∀ t₁ x t₂, (poolPoint 2 firstStageTurns).history = t₁ ++ x :: t₂ → ∀ r st,
        x.after.runStatus r = some st → st.Terminal →
          (poolPoint 2 firstStageTurns).state.runStatus r = some st ∧
            ∀ y ∈ t₂, y.after.runStatus r = some st :=
  status_follows_transitions (poolRun_poolPoint 2 runParty_firstStageTurns) (by decide +kernel)

/-- One of the steps takes the run from failed to running. -/
theorem failed_run_revived :
    PoolRun (RunSem 2) (RunParty ["imu"]) [] (dbWithRun .queued)
        (poolPoint 2 revivedTurns).history (poolPoint 2 revivedTurns).threads
        (poolPoint 2 revivedTurns).state ∧
      ∃ x ∈ (poolPoint 2 revivedTurns).history,
        x.before.runStatus "run_1" = some .failed ∧ x.after.runStatus "run_1" = some .running :=
  ⟨poolRun_poolPoint 2 runParty_revivedTurns, by decide +kernel⟩

end ForgeData
