import ForgeData.Runs.Reconciliation

/-!
# Is a lost run failed exactly once?

Every transition to `failed` has its event, and a failed run fails again only if a stage boundary write
has revived it in between. A reconciliation that runs alone leaves no run that is lost by its own
threshold; one that follows it at once takes a later threshold from the clock, and changes something
exactly if a heartbeat lies between the two.
-/

namespace ForgeData

open Python Interleaving

/-! ## The failures of a run of the pool -/

open RunDb in
/-- **Every operation** records the failures that it makes, and no others. -/
theorem RunOp.failureStep_run {maxRuns : ℕ} {i : Input} {o : RunOp} {db : RunDb} :
    FailureStep db (o.run maxRuns i db).2 := by
  cases o with
  | updateCurrentStage runId stage => exact failureStep_updateCurrentStage runId stage
  | markRunning | markCompleted | markFailed | markCancelled =>
    exact failureStep_markStatus _ _ _ _ (by decide)
  | requestCancel => exact failureStep_requestCancel ..
  | createRun => exact failureStep_admitRun ..
  | reconcileStale => exact failureStep_reconcileStale ..
  | touchHeartbeat => exact .of_same rfl (runStatus_touchHeartbeat ..)
  | createAllStageRuns runId plannedStages =>
    refine .of_same (runEvents_createAllStageRuns ..) ?_
    exact funext (runStatus_congr (pipelineRuns_createAllStageRuns ..))
  | recordArtifact =>
    refine .of_same (runEvents_recordRunArtifact ..) ?_
    exact funext (runStatus_congr (pipelineRuns_recordRunArtifact ..))
  | getRun | check | findStaleRunningRuns | startStage | completeStage | failStage | skipStage
  | cancelStage | updateRecordsTotal | beginWork | endWork => exact .of_same rfl rfl

section

variable {maxRuns : ℕ} {Party : RunProg Unit → Prop} {ps qs : List (RunProg Unit)} {db db' : RunDb}
  {t : List RunPoolStep}

theorem failures_eq_of_poolRun (hpool : PoolRun (ClockedSem maxRuns) Party ps db t qs db') (r : String) :
    db'.failures r = db.failures r + t.countP fun x ↦ Fails x.before x.after r := by
  induction hpool with
  | nil => rfl
  | start _ _ ih => exact ih
  | step _ hsem _ ih =>
    obtain ⟨i, -, hrun⟩ := hsem
    have hstep := (congrArg Prod.snd hrun ▸ RunOp.failureStep_run (i := i)).failures_eq r
    rw [ih, hstep, List.countP_cons, Nat.add_assoc, Nat.add_comm (List.countP _ _)]
    simp only [decide_eq_true_eq]

theorem exists_boundary_between {t₁ t₂ t₃ : List RunPoolStep} {x y : RunPoolStep} {r : String}
    (hpool : PoolRun (ClockedSem maxRuns) Party ps db (t₁ ++ x :: (t₂ ++ y :: t₃)) qs db')
    (hx : Fails x.before x.after r) (hy : Fails y.before y.after r) :
    ∃ z ∈ t₂, ∃ stage, z.op = .updateCurrentStage r stage := by
  by_contra hnone
  obtain ⟨ps₁, hrest⟩ := hpool.exists_of_append
  obtain ⟨ps₂, hmiddle⟩ := hrest.exists_until
  refine hy.1 (hmiddle.invariant (J := fun db ↦ db.runStatus r = some .failed) ?_ hx.2).1
  intro z hz hbefore
  obtain ⟨i, -, hrun⟩ := hmiddle.sem_of_mem z hz
  have hstep : StatusStep (z.before.runStatus r) (z.after.runStatus r) := by
    rw [show z.after = (z.op.run maxRuns i z.before).2 from (congrArg Prod.snd hrun).symm]
    exact RunOp.statusStep_run fun stage hstage ↦ hnone ⟨z, hz, stage, hstage⟩
  rw [hbefore] at hstep
  exact hstep.eq_of_terminal (by decide)

end

/-! ## Thresholds from the clock -/

/-- A reconciliation compares with what a clock has shown. -/
def RunOp.OnClock : RunOp → Prop
  | .reconcileStale _ text => ClockTime text
  | _ => True

instance (o : RunOp) : Nonempty o.Ans := by
  cases o with
  | createRun => exact ⟨.ok ""⟩
  | markRunning | markCompleted | markFailed | markCancelled | requestCancel => exact ⟨.ok ()⟩
  | createAllStageRuns => exact ⟨.ok Dict.empty⟩
  | endWork => exact ⟨.cancellationRequested⟩
  | check | reconcileStale => exact ⟨true⟩
  | findStaleRunningRuns => exact ⟨[]⟩
  | getRun => exact ⟨none⟩
  | touchHeartbeat | updateCurrentStage | startStage | completeStage | failStage | skipStage
  | cancelStage | updateRecordsTotal | recordArtifact | beginWork => exact ⟨()⟩

theorem Next.onClock {runId : String} {body : PipelineBody (Except PyException String)}
    {plannedStages : List StageName} {q q' : Phase} {o : RunOp} {a : o.Ans}
    (h : Next runId body plannedStages q o a q') : o.OnClock := by
  cases h with
  | stage h => cases h <;> trivial
  | _ => trivial

theorem performs_onClock_reconcileAll (threshold : Datetime) (stale : List String) (reconciled : ℕ) :
    (reconcileAll threshold.isoText stale reconciled).Performs RunOp.OnClock := by
  induction stale generalizing reconciled with
  | nil => trivial
  | cons runId stale ih => exact ⟨⟨threshold, rfl⟩, fun lost ↦ ih _⟩

theorem ClockedParty.performs_onClock {registered : List String} {p : RunProg Unit}
    (h : ClockedParty registered p) : p.Performs RunOp.OnClock := by
  cases h with
  | localRun r executorId request files freshSession =>
    refine Prog.Performs.discard (Prog.Follows.performs ?_
      (follows_localRun registered executorId request files freshSession))
    exact Next.onClock
  | requestCancel r => exact ⟨trivial, fun _ ↦ trivial⟩
  | reconcile threshold =>
    refine Prog.Performs.discard ?_
    exact ⟨trivial, fun stale ↦ performs_onClock_reconcileAll threshold stale 0⟩
  | createRun request runType requestJson configHash =>
    refine Prog.Performs.discard ?_
    rw [ForgeData.createRun]
    split
    · trivial
    · exact ⟨trivial, fun _ ↦ trivial⟩

/-! ## Reconciliations that nobody interrupts -/

namespace RunDb

variable {db : RunDb} {threshold : Datetime} {r : String}

theorem Clocked.not_lost_reconcileStale (h : db.Clocked) (r : String) (threshold : Datetime)
    (now : ℕ → String) : ¬(db.reconcileStale r threshold.isoText now).2.Lost r threshold := by
  rcases h.reconcileStale_cases r threshold now with ⟨-, -, hrun⟩ | ⟨hlost, heq⟩
  · obtain ⟨row, finishedAt, createdAt, -, hafter, -⟩ := hrun
    rintro ⟨row', hrow', hstatus, -⟩
    rw [← Option.some.inj (hafter.symm.trans hrow')] at hstatus
    exact hstatus.elim nofun nofun
  · rwa [heq]

theorem Clocked.lost_of_reconcileStale (h : db.Clocked) {r' : String} {now : ℕ → String}
    (hlost : (db.reconcileStale r' threshold.isoText now).2.Lost r threshold) : db.Lost r threshold := by
  rcases h.reconcileStale_cases r' threshold now with ⟨-, -, hrun⟩ | ⟨-, heq⟩
  · obtain ⟨row, finishedAt, createdAt, -, -, hother, -⟩ := hrun
    obtain rfl | hr := eq_or_ne r r'
    · exact absurd hlost (h.not_lost_reconcileStale r threshold now)
    · obtain ⟨row', hrow', hrest⟩ := hlost
      exact ⟨row', (hother r hr).symm.trans hrow', hrest⟩
  · rwa [heq] at hlost

theorem Clocked.mem_findStaleRunningRuns_iff (h : db.Clocked) :
    r ∈ db.findStaleRunningRuns threshold.isoText ↔ db.Lost r threshold := by
  constructor
  · intro hr
    obtain ⟨⟨r', row⟩, hmem, rfl⟩ := List.mem_map.mp hr
    obtain ⟨hitem, hstale⟩ := List.mem_filter.mp hmem
    exact (h.stale_iff (Dict.get?_eq_some_iff.mpr hitem)).mp (of_decide_eq_true hstale)
  · intro hlost
    obtain ⟨row, hrow, -⟩ := id hlost
    refine List.mem_map.mpr ⟨(r, row), List.mem_filter.mpr ⟨Dict.get?_eq_some_iff.mp hrow, ?_⟩, rfl⟩
    exact decide_eq_true ((h.stale_iff hrow).mpr hlost)

end RunDb

/-- The run tables with one program at work. -/
abbrev aloneRunSystem (maxRuns : ℕ) : System RunOp RunOp.Ans RunDb Empty := runSystem maxRuns nofun

section

variable {maxRuns : ℕ} {threshold : Datetime} {db db' : RunDb} {t : RunHistory Empty}

/-- The loop loses no further run, and none that it goes through remains lost. -/
theorem reconcileAll_alone {stale : List String} {m n : ℕ} (h : db.Clocked)
    (hexec : Exec (aloneRunSystem maxRuns) (reconcileAll threshold.isoText stale m) db t (.pure n) db') :
    db'.Clocked ∧ (∀ r, db'.Lost r threshold → db.Lost r threshold) ∧
      ∀ r ∈ stale, ¬db'.Lost r threshold := by
  induction stale generalizing m db t with
  | nil =>
    obtain ⟨-, -, rfl⟩ := hexec.of_pure
    exact ⟨h, fun r hr ↦ hr, fun r hr ↦ absurd hr List.not_mem_nil⟩
  | cons r' stale ih =>
    obtain ⟨lost, db₁, t', -, ⟨i, hrun⟩, hrest⟩ := Exec.of_call hexec
    obtain rfl : (db.reconcileStale r' threshold.isoText i.now).2 = db₁ := congrArg Prod.snd hrun
    obtain ⟨hclocked, hback, hgone⟩ := ih (h.reconcileStale r' threshold.isoText i.now) hrest
    refine ⟨hclocked, fun r hr ↦ h.lost_of_reconcileStale (hback r hr), fun r hr ↦ ?_⟩
    rcases List.mem_cons.mp hr with rfl | hr
    · exact fun hlost ↦ h.not_lost_reconcileStale r threshold i.now (hback r hlost)
    · exact hgone r hr

/-- **No run is left** that is lost by the threshold of the reconciliation. -/
theorem not_lost_of_reconcile (h : db.Clocked) {n : ℕ}
    (hexec : Exec (aloneRunSystem maxRuns) (reconcile threshold.isoText) db t (.pure n) db') :
    db'.Clocked ∧ ∀ r, ¬db'.Lost r threshold := by
  obtain ⟨stale, db₁, t', -, ⟨i, hrun⟩, hrest⟩ := Exec.of_call hexec
  obtain rfl : db.findStaleRunningRuns threshold.isoText = stale := congrArg Prod.fst hrun
  obtain rfl : db = db₁ := congrArg Prod.snd hrun
  obtain ⟨hclocked, hback, hgone⟩ := reconcileAll_alone h hrest
  exact ⟨hclocked, fun r hr ↦ hgone r (h.mem_findStaleRunningRuns_iff.mpr (hback r hr)) hr⟩

theorem reconcile_of_not_lost (h : db.Clocked) (hnone : ∀ r, ¬db.Lost r threshold) {n : ℕ}
    (hexec : Exec (aloneRunSystem maxRuns) (reconcile threshold.isoText) db t (.pure n) db') :
    n = 0 ∧ db' = db := by
  obtain ⟨stale, db₁, t', -, ⟨i, hrun⟩, hrest⟩ := Exec.of_call hexec
  obtain rfl : db.findStaleRunningRuns threshold.isoText = stale := congrArg Prod.fst hrun
  obtain rfl : db = db₁ := congrArg Prod.snd hrun
  have hempty : db.findStaleRunningRuns threshold.isoText = [] :=
    List.eq_nil_iff_forall_not_mem.mpr fun r hr ↦ hnone r (h.mem_findStaleRunningRuns_iff.mp hr)
  rw [hempty] at hrest
  obtain ⟨hn, -, hdb⟩ := hrest.of_pure
  exact ⟨hn, hdb⟩

end

/-! ## The result -/

/-- What one pass does: a run that is lost at that moment fails, with one event; any other is left
alone. -/
def ReconcilePass (r : String) (threshold : Datetime) (lost : Bool) (before after : RunDb) : Prop :=
  (before.Lost r threshold ∧ lost = true ∧ before.LostRun after r) ∨
    ¬before.Lost r threshold ∧ lost = false ∧ after = before

/-- **Reconciliation.** From run tables whose heartbeats are from a clock, in every run of the pool:
each pass of a reconciliation fails its run if and only if the run is lost at that moment, in time and
not only as a text; the failure events are as many as the failures; between two failures of one run
lies a stage boundary write to it. And of two reconciliations one right after the other, the first
leaves no run that is lost by its threshold, and the second does nothing exactly if no run is lost by
its own. -/
theorem reconciliation_exact {maxRuns : ℕ} {registered : List String} {qs : List (RunProg Unit)}
    {db db' : RunDb} {t : List RunPoolStep}
    (hpool : PoolRun (ClockedSem maxRuns) (ClockedParty registered) [] db t qs db')
    (hclocked : db.Clocked) :
    (∀ thread r text lost before after, ⟨thread, .reconcileStale r text, lost, before, after⟩ ∈ t →
        ∃ threshold : Datetime, text = threshold.isoText ∧ ReconcilePass r threshold lost before after) ∧
      (∀ r, db'.failures r = db.failures r + t.countP fun x ↦ Fails x.before x.after r) ∧
      (∀ t₁ x t₂ y t₃, t = t₁ ++ x :: (t₂ ++ y :: t₃) → ∀ r, Fails x.before x.after r →
        Fails y.before y.after r → ∃ z ∈ t₂, ∃ stage, z.op = .updateCurrentStage r stage) ∧
      ∀ (first second : Datetime) t₁ n₁ db₁ t₂ n₂ db₂,
        Exec (aloneRunSystem maxRuns) (reconcile first.isoText) db' t₁ (.pure n₁) db₁ →
        Exec (aloneRunSystem maxRuns) (reconcile second.isoText) db₁ t₂ (.pure n₂) db₂ →
        (∀ r, ¬db₁.Lost r first) ∧ (n₂ = 0 ∧ db₂ = db₁ ↔ ∀ r, ¬db₁.Lost r second) := by
  have hkept : ∀ x ∈ t, x.before.Clocked → x.after.Clocked := by
    intro x hx hbefore
    obtain ⟨i, hnow, hrun⟩ := hpool.sem_of_mem x hx
    rw [show x.after = (x.op.run maxRuns i x.before).2 from (congrArg Prod.snd hrun).symm]
    exact RunOp.clocked_run hnow hbefore
  refine ⟨?_, failures_eq_of_poolRun hpool, ?_, ?_⟩
  · intro thread r text lost before after hx
    have hbefore : before.Clocked := hpool.invariant_before hkept hclocked _ hx
    obtain ⟨threshold, rfl⟩ : ClockTime text :=
      hpool.forall_op (fun p ↦ ClockedParty.performs_onClock) (fun p hp ↦ absurd hp List.not_mem_nil) _ hx
    obtain ⟨i, -, hrun⟩ := hpool.sem_of_mem _ hx
    have hpass : before.reconcileStale r threshold.isoText i.now = (lost, after) := hrun
    refine ⟨threshold, rfl, ?_⟩
    rcases hbefore.reconcileStale_cases r threshold i.now with ⟨hlost, htrue, hafter⟩ | ⟨hlost, heq⟩
    · rw [hpass] at htrue hafter
      exact .inl ⟨hlost, htrue, hafter⟩
    · obtain ⟨rfl, rfl⟩ := Prod.mk.inj (hpass.symm.trans heq)
      exact .inr ⟨hlost, rfl, rfl⟩
  · rintro t₁ x t₂ y t₃ rfl r hx hy
    exact exists_boundary_between hpool hx hy
  · intro first second t₁ n₁ db₁ t₂ n₂ db₂ hfirst hsecond
    have hend : db'.Clocked := (hpool.invariant hkept hclocked).1
    obtain ⟨hclocked₁, hnone⟩ := not_lost_of_reconcile hend hfirst
    refine ⟨hnone, fun hsame ↦ ?_, fun hfresh ↦ reconcile_of_not_lost hclocked₁ hfresh hsecond⟩
    rw [← hsame.2]
    exact (not_lost_of_reconcile hclocked₁ hsecond).2

/-! ## A run that is lost by the second threshold only -/

/-- The time at which the run of the following schedules is started. -/
def startTime : Datetime :=
  ⟨2026, 1, 1, 0, 0, 0, 0, by decide, by decide, by decide, by decide, by decide, by decide, by decide⟩

/-- One minute later. -/
def oneMinuteLater : Datetime :=
  ⟨2026, 1, 1, 0, 1, 0, 0, by decide, by decide, by decide, by decide, by decide, by decide, by decide⟩

/-- A clock that stands at the start. -/
def startInput : Input := { quietInput with now := fun _ ↦ startTime.isoText }

/-- The point that a schedule leads to while the clock stands. -/
def startPoint (turns : List (PoolTurn RunOp RunOp.Ans Unit)) : PoolPoint RunOp RunOp.Ans RunDb :=
  simulatePool (fun _ o db ↦ o.run 2 startInput db) turns [] (dbWithRun .queued)

theorem poolRun_startPoint {turns : List (PoolTurn RunOp RunOp.Ans Unit)}
    (hparty : ∀ p, .start p ∈ turns → ClockedParty ["imu"] p) :
    PoolRun (ClockedSem 2) (ClockedParty ["imu"]) [] (dbWithRun .queued) (startPoint turns).history
      (startPoint turns).threads (startPoint turns).state :=
  poolRun_simulatePool (fun _ _ _ ↦ ⟨startInput, fun _ ↦ ⟨startTime, rfl⟩, rfl⟩) hparty [] _

/-- The run is started, and its executor is never scheduled again; it is reconciled a minute later. -/
def abandonedTurns : List (PoolTurn RunOp RunOp.Ans Unit) :=
  [.start imuLocalRun.discard, .act 0 (), .act 0 (), .start (reconcile oneMinuteLater.isoText).discard,
    .act 1 (), .act 1 ()]

theorem clockedParty_abandonedTurns :
    ∀ p, .start p ∈ abandonedTurns → ClockedParty ["imu"] p := by
  intro p hp
  rcases List.mem_pair.1 (PoolTurn.mem_started.2 hp) with rfl | rfl
  · exact .localRun ..
  · exact .reconcile _

theorem clocked_dbWithRun (status : RunStatus) : (dbWithRun status).Clocked := by
  intro r row hrow text htext
  have hrow' : (Dict.empty.set "run_1" _).get? r = some row := hrow
  rw [Dict.get?_set] at hrow'
  split at hrow'
  · rw [← Option.some.inj hrow'] at htext
    exact absurd htext nofun
  · exact absurd hrow' nofun

theorem reconciliation_exact_abandoned :
    (∀ thread r text lost before after, ⟨thread, .reconcileStale r text, lost, before, after⟩ ∈
        (startPoint abandonedTurns).history →
        ∃ threshold : Datetime, text = threshold.isoText ∧ ReconcilePass r threshold lost before after) ∧
      (startPoint abandonedTurns).state.failures "run_1" = 1 := by
  obtain ⟨hpasses, hfailures, -⟩ :=
    reconciliation_exact (poolRun_startPoint clockedParty_abandonedTurns) (clocked_dbWithRun .queued)
  refine ⟨hpasses, (hfailures "run_1").trans ?_⟩
  decide +kernel

/-- Steps of one program, alone with its clock. -/
def alonePoint {α : Type} (steps : ℕ) (p : RunProg α) (db : RunDb) :
    Point RunOp RunOp.Ans RunDb Empty α :=
  simulate (fun _ o db ↦ o.run 2 startInput db) nofun (List.replicate steps (.own ())) p db

theorem exec_alonePoint {α : Type} (steps : ℕ) (p : RunProg α) (db : RunDb) :
    Exec (aloneRunSystem 2) p db (alonePoint steps p db).history (alonePoint steps p db).rest
      (alonePoint steps p db).state :=
  exec_simulate (S := aloneRunSystem 2) (fun _ _ _ ↦ ⟨startInput, rfl⟩) nofun _ p db

/-- The run is started, and its executor is never scheduled again. -/
def startedTurns : List (PoolTurn RunOp RunOp.Ans Unit) :=
  [.start imuLocalRun.discard, .act 0 (), .act 0 ()]

/-- The run tables after the first reconciliation. -/
def afterFirst : RunDb :=
  (alonePoint 1 (reconcile startTime.isoText) (startPoint startedTurns).state).state

/-- Of two reconciliations one right after the other, the second fails a run. -/
theorem second_reconciliation_fails_run :
    PoolRun (ClockedSem 2) (ClockedParty ["imu"]) [] (dbWithRun .queued)
        (startPoint startedTurns).history (startPoint startedTurns).threads
        (startPoint startedTurns).state ∧
      (∃ t, Exec (aloneRunSystem 2) (reconcile startTime.isoText) (startPoint startedTurns).state t
        (.pure 0) afterFirst) ∧
      ∃ t db, Exec (aloneRunSystem 2) (reconcile oneMinuteLater.isoText) afterFirst t (.pure 1) db ∧
        afterFirst.runStatus "run_1" = some .running ∧ db.runStatus "run_1" = some .failed := by
  refine ⟨poolRun_startPoint fun p hp ↦ ?_, ?_, ?_⟩
  · rw [List.mem_singleton.1 (PoolTurn.mem_started.2 hp)]
    exact .localRun ..
  · have hexec := exec_alonePoint 1 (reconcile startTime.isoText) (startPoint startedTurns).state
    have hrest : (alonePoint 1 (reconcile startTime.isoText) (startPoint startedTurns).state).rest =
        .pure 0 := Prog.eq_pure_of_result? (by decide +kernel)
    rw [hrest] at hexec
    exact ⟨_, hexec⟩
  · have hexec := exec_alonePoint 2 (reconcile oneMinuteLater.isoText) afterFirst
    have hrest : (alonePoint 2 (reconcile oneMinuteLater.isoText) afterFirst).rest = .pure 1 :=
      Prog.eq_pure_of_result? (by decide +kernel)
    rw [hrest] at hexec
    exact ⟨_, _, hexec, by decide +kernel, by decide +kernel⟩

end ForgeData
