import ForgeData.Runs.StageOrder
import ForgeData.Runs.StageRows

/-!
# Are all stage rows closed?

When the sensor types of the streams are pairwise different, every planned stage has a row of its own,
and the row goes through the stage transitions as the executor goes through the stage: at the end
every row is closed, and the completed ones are those of the stages whose service returned. When a
sensor type is repeated, the executor forgets the first of two rows, and nobody ever closes it.
-/

namespace ForgeData

open Python Interleaving

/-! ## Rows and their statuses -/

/-- What may become of a stage row in one step. -/
inductive StageRowStep : Option StageStatus → Option StageStatus → Prop where
  | same (st : Option StageStatus) : StageRowStep st st
  | transition {st new : StageStatus} (h : new ∈ st.transitions) : StageRowStep (some st) (some new)
  | created : StageRowStep none (some .pending)

/-- The step changes the rows of the run only along the stage transitions. -/
def StageLegal {Env : Type} (r : String) (y : RunStep Env) : Prop :=
  ∀ x, StageRowStep ((y.before.stageRow r x).map StageRow.status)
    ((y.after.stageRow r x).map StageRow.status)

/-- Every planned stage has its own row, with the status that `f` tells. -/
structure Tracked (r : String) (planned : List StageName) (ids : Dict StageName String)
    (f : StageName → StageStatus) (db : RunDb) : Prop where
  row : ∀ s ∈ planned, ∃ x row, ids.get? s = some x ∧ db.stageRow r x = some row ∧
    row.stage = s.text ∧ row.status = f s
  own : ∀ x row, db.stageRow r x = some row → ∃ s ∈ planned, ids.get? s = some x
  injective : ∀ s s' x, ids.get? s = some x → ids.get? s' = some x → s = s'

section

variable {Env : Type} {r x : String} {planned : List StageName} {ids : Dict StageName String}
  {f : StageName → StageStatus} {db db' : RunDb} {s : StageName} {st : StageStatus}
  {g : StageRow → StageRow}

theorem tracked_of_inserted (h : Inserted r planned db ids) (hnodup : planned.Nodup) :
    Tracked r planned ids (fun _ ↦ .pending) db where
  row s hs := by
    obtain ⟨x, hid, hrow⟩ := h.row s hs
    exact ⟨x, _, hid, hrow, rfl, rfl⟩
  own := h.own hnodup
  injective := h.injective

theorem Tracked.exists_id (hT : Tracked r planned ids f db) :
    ∀ s ∈ planned, ∃ x, ids.get? s = some x := fun s hs ↦ by
  obtain ⟨x, -, hid, -⟩ := hT.row s hs
  exact ⟨x, hid⟩

theorem Tracked.congr (hT : Tracked r planned ids f db) (h : ∀ x, db'.stageRow r x = db.stageRow r x) :
    Tracked r planned ids f db' where
  row s hs := by
    obtain ⟨x, row, hid, hrow, hrest⟩ := hT.row s hs
    exact ⟨x, row, hid, (h x).trans hrow, hrest⟩
  own x row hrow := hT.own x row ((h x).symm.trans hrow)
  injective := hT.injective

/-- **An update of the row of a stage** changes the status of that stage and no other. -/
theorem Tracked.update (hT : Tracked r planned ids f db) (hid : ids.get? s = some x)
    (hrunId : ∀ row, (g row).runId = row.runId) (hstage : ∀ row, (g row).stage = row.stage)
    (hstatus : ∀ row, row.status = f s → (g row).status = st) :
    Tracked r planned ids (Function.update f s st) (db.updateStageRun x g) where
  row s' hs' := by
    obtain ⟨x', row, hid', hrow, htext, hst⟩ := hT.row s' hs'
    by_cases hs : s' = s
    · subst hs
      have hx : x' = x := Option.some.inj (hid'.symm.trans hid)
      refine ⟨x', g row, hid', ?_, (hstage row).trans htext, ?_⟩
      · rw [RunDb.stageRow_updateStageRun hrunId, if_pos hx, hrow, Option.map_some]
      · rw [Function.update_self]
        exact hstatus row hst
    · have hx : x' ≠ x := fun h ↦ hs (hT.injective s' s x (h ▸ hid') hid)
      refine ⟨x', row, hid', ?_, htext, by rw [Function.update_of_ne hs, hst]⟩
      rw [RunDb.stageRow_updateStageRun hrunId, if_neg hx, hrow]
  own x' row hrow := by
    rw [RunDb.stageRow_updateStageRun hrunId] at hrow
    split at hrow
    · obtain ⟨row', hrow', -⟩ := Option.map_eq_some_iff.1 hrow
      exact hT.own x' row' hrow'
    · exact hT.own x' row hrow
  injective := hT.injective

/-- Such an update is legal if it follows the table, or keeps the status. -/
theorem Tracked.legal_update (hT : Tracked r planned ids f db) (hs : s ∈ planned)
    (hid : ids.get? s = some x) (hrunId : ∀ row, (g row).runId = row.runId)
    (hstatus : ∀ row, row.status = f s → (g row).status = st)
    (hst : st = f s ∨ st ∈ (f s).transitions) (e : Event RunOp RunOp.Ans Env) :
    StageLegal r ⟨e, db, db.updateStageRun x g⟩ := by
  intro y
  obtain ⟨x', row, hid', hrow, -, hrowst⟩ := hT.row s hs
  have hx : x' = x := Option.some.inj (hid'.symm.trans hid)
  subst hx
  dsimp only
  rw [RunDb.stageRow_updateStageRun hrunId]
  split
  · next hy =>
    rw [hy, hrow, Option.map_some, Option.map_some, Option.map_some, hrowst, hstatus row hrowst]
    rcases hst with rfl | hst
    · exact .same _
    · exact .transition hst
  · exact .same _

theorem stageLegal_of_eq (h : ∀ x, db'.stageRow r x = db.stageRow r x)
    (e : Event RunOp RunOp.Ans Env) : StageLegal r ⟨e, db, db'⟩ := fun x ↦ by
  rw [show RunDb.stageRow _ r x = _ from h x]
  exact .same _

end

/-! ## The statuses in each phase -/

/-- Between two stages: those that returned are completed, the others are pending. -/
def Settled (planned returned : List StageName) (f : StageName → StageStatus) : Prop :=
  ∀ s ∈ planned, f s = if s ∈ returned then .completed else .pending

/-- Once the pipeline has ended: the stages in `remaining` are still pending, the others are closed,
and completed if they returned. -/
def Closing (planned returned : List StageName) (f : StageName → StageStatus)
    (remaining : List StageName) : Prop :=
  ∀ s ∈ planned, (s ∈ remaining → f s = .pending ∧ s ∉ returned) ∧
    (s ∉ remaining → (f s).Closed ∧ (f s = .completed ↔ s ∈ returned))

/-- The status of the row of a stage while it is performed. -/
def StageStep.Allows : StageStep → StageStatus → Prop
  | beat, st | passed, st | current, st => st = .pending
  | started, st | working, st | returned _, st | failing _, st => st = .running
  | counting _ _, st | recording _, st => st = .completed
  | cancelling, st => st = .pending ∨ st = .running

/-- The statuses of the planned stages in each phase of the execution. -/
def PhaseRows (planned returned : List StageName) (ids : Dict StageName String)
    (f : StageName → StageStatus) : Phase → Prop
  | .boundary c => c.ids = ids ∧ Settled planned returned f
  | .inStage c x step => c.ids = ids ∧ ids.get? c.stage = some x ∧ step.Allows (f c.stage) ∧
    ∀ s ∈ planned, s ≠ c.stage → f s = if s ∈ returned then .completed else .pending
  | .closing ids' _ x remaining => ids' = ids ∧ ∃ s, ids.get? s = some x ∧ s ∉ remaining ∧
    s :: remaining ⊆ planned ∧ remaining.Nodup ∧ Closing planned returned f (s :: remaining)
  | .ended _ | .done => Closing planned returned f []
  | _ => False

section

variable {r : String} {planned returned remaining : List StageName} {ids : Dict StageName String}
  {f : StageName → StageStatus} {db : RunDb}

theorem phaseRows_arrive {p : PipelineBody (Except PyException String)}
    (hp : Conforms False p remaining) (hplan : returned ++ remaining = planned)
    (hf : Settled planned returned f) : PhaseRows planned returned ids f (arrive ids p remaining) := by
  rcases p with (exc | packageId) | ⟨w, k⟩
  · exact absurd hp not_false
  · intro s hs
    rw [show remaining = [] from hp, List.append_nil] at hplan
    subst hplan
    rw [hf s hs, if_pos hs]
    exact ⟨nofun, fun _ ↦ ⟨by decide, iff_of_true rfl hs⟩⟩
  · cases remaining with
    | nil =>
      obtain ⟨_, hnext, -⟩ := hp ""
      cases hnext
    | cons stage remaining => exact ⟨rfl, hf⟩

theorem phaseRows_closeFrom {exit : StageExit} (hids : ∀ s ∈ planned, ∃ x, ids.get? s = some x)
    (hsub : remaining ⊆ planned) (hnodup : remaining.Nodup)
    (hf : Closing planned returned f remaining) :
    PhaseRows planned returned ids f (closeFrom ids exit remaining) := by
  cases remaining with
  | nil => exact hf
  | cons stage remaining =>
    obtain ⟨x, hid⟩ := hids stage (hsub (List.mem_cons_self ..))
    rw [closeFrom, hid]
    rw [List.nodup_cons] at hnodup
    exact ⟨rfl, stage, hid, hnodup.1, hsub, hnodup.2, hf⟩

/-- The stage that ended the pipeline is closed. -/
theorem closing_of_stage {s : StageName} {st : StageStatus} (hnodup : planned.Nodup)
    (hplan : returned ++ s :: remaining = planned) (hst : st.Closed) (hne : st ≠ .completed)
    (hf : ∀ s' ∈ planned, s' ≠ s → f s' = if s' ∈ returned then .completed else .pending) :
    Closing planned returned (Function.update f s st) remaining := by
  subst hplan
  rw [List.nodup_append, List.nodup_cons] at hnodup
  obtain ⟨-, ⟨hs, -⟩, hdisj⟩ := hnodup
  have hsret : s ∉ returned := fun h ↦ hdisj s h s (List.mem_cons_self ..) rfl
  intro s' hs'
  by_cases heq : s' = s
  · subst heq
    rw [Function.update_self]
    exact ⟨fun h ↦ absurd h hs, fun _ ↦ ⟨hst, iff_of_false hne hsret⟩⟩
  · rw [Function.update_of_ne heq, hf s' hs' heq]
    refine ⟨fun hrem ↦ ?_, fun hrem ↦ ?_⟩
    · have hret : s' ∉ returned := fun h ↦ hdisj s' h s' (List.mem_cons_of_mem s hrem) rfl
      exact ⟨if_neg hret, hret⟩
    · have hret : s' ∈ returned := (List.mem_append.1 hs').resolve_right fun h ↦
        (List.mem_cons.1 h).elim heq hrem
      rw [if_pos hret]
      exact ⟨by decide, iff_of_true rfl hret⟩

theorem Closing.update {s : StageName} {st : StageStatus}
    (hf : Closing planned returned f (s :: remaining)) (hs : s ∉ remaining)
    (hst : st.Closed) (hne : st ≠ .completed) :
    Closing planned returned (Function.update f s st) remaining := by
  intro s' hs'
  by_cases heq : s' = s
  · subst heq
    rw [Function.update_self]
    have hret := ((hf s' hs').1 (List.mem_cons_self ..)).2
    exact ⟨fun h ↦ absurd h hs, fun _ ↦ ⟨hst, iff_of_false hne hret⟩⟩
  · rw [Function.update_of_ne heq]
    refine ⟨fun hrem ↦ (hf s' hs').1 (List.mem_cons_of_mem s hrem), fun hrem ↦ (hf s' hs').2 ?_⟩
    exact fun h ↦ (List.mem_cons.1 h).elim heq hrem

end

/-! ## The executor's steps -/

section

variable {Env : Type} {maxRuns : ℕ} {i : Input} {r : String}
  {body : PipelineBody (Except PyException String)} {planned started returned : List StageName}
  {ids : Dict StageName String} {f : StageName → StageStatus} {q q' : Phase} {o : RunOp} {a : o.Ans}
  {db db' : RunDb}

theorem stageRow_eq_of_offStageRows (hrun : o.run maxRuns i db = (a, db')) (h : o.OffStageRows) :
    ∀ x, db'.stageRow r x = db.stageRow r x := fun x ↦ by
  rw [RunDb.stageRow_congr (RunOp.stageRuns_of_offStageRows hrun h)]

theorem mem_planned_of_inOrder {c : StageFrame} {x : String} {step : StageStep}
    (h : InOrder planned (.inStage c x step) started returned) : c.stage ∈ planned := by
  cases step with
  | beat | passed | current | started | working | cancelling | failing =>
    rw [← h.1]
    exact List.mem_append_right _ (List.mem_cons_self ..)
  | returned | counting | recording =>
    obtain ⟨⟨before, rfl⟩, hplan, -⟩ := h
    rw [← hplan]
    exact List.mem_append_left _ (List.mem_append_right _ (List.mem_singleton_self _))

/-- What a step of the executor leaves: it was legal, and the rows are as the next phase tells. -/
def RowsAfter (Env : Type) (r : String) (planned returned : List StageName) (ids : Dict StageName String)
    (o : RunOp) (a : o.Ans) (q' : Phase) (db db' : RunDb) : Prop :=
  StageLegal r (⟨.own o a, db, db'⟩ : RunStep Env) ∧ ∃ f', Tracked r planned ids f' db' ∧
    PhaseRows planned
      (returned ++ ((returnedWork (.own o a : Event _ _ Env)).map fun p ↦ p.1.stage).toList) ids f' q'

theorem rowsAfter_of_offStageRows (hT : Tracked r planned ids f db)
    (hrun : o.run maxRuns i db = (a, db')) (ho : o.OffStageRows)
    (hret : returnedWork (.own o a : Event _ _ Env) = none)
    (hq : PhaseRows planned returned ids f q') :
    RowsAfter Env r planned returned ids o a q' db db' := by
  refine ⟨stageLegal_of_eq (stageRow_eq_of_offStageRows hrun ho) _, f,
    hT.congr (stageRow_eq_of_offStageRows hrun ho), ?_⟩
  rwa [hret, Option.map_none, Option.toList_none, List.append_nil]

theorem rowsAfter_of_update {s : StageName} {x : String} {st : StageStatus}
    {g : StageRow → StageRow} (hT : Tracked r planned ids f db) (hs : s ∈ planned)
    (hid : ids.get? s = some x) (hdb : db' = db.updateStageRun x g)
    (hrunId : ∀ row, (g row).runId = row.runId) (hstage : ∀ row, (g row).stage = row.stage)
    (hstatus : ∀ row, row.status = f s → (g row).status = st)
    (hst : st = f s ∨ st ∈ (f s).transitions)
    (hret : returnedWork (.own o a : Event _ _ Env) = none)
    (hq : PhaseRows planned returned ids (Function.update f s st) q') :
    RowsAfter Env r planned returned ids o a q' db db' := by
  subst hdb
  refine ⟨hT.legal_update hs hid hrunId hstatus hst _, _, hT.update hid hrunId hstage hstatus, ?_⟩
  rwa [hret, Option.map_none, Option.toList_none, List.append_nil]

theorem phaseRows_inStage_update {c : StageFrame} {x : String} {step : StageStep}
    {st : StageStatus} (hid : c.ids.get? c.stage = some x) (hst : step.Allows st)
    (hf : ∀ s ∈ planned, s ≠ c.stage → f s = if s ∈ returned then .completed else .pending) :
    PhaseRows planned returned c.ids (Function.update f c.stage st) (.inStage c x step) := by
  refine ⟨rfl, hid, by rwa [Function.update_self], fun s hs hne ↦ ?_⟩
  rw [Function.update_of_ne hne, hf s hs hne]

/-- The steps inside a stage. -/
theorem StageNext.rowsAfter {c : StageFrame} {x : String} {step step' : StageStep}
    (hstep : StageNext r c x step o a step') (hT : Tracked r planned ids f db)
    (hrows : PhaseRows planned returned ids f (.inStage c x step))
    (horder : InOrder planned (.inStage c x step) started returned) (hw : c.w.stage = c.stage)
    (hrun : o.run maxRuns i db = (a, db')) :
    RowsAfter Env r planned returned ids o a (.inStage c x step') db db' := by
  have hmem := mem_planned_of_inOrder horder
  obtain ⟨rfl, hid, hallow, hf⟩ := hrows
  cases hstep with
  | observed => exact rowsAfter_of_offStageRows hT hrun trivial rfl ⟨rfl, hid, .inl hallow, hf⟩
  | interrupted => exact rowsAfter_of_offStageRows hT hrun trivial rfl ⟨rfl, hid, .inr hallow, hf⟩
  -- these steps read, or write the row of the run, not those of its stages
  | passed | current | begin | blocked | raised =>
    exact rowsAfter_of_offStageRows hT hrun trivial rfl ⟨rfl, hid, hallow, hf⟩
  | start =>
    have hst : f c.stage = .pending := hallow
    refine rowsAfter_of_update hT hmem hid (congrArg Prod.snd hrun).symm (fun _ ↦ rfl) (fun _ ↦ rfl)
      (fun _ _ ↦ rfl) (.inr ?_) rfl (phaseRows_inStage_update hid rfl hf)
    rw [hst]
    decide
  | complete | completeCounting =>
    have hst : f c.stage = .running := hallow
    refine rowsAfter_of_update hT hmem hid (congrArg Prod.snd hrun).symm (fun _ ↦ rfl) (fun _ ↦ rfl)
      (fun _ _ ↦ rfl) (.inr ?_) rfl (phaseRows_inStage_update hid rfl hf)
    rw [hst]
    decide
  | count =>
    exact rowsAfter_of_update hT hmem hid (congrArg Prod.snd hrun).symm (fun _ ↦ rfl) (fun _ ↦ rfl)
      (fun _ h ↦ h) (.inl rfl) rfl (phaseRows_inStage_update hid hallow hf)
  -- the work itself is done outside the database
  | returned out =>
    have hquiet := stageRow_eq_of_offStageRows (r := r) hrun trivial
    refine ⟨stageLegal_of_eq hquiet _, f, hT.congr hquiet, rfl, hid, hallow, fun s hs hne ↦ ?_⟩
    rw [hf s hs hne]
    simp [returnedWork, hw, hne]

/-- **A step of the executor**, once the rows are created. -/
theorem Next.rowsAfter (hnext : Next r body planned q o a q') (hT : Tracked r planned ids f db)
    (hrows : PhaseRows planned returned ids f q) (horder : InOrder planned q started returned)
    (hconforming : q.Conforming False) (hnodup : planned.Nodup)
    (hrun : o.run maxRuns i db = (a, db')) :
    RowsAfter Env r planned returned ids o a q' db db' := by
  cases hnext with
  -- no row exists in these phases
  | notFound | foundCancelled | found | cancelEarly | refused | accepted | notCreated | created =>
    exact hrows.elim
  | @lost c hlost =>
    obtain ⟨rfl, hf⟩ := hrows
    obtain ⟨x, hid⟩ := hT.exists_id c.stage
      (horder.1 ▸ List.mem_append_right _ (List.mem_cons_self ..))
    rw [hlost] at hid
    cases hid
  -- the plan has no duplicate, so the stage about to start has not returned before
  | @beat c x hid =>
    obtain ⟨rfl, hf⟩ := hrows
    refine rowsAfter_of_offStageRows hT hrun trivial rfl ⟨rfl, hid, ?_, fun s hs _ ↦ hf s hs⟩
    have hplan := horder.1
    subst hplan
    have hret : c.stage ∉ returned := fun h ↦
      (List.nodup_append.1 hnodup).2.2 _ h _ (List.mem_cons_self ..) rfl
    show f c.stage = .pending
    rw [hf _ (List.mem_append_right _ (List.mem_cons_self ..)), if_neg hret]
  | stage hstep => exact hstep.rowsAfter hT hrows horder hconforming.1 hrun
  | @record c x out =>
    obtain ⟨rfl, hid, hallow, hf⟩ := hrows
    obtain ⟨⟨before, hbefore⟩, hplan, -⟩ := horder
    refine rowsAfter_of_offStageRows hT hrun trivial rfl
      (phaseRows_arrive (hconforming.2 out.artifactId) hplan fun s hs ↦ ?_)
    by_cases hs' : s = c.stage
    · rw [hs', if_pos (hbefore ▸ List.mem_append_right _ (List.mem_singleton_self _))]
      exact hallow
    · exact hf s hs hs'
  | @cancelStage c x =>
    have hmem := mem_planned_of_inOrder horder
    obtain ⟨rfl, hid, hallow, hf⟩ := hrows
    have hclosing := closing_of_stage hnodup horder.1 (by decide : StageStatus.cancelled.Closed)
      (by decide) hf
    refine rowsAfter_of_update hT hmem hid (congrArg Prod.snd hrun).symm (fun _ ↦ rfl) (fun _ ↦ rfl)
      (fun _ _ ↦ rfl) (.inr ?_) rfl (phaseRows_closeFrom hT.exists_id ?_ ?_ hclosing)
    · rcases hallow with hst | hst <;> rw [hst] <;> decide
    · exact horder.1 ▸ fun s hs ↦ List.mem_append_right _ (List.mem_cons_of_mem _ hs)
    · exact (List.nodup_cons.1 (List.nodup_append.1 (horder.1 ▸ hnodup)).2.1).2
  | @failStage c x failure =>
    have hmem := mem_planned_of_inOrder horder
    obtain ⟨rfl, hid, hallow, hf⟩ := hrows
    have hclosing := closing_of_stage hnodup horder.1 (by decide : StageStatus.failed.Closed)
      (by decide) hf
    refine rowsAfter_of_update hT hmem hid (congrArg Prod.snd hrun).symm (fun _ ↦ rfl) (fun _ ↦ rfl)
      (fun _ _ ↦ rfl) (.inr ?_) rfl (phaseRows_closeFrom hT.exists_id ?_ ?_ hclosing)
    · rw [show f c.stage = .running from hallow]
      decide
    · exact horder.1 ▸ fun s hs ↦ List.mem_append_right _ (List.mem_cons_of_mem _ hs)
    · exact (List.nodup_cons.1 (List.nodup_append.1 (horder.1 ▸ hnodup)).2.1).2
  -- the first open row is closed; the rest stays for the steps that follow
  | skip _ failure x remaining =>
    obtain ⟨rfl, s, hid, hs, hsub, hrem, hf⟩ := hrows
    have hmem := hsub (List.mem_cons_self ..)
    refine rowsAfter_of_update hT hmem hid (congrArg Prod.snd hrun).symm (fun _ ↦ rfl) (fun _ ↦ rfl)
      (fun _ _ ↦ rfl) (.inr ?_) rfl (phaseRows_closeFrom hT.exists_id
        (List.subset_of_cons_subset hsub) hrem (hf.update hs (by decide) (by decide)))
    rw [((hf s hmem).1 (List.mem_cons_self ..)).1]
    decide
  | cancel _ x remaining =>
    obtain ⟨rfl, s, hid, hs, hsub, hrem, hf⟩ := hrows
    have hmem := hsub (List.mem_cons_self ..)
    refine rowsAfter_of_update hT hmem hid (congrArg Prod.snd hrun).symm (fun _ ↦ rfl) (fun _ ↦ rfl)
      (fun _ _ ↦ rfl) (.inr ?_) rfl (phaseRows_closeFrom hT.exists_id
        (List.subset_of_cons_subset hsub) hrem (hf.update hs (by decide) (by decide)))
    rw [((hf s hmem).1 (List.mem_cons_self ..)).1]
    decide
  | markCompleted | markCancelled | markFailed =>
    exact rowsAfter_of_offStageRows hT hrun trivial rfl hrows

end

/-! ## Whole executions -/

/-- Nobody else touches the stage rows of the run. -/
def OthersEnv (r : String) (_ : Unit) (db db' : RunDb) : Prop :=
  ∀ x, db'.stageRow r x = db.stageRow r x

/-- What holds of the stage rows of a run when its execution has ended. -/
structure StageRowsClosed {Env : Type} (r : String) (t : RunHistory Env) (db : RunDb) : Prop where
  closed : ∀ x row, db.stageRow r x = some row → row.status.Closed
  legal : ∀ y ∈ t, StageLegal r y
  /-- The completed rows are those of the stages whose service returned. -/
  completed : ∀ s : StageName, (∃ x row, db.stageRow r x = some row ∧ row.stage = s.text ∧
    row.status = .completed) ↔ s ∈ returnedStages t
  /-- No stage is executed twice. -/
  once : (startedStages t).Nodup
  /-- Every executed stage has one row. -/
  unique : ∀ s ∈ startedStages t, ∃ x, (∃ row, db.stageRow r x = some row ∧ row.stage = s.text) ∧
    ∀ x' row', db.stageRow r x' = some row' → row'.stage = s.text → x' = x

/-- The phases in which a run without stage rows can be. -/
def Phase.WithoutRows : Phase → Prop
  | .starting | .ended _ | .done => True
  | _ => False

/-- What is kept while the pipeline is executed. -/
structure RowsKept {Env : Type} (r : String) (planned : List StageName) (q : Phase)
    (h : RunHistory Env) (db : RunDb) : Prop where
  conforming : q.Conforming False
  order : InOrder planned q (startedStages h) (returnedStages h)
  legal : ∀ y ∈ h, StageLegal r y
  rows : (∃ ids f, Tracked r planned ids f db ∧ PhaseRows planned (returnedStages h) ids f q) ∨
    (∀ x, db.stageRow r x = none) ∧ q.WithoutRows ∧ startedStages h = []

section

variable {maxRuns : ℕ} {i : Input} {r : String} {body : PipelineBody (Except PyException String)}
  {planned : List StageName} {q q' : Phase} {o : RunOp} {a : o.Ans} {db db' : RunDb}

theorem RowsKept.env {h : RunHistory Unit} {e : Unit} (hJ : RowsKept r planned q h db)
    (henv : OthersEnv r e db db') : RowsKept r planned q (h ++ [⟨.env e, db, db'⟩]) db' := by
  refine ⟨hJ.conforming, ?_, ?_, ?_⟩
  · rw [startedStages_append_singleton, returnedStages_append_singleton]
    simpa [startedWork, returnedWork] using hJ.order
  · rw [List.forall_mem_append, List.forall_mem_singleton]
    exact ⟨hJ.legal, stageLegal_of_eq henv _⟩
  · rw [startedStages_append_singleton, returnedStages_append_singleton]
    simp only [startedWork, returnedWork, Option.map_none, Option.toList_none, List.append_nil]
    rcases hJ.rows with ⟨ids, f, hT, hrows⟩ | ⟨hnone, hrest⟩
    · exact .inl ⟨ids, f, hT.congr henv, hrows⟩
    · exact .inr ⟨fun x ↦ (henv x).trans (hnone x), hrest⟩

/-- The creation of the rows, and the end of an execution that did not create them. -/
theorem Next.rowsCreated (hnext : Next r body planned q o a q') (hnone : ∀ x, db.stageRow r x = none)
    (hq : q.WithoutRows) (hbody : Conforms False body planned) (hnodup : planned.Nodup)
    (hrun : o.run maxRuns i db = (a, db')) :
    startedWork (.own o a : Event _ _ Unit) = none ∧ returnedWork (.own o a : Event _ _ Unit) = none ∧
      StageLegal r (⟨.own o a, db, db'⟩ : RunStep Unit) ∧
      ((∃ ids f, Tracked r planned ids f db' ∧ PhaseRows planned [] ids f q') ∨
        (∀ x, db'.stageRow r x = none) ∧ q'.WithoutRows) := by
  cases hnext with
  | notCreated e =>
    rw [eq_of_createAllStageRuns_eq_error hrun]
    exact ⟨rfl, rfl, stageLegal_of_eq (fun _ ↦ rfl) _, .inr ⟨hnone, trivial⟩⟩
  | created ids =>
    have hI := inserted_createAllStageRuns hnone hrun
    refine ⟨rfl, rfl, fun x ↦ ?_, .inl ⟨ids, _, tracked_of_inserted hI hnodup, ?_⟩⟩
    · rw [show RunDb.stageRow _ r x = none from hnone x]
      rcases hrow : db'.stageRow r x with _ | row
      · exact .same _
      · obtain ⟨s, -, rfl⟩ := hI.only x row hrow
        exact .created
    · exact phaseRows_arrive hbody (List.nil_append _) fun s _ ↦ (if_neg List.not_mem_nil).symm
  | markCompleted | markCancelled | markFailed =>
    have hquiet := stageRow_eq_of_offStageRows (r := r) hrun trivial
    exact ⟨rfl, rfl, stageLegal_of_eq hquiet _, .inr ⟨fun x ↦ (hquiet x).trans (hnone x), trivial⟩⟩
  | notFound | foundCancelled | found | cancelEarly | refused | accepted | lost | beat | stage
  | record | cancelStage | failStage | skip | cancel => exact hq.elim

theorem returned_eq_nil_of_withoutRows {returned : List StageName} (hq : q.WithoutRows)
    (horder : InOrder planned q [] returned) : returned = [] := by
  cases q with
  | starting => exact horder.2
  | ended | done => exact List.prefix_nil.1 horder.2
  | queued | cancelledEarly | found | boundary | inStage | closing => exact hq.elim

theorem RowsKept.own {h : RunHistory Unit} (hJ : RowsKept r planned q h db)
    (hnext : Next r body planned q o a q') (hbody : Conforms False body planned)
    (hnodup : planned.Nodup) (hrun : o.run maxRuns i db = (a, db')) :
    RowsKept r planned q' (h ++ [⟨.own o a, db, db'⟩]) db' := by
  obtain ⟨hconforming, horder, hlegal, ⟨ids, f, hT, hrows⟩ | ⟨hnone, hq, hstarted⟩⟩ := hJ
  · obtain ⟨hstep, hafter⟩ : RowsAfter Unit r planned (returnedStages h) ids o a q' db db' :=
      hnext.rowsAfter hT hrows horder hconforming hnodup hrun
    refine ⟨hnext.conforming hbody hconforming, ?_, ?_, .inl ⟨ids, ?_⟩⟩
    · rw [startedStages_append_singleton, returnedStages_append_singleton]
      exact hnext.inOrder hconforming horder
    · rw [List.forall_mem_append, List.forall_mem_singleton]
      exact ⟨hlegal, hstep⟩
    · rwa [returnedStages_append_singleton]
  · have hreturned := returned_eq_nil_of_withoutRows hq (hstarted ▸ horder)
    obtain ⟨hno, hno', hstep, hafter⟩ := hnext.rowsCreated hnone hq hbody hnodup hrun
    refine ⟨hnext.conforming hbody hconforming, ?_, ?_, ?_⟩
    · rw [startedStages_append_singleton, returnedStages_append_singleton]
      exact hnext.inOrder hconforming horder
    · rw [List.forall_mem_append, List.forall_mem_singleton]
      exact ⟨hlegal, hstep⟩
    · rw [startedStages_append_singleton, returnedStages_append_singleton]
      dsimp only
      rw [hno, hno', hstarted, hreturned]
      exact hafter.imp id fun hnone ↦ ⟨hnone.1, hnone.2, rfl⟩

/-- Once the execution has ended, the rows are closed. -/
theorem RowsKept.closed {h : RunHistory Unit} {result : Except StageExit String}
    (hJ : RowsKept r planned (.ended result) h db) (hnodup : planned.Nodup) :
    StageRowsClosed r h db := by
  obtain ⟨-, ⟨hstarted, hreturned⟩, hlegal, ⟨ids, f, hT, hclosing⟩ | ⟨hnone, -, hnil⟩⟩ := hJ
  · -- a row is that of the planned stage its id belongs to
    have howner : ∀ x row, db.stageRow r x = some row →
        ∃ s ∈ planned, ids.get? s = some x ∧ row.stage = s.text ∧ row.status = f s := by
      intro x row hrow
      obtain ⟨s, hs, hid⟩ := hT.own x row hrow
      obtain ⟨x', row', hid', hrow', htext, hst⟩ := hT.row s hs
      obtain rfl := Option.some.inj (hid'.symm.trans hid)
      obtain rfl := Option.some.inj (hrow'.symm.trans hrow)
      exact ⟨s, hs, hid, htext, hst⟩
    refine ⟨fun x row hrow ↦ ?_, hlegal, fun s ↦ ⟨?_, fun hs ↦ ?_⟩, hnodup.sublist hstarted.sublist,
      fun s hs ↦ ?_⟩
    · obtain ⟨s, hs, -, -, hst⟩ := howner x row hrow
      exact hst ▸ ((hclosing s hs).2 List.not_mem_nil).1
    · rintro ⟨x, row, hrow, htext, hcompleted⟩
      obtain ⟨s', hs', -, htext', hst⟩ := howner x row hrow
      obtain rfl := StageName.text_injective (htext.symm.trans htext')
      exact ((hclosing s hs').2 List.not_mem_nil).2.1 (hst.symm.trans hcompleted)
    · have hplanned : s ∈ planned := hstarted.subset (hreturned.subset hs)
      obtain ⟨x, row, -, hrow, htext, hst⟩ := hT.row s hplanned
      exact ⟨x, row, hrow, htext, hst.trans (((hclosing s hplanned).2 List.not_mem_nil).2.2 hs)⟩
    · obtain ⟨x, row, hid, hrow, htext, -⟩ := hT.row s (hstarted.subset hs)
      refine ⟨x, ⟨row, hrow, htext⟩, fun x' row' hrow' htext' ↦ ?_⟩
      obtain ⟨s', -, hid', htext'', -⟩ := howner x' row' hrow'
      obtain rfl := StageName.text_injective (htext'.symm.trans htext'')
      exact Option.some.inj (hid'.symm.trans hid)
  · have hnil' : returnedStages h = [] := List.prefix_nil.1 (hnil ▸ hreturned)
    refine ⟨fun x row hrow ↦ ?_, hlegal, fun s ↦ ⟨?_, fun hs ↦ ?_⟩, ?_, fun s hs ↦ ?_⟩
    · rw [hnone x] at hrow
      cases hrow
    · rintro ⟨x, row, hrow, -⟩
      rw [hnone x] at hrow
      cases hrow
    · rw [hnil'] at hs
      cases hs
    · rw [hnil]
      exact List.nodup_nil
    · rw [hnil] at hs
      cases hs

end

/-- **Rows of pairwise different stages are closed**, however the execution ends and whatever other
parties do to other tables. -/
theorem stageRowsClosed_of_nodup {maxRuns : ℕ} {registered : List String} {r : String}
    {request : PipelineRunRequest} {files : List StreamFile} {freshSession : String}
    {db db' : RunDb} {t : RunHistory Unit} {result : Except StageExit String}
    (haccepted : Accepted registered request files)
    (hnodup : (files.map StreamFile.sensorType).Nodup) (hnone : ∀ x, db.stageRow r x = none)
    (hexec : Exec (runSystem maxRuns (OthersEnv r))
      (execute registered r request files freshSession) db t (.pure result) db') :
    StageRowsClosed r t db' := by
  have hplanned := nodup_planStages_iff.2 hnodup
  have hbody := conforms_of_accepted haccepted (sessionIdOf request freshSession)
  have hstart : RowsKept r (planStages (files.map StreamFile.sensorType)) .starting
      ([] : RunHistory Unit) db :=
    ⟨trivial, ⟨rfl, rfl⟩, List.forall_mem_nil _, .inr ⟨hnone, trivial, rfl⟩⟩
  obtain ⟨q, hJ, hq⟩ := run_invariant (fun hJ hnext hrun ↦ hJ.own hnext hbody hplanned hrun)
    RowsKept.env (follows_execute registered request files freshSession) hstart hexec
  obtain rfl : q = .ended result := hq
  exact hJ.closed hplanned

end ForgeData
