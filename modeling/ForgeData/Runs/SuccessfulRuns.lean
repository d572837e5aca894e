import ForgeData.Runs.CancelRequests
import ForgeData.Runs.StageRows

/-!
# Runs in which everything succeeds

If every stage service returns and nobody cancels, a queued run with fresh identifiers is completed.
The pipeline is followed along the one path that the services' answers choose.
-/

namespace ForgeData

open Python Interleaving

/-! ## The pipeline -/

/-- Along the path that the services' answers choose, all work returns and the pipeline returns. -/
def Succeeds (i : Input) : PipelineBody (Except PyException String) → Prop
  | .pure (.ok _) => True
  | .pure (.error _) => False
  | .call w k => ∃ out, i.outcome w = .returned out ∧ Succeeds i (k out.artifactId)

/-- A clock that stands still, identifiers of growing length, and services that all return, unless
synchronization refuses its request. -/
def successInput : Input where
  now _ := "2026-01-01T00:00:00+00:00"
  fresh n := String.ofList (List.replicate n '0')
  outcome
    | .synchronize request normalizationIds =>
      match validateRequestShape request.synchronization normalizationIds.keys with
      | .ok () => .returned ⟨"sync_1", 0, none, none⟩
      | .error exc => .raised exc
    | w => .returned ⟨w.stage.text ++ "_1", 0, none, none⟩
  returnable w out h := by
    cases w with
    | synchronize request normalizationIds =>
      rw [Work.Returnable]
      dsimp only at h
      split at h
      · next hok => exact hok
      · cases h
    | ingest | validate | integrity | normalize | clean | transform | qc | package => trivial

theorem successInput_fresh_injective : Function.Injective successInput.fresh := by
  intro m n h
  simpa using congrArg List.length (String.ofList_injective h)

/-- The pipeline succeeds if synchronization accepts the sensor types of the streams. -/
theorem succeeds_streamsBody {registered : List String} {request : PipelineRunRequest}
    {sessionId : String} {files : List StreamFile} {ids : Dict String String}
    (hregistered : ∀ f ∈ files, f.sensorType ∈ registered)
    (hshape : ∀ ids' : Dict String String,
      (∀ k, k ∈ ids'.keys ↔ k ∈ ids.keys ∨ k ∈ files.map StreamFile.sensorType) →
      validateRequestShape request.synchronization ids'.keys = .ok ()) :
    Succeeds successInput
      ((streamsBody registered request sessionId files ids).andThen (sharedBody request)) := by
  induction files generalizing ids with
  | nil =>
    have hok := hshape ids fun k ↦ (or_iff_left List.not_mem_nil).symm
    refine ⟨⟨"sync_1", 0, none, none⟩, ?_, _, rfl, _, rfl, _, rfl, _, rfl, trivial⟩
    rw [successInput]
    dsimp only
    rw [hok]
  | cons f files ih =>
    rw [streamsBody, streamBody,
      if_neg (not_not_intro (hregistered f (List.mem_cons_self ..)))]
    refine ⟨_, rfl, _, rfl, _, rfl, _, rfl, ih (fun f' hf' ↦ hregistered f' ?_) fun ids' hkeys ↦ ?_⟩
    · exact List.mem_cons_of_mem f hf'
    · refine hshape ids' fun k ↦ (hkeys k).trans ?_
      rw [Dict.keys_set, List.map_cons, List.mem_cons]
      split
      · next hmem => exact ⟨Or.imp_right .inr, fun h ↦ h.elim .inl fun h ↦ h.elim
          (fun heq ↦ .inl (heq ▸ hmem)) .inr⟩
      · rw [List.mem_append, List.mem_singleton, or_assoc]

/-! ## The phases of a successful run -/

/-- Every stage that is still to be performed has its row. -/
def StageFrame.Known (c : StageFrame) : Prop :=
  ∀ s ∈ c.stage :: c.remaining, ∃ x, c.ids.get? s = some x

/-- The phases that a successful run goes through. -/
def Phase.Succeeding (i : Input) : Phase → Prop
  | .queued | .found | .starting | .done | .ended (.ok _) => True
  | .boundary c | .inStage c _ .beat | .inStage c _ .passed | .inStage c _ .current
  | .inStage c _ .started | .inStage c _ .working => c.Known ∧ Succeeds i (.call c.w c.k)
  | .inStage c _ (.returned out) | .inStage c _ (.counting _ out) | .inStage c _ (.recording out) =>
    c.Known ∧ Succeeds i (c.k out.artifactId)
  | _ => False

/-- The status of the run in these phases. -/
def Phase.successStatus : Phase → RunStatus
  | .queued | .found => .queued
  | .done => .completed
  | _ => .running

/-- The stage rows have not been created yet. -/
def Phase.BeforeRows : Phase → Prop
  | .queued | .found | .starting => True
  | _ => False

/-- A point of a successful run. -/
structure OnTheWay (i : Input) (r : String) (q : Phase) (db : RunDb) : Prop where
  conforming : q.Conforming False
  succeeding : q.Succeeding i
  status : db.runStatus r = some q.successStatus
  free : q.BeforeRows → db.stageRuns.keys = []

section

variable {maxRuns : ℕ} {i : Input} {r : String} {body : PipelineBody (Except PyException String)}
  {planned remaining : List StageName} {ids : Dict StageName String} {q q' : Phase} {o : RunOp}
  {a : o.Ans} {db db' : RunDb}

theorem onTheWay_arrive {p : PipelineBody (Except PyException String)}
    (hconforms : Conforms False p remaining) (hp : Succeeds i p)
    (hids : ∀ s ∈ remaining, ∃ x, ids.get? s = some x) (hst : db.runStatus r = some .running) :
    OnTheWay i r (arrive ids p remaining) db := by
  refine ⟨conforming_arrive hconforms, ?_, ?_, fun hbefore ↦ ?_⟩
  · rcases p with (exc | packageId) | ⟨w, k⟩
    · exact hp.elim
    · trivial
    · cases remaining with
      | nil =>
        obtain ⟨_, hnext, -⟩ := hconforms ""
        cases hnext
      | cons stage remaining => exact ⟨hids, hp⟩
  · rcases p with (exc | packageId) | ⟨w, k⟩
    · exact hst
    · exact hst
    · cases remaining <;> exact hst
  · rcases p with (exc | packageId) | ⟨w, k⟩
    · exact hbefore.elim
    · exact hbefore.elim
    · cases remaining <;> exact hbefore.elim

/-- The steps inside a stage. -/
theorem StageNext.onTheWay {c : StageFrame} {x : String} {step step' : StageStep}
    (hstep : StageNext r c x step o a step') (hJ : OnTheWay i r (.inStage c x step) db)
    (hrun : o.run maxRuns i db = (a, db')) : OnTheWay i r (.inStage c x step') db' := by
  obtain ⟨hconforming, hsucceeding, hst, -⟩ := hJ
  refine ⟨hconforming, ?_, ?_, False.elim⟩
  · cases hstep with
    | passed | current | start | begin | complete | completeCounting | count => exact hsucceeding
    | observed =>
      have hcheck : decide (db.runStatus r = some .cancelRequested) = true :=
        congrArg Prod.fst hrun
      rw [hst] at hcheck
      cases hcheck
    | returned out =>
      obtain ⟨hknown, out', hout, hk⟩ := hsucceeding
      have hanswer := (congrArg Prod.fst hrun).symm.trans hout
      cases hanswer
      exact ⟨hknown, hk⟩
    | interrupted | blocked | raised =>
      obtain ⟨-, out, hout, -⟩ := hsucceeding
      have hanswer := (congrArg Prod.fst hrun).symm.trans hout
      cases hanswer
  · cases hstep with
    | current =>
      rw [RunOp.runStatus_of_updateCurrentStage hrun hst, Function.update_self]
      rfl
    | observed | passed | start | begin | returned | interrupted | blocked | raised | complete
    | completeCounting | count =>
      rw [RunOp.runStatus_of_quiet hrun trivial]
      exact hst

/-- **A successful run stays on its way**, step by step. -/
theorem Next.onTheWay (hnext : Next r body planned q o a q') (hJ : OnTheWay i r q db)
    (hbody : Conforms False body planned) (hsucceeds : Succeeds i body)
    (hfresh : Function.Injective i.fresh) (hrun : o.run maxRuns i db = (a, db')) :
    OnTheWay i r q' db' := by
  obtain ⟨hconforming, hsucceeding, hst, hfree⟩ := id hJ
  cases hnext with
  | stage hstep => exact hstep.onTheWay hJ hrun
  -- the exits that are not on the way contradict the status of the row
  | notFound =>
    rw [RunDb.runStatus, show db.getRun r = none from congrArg Prod.fst hrun] at hst
    cases hst
  | foundCancelled hrow =>
    rw [RunDb.runStatus, show db.getRun r = _ from congrArg Prod.fst hrun, Option.map_some,
      hrow] at hst
    cases hst
  | found hrow =>
    obtain rfl : db = db' := congrArg Prod.snd hrun
    exact ⟨trivial, trivial, hst, fun _ ↦ hfree trivial⟩
  | refused executorId e =>
    exact absurd (by decide) ((RunDb.of_markStatus_eq_error hrun).1 _ hst)
  | accepted executorId =>
    refine ⟨trivial, trivial, ?_, fun _ ↦ ?_⟩
    · rw [(RunDb.of_markStatus_eq_ok hrun).2, Function.update_self]
      rfl
    · rw [RunOp.stageRuns_of_offStageRows hrun trivial]
      exact hfree trivial
  -- the ids of the pending rows are free, so their insertion cannot fail
  | notCreated e =>
    have hkeys : ∀ m, 0 ≤ m → "stagerun_" ++ i.fresh m ∉ db.stageRuns.keys := fun m _ ↦ by
      rw [hfree trivial]
      exact List.not_mem_nil
    have hrow : db.pipelineRuns.contains r = true := by
      rw [RunDb.runStatus, Option.map_eq_some_iff] at hst
      obtain ⟨row, hget, -⟩ := hst
      exact Option.isSome_iff_exists.2 ⟨row, hget⟩
    obtain ⟨db₁, ids, hinsert⟩ := exists_insertStageRuns planned Dict.empty hfresh hrow hkeys
    rw [RunOp.run, RunDb.createAllStageRuns, hinsert] at hrun
    cases hrun
  | created ids =>
    have hnone : ∀ x, db.stageRow r x = none := fun x ↦ by
      rw [RunDb.stageRow, Dict.get?_eq_none_iff.2 (by rw [hfree trivial]; exact List.not_mem_nil)]
      rfl
    refine onTheWay_arrive hbody hsucceeds (fun s hs ↦ ?_) ?_
    · obtain ⟨x, hid, -⟩ := (inserted_createAllStageRuns hnone hrun).row s hs
      exact ⟨x, hid⟩
    · rw [RunOp.runStatus_of_quiet hrun trivial]
      exact hst
  | @lost c hlost =>
    obtain ⟨x, hid⟩ := hsucceeding.1 c.stage (List.mem_cons_self ..)
    rw [hlost] at hid
    cases hid
  | beat hid =>
    refine ⟨hconforming, hsucceeding, ?_, False.elim⟩
    rw [RunOp.runStatus_of_quiet hrun trivial]
    exact hst
  | record out =>
    refine onTheWay_arrive (hconforming.2 out.artifactId) hsucceeding.2
      (fun s hs ↦ hsucceeding.1 s (List.mem_cons_of_mem _ hs)) ?_
    rw [RunOp.runStatus_of_quiet hrun trivial]
    exact hst
  | markCompleted packageId =>
    refine ⟨trivial, trivial, ?_, False.elim⟩
    exact RunDb.runStatus_of_markStatus hrun hst
  | cancelEarly | cancelStage | failStage | skip | cancel | markCancelled | markFailed =>
    exact hsucceeding.elim

end

/-- **A run whose services all return is completed**, in an execution without interference. -/
theorem exists_completed (maxRuns : ℕ) (executorId : String) {i : Input}
    {registered : List String} {r : String} {request : PipelineRunRequest} {files : List StreamFile}
    {freshSession : String} {db : RunDb}
    (hbody : Conforms False
      (pipelineBody registered request (sessionIdOf request freshSession) files)
      (planStages (files.map StreamFile.sensorType)))
    (hsucceeds : Succeeds i
      (pipelineBody registered request (sessionIdOf request freshSession) files))
    (hfresh : Function.Injective i.fresh) (hqueued : db.runStatus r = some .queued)
    (hkeys : db.stageRuns.keys = []) :
    ∃ t result db', Exec (runSystem maxRuns CancelEnv)
      (localRun registered r executorId request files freshSession) db t (.pure result) db' ∧
      db'.runStatus r = some .completed := by
  -- everything is drawn from one input, and nobody else acts
  let S : System RunOp RunOp.Ans RunDb (String × Input) :=
    { sem := fun o s a s' ↦ o.run maxRuns i s = (a, s'), env := fun _ _ _ ↦ False }
  obtain ⟨t, result, db', hexec⟩ := Exec.exists_complete (S := S) (fun o s ↦ ⟨_, _, rfl⟩)
    (localRun registered r executorId request files freshSession) db
  obtain ⟨q, hJ, hq⟩ := Prog.Follows.invariant (S := S) (J := fun q _ s ↦ OnTheWay i r q s)
    (h := []) (fun hJ hnext hsem ↦ hnext.onTheWay hJ hbody hsucceeds hfresh hsem) (fun _ ↦ False.elim)
    (follows_localRun registered executorId request files freshSession)
    ⟨trivial, trivial, hqueued, fun _ ↦ hkeys⟩ hexec
  obtain rfl : q = .done := hq
  refine ⟨t, result, db', Exec.mono ?_ ?_ hexec, hJ.status⟩
  · exact fun o s a s' hsem ↦ ⟨i, hsem⟩
  · exact fun _ _ _ ↦ False.elim

end ForgeData
