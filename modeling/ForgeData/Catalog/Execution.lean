import ForgeData.Catalog.RebuildExecutor
import ForgeData.Catalog.Writes
import ForgeData.Interleaving.Schedule

/-!
# Executions of a plan, pass by pass

An execution while nobody else writes the catalog. `StepRun` lists the ways a pass of the loop can end,
with the operations performed, the variables after it and the state it leaves: the step is withheld, it
cannot be reconstructed, its stage service fails, its supersession is refused, or all goes well. Only in
the last case the catalog is changed.

`LoopRun` strings the passes together, and `LoopRun.invariant` is the rule for everything that is proved
about whole executions.
-/

namespace ForgeData

open Python Interleaving

/-- The catalog while nobody else writes it. -/
abbrev aloneSystem (sha : Json → String) : System CatalogOp CatalogOp.Ans CatalogState Empty :=
  catalogSystem sha fun e _ _ ↦ e.elim

abbrev AloneStep := Step CatalogOp CatalogOp.Ans CatalogState Empty

/-- What `_execute_step` reads before it puts the request together. -/
def PlanStep.manifest (step : PlanStep) (db : CatalogDb) : Json :=
  if step.artifact.artifactType ∈ executableStageTypes then
    ((db.getArtifact step.artifact).map ArtifactRow.metadata).getD (.obj [])
  else .null

/-- The request of a step. -/
def PlanStep.request (step : PlanStep) (db : CatalogDb) (configs : Dict String Json)
    (resolved : Dict ArtifactKey String) : Except CatalogError StageRequest :=
  stageRequest step resolved (step.manifest db) (configs.get? step.artifact.text)

/-- The operations of `_execute_step` before the stage service is called. -/
def PlanStep.reading (step : PlanStep) (s : CatalogState) : List AloneStep :=
  if step.artifact.artifactType ∈ executableStageTypes then
    [⟨.own (.getArtifact step.artifact) (s.db.getArtifact step.artifact), s, s⟩]
  else []

/-- The call of the stage service. -/
def PlanStep.attempt (step : PlanStep) (s : CatalogState) (request : StageRequest)
    (answer : Except CatalogError String) : AloneStep :=
  ⟨.own (.runStage step.artifact request) answer, s, s⟩

/-- The operations of `_mark_superseded`. -/
def PlanStep.marking (step : PlanStep) (s : CatalogState) (newId : String)
    (answer : Except CatalogError Unit) (s' : CatalogState) : List AloneStep :=
  [⟨.own (.getArtifactGovernance step.artifact) (s.db.getArtifactGovernance step.artifact), s, s⟩,
    ⟨.own (.markSuperseded step.artifact (s.db.governanceState step.artifact) newId) answer, s, s'⟩]

/-- The state after a supersession has been written. -/
def PlanStep.markedState (step : PlanStep) (s : CatalogState) (newId updatedAt : String) :
    CatalogState :=
  { s with
    db := s.db.setArtifactGovernance step.artifact (s.db.governanceState step.artifact)
      (CatalogDb.supersededRow step.artifact newId updatedAt) }

/-- Neither an unavailable parent nor a missing configuration holds the step back. -/
structure ExecutorState.Ready (configs : Dict String Json) (st : ExecutorState) (step : PlanStep) :
    Prop where
  unblocked : st.blockingParent step = none
  configured : (step.manualConfigurationRequired && !configs.contains step.artifact.text) = false

/-- The ways a pass of the loop can end. -/
inductive StepRun (configs : Dict String Json) (s : CatalogState) (st : ExecutorState)
    (step : PlanStep) : List AloneStep → ExecutorState → CatalogState → Prop
  | blocked {parent : PlanStepParent} : st.blockingParent step = some parent →
      StepRun configs s st step [] (st.withhold step .skippedUpstreamNotRebuilt
        (some s!"parent {parent.artifact.text} was never rebuilt")) s
  | unconfigured : st.blockingParent step = none →
      (step.manualConfigurationRequired && !configs.contains step.artifact.text) = true →
      StepRun configs s st step []
        (st.withhold step .skippedManualConfigurationRequired step.infeasibleReason) s
  | unread {e : CatalogError} : st.Ready configs step →
      step.request s.db configs st.resolved = .error e →
      StepRun configs s st step (step.reading s) (st.fail step e) s
  | failed {request : StageRequest} {e : CatalogError} : st.Ready configs step →
      step.request s.db configs st.resolved = .ok request →
      StepRun configs s st step (step.reading s ++ [step.attempt s request (.error e)])
        (st.fail step e) s
  | unmarked {request : StageRequest} {newId : String} {e : CatalogError} : st.Ready configs step →
      step.request s.db configs st.resolved = .ok request →
      StepRun configs s st step (step.reading s ++
          step.attempt s request (.ok newId) :: step.marking s newId (.error e) s)
        ((st.rebuilt step newId).fail step e) s
  | rebuilt {request : StageRequest} {newId : String} (updatedAt : String) : st.Ready configs step →
      step.request s.db configs st.resolved = .ok request →
      StepRun configs s st step (step.reading s ++ step.attempt s request (.ok newId) ::
          step.marking s newId (.ok ()) (step.markedState s newId updatedAt))
        ((st.rebuilt step newId).supersede step newId) (step.markedState s newId updatedAt)

/-- The passes of the loop, one for each step. -/
inductive LoopRun (configs : Dict String Json) : CatalogState → ExecutorState → List PlanStep →
    List AloneStep → ExecutorState → CatalogState → Prop
  | nil (s : CatalogState) (st : ExecutorState) : LoopRun configs s st [] [] st s
  | cons {s s₁ s' : CatalogState} {st st₁ st' : ExecutorState} {step : PlanStep}
      {steps : List PlanStep} {t t' : List AloneStep} : StepRun configs s st step t st₁ s₁ →
      LoopRun configs s₁ st₁ steps t' st' s' →
      LoopRun configs s st (step :: steps) (t ++ t') st' s'

variable {sha : Json → String} {configs : Dict String Json} {s s' : CatalogState}
  {st st' : ExecutorState} {step : PlanStep} {t : List AloneStep}

/-! ## The operations one by one -/

theorem of_readRequest {resolved : Dict ArtifactKey String} {rawConfig : Option Json}
    {result : Except CatalogError StageRequest}
    (h : Exec (aloneSystem sha) (readRequest step resolved rawConfig) s t (.pure result) s') :
    result = stageRequest step resolved (step.manifest s.db) rawConfig ∧ t = step.reading s ∧
      s' = s := by
  rw [readRequest] at h
  rw [PlanStep.manifest, PlanStep.reading]
  split at h
  · next htype =>
    obtain ⟨row, s₁, t', rfl, ⟨i, hrun⟩, hrest⟩ := h.of_call
    cases hrun
    obtain ⟨rfl, rfl, rfl⟩ := hrest.of_pure
    rw [if_pos htype, if_pos htype]
    exact ⟨rfl, rfl, rfl⟩
  · next htype =>
    obtain ⟨rfl, rfl, rfl⟩ := h.of_pure
    rw [if_neg htype, if_neg htype]
    exact ⟨rfl, rfl, rfl⟩

theorem of_runStep {resolved : Dict ArtifactKey String}
    {result : Except CatalogError String}
    (h : Exec (aloneSystem sha) (runStep step resolved (configs.get? step.artifact.text)) s t
      (.pure result) s') :
    s' = s ∧ ((∃ e, step.request s.db configs resolved = .error e ∧ result = .error e ∧
        t = step.reading s) ∨
      ∃ request, step.request s.db configs resolved = .ok request ∧
        t = step.reading s ++ [step.attempt s request result]) := by
  obtain ⟨r, s₁, t₁, t₂, rfl, hread, hrest⟩ := h.of_bind_pure
  obtain ⟨hr, rfl, rfl⟩ := of_readRequest hread
  cases r with
  | error e =>
    obtain ⟨rfl, rfl, rfl⟩ := hrest.of_pure
    exact ⟨rfl, .inl ⟨e, hr.symm, rfl, List.append_nil _⟩⟩
  | ok request =>
    obtain ⟨a, s₂, t', rfl, ⟨i, hrun⟩, hdone⟩ := hrest.of_call
    cases hrun
    obtain ⟨rfl, rfl, rfl⟩ := hdone.of_pure
    exact ⟨rfl, .inr ⟨request, hr.symm, rfl⟩⟩

theorem of_markSuperseded {newId : String} {result : Except CatalogError Unit}
    (h : Exec (aloneSystem sha) (markSuperseded step.artifact newId) s t (.pure result) s') :
    t = step.marking s newId result s' ∧
      ((result = .ok () ∧ ∃ updatedAt, s' = step.markedState s newId updatedAt) ∨
        (∃ e, result = .error e) ∧ s' = s) := by
  obtain ⟨row, s₁, t', rfl, ⟨i, hrun⟩, hrest⟩ := h.of_call
  cases hrun
  obtain ⟨a, s₂, t'', rfl, hsem, hdone⟩ := hrest.of_call
  obtain ⟨rfl, rfl, rfl⟩ := hdone.of_pure
  exact ⟨rfl, hsem.of_markSuperseded⟩

/-! ## A pass, and the whole loop -/

/-- **What a pass of the loop does.** -/
theorem of_executeStep (h : Exec (aloneSystem sha) (executeStep configs st step) s t (.pure st') s') :
    StepRun configs s st step t st' s' := by
  rw [executeStep] at h
  split at h
  · next parent hblocked =>
    obtain ⟨rfl, rfl, rfl⟩ := h.of_pure
    exact .blocked hblocked
  next hunblocked =>
  split at h
  · next hmissing =>
    obtain ⟨rfl, rfl, rfl⟩ := h.of_pure
    exact .unconfigured hunblocked hmissing
  next hconfigured =>
  have hready : st.Ready configs step := ⟨hunblocked, by simpa using hconfigured⟩
  obtain ⟨result, s₁, t₁, t₂, rfl, hrun, hrest⟩ := h.of_bind_pure
  obtain ⟨rfl, ⟨e, hrequest, rfl, rfl⟩ | ⟨request, hrequest, rfl⟩⟩ := of_runStep hrun
  · obtain ⟨rfl, rfl, rfl⟩ := hrest.of_pure
    rw [List.append_nil]
    exact .unread hready hrequest
  cases result with
  | error e =>
    obtain ⟨rfl, rfl, rfl⟩ := hrest.of_pure
    rw [List.append_nil]
    exact .failed hready hrequest
  | ok newId =>
    obtain ⟨marked, s₂, t₃, t₄, rfl, hmark, hdone⟩ := hrest.of_bind_pure
    rw [List.append_assoc, List.singleton_append]
    obtain ⟨rfl, ⟨rfl, updatedAt, rfl⟩ | ⟨⟨e, rfl⟩, rfl⟩⟩ := of_markSuperseded hmark
    · obtain ⟨rfl, rfl, rfl⟩ := hdone.of_pure
      rw [List.append_nil]
      exact .rebuilt updatedAt hready hrequest
    · obtain ⟨rfl, rfl, rfl⟩ := hdone.of_pure
      rw [List.append_nil]
      exact .unmarked hready hrequest

theorem loopRun_of_foldlM {steps : List PlanStep}
    (h : Exec (aloneSystem sha) (steps.foldlM (executeStep configs) st) s t (.pure st') s') :
    LoopRun configs s st steps t st' s' := by
  induction steps generalizing s st t with
  | nil =>
    obtain ⟨rfl, rfl, rfl⟩ := h.of_pure
    exact .nil s' st'
  | cons step steps ih =>
    rw [List.foldlM_cons] at h
    obtain ⟨st₁, s₁, t₁, t₂, rfl, hstep, hrest⟩ := h.of_bind_pure
    exact .cons (of_executeStep hstep) (ih hrest)

/-- **What an execution does.** -/
theorem RebuildPlan.of_execute {plan : RebuildPlan}
    {results : List RebuildStepResult} {superseded : List SupersessionRecord}
    (h : Exec (aloneSystem sha) (plan.execute configs) s t (.pure (results, superseded)) s') :
    ∃ st, LoopRun configs s (ExecutorState.start plan) plan.steps t st s' ∧
      results = st.results ∧ superseded = st.superseded := by
  obtain ⟨st, s₁, t₁, t₂, rfl, hloop, hdone⟩ := h.of_bind_pure
  obtain ⟨hresult, rfl, rfl⟩ := hdone.of_pure
  cases hresult
  rw [List.append_nil]
  exact ⟨st, loopRun_of_foldlM hloop, rfl, rfl⟩

/-- **The invariant rule of the loop**: what every pass keeps holds after the last one. -/
theorem LoopRun.invariant {steps : List PlanStep}
    {J : List PlanStep → ExecutorState → List AloneStep → CatalogState → Prop}
    (h : LoopRun configs s st steps t st' s')
    (hstep : ∀ {pre step post st t s st' t' s'}, steps = pre ++ step :: post → J pre st t s →
      StepRun configs s st step t' st' s' → J (pre ++ [step]) st' (t ++ t') s')
    (hstart : J [] st [] s) : J steps st' t s' := by
  have hrun : ∀ {pre rest st t₀ s t st' s'}, steps = pre ++ rest → J pre st t₀ s →
      LoopRun configs s st rest t st' s' → J steps st' (t₀ ++ t) s' := by
    intro pre rest st t₀ s t st' s' hsplit hJ hloop
    induction hloop generalizing pre t₀ with
    | nil =>
      rw [List.append_nil] at hsplit ⊢
      exact hsplit ▸ hJ
    | @cons s s₁ s' st st₁ st' step rest t t' hpass _ ih =>
      have hJ₁ := hstep hsplit hJ hpass
      rw [← List.append_assoc]
      exact ih (by simp [hsplit]) hJ₁
  exact hrun rfl hstart h

/-! ## Executions computed -/

/-- The point that an execution without interference has got to after some operations. -/
def executeAlone (sha : Json → String) (plan : RebuildPlan) (configs : Dict String Json)
    (inputs : List CatalogInput) (s : CatalogState) :
    Point CatalogOp CatalogOp.Ans CatalogState Empty
      (List RebuildStepResult × List SupersessionRecord) :=
  simulate (fun i o s ↦ o.run sha i s) (fun e _ ↦ e.elim) (inputs.map .own) (plan.execute configs) s

theorem exec_executeAlone (sha : Json → String) (plan : RebuildPlan) (configs : Dict String Json)
    (inputs : List CatalogInput) (s : CatalogState)
    {result : List RebuildStepResult × List SupersessionRecord}
    (h : (executeAlone sha plan configs inputs s).rest.result? = some result) :
    Exec (aloneSystem sha) (plan.execute configs) s (executeAlone sha plan configs inputs s).history
      (.pure result) (executeAlone sha plan configs inputs s).state := by
  rw [← Prog.eq_pure_of_result? h]
  exact exec_simulate (S := aloneSystem sha) (fun i _ _ ↦ ⟨i, rfl⟩) (fun e _ ↦ e.elim) _ _ _

end ForgeData
