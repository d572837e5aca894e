import ForgeData.Catalog.DocumentedLineage
import ForgeData.Catalog.RebuildGovernance

/-!
# What a rebuild consumes

In every catalog that can be reached the edges come from the manifests. So the request of a step has one
input for each artifact that the manifest of its old artifact refers to: the artifact itself, or what the
plan replaces it by. The variables of the executor say which: `resolved` holds the replacement of the
root and the ids that the stage services have returned, and a step whose artifact was not made is
unavailable.
-/

namespace ForgeData

open Python Interleaving

variable {sha : Json → String} {o : CatalogOp} {s s' : CatalogState}

/-! ## Reachable catalogs are documented -/

namespace CatalogDb

variable {db db' : CatalogDb}

theorem documentedParents_congr (h : db'.artifacts = db.artifacts) (k : ArtifactKey) :
    db'.documentedParents k = db.documentedParents k := by
  rw [documentedParents, getArtifact, h, documentedParents, getArtifact]

theorem Documented.congr (hdb : db.Documented) (hartifacts : db'.artifacts = db.artifacts)
    (hedges : db'.lineageEdges = db.lineageEdges) : db'.Documented := fun e he ↦ by
  rw [documentedParents_congr hartifacts]
  exact hdb e (hedges ▸ he)

theorem TakesParents.congr {step : PlanStep} (h : db.TakesParents step)
    (hedges : db'.lineageEdges = db.lineageEdges) : db'.TakesParents step := by
  obtain ⟨replaced, hparents⟩ := h
  exact ⟨replaced, by rw [hparents, getParents, getParents, hedges]⟩

end CatalogDb

theorem Writes.documented {db db' : CatalogDb} (h : Writes db o db') (hdb : db.Documented) :
    db'.Documented := by
  rcases h.index with ⟨hartifacts, hedges⟩ |
    ⟨-, start, strict, clock, files, st, hstart, hscan, hartifacts, hedges⟩
  · exact hdb.congr hartifacts hedges
  · refine CatalogDb.Documented.congr (CatalogDb.Documented.scan ?_ hscan) hartifacts hedges
    rcases hstart with rfl | rfl
    · exact hdb
    · exact CatalogDb.documented_of_no_edges rfl

theorem CatalogSem.documented {a : o.Ans} (h : CatalogSem sha o s a s') (hs : s.db.Documented) :
    s'.db.Documented := by
  rcases h.writes with hdb | hwrites
  · exact hdb ▸ hs
  · exact hwrites.documented hs

/-- The states that any callers can lead the catalog to, from one without rows. -/
def Reachable (sha : Json → String) (s : CatalogState) : Prop :=
  ∃ (Party : CatalogProg Unit → Prop) (t : List CatalogStep) (qs : List (CatalogProg Unit)),
    CatalogRun sha Party [] .empty t qs s

/-- **The edges of a reachable catalog come from the manifests.** -/
theorem Reachable.documented (h : Reachable sha s) : s.db.Documented := by
  obtain ⟨Party, t, qs, hrun⟩ := h
  exact (hrun.invariant (J := fun s ↦ s.db.Documented)
    (fun x hx hbefore ↦ (hrun.sem_of_mem x hx).documented hbefore)
    (CatalogDb.documented_of_no_edges rfl)).1

theorem reachable_recordedState : Reachable (fun _ ↦ "") recordedState :=
  ⟨fun _ ↦ True, _, _, show CatalogRun (fun _ ↦ "") _ [] .empty _ _ (simulateCatalog (fun _ ↦ "")
    [.start CatalogOp.scan.perform.discard, .act 0 servingInput] .empty).state from
      catalogRun_simulate (fun _ _ ↦ trivial) .empty⟩

/-! ## The steps of a plan -/

variable {configs : Dict String Json} {st st' : ExecutorState} {step : PlanStep}
  {t t' : List AloneStep} {plan : RebuildPlan} {pre post : List PlanStep}

/-- The plan replaces the artifact at this step. -/
def PlanStep.replaces (step : PlanStep) (k : ArtifactKey) : Bool :=
  step.parents.any fun p ↦ p.replaced && p.artifact = k

theorem PlanStep.inputFor_eq (resolved : Dict ArtifactKey String) (k : ArtifactKey) :
    step.inputFor resolved k =
      if step.replaces k then ⟨k.artifactType, resolved.getD k k.artifactId⟩ else k := rfl

/-- A plan made in the state. -/
structure PlannedIn (s : CatalogState) (plan : RebuildPlan) : Prop where
  steps : s.db.PlannedSteps plan.old plan.steps
  documented : s.db.Documented
  type : plan.new.artifactType = plan.old.artifactType

theorem CatalogDb.type_of_checkCompatibility {db : CatalogDb} {old new : ArtifactKey}
    (h : db.checkCompatibility old new = .ok ()) : new.artifactType = old.artifactType := by
  rw [checkCompatibility] at h
  split at h
  · cases h
  · split at h
    · cases h
    · cases h
    · split at h
      · cases h
      · next htype => exact (not_not.1 htype).symm

theorem plannedIn_of_buildPlan {old new : ArtifactKey} (hs : Reachable sha s)
    (h : s.db.buildPlan sha old new = .ok plan) : PlannedIn s plan := by
  obtain ⟨hcompatible, rfl, rfl, hsteps⟩ := CatalogDb.of_buildPlan h
  exact ⟨hsteps, hs.documented, CatalogDb.type_of_checkCompatibility hcompatible⟩

theorem PlannedIn.takesParents (h : PlannedIn s plan) (hsplit : plan.steps = pre ++ step :: post) :
    s.db.TakesParents step :=
  ⟨_, congrArg PlanStep.parents (h.steps.shape pre step post hsplit).1⟩

theorem PlannedIn.parents_ne_nil (h : PlannedIn s plan)
    (hsplit : plan.steps = pre ++ step :: post) : step.parents ≠ [] := by
  intro hnil
  have hany := (h.steps.shape pre step post hsplit).2
  rw [hnil] at hany
  cases hany

theorem PlannedIn.mem_of_replaced (h : PlannedIn s plan)
    (hsplit : plan.steps = pre ++ step :: post) {p : PlanStepParent} (hp : p ∈ step.parents)
    (hreplaced : p.replaced = true) :
    p.artifact = plan.old ∨ p.artifact ∈ pre.map PlanStep.artifact := by
  rw [(h.steps.shape pre step post hsplit).1] at hp
  obtain ⟨e, -, rfl⟩ := List.mem_map.1 hp
  rw [CatalogDb.stepParent] at hreplaced ⊢
  split at hreplaced
  · next hmem =>
    rw [if_pos hmem]
    exact List.mem_cons.1 hmem
  · cases hreplaced

theorem PlanStep.exists_of_replaces {k : ArtifactKey} (h : step.replaces k = true) :
    ∃ p ∈ step.parents, p.replaced = true ∧ p.artifact = k := by
  obtain ⟨p, hp, hand⟩ := List.any_eq_true.1 h
  rw [Bool.and_eq_true, decide_eq_true_eq] at hand
  exact ⟨p, hp, hand⟩

/-- The artifacts that the manifest refers to, each with the input that stands in its place. -/
theorem inputs_of_request {db : CatalogDb} {resolved : Dict ArtifactKey String}
    (htakes : db.TakesParents step) (hdb : db.Documented) (hne : step.parents ≠ [])
    {request : StageRequest} (h : step.request db configs resolved = .ok request) :
    request.inputs
      = (db.documentedParents step.artifact).map fun ref ↦ step.inputFor resolved ref.artifact := by
  rw [PlanStep.request, PlanStep.manifest] at h
  split at h
  · exact htakes.inputs_eq hdb hne h
  · next htype =>
    rw [stageRequest] at h
    split at h
    · next heq => simp [heq, executableStageTypes] at htype
    · next heq => simp [heq, executableStageTypes] at htype
    · next heq => simp [heq, executableStageTypes] at htype
    · next heq => simp [heq, executableStageTypes] at htype
    · next heq => simp [heq, executableStageTypes] at htype
    · cases h

/-! ## The variables of the executor -/

/-- The artifact whose stage service the step calls, with the request. -/
def attemptedAlone (x : AloneStep) : Option (ArtifactKey × StageRequest) :=
  match x.event with
  | .own o _ => o.attempted
  | .env e => e.elim

/-- The artifact that the step makes again, with its new id. -/
def madeAlone (x : AloneStep) : Option (ArtifactKey × String) :=
  match x.event with
  | .own o a => o.made a
  | .env e => e.elim

/-- A call of a stage service stands in the pass of its step: the step was ready, and the request was
put together from the variables before the pass. -/
theorem StepRun.of_attempt (h : StepRun configs s st step t st' s') {x : AloneStep} (hx : x ∈ t)
    {k : ArtifactKey} {request : StageRequest} (hattempt : attemptedAlone x = some (k, request)) :
    k = step.artifact ∧ x.before = s ∧ st.Ready configs step ∧
      step.request s.db configs st.resolved = .ok request := by
  have hreading : ∀ x ∈ step.reading s, attemptedAlone x ≠ some (k, request) := by
    rw [PlanStep.reading]
    split
    · exact List.forall_mem_singleton.2 (Option.some_ne_none _).symm
    · exact List.forall_mem_nil _
  cases h with
  | blocked => cases hx
  | unconfigured => cases hx
  | unread => exact absurd hattempt (hreading x hx)
  | failed hready hrequest =>
    rcases List.mem_append.1 hx with hx | hx
    · exact absurd hattempt (hreading x hx)
    · obtain rfl := List.mem_singleton.1 hx
      cases hattempt
      exact ⟨rfl, rfl, hready, hrequest⟩
  | unmarked hready hrequest | rebuilt updatedAt hready hrequest =>
    rcases List.mem_append.1 hx with hx | hx
    · exact absurd hattempt (hreading x hx)
    · simp only [PlanStep.marking, List.mem_cons, List.not_mem_nil, or_false] at hx
      rcases hx with rfl | rfl | rfl
      · cases hattempt
        exact ⟨rfl, rfl, hready, hrequest⟩
      · cases hattempt
      · cases hattempt

theorem ExecutorState.Ready.available (h : st.Ready configs step) {p : PlanStepParent}
    (hp : p ∈ step.parents) (hreplaced : p.replaced = true) : p.artifact ∉ st.unavailable := by
  intro hmem
  have hnone := List.find?_eq_none.1 h.unblocked p hp
  simp [hreplaced, hmem] at hnone

/-- What the variables say after some steps: every replaced artifact is unavailable or has a new id, and
a new id is that of the replacement or was returned by a stage service. -/
structure Accounted (plan : RebuildPlan) (pre : List PlanStep) (st : ExecutorState)
    (t : List AloneStep) : Prop where
  root : (st.resolved.get? plan.old).isSome
  made : ∀ k ∈ pre.map PlanStep.artifact, k ∈ st.unavailable ∨ (st.resolved.get? k).isSome
  origin : ∀ k id, st.resolved.get? k = some id → k = plan.old ∧ id = plan.new.artifactId ∨
    ∃ x ∈ t, madeAlone x = some (k, id)

theorem Accounted.start (plan : RebuildPlan) : Accounted plan [] (ExecutorState.start plan) [] where
  root := by simp [ExecutorState.start]
  made := List.forall_mem_nil _
  origin k id h := by
    rw [ExecutorState.start, Dict.get?_set] at h
    split at h
    · next hk =>
      cases h
      exact .inl ⟨hk, rfl⟩
    · cases h

/-- **How a pass changes the variables**: the step becomes unavailable, or the id that its stage service
returned is stored, or both. -/
theorem StepRun.variables (h : StepRun configs s st step t st' s') :
    (st'.unavailable = step.artifact :: st.unavailable ∧ st'.resolved = st.resolved) ∨
      ∃ newId, (∃ x ∈ t, madeAlone x = some (step.artifact, newId)) ∧
        st'.resolved = st.resolved.set step.artifact newId ∧
        (st'.unavailable = st.unavailable ∨
          st'.unavailable = step.artifact :: st.unavailable) := by
  cases h with
  | blocked | unconfigured | unread | failed => exact .inl ⟨rfl, rfl⟩
  | @unmarked request newId e hready hrequest =>
    exact .inr ⟨newId, ⟨step.attempt s request (.ok newId), by simp, rfl⟩, rfl, .inr rfl⟩
  | @rebuilt request newId updatedAt hready hrequest =>
    exact .inr ⟨newId, ⟨step.attempt s request (.ok newId), by simp, rfl⟩, rfl, .inl rfl⟩

theorem Accounted.stepRun {t₀ : List AloneStep} (h : Accounted plan pre st t₀)
    (hpass : StepRun configs s st step t st' s') :
    Accounted plan (pre ++ [step]) st' (t₀ ++ t) := by
  rcases hpass.variables with ⟨hunavailable, hresolved⟩ |
    ⟨newId, ⟨x, hx, hmade⟩, hresolved, hunavailable⟩
  · refine ⟨hresolved ▸ h.root, fun k hk ↦ ?_, fun k id hid ↦ ?_⟩
    · rw [hunavailable, hresolved]
      rw [List.map_append, List.map_singleton, List.mem_append, List.mem_singleton] at hk
      rcases hk with hk | rfl
      · exact (h.made k hk).imp_left (List.mem_cons_of_mem _)
      · exact .inl (List.mem_cons_self ..)
    · rw [hresolved] at hid
      refine (h.origin k id hid).imp_right fun ⟨x, hx, hrun⟩ ↦ ?_
      exact ⟨x, List.mem_append_left _ hx, hrun⟩
  · have hsub : ∀ k ∈ st.unavailable, k ∈ st'.unavailable := fun k hk ↦ by
      rcases hunavailable with heq | heq <;> simp [heq, hk]
    refine ⟨?_, fun k hk ↦ ?_, fun k id hid ↦ ?_⟩
    · rw [hresolved, Dict.get?_set]
      split
      · rfl
      · exact h.root
    · rw [hresolved, Dict.get?_set]
      split
      · exact .inr rfl
      · next hne =>
        rw [List.map_append, List.map_singleton, List.mem_append, List.mem_singleton] at hk
        exact (h.made k (hk.resolve_right hne)).imp_left (hsub k)
    · rw [hresolved, Dict.get?_set] at hid
      split at hid
      · next heq =>
        cases hid
        exact .inr ⟨x, List.mem_append_right _ hx, heq ▸ hmade⟩
      · refine (h.origin k id hid).imp_right fun ⟨x, hx, hrun⟩ ↦ ?_
        exact ⟨x, List.mem_append_left _ hx, hrun⟩

theorem Accounted.exists_replacement {t₀ : List AloneStep} (h : Accounted plan pre st t₀)
    (hplan : PlannedIn s plan) (hsplit : plan.steps = pre ++ step :: post)
    (hready : st.Ready configs step) {k : ArtifactKey} (hk : step.replaces k = true) :
    ∃ id, st.resolved.get? k = some id ∧ step.inputFor st.resolved k = ⟨k.artifactType, id⟩ := by
  obtain ⟨p, hp, hreplaced, rfl⟩ := PlanStep.exists_of_replaces hk
  have hsome : (st.resolved.get? p.artifact).isSome := by
    rcases hplan.mem_of_replaced hsplit hp hreplaced with heq | hmem
    · exact heq ▸ h.root
    · exact (h.made _ hmem).resolve_left (hready.available hp hreplaced)
  obtain ⟨id, hid⟩ := Option.isSome_iff_exists.1 hsome
  refine ⟨id, hid, ?_⟩
  rw [PlanStep.inputFor_eq, if_pos hk, Dict.getD, hid, Option.getD_some]

end ForgeData
