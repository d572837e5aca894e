import ForgeData.Catalog.RebuildInputs

/-!
# Rebuilds and the upstream gate

The routes and the pipeline runner ask the upstream gate before they call a stage service. The executor of
a rebuild does not. So nothing keeps a rebuild from consuming an invalid artifact but the state of the
artifacts that it takes from the catalog: the replacement, and the parents that the plan leaves alone.
-/

namespace ForgeData

open Python Interleaving

variable {sha : Json → String} {configs : Dict String Json} {s s' : CatalogState}
  {st st' : ExecutorState} {step : PlanStep} {t t₀ : List AloneStep} {plan : RebuildPlan}
  {pre post : List PlanStep}

/-- Whenever a stage service is called, nothing invalid lies upstream of one of its inputs, itself
included. -/
def GateHonoured (t : List AloneStep) : Prop :=
  ∀ x ∈ t, ∀ attempt ∈ attemptedAlone x, ∀ j ∈ attempt.2.inputs, x.before.db.LineageFree .invalid j

/-- The ids that the stage services return are not in the catalog, as they have just been drawn. -/
def FreshIds (s : CatalogState) (t : List AloneStep) : Prop :=
  ∀ x ∈ t, ∀ made ∈ madeAlone x, ¬ s.db.Registered ⟨made.1.artifactType, made.2⟩ ∧
    s.db.getArtifactGovernance ⟨made.1.artifactType, made.2⟩ = none

instance : Decidable (FreshIds s t) := inferInstanceAs (Decidable (∀ x ∈ t, ∀ made ∈ madeAlone x, _))

/-- The input that a step takes from the catalog in place of an artifact that its manifest refers to:
the artifact, or the replacement of the root; none if the plan makes it again. -/
def RebuildPlan.catalogInput (plan : RebuildPlan) (step : PlanStep) (k : ArtifactKey) :
    Option ArtifactKey :=
  if step.replaces k then if k = plan.old then some plan.new else none else some k

/-- The stage service of the artifact was called. -/
def Attempted (t : List AloneStep) (k : ArtifactKey) : Prop :=
  ∃ x ∈ t, ∃ attempt ∈ attemptedAlone x, attempt.1 = k

/-- Before the execution nothing invalid lies upstream of what the steps that come to be executed take
from the catalog. -/
def CatalogInputsFree (s : CatalogState) (plan : RebuildPlan) (steps : List PlanStep)
    (t : List AloneStep) : Prop :=
  ∀ step ∈ steps, Attempted t step.artifact → ∀ ref ∈ s.db.documentedParents step.artifact,
    ∀ j ∈ plan.catalogInput step ref.artifact, s.db.LineageFree .invalid j

theorem CatalogInputsFree.of_append {steps steps' : List PlanStep} {t' : List AloneStep}
    (h : CatalogInputsFree s plan (steps ++ steps') (t ++ t')) :
    CatalogInputsFree s plan steps t := by
  rintro step hstep ⟨x, hx, hrun⟩
  exact h step (List.mem_append_left _ hstep) ⟨x, List.mem_append_left _ hx, hrun⟩

theorem Marked.lineageFree (h : Marked s t s') {k : ArtifactKey}
    (hfree : s.db.LineageFree .invalid k) : s'.db.LineageFree .invalid k := fun a hup ha ↦
  hfree a (h.upstream_iff.1 hup) (h.invalid_iff.1 ha).2

theorem CatalogDb.lineageFree_of_not_registered {db : CatalogDb} {k : ArtifactKey}
    (hk : ¬ db.Registered k) (hgovernance : db.getArtifactGovernance k = none) :
    db.LineageFree .invalid k := by
  intro a hup ha
  rcases Graph.eq_or_transGen_of_reflTransGen hup with rfl | htrans
  · rw [governanceState, hgovernance] at ha
    cases ha
  · exact hk (registered_of_transGen htrans).2

/-- The inputs of a step that is executed. -/
theorem lineageFree_of_attempt (hplan : PlannedIn s plan) (hmarked : Marked s t₀ s')
    (haccounted : Accounted plan pre st t₀) (hsplit : plan.steps = pre ++ step :: post)
    (hready : st.Ready configs step) (hfresh : FreshIds s t₀) {request : StageRequest}
    (hrequest : step.request s'.db configs st.resolved = .ok request)
    (hfree : ∀ ref ∈ s.db.documentedParents step.artifact,
      ∀ j ∈ plan.catalogInput step ref.artifact, s.db.LineageFree .invalid j) :
    ∀ j ∈ request.inputs, s'.db.LineageFree .invalid j := by
  rw [inputs_of_request ((hplan.takesParents hsplit).congr hmarked.lineageEdges)
    (hplan.documented.congr hmarked.artifacts hmarked.lineageEdges)
    (hplan.parents_ne_nil hsplit) hrequest, CatalogDb.documentedParents_congr hmarked.artifacts]
  refine List.forall_mem_map.2 fun ref href ↦ hmarked.lineageFree ?_
  cases hreplaces : step.replaces ref.artifact with
  | false =>
    have hinput : step.inputFor st.resolved ref.artifact = ref.artifact := by
      rw [PlanStep.inputFor_eq, if_neg (by simp [hreplaces])]
    rw [hinput]
    exact hfree ref href _ (by simp [RebuildPlan.catalogInput, hreplaces])
  | true =>
    obtain ⟨id, hid, hinput⟩ := haccounted.exists_replacement hplan hsplit hready hreplaces
    rw [hinput]
    rcases haccounted.origin _ _ hid with ⟨hroot, rfl⟩ | ⟨x, hx, hmade⟩
    · have hnew : (⟨ref.artifact.artifactType, plan.new.artifactId⟩ : ArtifactKey) = plan.new := by
        rw [hroot, ← hplan.type]
      rw [hnew]
      refine hfree ref href _ ?_
      rw [RebuildPlan.catalogInput, if_pos hreplaces, if_pos hroot]
      rfl
    · obtain ⟨hunregistered, hungoverned⟩ := hfresh x hx _ hmade
      exact CatalogDb.lineageFree_of_not_registered hunregistered hungoverned

/-- **When a rebuild honours the gate.** In every execution of a plan that was made for the catalog: if
nothing invalid lies upstream of what the executed steps take from the catalog, no step is executed while
something invalid lies upstream of one of its inputs. -/
theorem gate_honoured_of_catalogInputs {old new : ArtifactKey}
    {result : List RebuildStepResult × List SupersessionRecord} (hs : Reachable sha s)
    (hplan : s.db.buildPlan sha old new = .ok plan)
    (h : Exec (aloneSystem sha) (plan.execute configs) s t (.pure result) s')
    (hfresh : FreshIds s t) (hfree : CatalogInputsFree s plan plan.steps t) : GateHonoured t := by
  have hplanned := plannedIn_of_buildPlan hs hplan
  obtain ⟨results, superseded⟩ := result
  obtain ⟨st, hloop, -, -⟩ := RebuildPlan.of_execute h
  have hrun := hloop.invariant (J := fun pre st t s' ↦ Marked s t s' ∧ Accounted plan pre st t ∧
      (FreshIds s t → CatalogInputsFree s plan pre t → GateHonoured t)) ?_
    ⟨Marked.start s, Accounted.start plan, fun _ _ ↦ List.forall_mem_nil _⟩
  · exact hrun.2.2 hfresh hfree
  · intro pre step post st t₀ s₁ st₁ t₁ s₂ hsplit hJ hpass
    obtain ⟨hmarked, haccounted, hgate⟩ := hJ
    refine ⟨hmarked.stepRun hpass, haccounted.stepRun hpass, fun hfresh hfree ↦ ?_⟩
    have hfresh₀ : FreshIds s t₀ := fun x hx ↦ hfresh x (List.mem_append_left _ hx)
    refine List.forall_mem_append.2 ⟨hgate hfresh₀ hfree.of_append, ?_⟩
    rintro x hx ⟨k, request⟩ hattempt
    obtain ⟨rfl, hbefore, hready, hrequest⟩ := hpass.of_attempt hx hattempt
    rw [hbefore]
    refine lineageFree_of_attempt hplanned hmarked haccounted hsplit hready hfresh₀ hrequest ?_
    exact hfree step (List.mem_append_right _ (List.mem_singleton_self step))
      ⟨x, List.mem_append_right _ hx, _, hattempt, rfl⟩

/-! ## A replacement that is invalid -/

theorem reachable_invalidatedState (k : ArtifactKey) :
    Reachable (fun _ ↦ "") (invalidatedState k) :=
  ⟨fun _ ↦ True, _, _, show CatalogRun (fun _ ↦ "") _ [] .empty _ _ (simulateCatalog (fun _ ↦ "")
    [.start CatalogOp.scan.perform.discard, .act 0 servingInput,
      .start (CatalogOp.changeGovernance k ⟨"invalid", some "sensor fault", none, none, none⟩).perform.discard,
      .act 1 servingInput] .empty).state from catalogRun_simulate (fun _ _ ↦ trivial) .empty⟩

/-- The artifact that is replaced is invalid, and the replacement is not. -/
theorem gate_honoured_of_catalogInputs_resynchronize :
    GateHonoured (executeAlone (fun _ ↦ "") resynchronize Dict.empty (List.replicate 4 servingInput)
      (invalidatedState ⟨.normalization, "n1"⟩)).history := by
  have hrun := exec_executeAlone (fun _ ↦ "") resynchronize Dict.empty (List.replicate 4 servingInput)
    (invalidatedState ⟨.normalization, "n1"⟩) (show _ = some resynchronized by decide +kernel)
  have hfree : (invalidatedState ⟨.normalization, "n1"⟩).db.LineageFree .invalid ⟨.normalization, "n2"⟩ :=
    ((CatalogDb.enforceUpstreamGate_eq_ok_iff.1
      (show (invalidatedState ⟨.normalization, "n1"⟩).db.enforceUpstreamGate ⟨.normalization, "n2"⟩ true = .ok () by
        decide +kernel)).resolve_left (by decide +kernel)).1
  have hplan : (invalidatedState ⟨.normalization, "n1"⟩).db.buildPlan (fun _ ↦ "") ⟨.normalization, "n1"⟩
      ⟨.normalization, "n2"⟩ = .ok resynchronize := by decide +kernel
  refine gate_honoured_of_catalogInputs (reachable_invalidatedState _) hplan hrun (by decide +kernel) ?_
  have hrefs : (invalidatedState ⟨.normalization, "n1"⟩).db.documentedParents ⟨.synchronization, "s1"⟩ =
      [⟨⟨.normalization, "n1"⟩, .synchronizedFrom⟩] := by decide +kernel
  intro step hstep _ ref href j hj
  obtain rfl := List.mem_singleton.1 hstep
  rw [show (invalidatedState ⟨.normalization, "n1"⟩).db.documentedParents _ = _ from hrefs] at href
  obtain rfl := List.mem_singleton.1 href
  cases hj
  exact hfree

/-- The step reads the artifact while it is invalid. -/
def readsInvalid (k : ArtifactKey) (x : AloneStep) : Bool :=
  (attemptedAlone x).any fun attempt ↦
    k ∈ attempt.2.inputs && x.before.db.governanceState k = .invalid

theorem not_gateHonoured_of_any (k : ArtifactKey) (h : t.any (readsInvalid k) = true) :
    ¬ GateHonoured t := by
  intro hgate
  obtain ⟨x, hx, hreads⟩ := List.any_eq_true.1 h
  rw [readsInvalid] at hreads
  rcases hattempt : attemptedAlone x with _ | attempt
  · rw [hattempt] at hreads
    cases hreads
  · rw [hattempt, Option.any_some, Bool.and_eq_true, decide_eq_true_eq, decide_eq_true_eq] at hreads
    exact hgate x hx attempt hattempt k hreads.1 k .refl hreads.2

/-- The normalization that replaces the old one is invalid, and the synchronization is made again from
it. -/
theorem gate_not_honoured :
    (invalidatedState ⟨.normalization, "n2"⟩).db.buildPlan (fun _ ↦ "") ⟨.normalization, "n1"⟩
        ⟨.normalization, "n2"⟩ = .ok resynchronize ∧
      ¬ ∀ (t : List AloneStep) (result : List RebuildStepResult × List SupersessionRecord)
        (s' : CatalogState),
        Exec (aloneSystem fun _ ↦ "") (resynchronize.execute Dict.empty)
          (invalidatedState ⟨.normalization, "n2"⟩) t (.pure result) s' → GateHonoured t := by
  refine ⟨by decide +kernel, fun h ↦ ?_⟩
  have hrun := exec_executeAlone (fun _ ↦ "") resynchronize Dict.empty (List.replicate 4 servingInput)
    (invalidatedState ⟨.normalization, "n2"⟩) (show _ = some resynchronized by decide +kernel)
  exact not_gateHonoured_of_any ⟨.normalization, "n2"⟩ (by decide +kernel) (h _ _ _ hrun)

end ForgeData
