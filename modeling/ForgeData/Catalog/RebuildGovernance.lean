import ForgeData.Catalog.Execution

/-!
# What a rebuild does to governance

An execution writes the governance table only through its supersessions, and each of them leaves its
artifact deprecated. Artifacts and edges stay as they are. So after an execution the marked artifacts
are deprecated and every other one is in the state it was in before.
-/

namespace ForgeData

open Python Interleaving

/-- The artifact whose supersession the step has written. -/
def markedAlone (x : AloneStep) : Option ArtifactKey :=
  match x.event with
  | .own o a => o.marked a
  | .env e => e.elim

variable {sha : Json → String} {configs : Dict String Json} {s s' : CatalogState}
  {st st' : ExecutorState} {step : PlanStep} {t : List AloneStep}

@[simp] theorem filterMap_markedAlone_reading :
    (step.reading s).filterMap markedAlone = [] := by
  rw [PlanStep.reading]
  split <;> rfl

theorem forall_mem_reading {P : AloneStep → Prop}
    (h : ∀ o a, P ⟨.own o a, s, s⟩) : ∀ x ∈ step.reading s, P x := by
  rw [PlanStep.reading]
  split
  · exact List.forall_mem_singleton.2 (h _ _)
  · exact List.forall_mem_nil _

/-- **What a pass writes**: nothing, or the supersession of its artifact with its last operation. -/
theorem StepRun.writes (h : StepRun configs s st step t st' s') :
    (t.filterMap markedAlone = [] ∧ s' = s ∧ ∀ x ∈ t, x.before = s ∧ x.after = s) ∨
      t.filterMap markedAlone = [step.artifact] ∧
        (∃ newId updatedAt, s' = step.markedState s newId updatedAt) ∧
        ∀ x ∈ t, x.before = s ∧ (x.after = s ∨ x.after = s') := by
  cases h with
  | blocked => exact .inl ⟨rfl, rfl, List.forall_mem_nil _⟩
  | unconfigured => exact .inl ⟨rfl, rfl, List.forall_mem_nil _⟩
  | unread => exact .inl ⟨by simp, rfl, forall_mem_reading fun _ _ ↦ ⟨rfl, rfl⟩⟩
  | failed =>
    refine .inl ⟨by rw [List.filterMap_append, filterMap_markedAlone_reading]; rfl, rfl, ?_⟩
    exact List.forall_mem_append.2 ⟨forall_mem_reading fun _ _ ↦ ⟨rfl, rfl⟩,
      List.forall_mem_singleton.2 ⟨rfl, rfl⟩⟩
  | unmarked =>
    refine .inl ⟨by rw [List.filterMap_append, filterMap_markedAlone_reading]; rfl, rfl, ?_⟩
    refine List.forall_mem_append.2 ⟨forall_mem_reading fun _ _ ↦ ⟨rfl, rfl⟩, ?_⟩
    simp [PlanStep.attempt, PlanStep.marking]
  | rebuilt updatedAt =>
    refine .inr ⟨by rw [List.filterMap_append, filterMap_markedAlone_reading]; rfl,
      ⟨_, updatedAt, rfl⟩, ?_⟩
    refine List.forall_mem_append.2 ⟨forall_mem_reading fun _ _ ↦ ⟨rfl, .inl rfl⟩, ?_⟩
    simp [PlanStep.attempt, PlanStep.marking]

/-- What an execution has done to the catalog when it has got to a state: the artifacts it has marked
are deprecated, all else is as before. -/
structure Marked (s : CatalogState) (t : List AloneStep) (s' : CatalogState) : Prop where
  artifacts : s'.db.artifacts = s.db.artifacts
  lineageEdges : s'.db.lineageEdges = s.db.lineageEdges
  governance : ∀ k, s'.db.governanceState k =
    if k ∈ t.filterMap markedAlone then .deprecated else s.db.governanceState k

theorem Marked.upstream_iff (h : Marked s t s') {a k : ArtifactKey} :
    s'.db.Upstream a k ↔ s.db.Upstream a k := by
  have hedge : s'.db.Edge = s.db.Edge := by
    funext a k
    rw [CatalogDb.Edge, CatalogDb.Edge, h.lineageEdges]
  rw [CatalogDb.Upstream, CatalogDb.Upstream, hedge]

/-- **A pass only marks its artifact.** -/
theorem Marked.stepRun {s₀ : CatalogState} {t₀ : List AloneStep} (h : Marked s₀ t₀ s)
    (hpass : StepRun configs s st step t st' s') : Marked s₀ (t₀ ++ t) s' := by
  rcases hpass.writes with ⟨hnone, rfl, -⟩ | ⟨hmarked, ⟨newId, updatedAt, rfl⟩, -⟩
  · refine ⟨h.artifacts, h.lineageEdges, fun k ↦ ?_⟩
    rw [List.filterMap_append, hnone, List.append_nil, h.governance]
  · refine ⟨h.artifacts, h.lineageEdges, fun k ↦ ?_⟩
    have hstate : (step.markedState s newId updatedAt).db.governanceState k =
        if k = step.artifact then .deprecated else s.db.governanceState k :=
      CatalogDb.governanceState_setArtifactGovernance ..
    rw [hstate, List.filterMap_append, hmarked, h.governance]
    by_cases hk : k = step.artifact <;> simp [hk]

theorem Marked.start (s : CatalogState) : Marked s [] s := ⟨rfl, rfl, fun _ ↦ rfl⟩

/-- No step of the history takes an artifact out of invalid. -/
def InvalidKept (t : List AloneStep) : Prop :=
  ∀ x ∈ t, ∀ k, x.before.db.governanceState k = .invalid → x.after.db.governanceState k = .invalid

/-- Nothing that was invalid is marked as superseded. -/
def NoInvalidMarked (s : CatalogState) (t : List AloneStep) : Prop :=
  ∀ k ∈ t.filterMap markedAlone, s.db.governanceState k ≠ .invalid

instance : Decidable (NoInvalidMarked s t) :=
  inferInstanceAs (Decidable (∀ k ∈ t.filterMap markedAlone, _))

theorem noInvalidMarked_append {t t' : List AloneStep} :
    NoInvalidMarked s (t ++ t') ↔ NoInvalidMarked s t ∧ NoInvalidMarked s t' := by
  rw [NoInvalidMarked, List.filterMap_append, List.forall_mem_append, NoInvalidMarked,
    NoInvalidMarked]

theorem Marked.invalid_iff (h : Marked s t s') {k : ArtifactKey} :
    s'.db.governanceState k = .invalid ↔
      k ∉ t.filterMap markedAlone ∧ s.db.governanceState k = .invalid := by
  rw [h.governance]
  split <;> simp [*]

theorem invalidKept_of_stepRun {s₀ : CatalogState} {t₀ : List AloneStep} (hmarked : Marked s₀ t₀ s)
    (hkept : NoInvalidMarked s₀ (t₀ ++ t)) (h : StepRun configs s st step t st' s') :
    InvalidKept t := by
  have hmarked' := hmarked.stepRun h
  intro x hx k hk
  have hstate : s.db.governanceState k = .invalid → s'.db.governanceState k = .invalid := by
    intro hinvalid
    have hstart := (hmarked.invalid_iff.1 hinvalid).2
    exact hmarked'.invalid_iff.2 ⟨fun hmem ↦ hkept k hmem hstart, hstart⟩
  rcases h.writes with ⟨-, -, hsteps⟩ | ⟨-, -, hsteps⟩
  · obtain ⟨hbefore, hafter⟩ := hsteps x hx
    rwa [hafter, ← hbefore]
  · obtain ⟨hbefore, hafter | hafter⟩ := hsteps x hx
    · rwa [hafter, ← hbefore]
    · rw [hafter]
      exact hstate (hbefore ▸ hk)

/-- The run lemma: after any number of passes the catalog is as `Marked` says, and nothing was taken
out of invalid unless something invalid was marked. -/
theorem LoopRun.marked {steps : List PlanStep} (h : LoopRun configs s st steps t st' s') :
    Marked s t s' ∧ (NoInvalidMarked s t → InvalidKept t) := by
  refine h.invariant (J := fun _ _ t s' ↦ Marked s t s' ∧ (NoInvalidMarked s t → InvalidKept t))
    (fun _ hJ hpass ↦ ⟨hJ.1.stepRun hpass, fun hkept ↦ ?_⟩)
    ⟨Marked.start s, fun _ ↦ List.forall_mem_nil _⟩
  exact List.forall_mem_append.2 ⟨hJ.2 (noInvalidMarked_append.1 hkept).1,
    invalidKept_of_stepRun hJ.1 hkept hpass⟩

/-- **When a rebuild keeps the governance.** An execution of a plan leaves invalid what was invalid,
goes on refusing what the gate refused, and has no step that takes an artifact out of invalid, if and
only if no artifact that was invalid before it is marked as superseded. -/
theorem invalid_kept_iff {plan : RebuildPlan}
    {result : List RebuildStepResult × List SupersessionRecord}
    (h : Exec (aloneSystem sha) (plan.execute configs) s t (.pure result) s') :
    ((∀ k, s.db.governanceState k = .invalid → s'.db.governanceState k = .invalid) ∧
        (∀ k, s.db.enforceUpstreamGate k true ≠ .ok () →
          s'.db.enforceUpstreamGate k true ≠ .ok ()) ∧
        InvalidKept t) ↔ NoInvalidMarked s t := by
  obtain ⟨results, superseded⟩ := result
  obtain ⟨st, hloop, -, -⟩ := RebuildPlan.of_execute h
  obtain ⟨hmarked, hkept⟩ := hloop.marked
  constructor
  · rintro ⟨hstates, -, -⟩ k hk hinvalid
    exact (hmarked.invalid_iff.1 (hstates k hinvalid)).1 hk
  · intro hnone
    have hstates : ∀ k, s.db.governanceState k = .invalid → s'.db.governanceState k = .invalid :=
      fun k hinvalid ↦ hmarked.invalid_iff.2 ⟨fun hk ↦ hnone k hk hinvalid, hinvalid⟩
    refine ⟨hstates, fun k hrefused hpassed ↦ hrefused ?_, hkept hnone⟩
    have hregistered : s'.db.Registered k ↔ s.db.Registered k := by
      rw [CatalogDb.Registered, hmarked.artifacts, CatalogDb.Registered]
    rw [CatalogDb.enforceUpstreamGate_eq_ok_iff] at hpassed ⊢
    rcases hpassed with hpassed | ⟨hfree, -⟩
    · exact .inl (mt hregistered.2 hpassed)
    · exact .inr ⟨fun a hup ha ↦ hfree a (hmarked.upstream_iff.2 hup) (hstates a ha), .inl rfl⟩

/-! ## An invalid synchronization that is made again -/

/-- The recording after an artifact has been marked as invalid. -/
def invalidatedState (k : ArtifactKey) : CatalogState :=
  ((CatalogOp.changeGovernance k ⟨"invalid", some "sensor fault", none, none, none⟩).run (fun _ ↦ "")
    servingInput recordedState).2

/-- The results of a rebuild where all goes well. -/
def resynchronized : List RebuildStepResult × List SupersessionRecord :=
  ([⟨⟨.synchronization, "s1"⟩, some "s2", .rebuilt, none⟩],
    [⟨⟨.synchronization, "s1"⟩, ⟨.synchronization, "s2"⟩⟩])

/-- The normalization that is replaced was invalid: it stays so. -/
theorem invalid_kept_iff_resynchronize :
    (executeAlone (fun _ ↦ "") resynchronize Dict.empty (List.replicate 4 servingInput)
      (invalidatedState ⟨.normalization, "n1"⟩)).state.db.governanceState ⟨.normalization, "n1"⟩
        = .invalid := by
  have hrun := exec_executeAlone (fun _ ↦ "") resynchronize Dict.empty (List.replicate 4 servingInput)
    (invalidatedState ⟨.normalization, "n1"⟩) (show _ = some resynchronized by decide +kernel)
  exact ((invalid_kept_iff hrun).2 (by decide +kernel)).1 _ (by decide +kernel)

/-- The rebuild of a synchronization that was invalid leaves it deprecated. -/
theorem invalid_not_kept :
    ¬ ∀ (t : List AloneStep) (result : List RebuildStepResult × List SupersessionRecord)
      (s' : CatalogState),
      Exec (aloneSystem fun _ ↦ "") (resynchronize.execute Dict.empty)
        (invalidatedState ⟨.synchronization, "s1"⟩) t (.pure result) s' →
      ∀ k, (invalidatedState ⟨.synchronization, "s1"⟩).db.governanceState k = .invalid →
        s'.db.governanceState k = .invalid := by
  intro h
  have hrun := exec_executeAlone (fun _ ↦ "") resynchronize Dict.empty (List.replicate 4 servingInput)
    (invalidatedState ⟨.synchronization, "s1"⟩) (show _ = some resynchronized by decide +kernel)
  have hkept := h _ _ _ hrun ⟨.synchronization, "s1"⟩ (by decide +kernel)
  exact absurd hkept (by decide +kernel)

end ForgeData
