import ForgeData.Catalog.RebuildInputs

/-!
# What an execution reports

An execution reports every step once, in the order of the plan, calls a stage service only with what was
made again before, and lists exactly the steps reported as rebuilt as superseded, as long as every
supersession can be written. A supersession that is refused gives its step a second result: the new id is
stored and reported before the write, and the handler of exceptions then reports the step as failed.
-/

namespace ForgeData

open Python Interleaving

variable {sha : Json → String} {configs : Dict String Json} {s s' : CatalogState}
  {st st' : ExecutorState} {step : PlanStep} {t t₀ : List AloneStep} {plan : RebuildPlan}
  {pre post : List PlanStep} {results : List RebuildStepResult}

/-- The artifact whose supersession was refused. -/
def refusedMarkAlone (x : AloneStep) : Option ArtifactKey :=
  match x.event with
  | .own o a => o.refusedMark a
  | .env e => e.elim

/-- The results say that the artifact was made again under the id. -/
def Reports (results : List RebuildStepResult) (k : ArtifactKey) (id : String) : Prop :=
  ∃ r ∈ results, r.artifact = k ∧ r.status = .rebuilt ∧ r.newArtifactId = some id

/-- The entry of `superseded` that belongs to a result. -/
def supersessionOf (r : RebuildStepResult) : Option SupersessionRecord :=
  if r.status = .rebuilt then
    r.newArtifactId.map fun id ↦ ⟨r.artifact, ⟨r.artifact.artifactType, id⟩⟩
  else none

/-- The right input in place of an artifact that the manifest refers to: the replacement of the root, the
artifact that was made again under exactly the id that the results report, or the artifact itself. -/
def RightInput (plan : RebuildPlan) (results : List RebuildStepResult) (step : PlanStep)
    (ref : ParentRef) (j : ArtifactKey) : Prop :=
  if step.replaces ref.artifact then
    if ref.artifact = plan.old then j = plan.new
    else ∀ id, j = ⟨ref.artifact.artifactType, id⟩ ↔ Reports results ref.artifact id
  else j = ref.artifact

/-- A call of a stage service that fits the results: every replaced parent is the root or was rebuilt, and
the inputs are the right ones. -/
structure RightAttempt (s : CatalogState) (plan : RebuildPlan) (results : List RebuildStepResult)
    (step : PlanStep) (request : StageRequest) : Prop where
  parents : ∀ p ∈ step.parents, p.replaced = true →
    p.artifact = plan.old ∨ ∃ id, Reports results p.artifact id
  inputs : List.Forall₂ (RightInput plan results step) (s.db.documentedParents step.artifact)
    request.inputs

/-- What an execution should report. -/
structure ExactResults (s : CatalogState) (plan : RebuildPlan) (t : List AloneStep)
    (results : List RebuildStepResult) (superseded : List SupersessionRecord) : Prop where
  onePerStep : results.map RebuildStepResult.artifact = plan.steps.map PlanStep.artifact
  attempts : ∀ x ∈ t, ∀ attempt ∈ attemptedAlone x, ∃ step ∈ plan.steps,
    step.artifact = attempt.1 ∧ RightAttempt s plan results step attempt.2
  superseded : superseded = results.filterMap supersessionOf

/-! ## The results of a pass -/

@[simp] theorem filterMap_refusedMarkAlone_reading :
    (step.reading s).filterMap refusedMarkAlone = [] := by
  rw [PlanStep.reading]
  split <;> rfl

/-- **What a pass reports**: one result, unless its supersession is refused, which gives two. -/
theorem StepRun.reports (h : StepRun configs s st step t st' s') :
    (t.filterMap refusedMarkAlone = [] ∧ ∃ r, st'.results = st.results ++ [r] ∧
      r.artifact = step.artifact ∧
      ((∃ id, r.status = .rebuilt ∧ r.newArtifactId = some id ∧
          st'.resolved = st.resolved.set step.artifact id ∧ st'.unavailable = st.unavailable) ∨
        r.status ≠ .rebuilt ∧ st'.resolved = st.resolved ∧
          st'.unavailable = step.artifact :: st.unavailable) ∧
      st'.superseded = st.superseded ++ (supersessionOf r).toList) ∨
    t.filterMap refusedMarkAlone = [step.artifact] ∧
      ∃ r r', st'.results = st.results ++ [r, r'] := by
  cases h with
  | blocked | unconfigured =>
    exact .inl ⟨rfl, _, rfl, rfl, .inr ⟨nofun, rfl, rfl⟩, (List.append_nil _).symm⟩
  | unread =>
    exact .inl ⟨by simp, _, rfl, rfl, .inr ⟨nofun, rfl, rfl⟩, (List.append_nil _).symm⟩
  | failed =>
    refine .inl ⟨?_, _, rfl, rfl, .inr ⟨nofun, rfl, rfl⟩, (List.append_nil _).symm⟩
    rw [List.filterMap_append, filterMap_refusedMarkAlone_reading]
    rfl
  | unmarked =>
    refine .inr ⟨?_, _, _, List.append_assoc ..⟩
    rw [List.filterMap_append, filterMap_refusedMarkAlone_reading]
    rfl
  | rebuilt updatedAt =>
    refine .inl ⟨?_, _, rfl, rfl, .inl ⟨_, rfl, rfl, rfl, rfl⟩, rfl⟩
    rw [List.filterMap_append, filterMap_refusedMarkAlone_reading]
    rfl

theorem LoopRun.length_results {steps : List PlanStep} (h : LoopRun configs s st steps t st' s')
    (hst : st.results = []) :
    st'.results.length = steps.length + (t.filterMap refusedMarkAlone).length := by
  refine h.invariant (J := fun pre st t _ ↦
    st.results.length = pre.length + (t.filterMap refusedMarkAlone).length)
    (fun {pre step post st t s st' t' s'} _ hJ hpass ↦ ?_) (by simp [hst])
  rw [List.length_append, List.filterMap_append, List.length_append, List.length_singleton]
  rcases hpass.reports with ⟨hnone, r, hresults, -⟩ | ⟨hrefused, r, r', hresults⟩
  · rw [hresults, hnone, List.length_append, hJ]
    simp
    omega
  · rw [hresults, hrefused, List.length_append, hJ]
    simp
    omega

/-! ## Results and variables agree -/

/-- As long as no supersession is refused, the results tell of every step what the variables say. -/
structure Tallied (plan : RebuildPlan) (pre : List PlanStep) (st : ExecutorState) : Prop where
  results : st.results.map RebuildStepResult.artifact = pre.map PlanStep.artifact
  superseded : st.superseded = st.results.filterMap supersessionOf
  root : st.resolved.get? plan.old = some plan.new.artifactId
  made : ∀ k ∈ pre.map PlanStep.artifact, k ∉ st.unavailable →
    ∀ id, st.resolved.get? k = some id ↔ Reports st.results k id
  reported : ∀ k ∈ pre.map PlanStep.artifact, k ∈ st.unavailable ∨ ∃ id, Reports st.results k id

theorem Tallied.start (plan : RebuildPlan) : Tallied plan [] (ExecutorState.start plan) where
  results := rfl
  superseded := rfl
  root := by simp [ExecutorState.start]
  made := List.forall_mem_nil _
  reported := List.forall_mem_nil _

theorem reports_append {r : RebuildStepResult} {k : ArtifactKey} {id : String} :
    Reports (results ++ [r]) k id ↔ Reports results k id ∨
      r.artifact = k ∧ r.status = .rebuilt ∧ r.newArtifactId = some id := by
  simp only [Reports, List.mem_append, List.mem_singleton]
  constructor
  · rintro ⟨r', hr' | rfl, h⟩
    · exact .inl ⟨r', hr', h⟩
    · exact .inr h
  · rintro (⟨r', hr', h⟩ | h)
    · exact ⟨r', .inl hr', h⟩
    · exact ⟨r, .inr rfl, h⟩

theorem reports_append_of_ne {r : RebuildStepResult} {k : ArtifactKey} (hk : r.artifact ≠ k)
    {id : String} : Reports (results ++ [r]) k id ↔ Reports results k id := by
  rw [reports_append, or_iff_left fun h ↦ hk h.1]

theorem Tallied.not_reports (h : Tallied plan pre st) {k : ArtifactKey}
    (hk : k ∉ pre.map PlanStep.artifact) {id : String} : ¬ Reports st.results k id := by
  rintro ⟨r, hr, rfl, -⟩
  exact hk (h.results ▸ List.mem_map_of_mem hr)

/-- **A pass without a refused supersession keeps the tally.** -/
theorem Tallied.stepRun (h : Tallied plan pre st) (hroot : step.artifact ≠ plan.old)
    (hnew : step.artifact ∉ pre.map PlanStep.artifact) (hpass : StepRun configs s st step t st' s')
    (hwritten : t.filterMap refusedMarkAlone = []) : Tallied plan (pre ++ [step]) st' := by
  rcases hpass.reports with ⟨-, r, hresults, hartifact, hcase, hsuperseded⟩ | ⟨hrefused, -⟩
  · have hmem : ∀ {k}, k ∈ (pre ++ [step]).map PlanStep.artifact ↔
        k ∈ pre.map PlanStep.artifact ∨ k = step.artifact := by simp
    have hold : ∀ {k id}, k ≠ step.artifact →
        (Reports st'.results k id ↔ Reports st.results k id) := fun hk ↦ by
      rw [hresults, reports_append_of_ne (hartifact ▸ hk.symm)]
    have hne : ∀ k ∈ pre.map PlanStep.artifact, k ≠ step.artifact := fun k hk heq ↦
      hnew (heq ▸ hk)
    have hresults' : st'.results.map RebuildStepResult.artifact
        = (pre ++ [step]).map PlanStep.artifact := by
      rw [hresults, List.map_append, h.results, List.map_append, List.map_singleton,
        List.map_singleton, hartifact]
    have hsuperseded' : st'.superseded = st'.results.filterMap supersessionOf := by
      rw [hsuperseded, hresults, List.filterMap_append, h.superseded]
      cases hr : supersessionOf r <;> simp [hr]
    -- the step made a replacement, or it failed and its artifact became unavailable
    rcases hcase with ⟨id, hstatus, hid, hresolved, hunavailable⟩ |
      ⟨hstatus, hresolved, hunavailable⟩
    · have hself : ∀ id', Reports st'.results step.artifact id' ↔ id' = id := fun id' ↦ by
        rw [hresults, reports_append, or_iff_right (h.not_reports hnew), hartifact, hid]
        simp [hstatus, eq_comm]
      refine ⟨hresults', hsuperseded', ?_, fun k hk havailable id' ↦ ?_, fun k hk ↦ ?_⟩
      · rw [hresolved, Dict.get?_set_of_ne _ hroot.symm, h.root]
      · rw [hresolved]
        rcases hmem.1 hk with hk | rfl
        · rw [Dict.get?_set_of_ne _ (hne k hk), hold (hne k hk)]
          exact h.made k hk (hunavailable ▸ havailable) id'
        · rw [Dict.get?_set_self, hself, Option.some.injEq, eq_comm]
      · rcases hmem.1 hk with hk | rfl
        · rw [hunavailable]
          exact (h.reported k hk).imp_right fun ⟨id', hid'⟩ ↦ ⟨id', (hold (hne k hk)).2 hid'⟩
        · exact .inr ⟨id, (hself id).2 rfl⟩
    · refine ⟨hresults', hsuperseded', hresolved ▸ h.root, fun k hk havailable id ↦ ?_,
        fun k hk ↦ ?_⟩
      · rw [hunavailable, List.mem_cons, not_or] at havailable
        rw [hresolved, hold havailable.1]
        exact h.made k ((hmem.1 hk).resolve_right havailable.1) havailable.2 id
      · rw [hunavailable]
        rcases hmem.1 hk with hk | rfl
        · exact (h.reported k hk).imp (List.mem_cons_of_mem _) fun ⟨id, hid⟩ ↦
            ⟨id, (hold (hne k hk)).2 hid⟩
        · exact .inl (List.mem_cons_self ..)
  · rw [hwritten] at hrefused
    cases hrefused

/-! ## Attempts -/

/-- A later result does not concern what an earlier step has consumed. -/
theorem RightAttempt.append {request : StageRequest} {r : RebuildStepResult}
    (h : RightAttempt s plan results step request)
    (hr : ∀ k, step.replaces k = true → k ≠ plan.old → r.artifact ≠ k) :
    RightAttempt s plan (results ++ [r]) step request := by
  refine ⟨fun p hp hreplaced ↦ (h.parents p hp hreplaced).imp_right fun ⟨id, hid⟩ ↦
    ⟨id, reports_append.2 (.inl hid)⟩, h.inputs.imp fun ref j hj ↦ ?_⟩
  rw [RightInput] at hj ⊢
  split
  · next hreplaces =>
    rw [if_pos hreplaces] at hj
    split
    · next hroot => rwa [if_pos hroot] at hj
    · next hroot =>
      rw [if_neg hroot] at hj
      exact fun id ↦ (hj id).trans (reports_append_of_ne (hr _ hreplaces hroot)).symm
  · next hreplaces => rwa [if_neg hreplaces] at hj

/-- **A step that is attempted takes the right inputs.** -/
theorem Tallied.rightAttempt (h : Tallied plan pre st) (hplan : PlannedIn s plan)
    (hmarked : Marked s t₀ s') (haccounted : Accounted plan pre st t₀)
    (hsplit : plan.steps = pre ++ step :: post) (hready : st.Ready configs step)
    {request : StageRequest} (hrequest : step.request s'.db configs st.resolved = .ok request) :
    RightAttempt s plan st.results step request := by
  refine ⟨fun p hp hreplaced ↦ ?_, ?_⟩
  · refine (hplan.mem_of_replaced hsplit hp hreplaced).imp_right fun hmem ↦ ?_
    exact (h.reported _ hmem).resolve_left (hready.available hp hreplaced)
  · rw [inputs_of_request ((hplan.takesParents hsplit).congr hmarked.lineageEdges)
      (hplan.documented.congr hmarked.artifacts hmarked.lineageEdges)
      (hplan.parents_ne_nil hsplit) hrequest,
      CatalogDb.documentedParents_congr hmarked.artifacts, List.forall₂_map_right_iff,
      List.forall₂_same]
    -- an input is the replacement of a parent that the plan replaces, else the parent itself
    intro ref _
    rw [RightInput]
    split
    · next hreplaces =>
      obtain ⟨id, hid, hinput⟩ := haccounted.exists_replacement hplan hsplit hready hreplaces
      rw [hinput]
      split
      · next hroot =>
        rw [hroot, h.root] at hid
        rw [hroot, ← Option.some.inj hid, ← hplan.type]
      · next hroot =>
        obtain ⟨p, hp, hreplaced, heq⟩ := PlanStep.exists_of_replaces hreplaces
        have hmem : ref.artifact ∈ pre.map PlanStep.artifact :=
          heq ▸ (hplan.mem_of_replaced hsplit hp hreplaced).resolve_left (heq ▸ hroot)
        have havailable : ref.artifact ∉ st.unavailable := heq ▸ hready.available hp hreplaced
        intro id'
        rw [← h.made _ hmem havailable, hid, Option.some.injEq]
        simp
    · next hreplaces => rw [PlanStep.inputFor_eq, if_neg hreplaces]

/-- What holds after some steps without a refused supersession: the tally, and every attempt so far was
right. -/
structure RightSoFar (s : CatalogState) (plan : RebuildPlan) (pre : List PlanStep)
    (st : ExecutorState) (t : List AloneStep) : Prop where
  tallied : Tallied plan pre st
  attempts : ∀ x ∈ t, ∀ attempt ∈ attemptedAlone x, ∃ pre₀ step post₀, pre = pre₀ ++ step :: post₀ ∧
    step.artifact = attempt.1 ∧ RightAttempt s plan st.results step attempt.2

theorem RightSoFar.stepRun (h : RightSoFar s plan pre st t₀) (hplan : PlannedIn s plan)
    (hmarked : Marked s t₀ s') (haccounted : Accounted plan pre st t₀)
    (hsplit : plan.steps = pre ++ step :: post) {s₁ : CatalogState}
    (hpass : StepRun configs s' st step t st' s₁) (hwritten : t.filterMap refusedMarkAlone = []) :
    RightSoFar s plan (pre ++ [step]) st' (t₀ ++ t) := by
  have hroot : step.artifact ≠ plan.old := (hplan.steps.downstream step (by simp [hsplit])).1
  have hnew : step.artifact ∉ pre.map PlanStep.artifact := by
    have hnodup := hplan.steps.nodup
    rw [hsplit, List.map_append, List.map_cons] at hnodup
    exact fun hmem ↦ (List.nodup_append.1 hnodup).2.2 _ hmem _ (List.mem_cons_self ..) rfl
  obtain ⟨r, hresults, hartifact⟩ : ∃ r, st'.results = st.results ++ [r] ∧
      r.artifact = step.artifact := by
    rcases hpass.reports with ⟨-, r, hresults, hartifact, -⟩ | ⟨hrefused, -⟩
    · exact ⟨r, hresults, hartifact⟩
    · rw [hwritten] at hrefused
      cases hrefused
  -- a later result is about another artifact, so what was right before stays right
  have hlater : ∀ pre₀ step₀ post₀ request, pre ++ [step] = pre₀ ++ step₀ :: post₀ →
      RightAttempt s plan st.results step₀ request →
        RightAttempt s plan st'.results step₀ request := by
    intro pre₀ step₀ post₀ request hpre hright
    have hsplit₀ : plan.steps = pre₀ ++ step₀ :: (post₀ ++ post) := by
      rw [hsplit, ← List.singleton_append, ← List.append_assoc, hpre]
      simp
    rw [hresults]
    refine hright.append fun k hreplaces hk heq ↦ ?_
    obtain ⟨p, hp, hreplaced, rfl⟩ := PlanStep.exists_of_replaces hreplaces
    have hmem := (hplan.mem_of_replaced hsplit₀ hp hreplaced).resolve_left hk
    refine hnew (hartifact ▸ heq ▸ ?_)
    rcases append_singleton_eq_append_cons hpre with ⟨rfl, -, -⟩ | ⟨post', -, rfl⟩
    · exact hmem
    · rw [List.map_append]
      exact List.mem_append_left _ hmem
  refine ⟨h.tallied.stepRun hroot hnew hpass hwritten, List.forall_mem_append.2 ⟨?_, ?_⟩⟩
  · intro x hx attempt hattempt
    obtain ⟨pre₀, step₀, post₀, rfl, hkey, hright⟩ := h.attempts x hx attempt hattempt
    exact ⟨pre₀, step₀, post₀ ++ [step], by simp, hkey,
      hlater pre₀ step₀ (post₀ ++ [step]) _ (by simp) hright⟩
  · rintro x hx ⟨k, request⟩ hattempt
    obtain ⟨rfl, -, hready, hrequest⟩ := hpass.of_attempt hx hattempt
    exact ⟨pre, step, [], rfl, rfl, hlater pre step [] request rfl
      (h.tallied.rightAttempt hplan hmarked haccounted hsplit hready hrequest)⟩

/-- **When the results are exact.** For every plan made for a catalog that can be reached, and however
its steps end: the results of an execution are exact if and only if no supersession is refused. -/
theorem exactResults_iff {old new : ArtifactKey} {superseded : List SupersessionRecord}
    (hs : Reachable sha s) (hplan : s.db.buildPlan sha old new = .ok plan)
    (h : Exec (aloneSystem sha) (plan.execute configs) s t (.pure (results, superseded)) s') :
    ExactResults s plan t results superseded ↔ t.filterMap refusedMarkAlone = [] := by
  have hplanned := plannedIn_of_buildPlan hs hplan
  obtain ⟨st, hloop, rfl, rfl⟩ := RebuildPlan.of_execute h
  constructor
  · intro hexact
    have hlength := hloop.length_results rfl
    have hmap := congrArg List.length hexact.onePerStep
    rw [List.length_map, List.length_map] at hmap
    exact List.length_eq_zero_iff.1 (by omega)
  · intro hwritten
    have hrun := hloop.invariant (J := fun pre st t s' ↦ Marked s t s' ∧ Accounted plan pre st t ∧
        (t.filterMap refusedMarkAlone = [] → RightSoFar s plan pre st t)) ?_
      ⟨Marked.start s, Accounted.start plan, fun _ ↦ ⟨Tallied.start plan, List.forall_mem_nil _⟩⟩
    · obtain ⟨htallied, hattempts⟩ := hrun.2.2 hwritten
      refine ⟨htallied.results, fun x hx attempt hattempt ↦ ?_, htallied.superseded⟩
      obtain ⟨pre, step, post, hsplit, hright⟩ := hattempts x hx attempt hattempt
      exact ⟨step, by simp [hsplit], hright⟩
    · intro pre step post st t₀ s₁ st₁ t₁ s₂ hsplit hJ hpass
      obtain ⟨hmarked, haccounted, hright⟩ := hJ
      refine ⟨hmarked.stepRun hpass, haccounted.stepRun hpass, fun hnone ↦ ?_⟩
      rw [List.filterMap_append, List.append_eq_nil_iff] at hnone
      exact (hright hnone.1).stepRun hplanned hmarked haccounted hsplit hpass hnone.2

/-! ## A supersession that is refused -/

/-- An input where the database is busy. -/
def busyInput : CatalogInput :=
  { servingInput with
    refusal := some (.catalogBusy "mark_superseded" 5000 "catalog.db")
    isRefusal := fun e he ↦ by
      cases he
      trivial }

/-- The rebuild of the recording reports its step once. -/
theorem exactResults_iff_resynchronize :
    ExactResults recordedState resynchronize (executeAlone (fun _ ↦ "") resynchronize Dict.empty
      (List.replicate 4 servingInput) recordedState).history resynchronized.1 resynchronized.2 := by
  have hrun := exec_executeAlone (fun _ ↦ "") resynchronize Dict.empty (List.replicate 4 servingInput)
    recordedState (show _ = some resynchronized by decide +kernel)
  have hplan : recordedState.db.buildPlan (fun _ ↦ "") ⟨.normalization, "n1"⟩
      ⟨.normalization, "n2"⟩ = .ok resynchronize := by decide +kernel
  exact (exactResults_iff reachable_recordedState hplan hrun).2 (by decide +kernel)

/-- The database is busy when the supersession is to be written: the one step has two results. -/
theorem results_not_exact :
    recordedState.db.buildPlan (fun _ ↦ "") ⟨.normalization, "n1"⟩ ⟨.normalization, "n2"⟩
        = .ok resynchronize ∧
      ¬ ∀ (t : List AloneStep) (results : List RebuildStepResult)
        (superseded : List SupersessionRecord) (s' : CatalogState),
        Exec (aloneSystem fun _ ↦ "") (resynchronize.execute Dict.empty) recordedState t
          (.pure (results, superseded)) s' →
        ExactResults recordedState resynchronize t results superseded := by
  refine ⟨by decide +kernel, fun h ↦ ?_⟩
  have hrun := exec_executeAlone (fun _ ↦ "") resynchronize Dict.empty
    (List.replicate 3 servingInput ++ [busyInput]) recordedState
    (show _ = some ([⟨⟨.synchronization, "s1"⟩, some "s2", .rebuilt, none⟩,
      ⟨⟨.synchronization, "s1"⟩, none, .failed,
        some (CatalogError.message (.catalogBusy "mark_superseded" 5000 "catalog.db"))⟩], [])
      by decide +kernel)
  have hmap := (h _ _ _ _ hrun).onePerStep
  cases congrArg List.length hmap

end ForgeData
