import ForgeData.Catalog.Impact
import ForgeData.Catalog.RebuildPlanner

/-!
# The planner plans exactly what is affected

On an acyclic catalog the order of the artifacts exists and contains all of them. So when the loop of
`build_plan` comes to an artifact downstream of the one to replace, the parent through which it is
affected has been replaced before, and the artifact gets its step.

A plan is *exact* if its steps make the strict descendants of the replaced artifact again, each once
and parents first, and if what a step takes from its parents follows from the lineage alone.
-/

namespace ForgeData

open Python Graph Relation

namespace CatalogDb

variable {db : CatalogDb} {old new k : ArtifactKey} {order : List ArtifactKey}

/-- The steps of an exact plan for the replacement of an artifact. -/
structure ExactPlan (db : CatalogDb) (old : ArtifactKey) (steps : List PlanStep) : Prop where
  /-- The steps make the strict descendants of the replaced artifact. -/
  mem_iff : ∀ k, k ∈ steps.map PlanStep.artifact ↔ TransGen db.Edge old k
  /-- No artifact is made twice. -/
  nodup : (steps.map PlanStep.artifact).Nodup
  /-- A step comes after the steps of its parents. -/
  parentsFirst : ∀ pre step post, steps = pre ++ step :: post → ∀ p, db.Edge p step.artifact →
    p ∈ steps.map PlanStep.artifact → p ∈ pre.map PlanStep.artifact
  /-- A step lists its parents edge by edge. -/
  parents : ∀ step ∈ steps, step.parents.map (fun p ↦ (p.artifact, p.relationship))
    = (db.getParents step.artifact).map fun e ↦ (e.parent, e.relationship)
  /-- Flagged are the replaced artifact and its descendants. -/
  replaced_iff : ∀ step ∈ steps, ∀ p ∈ step.parents,
    p.replaced = true ↔ db.Upstream old p.artifact
  /-- Every other parent keeps its own id. -/
  effectiveId : ∀ step ∈ steps, ∀ p ∈ step.parents, ¬ db.Upstream old p.artifact →
    p.effectiveId = some p.artifact.artifactId

/-! ## Every affected artifact gets its step -/

theorem exists_parent_of_upstream (hne : k ≠ old) (h : db.Upstream old k) :
    ∃ e ∈ db.getParents k, db.Upstream old e.parent := by
  rcases eq_or_transGen_of_reflTransGen h with rfl | h
  · exact absurd rfl hne
  · obtain ⟨p, hup, e, he, rfl, rfl⟩ := TransGen.tail'_iff.1 h
    exact ⟨e, mem_getParents.2 ⟨he, rfl⟩, hup⟩

/-- **The loop skips nothing but the artifact to replace**, if the artifacts before it in the order
include its affected parents. -/
theorem map_artifact_foldl_planNext (hmem : ∀ k, k ∈ order ↔ db.Upstream old k)
    (hsorted : ∀ pre k post, order = pre ++ k :: post → ∀ p ∈ order, db.Edge p k → p ∈ pre) :
    (order.foldl (db.planNext old) []).map PlanStep.artifact = order.filter (· ≠ old) := by
  refine foldl_invariant
    (I := fun pre (steps : List PlanStep) ↦ steps.map PlanStep.artifact = pre.filter (· ≠ old))
    (fun {pre k post steps} horder hsteps ↦ ?_) rfl
  rw [List.filter_append, ← hsteps, planNext]
  by_cases hk : k = old
  · rw [if_pos hk]
    simp [hk]
  · obtain ⟨e, he, hup⟩ := exists_parent_of_upstream hk ((hmem k).1 (by simp [horder]))
    have hparent : e.parent ∈ old :: steps.map PlanStep.artifact := by
      have hedge : db.Edge e.parent k := ⟨e, (mem_getParents.1 he).1, rfl, (mem_getParents.1 he).2⟩
      have hpre := hsorted pre k post horder e.parent ((hmem _).2 hup) hedge
      rw [hsteps, List.mem_cons, List.mem_filter]
      by_cases hold : e.parent = old
      · exact .inl hold
      · exact .inr ⟨hpre, by simpa using hold⟩
    have hany : (db.planStep (old :: steps.map PlanStep.artifact) k).parents.any
        PlanStepParent.replaced = true := by
      refine List.any_eq_true.2 ⟨stepParent (old :: steps.map PlanStep.artifact) e,
        List.mem_map_of_mem he, ?_⟩
      rw [stepParent, if_pos hparent]
    have hkeep : [k].filter (· ≠ old) = [k] := List.filter_eq_self.2 fun k' hk' ↦ by
      rw [List.mem_singleton.1 hk']
      exact decide_eq_true hk
    rw [if_neg hk, if_pos hany, List.map_append, hkeep]
    rfl

/-! ## Exact plans -/

/-- The artifacts that a step takes for replaced are those that are affected. -/
theorem PlannedSteps.mem_replaced_iff {steps pre post : List PlanStep} {step : PlanStep}
    (h : db.PlannedSteps old steps) (hall : ∀ k, k ∈ steps.map PlanStep.artifact ↔ TransGen db.Edge old k)
    (hsplit : steps = pre ++ step :: post) {p : ArtifactKey} (hp : db.Edge p step.artifact) :
    p ∈ old :: pre.map PlanStep.artifact ↔ db.Upstream old p := by
  rw [List.mem_cons]
  constructor
  · rintro (rfl | hpre)
    · exact .refl
    · have hin : p ∈ steps.map PlanStep.artifact := by
        rw [hsplit, List.map_append]
        exact List.mem_append_left _ hpre
      exact ((hall p).1 hin).to_reflTransGen
  · intro hup
    rcases eq_or_transGen_of_reflTransGen hup with rfl | hup
    · exact .inl rfl
    · exact .inr (h.parentsFirst pre step post hsplit p hp ((hall p).2 hup))

theorem PlannedSteps.of_mem_parents {steps : List PlanStep} {step : PlanStep} {p : PlanStepParent}
    (h : db.PlannedSteps old steps) (hall : ∀ k, k ∈ steps.map PlanStep.artifact ↔ TransGen db.Edge old k)
    (hstep : step ∈ steps) (hp : p ∈ step.parents) :
    (p.replaced = true ↔ db.Upstream old p.artifact) ∧
      (p.replaced = false → p.effectiveId = some p.artifact.artifactId) := by
  obtain ⟨pre, post, hsplit⟩ := List.append_of_mem hstep
  rw [(h.shape pre step post hsplit).1] at hp
  obtain ⟨e, he, rfl⟩ := List.mem_map.1 hp
  have hedge : db.Edge e.parent step.artifact :=
    ⟨e, (mem_getParents.1 he).1, rfl, (mem_getParents.1 he).2⟩
  have hiff := h.mem_replaced_iff hall hsplit hedge
  rw [stepParent]
  split
  · next hin => exact ⟨iff_of_true rfl (hiff.1 hin), nofun⟩
  · next hout => exact ⟨iff_of_false Bool.false_ne_true (mt hiff.2 hout), fun _ ↦ rfl⟩

/-- **The steps of the planner are exact** if they make all the strict descendants. -/
theorem PlannedSteps.exactPlan {steps : List PlanStep} (h : db.PlannedSteps old steps)
    (hall : ∀ k, k ∈ steps.map PlanStep.artifact ↔ TransGen db.Edge old k) :
    db.ExactPlan old steps where
  mem_iff := hall
  nodup := h.nodup
  parentsFirst := h.parentsFirst
  parents step hstep := by
    obtain ⟨pre, post, hsplit⟩ := List.append_of_mem hstep
    have hshape := (h.shape pre step post hsplit).1
    rw [hshape]
    simp only [planStep, List.map_map]
    refine List.map_congr_left fun e _ ↦ ?_
    simp only [Function.comp, stepParent]
    split <;> rfl
  replaced_iff step hstep p hp := (h.of_mem_parents hall hstep hp).1
  effectiveId step hstep p hp hup := by
    obtain ⟨hreplaced, heffective⟩ := h.of_mem_parents hall hstep hp
    exact heffective (Bool.eq_false_iff.2 (mt hreplaced.1 hup))

theorem registered_of_checkCompatibility (h : db.checkCompatibility old new = .ok ()) :
    db.Registered old := by
  rw [checkCompatibility] at h
  split at h
  · cases h
  · split at h
    · cases h
    · cases h
    · next oldRow _ hold _ => exact registered_iff.2 ⟨oldRow, hold⟩

theorem mem_nodes_iff (hold : db.Registered old) :
    k ∈ (db.traverse old .downstream none).nodes.map Prod.fst ↔ db.Upstream old k := by
  constructor
  · intro hk
    obtain ⟨⟨k', row⟩, hnode, rfl⟩ := List.mem_map.1 hk
    exact (mem_nodes_downstream_iff.1 hnode).2
  · intro hup
    have hk : db.Registered k := by
      rcases eq_or_transGen_of_reflTransGen hup with rfl | h
      · exact hold
      · exact (registered_of_transGen h).2
    obtain ⟨row, hrow⟩ := registered_iff.1 hk
    exact List.mem_map.2 ⟨(k, row), mem_nodes_downstream_iff.2 ⟨hrow, hup⟩, rfl⟩

/-- **The planner plans exactly the affected artifacts.** On an acyclic catalog the topological sort
succeeds on any artifacts, and for every accepted pair there is a plan: its steps make the strict
descendants of the artifact to replace, each once and parents first, and flag exactly the parents
that are replaced. -/
theorem buildPlan_exact (sha : Json → String) (hacyclic : Acyclic db.Edge) :
    (∀ nodeKeys : List ArtifactKey, nodeKeys.Nodup →
      ∃ order, db.topologicalOrder nodeKeys = .ok order ∧ ∀ k, k ∈ order ↔ k ∈ nodeKeys) ∧
    ∀ old new, db.checkCompatibility old new = .ok () →
      ∃ plan, db.buildPlan sha old new = .ok plan ∧ plan.old = old ∧ plan.new = new ∧
        db.ExactPlan old plan.steps := by
  refine ⟨fun nodeKeys hnodes ↦ exists_topologicalOrder hacyclic hnodes, fun old new hpair ↦ ?_⟩
  have hnodes := nodup_nodes db old .downstream none
  obtain ⟨order, horder, hmem⟩ := exists_topologicalOrder hacyclic hnodes
  have hup : ∀ k, k ∈ order ↔ db.Upstream old k := fun k ↦
    (hmem k).trans (mem_nodes_iff (registered_of_checkCompatibility hpair))
  obtain ⟨hnodup, -, hsorted⟩ := of_topologicalOrder hnodes horder
  have hsorted' : ∀ pre k post, order = pre ++ k :: post → ∀ p ∈ order, db.Edge p k → p ∈ pre :=
    fun pre k post hsplit p hp ↦ hsorted pre k post hsplit p ((hmem p).1 hp)
  have hplanned := plannedSteps_foldl hnodup (fun k hk ↦ (hup k).1 hk) hsorted'
  have hall : ∀ k, k ∈ (order.foldl (db.planNext old) []).map PlanStep.artifact ↔
      TransGen db.Edge old k := by
    intro k
    rw [map_artifact_foldl_planNext hup hsorted', List.mem_filter, hup, decide_eq_true_eq]
    constructor
    · rintro ⟨h, hne⟩
      exact (eq_or_transGen_of_reflTransGen h).resolve_left (Ne.symm hne)
    · intro h
      refine ⟨h.to_reflTransGen, ?_⟩
      rintro rfl
      exact hacyclic k h
  have hplan : db.buildPlan sha old new = .ok ⟨old, new, order.foldl (db.planNext old) [],
      db.fingerprint sha old new (order.foldl (db.planNext old) [])⟩ := by
    rw [buildPlan, hpair]
    simp only [horder]
  exact ⟨_, hplan, rfl, rfl, hplanned.exactPlan hall⟩

/-- Two transformations. The first one has a report, and a package that takes both from it, the
package over two edges; another report of the package has nothing to do with it. -/
def diamondDb : CatalogDb :=
  { empty with
    artifacts := .ofPairs [(⟨.transformation, "t1"⟩, plainRow .transformation),
      (⟨.transformation, "t2"⟩, plainRow .transformation), (⟨.qc, "q0"⟩, plainRow .qc),
      (⟨.qc, "q1"⟩, plainRow .qc), (packageKey "p", plainRow .package)]
    lineageEdges := [⟨⟨.transformation, "t1"⟩, packageKey "p", .packagedFrom⟩,
      ⟨⟨.transformation, "t1"⟩, packageKey "p", .transformedFrom⟩,
      ⟨⟨.transformation, "t1"⟩, ⟨.qc, "q1"⟩, .qcOf⟩,
      ⟨⟨.qc, "q0"⟩, packageKey "p", .approvedByQc⟩,
      ⟨⟨.qc, "q1"⟩, packageKey "p", .approvedByQc⟩]
    edges_nodup := by decide
    edges_registered := by decide }

theorem acyclic_diamondDb : Acyclic diamondDb.Edge := by
  have hranks : ∀ e ∈ diamondDb.lineageEdges,
      e.parent.artifactType.stageRank < e.child.artifactType.stageRank := by decide
  apply Acyclic.of_rank fun k ↦ k.artifactType.stageRank
  rintro _ _ ⟨e, he, rfl, rfl⟩
  exact hranks e he

/-- The plan that replaces the first transformation. -/
theorem buildPlan_exact_diamond : ∃ plan,
    diamondDb.buildPlan (fun _ ↦ "") ⟨.transformation, "t1"⟩ ⟨.transformation, "t2"⟩ = .ok plan ∧
    plan.old = ⟨.transformation, "t1"⟩ ∧ plan.new = ⟨.transformation, "t2"⟩ ∧
    diamondDb.ExactPlan ⟨.transformation, "t1"⟩ plan.steps :=
  (buildPlan_exact (fun _ ↦ "") acyclic_diamondDb).2 _ _ (by decide +kernel)

example : (diamondDb.buildPlan (fun _ ↦ "") ⟨.transformation, "t1"⟩
    ⟨.transformation, "t2"⟩).map (fun plan ↦ plan.steps.map PlanStep.artifact)
    = .ok [⟨.qc, "q1"⟩, packageKey "p"] := by decide +kernel

end CatalogDb

end ForgeData
