import ForgeData.Catalog.LineageGraph
import ForgeData.Graph.Kahn
import ForgeData.Interleaving.Program
import ForgeData.Python.Loop

/-!
# Planning a selective rebuild

When an artifact turns out to be bad and a replacement for it exists, everything downstream of it has
to be made again. The planner checks that the replacement fits, orders the artifacts downstream so
that parents come first, and lists the steps: which artifact to make again, and for each of its parents
whether it is replaced too. It only reads the catalog.

The fingerprint of a plan is the hash of what the plan was made from. The hash function is a parameter.
-/

namespace ForgeData

open Python Graph

/-- `_EXECUTABLE_STAGE_TYPES`. -/
def executableStageTypes : List ArtifactType :=
  [.synchronization, .cleaning, .transformation, .qc, .package]

/-- `SUPPORTED_REPLACEMENT_ANCHOR_TYPES`. -/
def supportedReplacementAnchorTypes : List ArtifactType := .normalization :: executableStageTypes

/-- `MANUAL_CONFIG_STAGES`. -/
def manualConfigStages : List ArtifactType := [.cleaning, .transformation, .qc, .package]

structure PlanStepParent where
  artifact : ArtifactKey
  /-- The id that the step will use, where it is known before the execution. -/
  effectiveId : Option String
  relationship : RelationshipType
  replaced : Bool
  deriving DecidableEq, Repr

structure PlanStep where
  artifact : ArtifactKey
  parents : List PlanStepParent
  feasible : Bool
  manualConfigurationRequired : Bool
  infeasibleReason : Option String
  deriving DecidableEq, Repr

structure RebuildPlan where
  old : ArtifactKey
  new : ArtifactKey
  steps : List PlanStep
  fingerprint : String
  deriving DecidableEq, Repr

/-- Whether `if` takes an optional text for true. -/
def truthyText (text : Option String) : Bool := text.getD "" ≠ ""

/-- `(meta.get("schema") or {}).get("name")`, if it is a text. -/
def schemaName (metadata : Json) : Option String :=
  (metadata.get? "schema").bind (·.getStr? "name")

namespace CatalogDb

variable (db : CatalogDb)

/-! ## Compatibility -/

/-- The reason why two texts do not fit: both are there, and they differ. -/
def mismatch (old new : Option String) (reason : String → String → String) : Option String :=
  if truthyText old && truthyText new && old ≠ new then some (reason (old.getD "") (new.getD ""))
  else none

/-- The comparisons of `_check_compatibility` for two artifacts of one kind, in their order. -/
def incompatibilities (type : ArtifactType) (old new : ArtifactRow) : List (Option String) :=
  mismatch old.sessionId new.sessionId (fun o n ↦
      s!"different session_id ('{o}' vs '{n}') — a replacement must belong to the same session") ::
    if type = .normalization then
      [mismatch (schemaName old.metadata) (schemaName new.metadata) (fun o n ↦
        s!"schema mismatch: original uses '{o}', replacement uses '{n}' " ++
          "(e.g. a GPS normalization cannot replace an IMU normalization)"),
       mismatch (old.metadata.getStr? "ingestion_id") (new.metadata.getStr? "ingestion_id")
        (fun _ _ ↦ "replacement must normalize the same source ingestion as the original")]
    else []

/-- `_check_compatibility`. -/
def checkCompatibility (old new : ArtifactKey) : Except CatalogError Unit :=
  if old.artifactType ∉ supportedReplacementAnchorTypes then
    .error (.rebuildReplacementIncompatible old new
      (s!"selective rebuild does not support replacing a '{old.artifactType.text}' artifact -- " ++
        "the earliest supported replacement point is 'normalization' (fix the ingestion's " ++
        "normalization output, or replace one of ['cleaning', 'package', 'qc', " ++
        "'synchronization', 'transformation'] directly); a bad raw ingestion requires a full " ++
        "new pipeline run, not a selective rebuild"))
  else match db.getArtifact old, db.getArtifact new with
  | none, _ => .error (.artifactNotFound (s!"No {old.artifactType.text} artifact with id " ++
      s!"'{old.artifactId}' (the artifact being replaced)"))
  | some _, none => .error (.artifactNotFound (s!"No {new.artifactType.text} artifact with id " ++
      s!"'{new.artifactId}' (the proposed replacement)"))
  | some oldRow, some newRow =>
    if old.artifactType ≠ new.artifactType then
      .error (.rebuildReplacementIncompatible old new
        (s!"replacement artifact_type '{new.artifactType.text}' must match the original's " ++
          s!"'{old.artifactType.text}'"))
    else match (incompatibilities old.artifactType oldRow newRow).findSome? id with
    | some reason => .error (.rebuildReplacementIncompatible old new reason)
    | none => .ok ()

/-! ## Topological order -/

/-- `in_degree`. -/
def inDegree (nodeKeys : List ArtifactKey) (k : ArtifactKey) : ℤ :=
  ((db.getParents k).filter (·.parent ∈ nodeKeys)).length

/-- `children_map`: a child stands in the list once for each edge. -/
def childrenMap (nodeKeys : List ArtifactKey) (p : ArtifactKey) : List ArtifactKey :=
  nodeKeys.flatMap fun k ↦ ((db.getParents k).filter (·.parent = p)).map EdgeRow.child

/-- `_topological_order`. -/
def topologicalOrder (nodeKeys : List ArtifactKey) : Except CatalogError (List ArtifactKey) :=
  let start : Kahn ArtifactKey := {
    queue := sortedBy ArtifactKey.texts (nodeKeys.filter (db.inDegree nodeKeys · = 0))
    order := []
    inDegree := db.inDegree nodeKeys }
  let order := (kahn (fun p ↦ sortedBy ArtifactKey.texts (db.childrenMap nodeKeys p))
    (nodeKeys.length + 1) start).getD []
  if order.length ≠ nodeKeys.length then
    .error (.lineageCycleDetected ("Cycle detected while planning a selective rebuild — this " ++
      "should be unreachable given catalog invariants"))
  else .ok order

/-! ## Plan construction -/

/-- A parent of a step, seen while the given artifacts are in `replacement_map`. -/
def stepParent (replaced : List ArtifactKey) (e : EdgeRow) : PlanStepParent :=
  if e.parent ∈ replaced then ⟨e.parent, none, e.relationship, true⟩
  else ⟨e.parent, some e.parent.artifactId, e.relationship, false⟩

/-- The step that makes an artifact again. -/
def planStep (replaced : List ArtifactKey) (k : ArtifactKey) : PlanStep :=
  let manual : Bool := k.artifactType ∈ manualConfigStages
  { artifact := k
    parents := (db.getParents k).map (stepParent replaced)
    feasible := true
    manualConfigurationRequired := manual
    infeasibleReason := if manual then some ("manifest only recorded a config hash, not the raw " ++
      "config — must be supplied at execute time") else none }

/-- One pass of the loop of `build_plan`. Besides the artifact to replace, the keys of
`replacement_map` are the artifacts of the steps so far. -/
def planNext (old : ArtifactKey) (steps : List PlanStep) (k : ArtifactKey) : List PlanStep :=
  let step := db.planStep (old :: steps.map PlanStep.artifact) k
  if k = old then steps
  else if step.parents.any PlanStepParent.replaced then steps ++ [step]
  else steps

/-- What the fingerprint says about a step. -/
def stepPayload (step : PlanStep) : Json :=
  .obj [("stage", .str step.artifact.artifactType.text),
    ("old_id", .str step.artifact.artifactId),
    ("manifest_sha256",
      (((db.getArtifact step.artifact).bind ArtifactRow.manifestSha256).map Json.str).getD .null),
    ("parents", .arr ((sortedBy (fun p : PlanStepParent ↦ toLex (p.artifact.texts, p.replaced))
      step.parents).map fun p ↦ .arr [.str p.artifact.artifactType.text,
        .str p.artifact.artifactId, .bool p.replaced]))]

/-- `_fingerprint`. -/
def fingerprint (sha : Json → String) (old new : ArtifactKey) (steps : List PlanStep) : String :=
  sha (Json.canonical (.obj [("old", .arr [.str old.artifactType.text, .str old.artifactId]),
    ("new", .arr [.str new.artifactType.text, .str new.artifactId]),
    ("steps", .arr (steps.map db.stepPayload))]))

/-- `build_plan`. -/
def buildPlan (sha : Json → String) (old new : ArtifactKey) : Except CatalogError RebuildPlan :=
  match db.checkCompatibility old new with
  | .error e => .error e
  | .ok () =>
    match db.topologicalOrder ((db.traverse old .downstream none).nodes.map Prod.fst) with
    | .error e => .error e
    | .ok order =>
      let steps := order.foldl (db.planNext old) []
      .ok ⟨old, new, steps, db.fingerprint sha old new steps⟩

/-- `fingerprint_now`. -/
def fingerprintNow (sha : Json → String) (old new : ArtifactKey) : Except CatalogError String :=
  (db.buildPlan sha old new).map RebuildPlan.fingerprint

/-! ## The order of the steps -/

variable {db} {nodeKeys order : List ArtifactKey} {old new k p : ArtifactKey}

theorem count_childrenMap (hnodes : nodeKeys.Nodup) (hk : k ∈ nodeKeys) :
    (db.childrenMap nodeKeys p).count k = ((db.getParents k).map EdgeRow.parent).count p := by
  have hself : ∀ k', (((db.getParents k').filter (·.parent = p)).map EdgeRow.child).count k
      = if k' = k then ((db.getParents k).map EdgeRow.parent).count p else 0 := by
    intro k'
    have hchild : ((db.getParents k').filter (·.parent = p)).map EdgeRow.child
        = List.replicate (((db.getParents k').map EdgeRow.parent).count p) k' := by
      rw [List.eq_replicate_iff, List.length_map, List.count, List.countP_map,
        List.countP_eq_length_filter]
      refine ⟨rfl, fun c hc ↦ ?_⟩
      obtain ⟨e, he, rfl⟩ := List.mem_map.1 hc
      exact (mem_getParents.1 (List.mem_filter.1 he).1).2
    rw [hchild, List.count_replicate]
    by_cases hkk : k' = k <;> simp [hkk]
  rw [childrenMap, List.count_flatMap]
  rw [List.sum_map_eq_nsmul_single k _ fun k' hne _ ↦ by rw [Function.comp, hself, if_neg hne],
    List.count_eq_one_of_mem hnodes hk, one_nsmul, Function.comp, hself, if_pos rfl]

theorem mem_children_iff_edge (hk : k ∈ nodeKeys) :
    k ∈ sortedBy ArtifactKey.texts (db.childrenMap nodeKeys p) ↔ db.Edge p k := by
  simp only [mem_sortedBy, childrenMap, List.mem_flatMap, List.mem_map, List.mem_filter,
    mem_getParents, decide_eq_true_eq]
  constructor
  · rintro ⟨k', -, e, ⟨⟨he, -⟩, hp⟩, hc⟩
    exact ⟨e, he, hp, hc⟩
  · rintro ⟨e, he, hp, hc⟩
    exact ⟨k, hk, e, ⟨⟨he, hc⟩, hp⟩, hc⟩

theorem mem_of_mem_children (hk : k ∈ sortedBy ArtifactKey.texts (db.childrenMap nodeKeys p)) :
    k ∈ nodeKeys := by
  simp only [mem_sortedBy, childrenMap, List.mem_flatMap, List.mem_map, List.mem_filter,
    mem_getParents] at hk
  obtain ⟨k', hk', e, ⟨⟨-, hchild⟩, -⟩, rfl⟩ := hk
  exact hchild ▸ hk'

theorem sorting_topologicalOrder (db : CatalogDb) (hnodes : nodeKeys.Nodup) :
    Sorting (fun p ↦ sortedBy ArtifactKey.texts (db.childrenMap nodeKeys p)) nodeKeys
      ⟨sortedBy ArtifactKey.texts (nodeKeys.filter (db.inDegree nodeKeys · = 0)), [],
        db.inDegree nodeKeys⟩ := by
  refine sorting_start ((perm_sortedBy _ _).nodup_iff.2 (hnodes.filter _)) (fun k ↦ by simp)
    fun k hk ↦ ?_
  have hcount : ∀ p, (sortedBy ArtifactKey.texts (db.childrenMap nodeKeys p)).count k
      = ((db.getParents k).map EdgeRow.parent).count p := fun p ↦ by
    rw [(perm_sortedBy _ _).count_eq, count_childrenMap hnodes hk]
  simp only [hcount]
  rw [sum_count_eq hnodes, inDegree, List.filter_map, List.length_map]
  rfl

theorem exists_kahn_topologicalOrder (db : CatalogDb) (hnodes : nodeKeys.Nodup) :
    ∃ order, kahn (fun p ↦ sortedBy ArtifactKey.texts (db.childrenMap nodeKeys p))
      (nodeKeys.length + 1)
      ⟨sortedBy ArtifactKey.texts (nodeKeys.filter (db.inDegree nodeKeys · = 0)), [],
        db.inDegree nodeKeys⟩ = some order :=
  (sorting_topologicalOrder db hnodes).exists_kahn hnodes (fun _ _ _ ↦ mem_of_mem_children)
    (Nat.lt_succ_self _)

/-- **The order of the artifacts**: all of them, each once, and parents first. -/
theorem of_topologicalOrder (hnodes : nodeKeys.Nodup)
    (h : db.topologicalOrder nodeKeys = .ok order) :
    order.Nodup ∧ (∀ k ∈ order, k ∈ nodeKeys) ∧
      ∀ pre k post, order = pre ++ k :: post → ∀ p ∈ nodeKeys, db.Edge p k → p ∈ pre := by
  obtain ⟨order', horder'⟩ := exists_kahn_topologicalOrder db hnodes
  rw [topologicalOrder, horder', Option.getD_some] at h
  split at h
  · cases h
  · cases h
    obtain ⟨hnodup, hmem, hsorted⟩ := (sorting_topologicalOrder db hnodes).of_kahn hnodes
      (fun _ _ _ ↦ mem_of_mem_children) horder'
    refine ⟨hnodup, hmem, fun pre k post hsplit p hp hedge ↦ ?_⟩
    have hk : k ∈ nodeKeys := hmem k (by simp [hsplit])
    exact hsorted pre k post hsplit p hp ((mem_children_iff_edge hk).2 hedge)

/-- **On an acyclic catalog the order exists**, and contains all the artifacts. -/
theorem exists_topologicalOrder (hacyclic : Acyclic db.Edge) (hnodes : nodeKeys.Nodup) :
    ∃ order, db.topologicalOrder nodeKeys = .ok order ∧ ∀ k, k ∈ order ↔ k ∈ nodeKeys := by
  have hchildren : ∀ p ∈ nodeKeys, ∀ c ∈ sortedBy ArtifactKey.texts (db.childrenMap nodeKeys p),
      c ∈ nodeKeys := fun _ _ _ ↦ mem_of_mem_children
  have hstart := sorting_topologicalOrder db hnodes
  obtain ⟨order, horder⟩ := exists_kahn_topologicalOrder db hnodes
  obtain ⟨hnodup, hmem, -⟩ := hstart.of_kahn hnodes hchildren horder
  have hall : ∀ k, k ∈ order ↔ k ∈ nodeKeys := by
    intro k
    refine ⟨hmem k, hstart.mem_of_kahn hnodes hchildren (hacyclic.mono fun p c hc ↦ ?_) horder⟩
    exact (mem_children_iff_edge (mem_of_mem_children hc)).1 hc
  have hlength : order.length = nodeKeys.length :=
    ((List.perm_ext_iff_of_nodup hnodup hnodes).2 hall).length_eq
  refine ⟨order, ?_, hall⟩
  rw [topologicalOrder, horder, Option.getD_some]
  exact if_neg (not_not.2 hlength)

/-! ## What a plan contains -/

theorem nodup_nodes (db : CatalogDb) (root : ArtifactKey) (direction : Direction)
    (maxDepth : Option ℕ) : ((db.traverse root direction maxDepth).nodes.map Prod.fst).Nodup := by
  have hkeys : ∀ l : List ArtifactKey, (l.filterMap fun k ↦
      (db.getArtifact k).map fun row ↦ (k, row)).map Prod.fst
        = l.filter fun k ↦ (db.getArtifact k).isSome := by
    intro l
    induction l with
    | nil => rfl
    | cons k l ih => rcases hk : db.getArtifact k with _ | row <;> simp [hk, ih]
  rw [traverse, ((perm_sortedBy _ _).map Prod.fst).nodup_iff, hkeys]
  exact (List.nodup_dedup _).filter _

/-- The steps of a plan for the replacement of an artifact: no artifact is made twice, every step has
a parent that is replaced, and what is replaced at a step are the artifact to replace and the
artifacts of the steps before. -/
structure PlannedSteps (db : CatalogDb) (old : ArtifactKey) (steps : List PlanStep) : Prop where
  nodup : (steps.map PlanStep.artifact).Nodup
  downstream : ∀ step ∈ steps, step.artifact ≠ old ∧ db.Upstream old step.artifact
  shape : ∀ pre step post, steps = pre ++ step :: post →
    step = db.planStep (old :: pre.map PlanStep.artifact) step.artifact ∧
      step.parents.any PlanStepParent.replaced = true
  parentsFirst : ∀ pre step post, steps = pre ++ step :: post → ∀ p, db.Edge p step.artifact →
    p ∈ steps.map PlanStep.artifact → p ∈ pre.map PlanStep.artifact

theorem plannedSteps_nil : db.PlannedSteps old [] where
  nodup := List.nodup_nil
  downstream := List.forall_mem_nil _
  shape := by simp
  parentsFirst := by simp

theorem plannedSteps_foldl (hnodup : order.Nodup) (hmem : ∀ k ∈ order, db.Upstream old k)
    (hsorted : ∀ pre k post, order = pre ++ k :: post → ∀ p ∈ order, db.Edge p k → p ∈ pre) :
    db.PlannedSteps old (order.foldl (db.planNext old) []) := by
  -- the artifacts of the steps so far are among those already gone through
  refine (foldl_invariant (I := fun pre steps ↦ db.PlannedSteps old steps ∧
    ∀ k ∈ steps.map PlanStep.artifact, k ∈ pre) (fun {pre k post steps} horder hI ↦ ?_)
    ⟨plannedSteps_nil, by simp⟩).1
  obtain ⟨hsteps, hpre⟩ := hI
  have hkeep : db.PlannedSteps old steps ∧
      ∀ k' ∈ steps.map PlanStep.artifact, k' ∈ pre ++ [k] :=
    ⟨hsteps, fun k' hk' ↦ List.mem_append_left _ (hpre k' hk')⟩
  simp only [planNext]
  split
  · exact hkeep
  · next hne =>
    split
    · next hany =>
      have hk : k ∉ pre := fun hk ↦ by
        rw [horder] at hnodup
        exact (List.nodup_append.1 hnodup).2.2 k hk k (List.mem_cons_self ..) rfl
      have hkey : (db.planStep (old :: steps.map PlanStep.artifact) k).artifact = k := rfl
      -- an earlier step is no child of this artifact: its parents come before it in the order
      have hparent : ∀ step ∈ steps, ¬ db.Edge k step.artifact := fun step hstep hedge ↦ by
        obtain ⟨pre', post', hsplit⟩ := List.append_of_mem (hpre _ (List.mem_map_of_mem hstep))
        refine hk ?_
        rw [hsplit]
        exact List.mem_append_left _ (hsorted pre' step.artifact (post' ++ k :: post)
          (by simp [horder, hsplit]) k (by simp [horder]) hedge)
      refine ⟨⟨?_, ?_, ?_, ?_⟩, ?_⟩
      · rw [List.map_append, List.map_singleton, hkey]
        exact List.nodup_append.2 ⟨hsteps.nodup, List.nodup_singleton k, fun a ha b hb hab ↦
          hk (List.mem_singleton.1 hb ▸ hab ▸ hpre a ha)⟩
      · intro step hstep
        rcases List.mem_append.1 hstep with hstep | hstep
        · exact hsteps.downstream step hstep
        · rw [List.mem_singleton.1 hstep, hkey]
          exact ⟨hne, hmem k (by simp [horder])⟩
      · intro pre' step post' hsplit
        rcases Interleaving.append_singleton_eq_append_cons hsplit with ⟨rfl, rfl, -⟩ | ⟨post'', -, hold⟩
        · exact ⟨rfl, hany⟩
        · exact hsteps.shape pre' step post'' hold
      · intro pre' step post' hsplit p hedge hp
        rw [List.map_append, List.map_singleton, hkey, List.mem_append, List.mem_singleton] at hp
        rcases Interleaving.append_singleton_eq_append_cons hsplit with ⟨rfl, rfl, -⟩ | ⟨post'', -, hold⟩
        · refine hp.resolve_right ?_
          rintro rfl
          exact hk (hsorted pre p post horder p (by simp [horder]) hedge)
        · refine hsteps.parentsFirst pre' step post'' hold p hedge (hp.resolve_right ?_)
          rintro rfl
          exact hparent step (by simp [hold]) hedge
      · intro k' hk'
        rw [List.map_append, List.map_singleton, hkey] at hk'
        rcases List.mem_append.1 hk' with hk' | hk'
        · exact List.mem_append_left _ (hpre k' hk')
        · exact List.mem_append_right _ hk'
    · exact hkeep

/-- **What `build_plan` returns.** -/
theorem of_buildPlan {sha : Json → String} {plan : RebuildPlan}
    (h : db.buildPlan sha old new = .ok plan) :
    db.checkCompatibility old new = .ok () ∧ plan.old = old ∧ plan.new = new ∧
      db.PlannedSteps old plan.steps := by
  rw [buildPlan] at h
  split at h
  · cases h
  · next hcompatible =>
    split at h
    · cases h
    · next order horder =>
      cases h
      obtain ⟨hnodup, hmem, hsorted⟩ := of_topologicalOrder (nodup_nodes _ _ _ _) horder
      refine ⟨hcompatible, rfl, rfl, plannedSteps_foldl hnodup (fun k hk ↦ ?_)
        fun pre k post hsplit p hp ↦ hsorted pre k post hsplit p (hmem p hp)⟩
      obtain ⟨⟨k', row⟩, hnode, rfl⟩ := List.mem_map.1 (hmem k hk)
      exact (mem_nodes_downstream_iff.1 hnode).2

end CatalogDb

end ForgeData
