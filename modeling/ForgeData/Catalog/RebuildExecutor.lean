import ForgeData.Catalog.Operations

/-!
# Executing a selective rebuild

The executor goes through the steps of a plan once, in their order. A step is skipped if one of its
parents that had to be made again was not, or if its configuration is missing. Otherwise its stage
service is called, and the old artifact is marked as superseded by the new one. Whatever goes wrong in a
step is recorded, and the loop goes on.

The new id is stored and reported before the supersession is written. If the write fails the step is
reported a second time, as failed, and counts as not made.
-/

namespace ForgeData

open Python Interleaving

/-- The values of `status` in the results. -/
inductive RebuildStatus where
  | rebuilt
  | skippedManualConfigurationRequired
  | skippedUpstreamNotRebuilt
  | failed
  deriving DecidableEq, Repr

structure RebuildStepResult where
  artifact : ArtifactKey
  newArtifactId : Option String
  status : RebuildStatus
  detail : Option String
  deriving DecidableEq, Repr

structure SupersessionRecord where
  old : ArtifactKey
  new : ArtifactKey
  deriving DecidableEq, Repr

/-- The variables of `execute`. -/
structure ExecutorState where
  resolved : Dict ArtifactKey String
  unavailable : List ArtifactKey
  results : List RebuildStepResult
  superseded : List SupersessionRecord

namespace ExecutorState

variable (st : ExecutorState) (step : PlanStep)

/-- A step that has not produced its artifact. -/
def withhold (status : RebuildStatus) (detail : Option String) : ExecutorState :=
  { st with
    unavailable := step.artifact :: st.unavailable
    results := st.results ++ [⟨step.artifact, none, status, detail⟩] }

/-- The stage service has returned a new id. -/
def rebuilt (newId : String) : ExecutorState :=
  { st with
    resolved := st.resolved.set step.artifact newId
    results := st.results ++ [⟨step.artifact, some newId, .rebuilt, none⟩] }

/-- The supersession has been written. -/
def supersede (newId : String) : ExecutorState :=
  { st with
    superseded := st.superseded ++ [⟨step.artifact, ⟨step.artifact.artifactType, newId⟩⟩] }

/-- The handler of exceptions. -/
def fail (e : CatalogError) : ExecutorState := st.withhold step .failed (some e.message)

/-- `blocking_parent`. -/
def blockingParent : Option PlanStepParent :=
  step.parents.find? fun p ↦ p.replaced && p.artifact ∈ st.unavailable

end ExecutorState

/-- `_execute_step` up to the call of the stage service: the request. -/
def readRequest (step : PlanStep) (resolved : Dict ArtifactKey String) (rawConfig : Option Json) :
    CatalogProg (Except CatalogError StageRequest) :=
  if step.artifact.artifactType ∈ executableStageTypes then do
    let row ← CatalogOp.perform (.getArtifact step.artifact)
    return stageRequest step resolved ((row.map ArtifactRow.metadata).getD (.obj [])) rawConfig
  else return stageRequest step resolved .null rawConfig

/-- `_execute_step`. -/
def runStep (step : PlanStep) (resolved : Dict ArtifactKey String) (rawConfig : Option Json) :
    CatalogProg (Except CatalogError String) :=
  (readRequest step resolved rawConfig).andThen fun request ↦
    CatalogOp.perform (.runStage step.artifact request)

/-- `_mark_superseded`. -/
def markSuperseded (k : ArtifactKey) (newId : String) : CatalogProg (Except CatalogError Unit) := do
  let current ← CatalogOp.perform (.getArtifactGovernance k)
  CatalogOp.perform (.markSuperseded k (current.elim .active GovernanceRow.state) newId)

/-- The body of the loop of `execute`. -/
def executeStep (configs : Dict String Json) (st : ExecutorState) (step : PlanStep) :
    CatalogProg ExecutorState :=
  match st.blockingParent step with
  | some parent =>
    return st.withhold step .skippedUpstreamNotRebuilt
      (some s!"parent {parent.artifact.text} was never rebuilt")
  | none =>
    if step.manualConfigurationRequired && !configs.contains step.artifact.text then
      return st.withhold step .skippedManualConfigurationRequired step.infeasibleReason
    else do
      match ← runStep step st.resolved (configs.get? step.artifact.text) with
      | .error e => return st.fail step e
      | .ok newId =>
        match ← markSuperseded step.artifact newId with
        | .error e => return (st.rebuilt step newId).fail step e
        | .ok () => return (st.rebuilt step newId).supersede step newId

/-- The variables before the loop. -/
def ExecutorState.start (plan : RebuildPlan) : ExecutorState where
  resolved := Dict.empty.set plan.old plan.new.artifactId
  unavailable := []
  results := []
  superseded := []

/-- `SelectiveRebuildExecutor.execute`. -/
def RebuildPlan.execute (plan : RebuildPlan) (configs : Dict String Json) :
    CatalogProg (List RebuildStepResult × List SupersessionRecord) := do
  let st ← plan.steps.foldlM (executeStep configs) (ExecutorState.start plan)
  return (st.results, st.superseded)

/-- `CatalogService.execute_rebuild`, of a service that has settings. -/
def executeRebuild (planId : String) (configs : Dict String Json) :
    CatalogProg (Except CatalogError (List RebuildStepResult × List SupersessionRecord)) := do
  match ← CatalogOp.perform (.getPlan planId) with
  | none => return .error (.rebuildPlanNotFound planId)
  | some plan =>
    match ← CatalogOp.perform (.buildPlan plan.old plan.new) with
    | .error e => return .error e
    | .ok current =>
      if current.fingerprint ≠ plan.fingerprint then return .error (.rebuildPlanStale planId)
      else match ← CatalogOp.perform (.acquireRebuildLock plan.old) with
      | .error .catalogRebuildInProgress => return .error (.selectiveRebuildInProgress plan.old)
      | .error e => return .error e
      | .ok () => do
        let results ← plan.execute configs
        CatalogOp.perform (.releaseRebuildLock plan.old)
        CatalogOp.perform (.discardPlan planId)
        return .ok results

/-! ## A recording with two normalizations -/

/-- A manifest as a stage commits it. -/
def committedManifest (stage id : String) (fields : List (String × Json)) : ManifestFile :=
  ⟨[stage, id, "manifest.json"], id, some (.obj fields)⟩

/-- The manifests of a recording that was normalized twice, and synchronized from `n1`. -/
def recordingFiles : Files
  | .ingestion => [committedManifest "raw" "g1"
      [("ingestion_id", .str "g1"), ("session_id", .str "walk")]]
  | .validation => [committedManifest "validated" "v1"
      [("validation_id", .str "v1"), ("ingestion_id", .str "g1")]]
  | .integrity => [committedManifest "integrity" "i1"
      [("integrity_id", .str "i1"), ("validation_id", .str "v1")]]
  | .normalization => ["n1", "n2"].map fun id ↦ committedManifest "normalized" id
      [("normalization_id", .str id), ("integrity_id", .str "i1")]
  | .synchronization => [committedManifest "synchronized" "s1"
      [("synchronization_id", .str "s1"),
        ("streams", .arr [.obj [("name", .str "imu"), ("normalization_id", .str "n1"),
          ("session_id", .str "walk")]]),
        ("reference", .obj [("mode", .str "stream"), ("stream", .str "imu")]),
        ("alignment_config", .obj [("default_method", .str "nearest")])]]
  | _ => []

/-- An input where the stage services make the artifact `s2`. -/
def servingInput : CatalogInput :=
  { quietCatalogInput with fresh := "plan1", files := recordingFiles, outcome := fun _ _ ↦ .ok "s2" }

/-- The catalog after a scan of the recording. -/
def recordedState : CatalogState := (CatalogOp.scan.run (fun _ ↦ "") servingInput .empty).2

/-- The plan that replaces the normalization `n1` by `n2`. -/
def resynchronize : RebuildPlan where
  old := ⟨.normalization, "n1"⟩
  new := ⟨.normalization, "n2"⟩
  steps := [⟨⟨.synchronization, "s1"⟩,
    [⟨⟨.normalization, "n1"⟩, none, .synchronizedFrom, true⟩], true, false, none⟩]
  fingerprint := ""

example : recordedState.db.buildPlan (fun _ ↦ "") ⟨.normalization, "n1"⟩ ⟨.normalization, "n2"⟩ =
    .ok resynchronize := by decide +kernel

end ForgeData
