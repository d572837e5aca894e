import ForgeData.Catalog.Manifests
import ForgeData.Catalog.RebuildPlanner

/-!
# Reconstructing the requests of a rebuild

What a step of a selective rebuild hands to its stage service is put together from the manifest of the
old artifact, the parents of the step, and the configuration that the caller supplies for it. The
manifest of a synchronization holds its whole request; of the other stages only the policy or profile
is recorded. Every access to the manifest may raise.
-/

namespace ForgeData

open Python

/-- What the stage services are called with. -/
inductive StageRequest where
  /-- The streams with their names and normalizations, the reference, the alignment and the clock
  corrections. -/
  | synchronize (streams : List (Json × String)) (reference alignment clockCorrections : Json)
  | clean (synchronizationId : String) (policyName policyVersion config : Json)
  | transform (cleaningId : String) (profileName profileVersion config : Json)
  | runQc (transformationId : String) (profileName profileVersion config : Json)
  | package (transformationId qcId : String) (profileName profileVersion config : Json)
  deriving DecidableEq

/-- The artifacts that the stage service reads. -/
def StageRequest.inputs : StageRequest → List ArtifactKey
  | synchronize streams .. => streams.map fun stream ↦ ⟨.normalization, stream.2⟩
  | clean synchronizationId .. => [⟨.synchronization, synchronizationId⟩]
  | transform cleaningId .. => [⟨.cleaning, cleaningId⟩]
  | runQc transformationId .. => [⟨.transformation, transformationId⟩]
  | package transformationId qcId .. => [⟨.transformation, transformationId⟩, ⟨.qc, qcId⟩]

/-! ## Access to a manifest -/

/-- `data[field]`. -/
def item (data : Json) (field : String) : Except CatalogError Json :=
  match data with
  | .obj fields =>
    match fields.lookup field with
    | some value => .ok value
    | none => .error (.otherException s!"'{field}'")
  | .arr _ => .error (.otherException "list indices must be integers or slices, not str")
  | .str _ => .error (.otherException "string indices must be integers, not 'str'")
  | .null => .error (.otherException "'NoneType' object is not subscriptable")
  | .bool _ => .error (.otherException "'bool' object is not subscriptable")
  | .int _ => .error (.otherException "'int' object is not subscriptable")
  | .real _ => .error (.otherException "'float' object is not subscriptable")

/-- The values that `for .. in data` takes. -/
def entries (data : Json) : Except CatalogError (List Json) :=
  match data with
  | .arr l => .ok l
  | .obj fields => .ok (fields.map fun p ↦ .str p.1)
  | .str s => .ok (s.toList.map fun c ↦ .str (String.singleton c))
  | .null => .error (.otherException "'NoneType' object is not iterable")
  | .bool _ => .error (.otherException "'bool' object is not iterable")
  | .int _ => .error (.otherException "'int' object is not iterable")
  | .real _ => .error (.otherException "'float' object is not iterable")

/-! ## The requests -/

/-- `_resolve_parent_id`. -/
def resolveParentId (resolved : Dict ArtifactKey String) (parent : PlanStepParent) :
    Except CatalogError String :=
  if parent.replaced then
    match resolved.get? parent.artifact with
    | some id => .ok id
    | none => .error (.otherException
        s!"('{parent.artifact.artifactType.text}', '{parent.artifact.artifactId}')")
  else .ok parent.artifact.artifactId

/-- `next(p for p in step.parents if p.artifact_type == ..)`; `StopIteration` has no text. -/
def nextParent (step : PlanStep) (type : ArtifactType) : Except CatalogError PlanStepParent :=
  match step.parents.find? (·.artifact.artifactType = type) with
  | some parent => .ok parent
  | none => .error (.otherException "")

/-- `_require_config`. -/
def requireConfig (step : PlanStep) (rawConfig : Option Json) : Except CatalogError Json :=
  match rawConfig with
  | some config => .ok config
  | none => .error (.rebuildConfigUnavailable step.artifact
      "no config override was supplied for a manual_configuration_required step")

/-- `parent_by_original_id`. -/
def parentByOriginalId (step : PlanStep) : Dict String PlanStepParent :=
  Dict.ofPairs ((step.parents.filter (·.artifact.artifactType = .normalization)).map fun p ↦
    (p.artifact.artifactId, p))

/-- One stream of a synchronization, from its entry in the manifest. -/
def streamRequest (parents : Dict String PlanStepParent) (resolved : Dict ArtifactKey String)
    (s : Json) : Except CatalogError (Json × String) := do
  match ← item s "normalization_id" with
  | .str id =>
    let normalizationId ← match parents.get? id with
      | some parent => resolveParentId resolved parent
      | none => .ok id
    let name ← item s "name"
    return (name, normalizationId)
  | _ => .error (.otherException "normalization_id: Input should be a valid string")

/-- The request of `_execute_synchronization`. -/
def synchronizationRequest (step : PlanStep) (resolved : Dict ArtifactKey String)
    (manifest : Json) : Except CatalogError StageRequest := do
  let entries ← entries (← item manifest "streams")
  let streams ← entries.mapM (streamRequest (parentByOriginalId step) resolved)
  let reference ← item manifest "reference"
  let alignment ← item manifest "alignment_config"
  return .synchronize streams reference alignment
    (((manifest.get? "clock_corrections").filter (!falsy ·)).getD (.obj []))

/-- What the requests with one input have in common: the first parent of the kind, the configuration,
and the name and version that the manifest records under a field. -/
def oneInputRequest (type : ArtifactType) (field : String)
    (make : String → Json → Json → Json → StageRequest) (step : PlanStep)
    (resolved : Dict ArtifactKey String) (manifest : Json) (rawConfig : Option Json) :
    Except CatalogError StageRequest := do
  let parent ← nextParent step type
  let id ← resolveParentId resolved parent
  let config ← requireConfig step rawConfig
  let name ← item (← item manifest field) "name"
  let version ← item (← item manifest field) "version"
  return make id name version config

/-- The request of `_execute_cleaning`. -/
def cleaningRequest := oneInputRequest .synchronization "policy" .clean

/-- The request of `_execute_transformation`. -/
def transformationRequest := oneInputRequest .cleaning "profile" .transform

/-- The request of `_execute_qc`. -/
def qcRequest := oneInputRequest .transformation "profile" .runQc

/-- The request of `_execute_packaging`. -/
def packagingRequest (step : PlanStep) (resolved : Dict ArtifactKey String) (manifest : Json)
    (rawConfig : Option Json) : Except CatalogError StageRequest := do
  let transformationParent ← nextParent step .transformation
  let qcParent ← nextParent step .qc
  let transformationId ← resolveParentId resolved transformationParent
  let qcId ← resolveParentId resolved qcParent
  let config ← requireConfig step rawConfig
  let name ← item (← item manifest "profile") "name"
  let version ← item (← item manifest "profile") "version"
  return .package transformationId qcId name version config

/-- The request of `_execute_step`, of a stage that has one. -/
def stageRequest (step : PlanStep) (resolved : Dict ArtifactKey String) (manifest : Json)
    (rawConfig : Option Json) : Except CatalogError StageRequest :=
  match step.artifact.artifactType with
  | .synchronization => synchronizationRequest step resolved manifest
  | .cleaning => cleaningRequest step resolved manifest rawConfig
  | .transformation => transformationRequest step resolved manifest rawConfig
  | .qc => qcRequest step resolved manifest rawConfig
  | .package => packagingRequest step resolved manifest rawConfig
  | type => .error (.rebuildConfigUnavailable step.artifact
      s!"no rebuild executor is defined for stage '{type.text}'")

end ForgeData
