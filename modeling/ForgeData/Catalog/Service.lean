import ForgeData.Catalog.Operations
import ForgeData.Catalog.Reproducibility
import ForgeData.Catalog.Versioning

/-!
# The methods of the catalog service

The methods that write the tables, put together from the atomic operations. What they read back for
their responses is kept as far as it decides whether they raise and what they report. The response of
`register_version` is put together after its transaction, by further reads that may raise.
-/

namespace ForgeData

open Python Interleaving

/-- `ACCEPTED_QC_STATUSES`. -/
def acceptedQcStatuses : List String := ["passed", "passed_with_warnings"]

/-- The rows of the governance table for some artifacts, read one after the other. -/
def readGovernance : List ArtifactKey → CatalogProg (List (ArtifactKey × Option GovernanceRow))
  | [] => return []
  | k :: ks => do
    let row ← CatalogOp.perform (.getArtifactGovernance k)
    let rows ← readGovernance ks
    return (k, row) :: rows

/-- `enforce_upstream_gate`, read by read. -/
def readGate (k : ArtifactKey) (allowDeprecated : Bool) : CatalogProg (Except CatalogError Unit) := do
  match ← CatalogOp.perform (.getArtifact k) with
  | none => return .ok ()
  | some _ =>
    let direct ← CatalogOp.perform (.getArtifactGovernance k)
    let ancestors ← CatalogOp.perform (.ancestors k)
    let rows ← readGovernance ancestors
    return gateOf k allowDeprecated (chainOf direct rows)

/-- `CatalogService.set_artifact_governance`: the state after the change is read back. -/
def setArtifactGovernance (k : ArtifactKey) (request : CatalogDb.GovernanceRequest) :
    CatalogProg (Except CatalogError (Option GovernanceRow)) :=
  Prog.andThen (CatalogOp.perform (.changeGovernance k request)) fun () ↦ do
    match ← CatalogOp.perform (.getArtifact k) with
    | none => return .error (.artifactNotFound
        s!"No {k.artifactType.text} artifact with id '{k.artifactId}'")
    | some _ => return .ok (← CatalogOp.perform (.getArtifactGovernance k))

theorem performs_setArtifactGovernance (k : ArtifactKey) (request : CatalogDb.GovernanceRequest) :
    (setArtifactGovernance k request).Performs fun o ↦ o = .changeGovernance k request ∨
      o = .getArtifact k ∨ o = .getArtifactGovernance k := by
  refine ⟨.inl rfl, fun changed ↦ ?_⟩
  rcases changed with e | _
  · trivial
  · refine ⟨.inr (.inl rfl), fun row ↦ ?_⟩
    cases row
    · trivial
    · exact ⟨.inr (.inr rfl), fun _ ↦ trivial⟩

/-- `CatalogService.create_dataset`: whether this call created the dataset. -/
def createDataset (datasetName : String) (description : Option String) (metadata : Json) :
    CatalogProg (Except CatalogError Bool) :=
  match validateDatasetName datasetName with
  | .error e => return .error e
  | .ok () => CatalogOp.perform (.createDataset datasetName description metadata)

/-- What a call of `register_version` carries. -/
structure RegisterRequest where
  datasetName : String
  version : String
  packageId : String
  description : Option String
  tags : List String
  allowDeprecated : Bool
  deriving DecidableEq, Repr

/-- `register_version` up to the end of its transaction: whether this call created the version. -/
def commitVersion (request : RegisterRequest) : CatalogProg (Except CatalogError Bool) := do
  match ← CatalogOp.perform (.getDataset request.datasetName) with
  | none => return .error (.datasetNotFound request.datasetName)
  | some _ =>
    match validateSemver request.version with
    | .error e => return .error e
    | .ok _ =>
      match ← CatalogOp.perform (.getArtifact (packageKey request.packageId)) with
      | none => return .error (.packageNotFound request.packageId)
      | some row =>
        if row.status = some "completed" ∧
            (row.metadata.getStr? "source_qc_status").getD "" ∈ acceptedQcStatuses then
          Prog.andThen (readGate (packageKey request.packageId) request.allowDeprecated) fun () ↦
            CatalogOp.perform (.createDatasetVersion (request.datasetName, request.version)
              request.packageId request.description request.tags)
        else return .error (.packageNotAccepted request.packageId)

/-! ## The response of a registration -/

/-- `_collect_reproducibility_data`, read by read. -/
def readReproducibilityData (packageId : String) :
    CatalogProg (Except CatalogError ReproducibilityData) := do
  match ← CatalogOp.perform (.getArtifact (packageKey packageId)) with
  | none => return .error (.packageNotFound packageId)
  | some package =>
    let nodes ← CatalogOp.perform (.upstream (packageKey packageId))
    return (reproducibilityData package.metadata (manifestsOf nodes)).elim (.error (.unreadable "")) .ok

/-- The fingerprint in a response, if the package was there when the response began. -/
def readFingerprint (sha : Json → String) (packageId : String) :
    Option ArtifactRow → CatalogProg (Except CatalogError (Option String))
  | none => return .ok none
  | some _ => Prog.andThen (readReproducibilityData packageId) fun data ↦
      return .ok (some (sha data.fingerprintPayload.canonical))

/-- `compute_effective_version_status`, read by read. -/
def readEffectiveStatus (k : String × String) (packageId : String) : CatalogProg EffectiveStatus := do
  match ← CatalogOp.perform (.getDatasetVersionGovernance k) with
  | some gov => return ⟨.explicit gov.state, some gov.reason, some "explicit"⟩
  | none =>
    let direct ← CatalogOp.perform (.getArtifactGovernance (packageKey packageId))
    let ancestors ← CatalogOp.perform (.ancestors (packageKey packageId))
    let rows ← readGovernance ancestors
    return derivedStatus packageId (chainOf direct rows)

/-- `DatasetVersionResponse`. -/
structure DatasetVersionResponse where
  datasetName : String
  version : String
  packageId : String
  description : Option String
  tags : List String
  status : String
  createdAt : String
  packageStatus : Option String
  sourceQcStatus : Option String
  lineageFingerprint : Option String
  effectiveStatus : String
  effectiveStatusReason : Option String
  deriving DecidableEq

/-- `package_metadata.get("source_qc_status")`, which a response takes if it is a text or null. -/
def sourceQcStatus : Option ArtifactRow → Except CatalogError (Option String)
  | none => .ok none
  | some package =>
    match isObject package.metadata, recorded package.metadata "source_qc_status" with
    | true, .null => .ok none
    | true, .str s => .ok (some s)
    | _, _ => .error (.unreadable "")

/-- The end of `_to_version_response`. -/
def versionResponse (k : String × String) (row : VersionRow) (package : Option ArtifactRow)
    (fingerprint : Option String) (effective : EffectiveStatus) :
    Except CatalogError DatasetVersionResponse := do
  let sourceQcStatus ← sourceQcStatus package
  return {
    datasetName := k.1
    version := k.2
    packageId := row.packageId
    description := row.description
    tags := row.tags
    status := row.status
    createdAt := row.createdAt
    packageStatus := package.bind ArtifactRow.status
    sourceQcStatus
    lineageFingerprint := fingerprint
    effectiveStatus := effective.status.text
    effectiveStatusReason := effective.reason }

/-- `_to_version_response`. -/
def toVersionResponse (sha : Json → String) (k : String × String) (row : VersionRow) :
    CatalogProg (Except CatalogError DatasetVersionResponse) := do
  let package ← CatalogOp.perform (.getArtifact (packageKey row.packageId))
  Prog.andThen (readFingerprint sha row.packageId package) fun fingerprint ↦ do
    let effective ← readEffectiveStatus k row.packageId
    return versionResponse k row package fingerprint effective

/-- What `register_version` does after its transaction: the row of the version is read back. -/
def respondVersion (sha : Json → String) (k : String × String) (created : Bool) :
    CatalogProg (Except CatalogError (DatasetVersionResponse × Bool)) := do
  match ← CatalogOp.perform (.getDatasetVersion k) with
  | none => return .error (.otherException "'NoneType' object is not subscriptable")
  | some row => Prog.andThen (toVersionResponse sha k row) fun response ↦ return .ok (response, created)

/-- `CatalogService.register_version`: the response and whether this call created the version. -/
def registerVersion (sha : Json → String) (request : RegisterRequest) :
    CatalogProg (Except CatalogError (DatasetVersionResponse × Bool)) :=
  Prog.andThen (commitVersion request) fun created ↦
    respondVersion sha (request.datasetName, request.version) created

/-! ## Rebuilds -/

/-- The numbers of rows of some tables, counted one after the other. -/
def countRows : List UserTable → CatalogProg (List ℕ)
  | [] => return []
  | table :: tables => do
    let n ← CatalogOp.perform (.count table)
    let ns ← countRows tables
    return n :: ns

/-- The tables of `count_run_tables`. -/
def runTables : List UserTable := [.pipelineRuns, .pipelineStageRuns, .runArtifacts, .runEvents]

/-- The end of `CatalogService.rebuild`, after its transaction: the tables are counted again. -/
def assertPreserved (datasetsBefore versionsBefore artifactGovernanceBefore versionGovernanceBefore : ℕ)
    (runTablesBefore : List ℕ) (outcome : ScanOutcome) :
    CatalogProg (Except CatalogError ScanOutcome) := do
  let datasetsAfter ← CatalogOp.perform (.count .datasets)
  let versionsAfter ← CatalogOp.perform (.count .datasetVersions)
  if datasetsAfter ≠ datasetsBefore ∨ versionsAfter ≠ versionsBefore then
    return .error (.assertionError "rebuild must never alter dataset/version tables")
  else do
    let artifactGovernanceAfter ← CatalogOp.perform (.count .artifactGovernance)
    let versionGovernanceAfter ← CatalogOp.perform (.count .versionGovernance)
    if artifactGovernanceAfter ≠ artifactGovernanceBefore then
      return .error (.assertionError "rebuild must never alter artifact governance")
    else if versionGovernanceAfter ≠ versionGovernanceBefore then
      return .error (.assertionError "rebuild must never alter dataset-version governance")
    else do
      let runTablesAfter ← countRows runTables
      if runTablesAfter ≠ runTablesBefore then
        return .error (.assertionError "rebuild must never alter run metadata")
      else return .ok outcome

/-- `CatalogService.rebuild`: the user-owned tables are counted before and after. -/
def rebuild : CatalogProg (Except CatalogError ScanOutcome) := do
  let datasetsBefore ← CatalogOp.perform (.count .datasets)
  let versionsBefore ← CatalogOp.perform (.count .datasetVersions)
  let artifactGovernanceBefore ← CatalogOp.perform (.count .artifactGovernance)
  let versionGovernanceBefore ← CatalogOp.perform (.count .versionGovernance)
  let runTablesBefore ← countRows runTables
  Prog.andThen (CatalogOp.perform .acquireIndexLock) fun () ↦ do
    let result ← CatalogOp.perform .rebuildIndex
    CatalogOp.perform .releaseIndexLock
    match result with
    | .error e => return .error e
    | .ok outcome =>
      assertPreserved datasetsBefore versionsBefore artifactGovernanceBefore versionGovernanceBefore
        runTablesBefore outcome

end ForgeData
