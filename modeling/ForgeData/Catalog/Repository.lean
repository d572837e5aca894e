import ForgeData.Catalog.Errors
import ForgeData.Python.Dict

/-!
# The catalog tables

Rows are kept in dictionaries under their primary keys, in insertion order. That an edge is stored
once and joins registered artifacts, and that a version belongs to a dataset, are constraints of the
schema; they are fields here, so a catalog that breaks them cannot be built. Governance rows name
artifacts without a foreign key: they outlive the artifacts.

Every function here is the body of a method of `CatalogRepository`.
-/

namespace ForgeData

open Python

/-- `GovernanceState`, with the names of its members. -/
inductive GovernanceState where
  | active
  | deprecated
  | invalid
  deriving DecidableEq, Repr

/-- The value of the enumeration member. -/
def GovernanceState.text : GovernanceState → String
  | active => "active"
  | deprecated => "deprecated"
  | invalid => "invalid"

/-- A row of `artifact_governance`. -/
structure GovernanceRow where
  state : GovernanceState
  reason : String
  actor : Option String
  supersededByType : Option String
  supersededById : Option String
  updatedAt : String
  deriving DecidableEq, Repr

/-- A row of `artifact_governance_events`. The row's columns after the transition are those of the
governance row that it wrote. -/
structure GovernanceEvent where
  artifact : ArtifactKey
  previousState : GovernanceState
  row : GovernanceRow
  deriving DecidableEq, Repr

/-- What a scan finds wrong with an artifact. -/
structure ScanIssue where
  artifact : ArtifactKey
  issueCode : String
  detail : String
  deriving DecidableEq, Repr

/-- A row of `lineage_issues`. -/
structure IssueRow where
  issue : ScanIssue
  detectedAt : String
  deriving DecidableEq, Repr

/-- A row of `datasets`. -/
structure DatasetRow where
  description : Option String
  metadata : Json
  createdAt : String
  deriving DecidableEq

/-- A row of `dataset_versions`. -/
structure VersionRow where
  packageId : String
  description : Option String
  tags : List String
  status : String
  createdAt : String
  deriving DecidableEq, Repr

/-- A row of `dataset_version_governance`. -/
structure VersionGovernanceRow where
  state : GovernanceState
  reason : String
  actor : Option String
  updatedAt : String
  deriving DecidableEq, Repr

/-- A row of `dataset_version_governance_events`. -/
structure VersionGovernanceEvent where
  version : String × String
  previousState : GovernanceState
  row : VersionGovernanceRow
  deriving DecidableEq, Repr

/-- The catalog tables. A dataset version is named by its dataset and its version string. -/
structure CatalogDb where
  artifacts : Dict ArtifactKey ArtifactRow
  lineageEdges : List EdgeRow
  lineageIssues : List IssueRow
  datasets : Dict String DatasetRow
  datasetVersions : Dict (String × String) VersionRow
  artifactGovernance : Dict ArtifactKey GovernanceRow
  artifactGovernanceEvents : List GovernanceEvent
  versionGovernance : Dict (String × String) VersionGovernanceRow
  versionGovernanceEvents : List VersionGovernanceEvent
  metadata : Dict String String
  /-- No edge is stored twice. -/
  edges_nodup : lineageEdges.Nodup
  /-- Edges join registered artifacts. -/
  edges_registered : ∀ e ∈ lineageEdges, e.parent ∈ artifacts.keys ∧ e.child ∈ artifacts.keys
  /-- Versions belong to datasets. -/
  versions_registered : ∀ k ∈ datasetVersions.keys, k.1 ∈ datasets.keys
  /-- Governance rows of versions belong to versions. -/
  governed_registered : ∀ k ∈ versionGovernance.keys, k ∈ datasetVersions.keys

namespace CatalogDb

/-- The catalog without rows. -/
def empty : CatalogDb where
  artifacts := Dict.empty
  lineageEdges := []
  lineageIssues := []
  datasets := Dict.empty
  datasetVersions := Dict.empty
  artifactGovernance := Dict.empty
  artifactGovernanceEvents := []
  versionGovernance := Dict.empty
  versionGovernanceEvents := []
  metadata := Dict.empty
  edges_nodup := List.nodup_nil
  edges_registered := List.forall_mem_nil _
  versions_registered := List.forall_mem_nil _
  governed_registered := List.forall_mem_nil _

variable (db : CatalogDb)

/-! ## Artifacts -/

/-- `get_artifact`. -/
def getArtifact (k : ArtifactKey) : Option ArtifactRow := db.artifacts.get? k

/-- The artifact has a row. -/
def Registered (k : ArtifactKey) : Prop := k ∈ db.artifacts.keys

instance (k : ArtifactKey) : Decidable (db.Registered k) :=
  inferInstanceAs (Decidable (k ∈ db.artifacts.keys))

/-- `_CONFLICT_FIELDS`, each with whether two rows agree on it. -/
def conflictFields (existing record : ArtifactRow) : List (String × Bool) :=
  [("content_sha256", existing.contentSha256 = record.contentSha256),
    ("manifest_uri", existing.manifestUri = record.manifestUri),
    ("manifest_sha256", existing.manifestSha256 = record.manifestSha256),
    ("storage_uri", existing.storageUri = record.storageUri),
    ("metadata_json", existing.metadata = record.metadata)]

/-- `upsert_artifact`: whether the row was inserted, and the catalog then. -/
def upsertArtifact (k : ArtifactKey) (record : ArtifactRow) :
    Except CatalogError (Bool × CatalogDb) :=
  match db.getArtifact k with
  | none => .ok (true, { db with
      artifacts := db.artifacts.set k record
      edges_registered := fun e he ↦ by
        rw [Dict.keys_set]
        obtain ⟨hp, hc⟩ := db.edges_registered e he
        split
        · exact ⟨hp, hc⟩
        · exact ⟨List.mem_append_left _ hp, List.mem_append_left _ hc⟩ })
  | some existing =>
    match (conflictFields existing record).find? fun p ↦ !p.2 with
    | some p => .error (.artifactRegistryConflict k p.1)
    | none => .ok (false, db)

/-- `clear_artifact_index`. -/
def clearArtifactIndex : CatalogDb :=
  { db with
    artifacts := Dict.empty
    lineageEdges := []
    lineageIssues := []
    edges_nodup := List.nodup_nil
    edges_registered := List.forall_mem_nil _ }

/-! ## Lineage edges -/

/-- `insert_edge`: whether the edge was inserted, and the catalog then. -/
def insertEdge (e : EdgeRow) : Except CatalogError (Bool × CatalogDb) :=
  if hmem : e ∈ db.lineageEdges then .ok (false, db)
  else if hreg : db.Registered e.parent ∧ db.Registered e.child then
    .ok (true, { db with
      lineageEdges := db.lineageEdges ++ [e]
      edges_nodup := by
        refine List.nodup_append.2 ⟨db.edges_nodup, List.nodup_singleton e, fun a ha b hb hab ↦ ?_⟩
        rw [List.mem_singleton.1 hb] at hab
        exact hmem (hab ▸ ha)
      edges_registered := fun e' he' ↦ by
        rcases List.mem_append.1 he' with he' | he'
        · exact db.edges_registered e' he'
        · rw [List.mem_singleton.1 he']
          exact hreg })
  else .error .integrityError

/-- `get_parents`: the edges into an artifact. -/
def getParents (k : ArtifactKey) : List EdgeRow :=
  sortedBy EdgeRow.byParent (db.lineageEdges.filter (·.child = k))

/-- `get_children`: the edges out of an artifact. -/
def getChildren (k : ArtifactKey) : List EdgeRow :=
  sortedBy EdgeRow.byChild (db.lineageEdges.filter (·.parent = k))

/-- `record_issue`. -/
def recordIssue (issue : IssueRow) : CatalogDb :=
  { db with lineageIssues := db.lineageIssues ++ [issue] }

/-! ## Datasets -/

/-- `create_dataset`: whether this call created the dataset, and the catalog then. -/
def createDataset (datasetName : String) (row : DatasetRow) : Bool × CatalogDb :=
  match db.datasets.get? datasetName with
  | some _ => (false, db)
  | none => (true, { db with
      datasets := db.datasets.set datasetName row
      versions_registered := fun k hk ↦ by
        rw [Dict.keys_set]
        have hold := db.versions_registered k hk
        split
        · exact hold
        · exact List.mem_append_left _ hold })

/-- `get_dataset_version`. -/
def getDatasetVersion (k : String × String) : Option VersionRow := db.datasetVersions.get? k

/-- `create_dataset_version`: whether this call created the version, and the catalog then. -/
def createDatasetVersion (k : String × String) (row : VersionRow) :
    Except CatalogError (Bool × CatalogDb) :=
  match db.getDatasetVersion k with
  | some existing =>
    if existing.packageId = row.packageId then .ok (false, db)
    else .error (.datasetVersionImmutable k.1 k.2 existing.packageId row.packageId)
  | none =>
    if hk : k.1 ∈ db.datasets.keys then
      .ok (true, { db with
        datasetVersions := db.datasetVersions.set k row
        versions_registered := fun k' hk' ↦ by
          rw [Dict.keys_set] at hk'
          split at hk'
          · exact db.versions_registered k' hk'
          · rcases List.mem_append.1 hk' with hk' | hk'
            · exact db.versions_registered k' hk'
            · rwa [List.mem_singleton.1 hk']
        governed_registered := fun k' hk' ↦ by
          rw [Dict.keys_set]
          have hold := db.governed_registered k' hk'
          split
          · exact hold
          · exact List.mem_append_left _ hold })
    else .error .integrityError

/-- `list_dataset_versions`: the versions of a dataset with their rows, in the order of the version
strings. -/
def listDatasetVersions (datasetName : String) : List ((String × String) × VersionRow) :=
  sortedBy (·.1.2) (db.datasetVersions.items.filter (·.1.1 = datasetName))

/-- `list_dataset_versions_for_packages`. -/
def listDatasetVersionsForPackages (packageIds : List String) :
    List ((String × String) × VersionRow) :=
  sortedBy (fun v ↦ toLex v.1) (db.datasetVersions.items.filter (·.2.packageId ∈ packageIds))

/-! ## Governance -/

/-- `get_artifact_governance`. -/
def getArtifactGovernance (k : ArtifactKey) : Option GovernanceRow := db.artifactGovernance.get? k

/-- The governance state of an artifact: no row means active. -/
def governanceState (k : ArtifactKey) : GovernanceState :=
  (db.getArtifactGovernance k).elim .active GovernanceRow.state

/-- `set_artifact_governance`: the row is written, or deleted if the new state is active, and the
transition is recorded. -/
def setArtifactGovernance (k : ArtifactKey) (previousState : GovernanceState) (row : GovernanceRow) :
    CatalogDb :=
  { db with
    artifactGovernance :=
      if row.state = .active then db.artifactGovernance.erase k else db.artifactGovernance.set k row
    artifactGovernanceEvents := db.artifactGovernanceEvents ++ [⟨k, previousState, row⟩] }

/-- `list_artifact_governance_events`. -/
def listArtifactGovernanceEvents (k : ArtifactKey) : List GovernanceEvent :=
  db.artifactGovernanceEvents.filter (·.artifact = k)

/-- `get_dataset_version_governance`. -/
def getDatasetVersionGovernance (k : String × String) : Option VersionGovernanceRow :=
  db.versionGovernance.get? k

/-- `set_dataset_version_governance`, of a version that has a row. -/
def setDatasetVersionGovernance (k : String × String) (previousState : GovernanceState)
    (row : VersionGovernanceRow) (hk : k ∈ db.datasetVersions.keys) : CatalogDb :=
  { db with
    versionGovernance :=
      if row.state = .active then db.versionGovernance.erase k else db.versionGovernance.set k row
    versionGovernanceEvents := db.versionGovernanceEvents ++ [⟨k, previousState, row⟩]
    governed_registered := fun k' hk' ↦ by
      split at hk'
      · obtain ⟨v, hv⟩ := Dict.mem_keys_iff.1 hk'
        rw [Dict.get?_erase] at hv
        split at hv
        · cases hv
        · exact db.governed_registered k' (Dict.mem_keys_iff.2 ⟨v, hv⟩)
      · rw [Dict.keys_set] at hk'
        split at hk'
        · exact db.governed_registered k' hk'
        · rcases List.mem_append.1 hk' with hk' | hk'
          · exact db.governed_registered k' hk'
          · rwa [List.mem_singleton.1 hk'] }

/-- `set_metadata`. -/
def setMetadata (key value : String) : CatalogDb :=
  { db with metadata := db.metadata.set key value }

end CatalogDb

end ForgeData
