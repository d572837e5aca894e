import ForgeData.Catalog.LineageGraph
import ForgeData.Catalog.Manifests

/-!
# Scanning the storage roots

A scan registers the artifact of every manifest, stage by stage, and an edge for each of its references
whose parent is registered by then. A strict scan stops at the first reference whose parent is not; a
non-strict one records an issue and goes on. A full rebuild is a strict scan after the index has been
cleared, in the same transaction.
-/

namespace ForgeData

open Python

/-- `ScanOutcome`. -/
structure ScanOutcome where
  inserted : ℕ := 0
  unchanged : ℕ := 0
  edgesInserted : ℕ := 0
  issues : List ScanIssue := []
  deriving DecidableEq, Repr

/-- The variables of a scan. -/
structure ScanState where
  db : CatalogDb
  outcome : ScanOutcome

/-- The readings of the clock in a scan: for the records in the order in which they are made, for the
issues in the order in which they are found, and at the end. -/
structure ScanClock where
  registeredAt : ℕ → String
  detectedAt : ℕ → String
  finishedAt : String

namespace DiscoveredArtifact

variable (d : DiscoveredArtifact) (ref : ParentRef)

/-- The edge from a parent. -/
def edge : EdgeRow := ⟨ref.artifact, d.key, ref.relationship⟩

/-- The issue about a parent that is not registered. -/
def missingParent : ScanIssue where
  artifact := d.key
  issueCode := "MISSING_LINEAGE_PARENT"
  detail := s!"{d.key.text} references {ref.artifact.text} ({ref.relationship.text}), " ++
    "which is not registered"

/-- The error about an edge that would close a cycle. -/
def cycleError : CatalogError := .lineageCycleDetected
  s!"Adding edge {ref.artifact.text} -> {d.key.text} would create a cycle"

end DiscoveredArtifact

/-- The body of the inner loop: one reference of a discovered artifact. -/
def registerParent (strict : Bool) (clock : ScanClock) (d : DiscoveredArtifact) (st : ScanState)
    (ref : ParentRef) : Except CatalogError ScanState :=
  match st.db.getArtifact ref.artifact with
  | none =>
    if strict then .error (.brokenLineage (d.missingParent ref).detail)
    else .ok {
      db := st.db.recordIssue ⟨d.missingParent ref, clock.detectedAt st.outcome.issues.length⟩
      outcome := { st.outcome with issues := st.outcome.issues ++ [d.missingParent ref] } }
  | some _ =>
    if st.db.wouldCreateCycle ref.artifact d.key then .error (d.cycleError ref)
    else match st.db.insertEdge (d.edge ref) with
    | .error e => .error e
    | .ok (inserted, db) => .ok {
        db
        outcome := if inserted then
            { st.outcome with edgesInserted := st.outcome.edgesInserted + 1 }
          else st.outcome }

/-- The body of the outer loop: one discovered artifact. -/
def registerArtifact (strict : Bool) (clock : ScanClock) (st : ScanState)
    (d : DiscoveredArtifact) : Except CatalogError ScanState :=
  match st.db.upsertArtifact d.key
      (d.record (clock.registeredAt (st.outcome.inserted + st.outcome.unchanged))) with
  | .error e => .error e
  | .ok (inserted, db) =>
    d.parents.foldlM (registerParent strict clock d) {
      db
      outcome := if inserted then { st.outcome with inserted := st.outcome.inserted + 1 }
        else { st.outcome with unchanged := st.outcome.unchanged + 1 } }

/-- The manifests of a stage in the order of their paths, each with what its scanner makes of it. -/
def stageManifests (files : Files)
    (s : ArtifactType × (ManifestFile → Option DiscoveredArtifact)) :
    List (Option DiscoveredArtifact) :=
  ((sortedBy ManifestFile.path (files s.1)).filter fun file ↦ !file.staging).map s.2

/-- All manifests in the order in which a scan reads them. -/
def manifests (files : Files) : List (Option DiscoveredArtifact) :=
  scanners.flatMap (stageManifests files)

/-- The next manifest is read and its artifact registered. -/
def scanNext (strict : Bool) (clock : ScanClock) (st : ScanState) :
    Option DiscoveredArtifact → Except CatalogError ScanState
  | none => .error (.unreadable "a manifest cannot be read")
  | some d => registerArtifact strict clock st d

namespace CatalogDb

variable (db : CatalogDb)

/-- `CatalogScanner.scan`. -/
def scan (strict : Bool) (clock : ScanClock) (files : Files) : Except CatalogError ScanState :=
  (manifests files).foldlM (scanNext strict clock) ⟨db, {}⟩

/-- `CatalogService.scan`, without waiting for the write lock: its transaction, which is rolled back
if the scan fails. -/
def scanCatalog (clock : ScanClock) (files : Files) :
    Except CatalogError ScanOutcome × CatalogDb :=
  match db.scan false clock files with
  | .error _ => (.error (.catalogScanFailed "Catalog scan failed"), db)
  | .ok st => (.ok st.outcome, st.db.setMetadata "last_scan_at" clock.finishedAt)

/-- How `CatalogService.rebuild` reports a failed transaction. -/
def rebuildError : CatalogError → CatalogError
  | .brokenLineage detail => .catalogRebuildFailed s!"Strict rebuild aborted: {detail}"
  | _ => .catalogRebuildFailed "Catalog rebuild failed"

/-- The transaction of `CatalogService.rebuild`, rolled back if the scan fails. -/
def rebuildIndex (clock : ScanClock) (files : Files) :
    Except CatalogError ScanOutcome × CatalogDb :=
  match db.clearArtifactIndex.scan true clock files with
  | .error e => (.error (rebuildError e), db)
  | .ok st => (.ok st.outcome, st.db.setMetadata "last_scan_at" clock.finishedAt)

/-- `missing_parent_references` of `CatalogService.health`. -/
def missingParentReferences : ℕ :=
  (db.lineageIssues.filter (·.issue.issueCode = "MISSING_LINEAGE_PARENT")).length

end CatalogDb

end ForgeData
