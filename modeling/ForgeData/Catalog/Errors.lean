import ForgeData.Catalog.Artifacts

/-!
# Errors of the catalog

The exceptions that the catalog raises, with what they are raised with. The text of an exception is
modelled where the code keeps it: in the results of a selective rebuild, and in the error of a strict
rebuild that names a missing parent.
-/

namespace ForgeData

/-- The exceptions of the catalog. -/
inductive CatalogError where
  | artifactNotFound (message : String)
  /-- A field of a registered artifact would change. -/
  | artifactRegistryConflict (artifact : ArtifactKey) (field : String)
  | catalogRebuildFailed (message : String)
  | catalogScanFailed (message : String)
  | lineageCycleDetected (message : String)
  | datasetNotFound (datasetName : String)
  | invalidDatasetName (datasetName : String)
  | invalidDatasetVersion (version : String)
  | datasetVersionNotFound (message : String)
  /-- The version points to the first package, so it cannot point to the second. -/
  | datasetVersionImmutable (datasetName version existing packageId : String)
  | packageNotFound (packageId : String)
  | packageNotAccepted (packageId : String)
  | catalogBusy (operation : String) (timeoutMs : ℕ) (dbPath : String)
  | catalogRebuildInProgress
  | governanceTargetNotFound (artifact : ArtifactKey)
  | invalidGovernanceTransition (previous new : String)
  | governanceReasonRequired
  | artifactInvalid (artifact : ArtifactKey) (reason : String)
  | artifactDeprecated (artifact : ArtifactKey) (reason : String)
  | upstreamArtifactInvalid (artifact ancestor : ArtifactKey) (reason : String)
  | upstreamArtifactDeprecated (artifact ancestor : ArtifactKey) (reason : String)
  | rebuildReplacementIncompatible (old new : ArtifactKey) (reason : String)
  | rebuildConfigUnavailable (artifact : ArtifactKey) (reason : String)
  | rebuildPlanStale (planId : String)
  | rebuildPlanNotFound (planId : String)
  | selectiveRebuildInProgress (old : ArtifactKey)
  | brokenLineage (detail : String)
  /-- A constraint of a table is violated and the code does not handle it. -/
  | integrityError
  | assertionError (message : String)
  /-- A manifest cannot be read, or lacks what the code takes from it; the text is the exception's. -/
  | unreadable (message : String)
  /-- An exception of the language or of a library, with its text. -/
  | otherException (message : String)
  deriving DecidableEq, Repr

namespace CatalogError

/-- One of the errors that say that an artifact, or something upstream of it, is invalid. -/
def IsInvalid : CatalogError → Prop
  | artifactInvalid .. | upstreamArtifactInvalid .. => True
  | _ => False

instance : DecidablePred IsInvalid := fun e ↦ by
  cases e <;> first | exact isTrue trivial | exact isFalse id

/-- One of the errors with which the database or the file system refuses to proceed. -/
def IsRefusal : CatalogError → Prop
  | catalogBusy .. | otherException _ => True
  | _ => False

/-- `str(exc)`, where the code keeps it. -/
def message : CatalogError → String
  | catalogBusy operation timeoutMs dbPath =>
    s!"Catalog busy: '{operation}' could not acquire a write lock within {timeoutMs}ms " ++
      s!"(db={dbPath}). Another process is writing to the catalog; retry shortly."
  | rebuildConfigUnavailable artifact reason =>
    s!"Cannot auto-execute rebuild of {artifact.text}: {reason}"
  | brokenLineage detail => detail
  | unreadable message | otherException message => message
  | _ => ""

end CatalogError

end ForgeData
