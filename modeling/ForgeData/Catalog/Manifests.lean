import ForgeData.Catalog.Artifacts

/-!
# Manifests

What the scanner reads from the committed manifest of a stage: the row to register, and the artifacts
it was made from. There is one scanner for each stage, and they differ in the names of the fields they
take; `scanManifest` is what they have in common.

A manifest that lacks a required field, or holds a list or an object where a text is stored, makes the
scan fail; here the reading gives `none`. So it does for a number in such a place, which the stages never
write: SQLite would store its text, and a second scan would find that it differs from the number.
-/

namespace ForgeData

open Python

/-- A manifest that the pattern of its stage finds below the storage root: the parts of its path, the
hash of its text, and the value of the text if it is JSON. -/
structure ManifestFile where
  path : List String
  sha256 : String
  data : Option Json
  deriving DecidableEq

namespace ManifestFile

/-- `_is_staging_path`. -/
def staging (file : ManifestFile) : Bool :=
  file.path.any fun part ↦ part.startsWith ".tmp-" || part == ".gitkeep" || part == ".staging"

/-- `_manifest_uri`. -/
def uri (file : ManifestFile) : String := "file://" ++ String.join (file.path.map ("/" ++ ·))

end ManifestFile

/-- The manifests below the storage root of every stage; none where there is no such root. -/
abbrev Files := ArtifactType → List ManifestFile

/-- `ParentRef`. -/
structure ParentRef where
  artifact : ArtifactKey
  relationship : RelationshipType
  deriving DecidableEq, Repr

/-- `DiscoveredArtifact`. The record holds the time at which it is made, and nothing else in it
depends on that time. -/
structure DiscoveredArtifact where
  key : ArtifactKey
  record : String → ArtifactRow
  parents : List ParentRef
  untimed_record : ∀ t t', (record t).untimed = (record t').untimed

/-! ## Reading a manifest -/

/-- A value stored in a column of texts. -/
def columnText : Json → Option (Option String)
  | .null => some none
  | .str s => some (some s)
  | _ => none

/-- `data.get(field)`, stored in a column of texts. Only an object has the method. -/
def optionalText (data : Json) (field : String) : Option (Option String) :=
  match data with
  | .obj _ => (data.get? field).elim (some none) columnText
  | _ => none

/-- The same, for a column that some stages leave empty. -/
def optionalColumn (data : Json) : Option String → Option (Option String)
  | none => some none
  | some field => optionalText data field

/-- What `if` takes for false. -/
def falsy : Json → Bool
  | .null | .bool false | .int 0 | .str "" | .arr [] | .obj [] => true
  | .real text => text == "0.0" || text == "-0.0"
  | _ => false

/-- `streams[0].get("session_id") if streams else None`. -/
def streamSession (data : Json) : Option (Option String) :=
  match data.get? "streams" with
  | none => some none
  | some streams =>
    if falsy streams then some none
    else match streams with
    | .arr (stream :: _) => optionalText stream "session_id"
    | _ => none

/-- `session_ids[0] if len(session_ids) == 1 else None`, of the session ids upstream. -/
def upstreamSession (data : Json) : Option (Option String) :=
  match data.get? "upstream" with
  | none => some none
  | some (.obj fields) =>
    match (Json.obj fields).get? "session_ids" with
    | none => some none
    | some (.arr [sessionId]) => columnText sessionId
    | some (.arr _) => some none
    | some (.str s) => some (if s.length = 1 then some s else none)
    | some (.obj [_]) => none
    | some (.obj _) => some none
    | some _ => none
  | some _ => none

/-- A reference to one parent, by the field that holds its id. -/
def parentRef (type : ArtifactType) (field : String) (relationship : RelationshipType)
    (data : Json) : Option ParentRef :=
  (data.getStr? field).map fun id ↦ ⟨⟨type, id⟩, relationship⟩

/-- The references of a synchronization, one for each stream. -/
def streamRefs (data : Json) : Option (List ParentRef) :=
  match data.get? "streams" with
  | none | some (.obj []) | some (.str "") => some []
  | some (.arr streams) =>
    streams.mapM (parentRef .normalization "normalization_id" .synchronizedFrom)
  | some _ => none

/-- What the scanners have in common. -/
def scanManifest (type : ArtifactType) (idField : String)
    (statusField storageField sha256Field : Option String) (createdField : String)
    (session : Json → Option (Option String)) (parents : Json → Option (List ParentRef))
    (file : ManifestFile) : Option DiscoveredArtifact := do
  let data ← file.data
  let id ← data.getStr? idField
  let status ← optionalColumn data statusField
  let storageUri ← optionalColumn data storageField
  let contentSha256 ← optionalColumn data sha256Field
  let createdAt ← optionalText data createdField
  let sessionId ← session data
  let parents ← parents data
  return {
    key := ⟨type, id⟩
    record := fun registeredAt ↦ {
      pipelineStage := type.stageRank
      status, storageUri, contentSha256
      manifestUri := some file.uri
      manifestSha256 := some file.sha256
      createdAt, sessionId
      metadata := data.canonical
      registeredAt }
    parents
    untimed_record := fun _ _ ↦ rfl }

/-- One parent, by the field that holds its id. -/
def oneParent (type : ArtifactType) (field : String) (relationship : RelationshipType)
    (data : Json) : Option (List ParentRef) :=
  (parentRef type field relationship data).map fun ref ↦ [ref]

/-- The references of a package. -/
def packageRefs (data : Json) : Option (List ParentRef) := do
  let transformation ← parentRef .transformation "transformation_id" .packagedFrom data
  let qc ← parentRef .qc "qc_id" .approvedByQc data
  return [transformation, qc]

/-! ## The scanners -/

/-- `_scan_ingestion`. -/
def scanIngestion : ManifestFile → Option DiscoveredArtifact :=
  scanManifest .ingestion "ingestion_id" none (some "storage_uri") (some "sha256") "ingested_at"
    (optionalText · "session_id") fun _ ↦ some []

/-- `_scan_validation`. -/
def scanValidation : ManifestFile → Option DiscoveredArtifact :=
  scanManifest .validation "validation_id" (some "status") none none "validated_at"
    (fun _ ↦ some none) (oneParent .ingestion "ingestion_id" .validatedFrom)

/-- `_scan_integrity`. -/
def scanIntegrity : ManifestFile → Option DiscoveredArtifact :=
  scanManifest .integrity "integrity_id" (some "status") none none "created_at"
    (fun _ ↦ some none) (oneParent .validation "validation_id" .checkedFrom)

/-- `_scan_normalization`. -/
def scanNormalization : ManifestFile → Option DiscoveredArtifact :=
  scanManifest .normalization "normalization_id" none (some "artifact_uri")
    (some "normalized_sha256") "created_at" (fun _ ↦ some none)
    (oneParent .integrity "integrity_id" .normalizedFrom)

/-- `_scan_synchronization`. -/
def scanSynchronization : ManifestFile → Option DiscoveredArtifact :=
  scanManifest .synchronization "synchronization_id" none (some "artifact_uri")
    (some "synchronized_sha256") "created_at" streamSession streamRefs

/-- `_scan_cleaning`. -/
def scanCleaning : ManifestFile → Option DiscoveredArtifact :=
  scanManifest .cleaning "cleaning_id" (some "status") (some "artifact_uri")
    (some "cleaned_sha256") "created_at" streamSession
    (oneParent .synchronization "synchronization_id" .cleanedFrom)

/-- `_scan_transformation`. -/
def scanTransformation : ManifestFile → Option DiscoveredArtifact :=
  scanManifest .transformation "transformation_id" none (some "artifact_uri")
    (some "transformed_sha256") "created_at" upstreamSession
    (oneParent .cleaning "cleaning_id" .transformedFrom)

/-- `_scan_qc`. -/
def scanQc : ManifestFile → Option DiscoveredArtifact :=
  scanManifest .qc "qc_id" (some "status") (some "report_uri") none "created_at" upstreamSession
    (oneParent .transformation "transformation_id" .qcOf)

/-- `_scan_package`. -/
def scanPackage : ManifestFile → Option DiscoveredArtifact :=
  scanManifest .package "package_id" (some "status") none none "created_at" upstreamSession
    packageRefs

/-- `_SCANNERS`, in their order. -/
def scanners : List (ArtifactType × (ManifestFile → Option DiscoveredArtifact)) :=
  [(.ingestion, scanIngestion), (.validation, scanValidation), (.integrity, scanIntegrity),
    (.normalization, scanNormalization), (.synchronization, scanSynchronization),
    (.cleaning, scanCleaning), (.transformation, scanTransformation), (.qc, scanQc),
    (.package, scanPackage)]

/-! ## What a scanner yields -/

theorem of_scanManifest {type : ArtifactType} {idField : String}
    {statusField storageField sha256Field : Option String} {createdField : String}
    {session : Json → Option (Option String)} {parents : Json → Option (List ParentRef)}
    {file : ManifestFile} {d : DiscoveredArtifact}
    (h : scanManifest type idField statusField storageField sha256Field createdField session parents
      file = some d) :
    d.key.artifactType = type ∧ ∃ data, parents data = some d.parents := by
  simp only [scanManifest, bind, Option.bind_eq_some_iff] at h
  obtain ⟨data, -, id, -, status, -, storageUri, -, sha256, -, createdAt, -, sessionId, -,
    refs, hrefs, hd⟩ := h
  cases hd
  exact ⟨rfl, data, hrefs⟩

theorem type_of_parentRef {type : ArtifactType} {field : String}
    {relationship : RelationshipType} {data : Json} {ref : ParentRef}
    (h : parentRef type field relationship data = some ref) : ref.artifact.artifactType = type := by
  obtain ⟨id, -, rfl⟩ := Option.map_eq_some_iff.1 h
  rfl

theorem type_of_mem_oneParent {type : ArtifactType} {field : String}
    {relationship : RelationshipType} {data : Json} {refs : List ParentRef}
    (h : oneParent type field relationship data = some refs) :
    ∀ ref ∈ refs, ref.artifact.artifactType = type := by
  obtain ⟨ref, href, rfl⟩ := Option.map_eq_some_iff.1 h
  intro ref' href'
  rw [List.mem_singleton.1 href']
  exact type_of_parentRef href

theorem type_of_mem_packageRefs {data : Json} {refs : List ParentRef}
    (h : packageRefs data = some refs) :
    ∀ ref ∈ refs, ref.artifact.artifactType = .transformation ∨ ref.artifact.artifactType = .qc := by
  simp only [packageRefs, bind, Option.bind_eq_some_iff] at h
  obtain ⟨r₁, h₁, r₂, h₂, hrefs⟩ := h
  cases hrefs
  intro ref href
  rcases List.mem_pair.1 href with rfl | rfl
  · exact .inl (type_of_parentRef h₁)
  · exact .inr (type_of_parentRef h₂)

theorem type_of_mem_streamRefs {data : Json} {refs : List ParentRef}
    (h : streamRefs data = some refs) :
    ∀ ref ∈ refs, ref.artifact.artifactType = .normalization := by
  rw [streamRefs] at h
  split at h
  · cases h; exact List.forall_mem_nil _
  · cases h; exact List.forall_mem_nil _
  · cases h; exact List.forall_mem_nil _
  · next streams _ =>
    clear * - h
    induction streams generalizing refs with
    | nil =>
      cases h
      exact List.forall_mem_nil _
    | cons stream streams ih =>
      simp only [List.mapM_cons, bind, Option.bind_eq_some_iff] at h
      obtain ⟨ref, href, refs', hrefs', hrefs⟩ := h
      cases hrefs
      exact List.forall_mem_cons.2 ⟨type_of_parentRef href, ih hrefs'⟩
  · cases h

/-- A scanner yields artifacts of its stage, which refer to artifacts of earlier stages. -/
theorem rank_of_mem_scanners {s : ArtifactType × (ManifestFile → Option DiscoveredArtifact)}
    (hs : s ∈ scanners) {file : ManifestFile} {d : DiscoveredArtifact} (h : s.2 file = some d) :
    d.key.artifactType = s.1 ∧
      ∀ ref ∈ d.parents, ref.artifact.artifactType.stageRank < s.1.stageRank := by
  have hone : ∀ {type type' : ArtifactType} {field relationship data},
      type.stageRank < type'.stageRank →
      oneParent type field relationship data = some d.parents →
      ∀ ref ∈ d.parents, ref.artifact.artifactType.stageRank < type'.stageRank := by
    intro type type' field relationship data hlt hrefs ref href
    rw [type_of_mem_oneParent hrefs ref href]
    exact hlt
  simp only [scanners, List.mem_cons, List.not_mem_nil, or_false] at hs
  rcases hs with rfl | rfl | rfl | rfl | rfl | rfl | rfl | rfl | rfl <;>
    obtain ⟨htype, data, hrefs⟩ := of_scanManifest h <;> refine ⟨htype, ?_⟩
  case inl =>
    rw [← Option.some.inj hrefs]
    exact List.forall_mem_nil _
  case inr.inr.inr.inr.inl =>
    intro ref href
    rw [type_of_mem_streamRefs hrefs ref href]
    decide
  case inr.inr.inr.inr.inr.inr.inr.inr =>
    intro ref href
    rcases type_of_mem_packageRefs hrefs ref href with h | h <;> rw [h] <;> decide
  all_goals exact hone (by decide) hrefs

end ForgeData
