import ForgeData.Catalog.ExactTraversal
import ForgeData.Catalog.Manifests

/-!
# The lineage fingerprint

The fingerprint of a package is a hash of what the package and everything upstream of it record about
contents and configuration. Ids decide only in which order the artifacts are visited. Of the stages
that a package has once, the order says nothing; of those that it can have many times, the payload
takes sorted lists without repetition.
-/

namespace ForgeData

open Python Graph Relation

/-! ## What the manifests record -/

/-- `metadata.get(field)`. -/
def recorded (metadata : Json) (field : String) : Json := (metadata.get? field).getD .null

/-- A value with the method `get`. -/
def isObject : Json → Bool
  | .obj _ => true
  | _ => false

/-- A text recorded under a field; `some none` if the field is missing or empty. The manifest models
have nothing else than texts there, and other values are not modelled. -/
def recordedText (metadata : Json) (field : String) : Option (Option String) :=
  match recorded metadata field with
  | .str s => some (if s = "" then none else some s)
  | j => if falsy j then some none else none

/-- The name and the version of the schema, as one text. -/
def schemaVersion (metadata : Json) : Option (Option String) :=
  let schema := recorded metadata "schema"
  if falsy schema then some none
  else if isObject schema then
    match recordedText schema "name", recordedText schema "version" with
    | some (some name), some (some version) => some (some (name ++ ":" ++ version))
    | some none, _ | _, some none => some none
    | _, _ => none
  else none

/-- `sorted` of the set of the texts that are there. -/
def sortedTexts (texts : List (Option (Option String))) : Option (List String) :=
  if texts.all Option.isSome then
    some ((texts.filterMap Option.join).dedup.insertionSort (· ≤ ·))
  else none

/-- The checksums of the splits; `none` if an entry has none, which the code takes for granted. -/
def splitChecksums (metadata : Json) : Option (List (String × Json)) :=
  match metadata.get? "splits" with
  | none => some []
  | some (.obj splits) => splits.mapM fun p ↦ (p.2.get? "sha256").map (p.1, ·)
  | some _ => none

/-- What each manifest in turn records for the stage, if it is not empty. -/
def recordVersions (stage field : String) (versions : Dict String Json) (manifests : List Json) :
    Dict String Json :=
  manifests.foldl (fun versions metadata ↦
    if falsy (recorded metadata field) then versions
    else versions.set stage (recorded metadata field)) versions

/-- What the last manifest records. -/
def lastRecorded (manifests : List Json) (field : String) : Option Json :=
  manifests.getLast?.map (recorded · field)

/-- The result of `_collect_reproducibility_data`; a missing entry is null. -/
structure ReproducibilityData where
  sourceTransformedSha256 : Json
  packageConfigHash : Json
  splitSeed : Json
  splitChecksums : List (String × Json)
  qcId : Json
  gitCommit : Json
  qcConfigHash : Json
  transformationConfigHash : Json
  cleaningConfigHash : Json
  synchronizationConfigHash : Json
  normalizationConfigHashes : List String
  schemaVersions : List String
  sourceIngestionIds : List String
  rawSha256Values : List String
  transformVersions : Dict String Json

/-- The stages whose manifests are read. -/
def readStages : List ArtifactType :=
  [.ingestion, .normalization, .synchronization, .cleaning, .transformation, .qc]

/-- `_collect_reproducibility_data`, from the manifest of the package and those upstream by type. A
manifest that is not as its model says makes it fail. -/
def reproducibilityData (package : Json) (byType : ArtifactType → List Json) :
    Option ReproducibilityData :=
  if isObject package ∧ ∀ type ∈ readStages, (byType type).all isObject then do
    let splitChecksums ← splitChecksums package
    let normalizationConfigHashes ←
      sortedTexts ((byType .normalization).map (recordedText · "normalization_config_hash"))
    let schemaVersions ← sortedTexts ((byType .normalization).map schemaVersion)
    let sourceIngestionIds ← sortedTexts ((byType .ingestion).map (recordedText · "ingestion_id"))
    let rawSha256Values ← sortedTexts ((byType .ingestion).map (recordedText · "sha256"))
    return {
      sourceTransformedSha256 := recorded package "source_transformed_sha256"
      packageConfigHash := recorded package "packaging_config_hash"
      splitSeed := recorded package "seed"
      splitChecksums
      qcId := recorded package "qc_id"
      gitCommit := recorded package "git_commit"
      qcConfigHash := (lastRecorded (byType .qc) "qc_config_hash").getD .null
      transformationConfigHash :=
        (lastRecorded (byType .transformation) "transformation_config_hash").getD .null
      cleaningConfigHash := (lastRecorded (byType .cleaning) "cleaning_config_hash").getD .null
      -- The first cleaning sets a default, which every synchronization overwrites.
      synchronizationConfigHash :=
        ((lastRecorded (byType .synchronization) "synchronization_config_hash").or
          ((byType .cleaning).head?.map (recorded · "synchronization_config_hash"))).getD .null
      normalizationConfigHashes, schemaVersions, sourceIngestionIds, rawSha256Values
      transformVersions :=
        let versions := recordVersions "package" "package_engine_version" Dict.empty [package]
        let versions := recordVersions "qc" "qc_engine_version" versions (byType .qc)
        [("transformation", ArtifactType.transformation), ("cleaning", .cleaning),
          ("synchronization", .synchronization), ("normalization", .normalization)].foldl
          (fun versions stage ↦ recordVersions stage.1 "transform_version" versions (byType stage.2))
          versions }
  else none

/-- `_fingerprint_payload`. -/
def ReproducibilityData.fingerprintPayload (data : ReproducibilityData) : Json :=
  .obj [("raw_sha256_values", .arr (data.rawSha256Values.map .str)),
    ("schema_versions", .arr (data.schemaVersions.map .str)),
    ("normalization_config_hashes", .arr (data.normalizationConfigHashes.map .str)),
    ("synchronization_config_hash", data.synchronizationConfigHash),
    ("cleaning_config_hash", data.cleaningConfigHash),
    ("transformation_config_hash", data.transformationConfigHash),
    ("qc_config_hash", data.qcConfigHash),
    ("package_config_hash", data.packageConfigHash),
    ("split_checksums", .obj data.splitChecksums)]

/-- The manifests of one type among the nodes of a walk. -/
def manifestsOf (nodes : List (ArtifactKey × ArtifactRow)) (type : ArtifactType) : List Json :=
  (nodes.filter (·.1.artifactType = type)).map (·.2.metadata)

namespace CatalogDb

variable (db : CatalogDb)

/-- The manifests of one type that the walk upstream of a package comes to. -/
def upstreamManifests (packageId : String) (type : ArtifactType) : List Json :=
  manifestsOf (db.traverse (packageKey packageId) .upstream none).nodes type

/-- `_collect_reproducibility_data`. -/
def collectReproducibilityData (packageId : String) :
    Except CatalogError (Option ReproducibilityData) :=
  match db.getArtifact (packageKey packageId) with
  | none => .error (.packageNotFound packageId)
  | some package => .ok (reproducibilityData package.metadata (db.upstreamManifests packageId))

/-- `compute_lineage_fingerprint`, of the payload of a package. -/
def lineageFingerprint (sha : Json → String) (packageId : String) :
    Except CatalogError (Option String) :=
  (db.collectReproducibilityData packageId).map fun data ↦
    data.map fun data ↦ sha data.fingerprintPayload.canonical

end CatalogDb

/-! ## The order of the manifests -/

theorem sortedTexts_congr {l l' : List (Option (Option String))} (h : l.Perm l') :
    sortedTexts l = sortedTexts l' := by
  rw [sortedTexts, sortedTexts, h.all_eq]
  split
  · have hperm := ((h.filterMap Option.join).dedup)
    refine congrArg some (List.Perm.eq_of_pairwise' (r := (· ≤ ·)) ?_ ?_ ?_)
    · exact List.pairwise_insertionSort _ _
    · exact List.pairwise_insertionSort _ _
    · exact (List.perm_insertionSort _ _).trans (hperm.trans (List.perm_insertionSort _ _).symm)
  · rfl

theorem isSome_sortedTexts {l : List (Option (Option String))} :
    (sortedTexts l).isSome = l.all Option.isSome := by
  rw [sortedTexts]
  split
  · next h => exact h.symm
  · next h => exact (Bool.eq_false_iff.mpr h).symm

/-! ## The same records -/

/-- The fields with the hashes of contents and configurations, and the schema. -/
def contentFields : List String :=
  ["sha256", "schema", "normalization_config_hash", "synchronization_config_hash",
    "cleaning_config_hash", "transformation_config_hash", "qc_config_hash", "packaging_config_hash"]

/-- Two manifests record the same about contents and configuration. Nothing is said about ids, times
and paths, but that ids are texts. -/
structure SameRecords (m m' : Json) : Prop where
  object : isObject m = isObject m'
  fields : ∀ field ∈ contentFields, recorded m field = recorded m' field
  splits : (splitChecksums m).map (fun l ↦ (Json.obj l).canonical) =
    (splitChecksums m').map fun l ↦ (Json.obj l).canonical
  ids : (recordedText m "ingestion_id").isSome ∧ (recordedText m' "ingestion_id").isSome

namespace SameRecords

variable {m m' : Json}

theorem recordedText_eq (h : SameRecords m m') {field : String} (hfield : field ∈ contentFields) :
    recordedText m field = recordedText m' field := by
  rw [recordedText, recordedText, h.fields field hfield]

theorem schemaVersion_eq (h : SameRecords m m') : schemaVersion m = schemaVersion m' := by
  rw [schemaVersion, schemaVersion, h.fields "schema" (by decide)]

end SameRecords

section

variable {l l' : List Json}

theorem map_eq_of_forall₂ {β : Type} {R : Json → Json → Prop} {f : Json → β}
    (h : List.Forall₂ R l l') (hf : ∀ m m', R m m' → f m = f m') : l.map f = l'.map f := by
  induction h with
  | nil => rfl
  | cons hm _ ih => rw [List.map_cons, List.map_cons, hf _ _ hm, ih]

theorem lastRecorded_eq (h : List.Forall₂ SameRecords l l') (field : String)
    (hfield : field ∈ contentFields) : lastRecorded l field = lastRecorded l' field := by
  rw [lastRecorded, lastRecorded, ← List.getLast?_map, ← List.getLast?_map,
    map_eq_of_forall₂ h fun m m' hm ↦ hm.fields field hfield]

theorem headRecorded_eq (h : List.Forall₂ SameRecords l l') (field : String)
    (hfield : field ∈ contentFields) :
    l.head?.map (recorded · field) = l'.head?.map (recorded · field) := by
  rw [← List.head?_map, ← List.head?_map, map_eq_of_forall₂ h fun m m' hm ↦ hm.fields field hfield]

theorem forall₂_of_perm_of_length_le {k : List Json} (h : List.Forall₂ SameRecords l k) (hk : k.Perm l')
    (hlength : l.length ≤ 1) : List.Forall₂ SameRecords l l' := by
  rw [h.length_eq] at hlength
  match k, hk, hlength, h with
  | [], hk, _, h => rwa [← hk.nil_eq]
  | [m], hk, _, h => rwa [← List.singleton_perm.mp hk]

theorem forall_of_forall₂ {P : Json → Prop} {R : Json → Json → Prop} (h : List.Forall₂ R l l')
    (hR : ∀ m m', R m m' → P m ∧ P m') : (∀ m ∈ l, P m) ∧ ∀ m ∈ l', P m := by
  induction h with
  | nil => exact ⟨List.forall_mem_nil _, List.forall_mem_nil _⟩
  | cons hm _ ih =>
    exact ⟨List.forall_mem_cons.mpr ⟨(hR _ _ hm).1, ih.1⟩, List.forall_mem_cons.mpr ⟨(hR _ _ hm).2, ih.2⟩⟩

end

theorem exists_sortedTexts {l : List Json} {field : String}
    (h : ∀ m ∈ l, (recordedText m field).isSome) :
    ∃ texts, sortedTexts (l.map (recordedText · field)) = some texts := by
  refine Option.isSome_iff_exists.mp (isSome_sortedTexts.trans ?_)
  rw [List.all_map]
  exact List.all_eq_true.mpr h

theorem canonical_fingerprintPayload_congr {d d' : ReproducibilityData}
    (hraw : d.rawSha256Values = d'.rawSha256Values) (hschemas : d.schemaVersions = d'.schemaVersions)
    (hnorm : d.normalizationConfigHashes = d'.normalizationConfigHashes)
    (hsync : d.synchronizationConfigHash = d'.synchronizationConfigHash)
    (hcleaning : d.cleaningConfigHash = d'.cleaningConfigHash)
    (htransformation : d.transformationConfigHash = d'.transformationConfigHash)
    (hqc : d.qcConfigHash = d'.qcConfigHash) (hpackage : d.packageConfigHash = d'.packageConfigHash)
    (hsplits : (Json.obj d.splitChecksums).canonical = (Json.obj d'.splitChecksums).canonical) :
    d.fingerprintPayload.canonical = d'.fingerprintPayload.canonical := by
  rw [ReproducibilityData.fingerprintPayload, ReproducibilityData.fingerprintPayload, hraw, hschemas,
    hnorm, hsync, hcleaning, htransformation, hqc, hpackage, Json.canonical, Json.canonical]
  simp only [Json.canonicalFields, hsplits]

/-- The stages of which a package has one artifact. -/
def singleStages : List ArtifactType := [.synchronization, .cleaning, .transformation, .qc]

/-- **The payload does not depend on ids**, nor on the order of what a package can have many times. -/
theorem fingerprintPayload_eq {package package' : Json} {byType byType' : ArtifactType → List Json}
    (hpackage : SameRecords package package')
    (hmany : ∀ type, ∃ l, List.Forall₂ SameRecords (byType type) l ∧ l.Perm (byType' type))
    (hsingle : ∀ type ∈ singleStages, (byType type).length ≤ 1) :
    (reproducibilityData package byType).map (·.fingerprintPayload.canonical) =
      (reproducibilityData package' byType').map (·.fingerprintPayload.canonical) := by
  -- one artifact at most, so that being a permutation leaves no choice of order
  have hone : ∀ type ∈ singleStages, List.Forall₂ SameRecords (byType type) (byType' type) := by
    intro type htype
    obtain ⟨l, hl, hperm⟩ := hmany type
    exact forall₂_of_perm_of_length_le hl hperm (hsingle type htype)
  have hsorted : ∀ (type : ArtifactType) (read : Json → Option (Option String)),
      (∀ m m', SameRecords m m' → read m = read m') →
        sortedTexts ((byType type).map read) = sortedTexts ((byType' type).map read) := by
    intro type read hread
    obtain ⟨l, hl, hperm⟩ := hmany type
    rw [map_eq_of_forall₂ hl hread]
    exact sortedTexts_congr (hperm.map read)
  have hobjects : ∀ type, (byType type).all isObject = (byType' type).all isObject := by
    intro type
    obtain ⟨l, hl, hperm⟩ := hmany type
    have hmap := congrArg (List.all · id) (map_eq_of_forall₂ hl fun m m' hm ↦ hm.object)
    rw [← hperm.all_eq]
    simpa using hmap
  have hids : (∀ m ∈ byType .ingestion, (recordedText m "ingestion_id").isSome) ∧
      ∀ m ∈ byType' .ingestion, (recordedText m "ingestion_id").isSome := by
    obtain ⟨l, hl, hperm⟩ := hmany .ingestion
    obtain ⟨hleft, hright⟩ := forall_of_forall₂ hl fun m m' hm ↦ hm.ids
    exact ⟨hleft, fun m hm ↦ hright m (hperm.mem_iff.mpr hm)⟩
  -- the ingestion ids are sorted but do not go into the payload
  obtain ⟨ids, hsort⟩ := exists_sortedTexts hids.1
  obtain ⟨ids', hsort'⟩ := exists_sortedTexts hids.2
  rw [reproducibilityData, reproducibilityData]
  simp only [hobjects, hpackage.object]
  split
  swap
  · rfl
  rw [hsorted .normalization _ fun m m' hm ↦ hm.recordedText_eq (by decide),
    hsorted .normalization _ fun m m' hm ↦ hm.schemaVersion_eq,
    hsorted .ingestion (recordedText · "sha256") fun m m' hm ↦ hm.recordedText_eq (by decide), hsort,
    hsort']
  have hsplits := hpackage.splits
  generalize splitChecksums package = splits at hsplits
  generalize splitChecksums package' = splits' at hsplits
  rcases splits with _ | splits
  · rcases splits' with _ | splits'
    · rfl
    · exact absurd hsplits nofun
  rcases splits' with _ | splits'
  · exact absurd hsplits nofun
  -- both sides raise together, at the first value that cannot be read
  rcases sortedTexts ((byType' .normalization).map (recordedText · "normalization_config_hash")) with
    _ | hashes
  · rfl
  rcases sortedTexts ((byType' .normalization).map schemaVersion) with _ | schemas
  · rfl
  rcases sortedTexts ((byType' .ingestion).map (recordedText · "sha256")) with _ | raws
  · rfl
  have hsync := lastRecorded_eq (hone .synchronization (by decide)) "synchronization_config_hash" (by decide)
  have hdefault := headRecorded_eq (hone .cleaning (by decide)) "synchronization_config_hash" (by decide)
  have hcleaning := lastRecorded_eq (hone .cleaning (by decide)) "cleaning_config_hash" (by decide)
  have htransformation :=
    lastRecorded_eq (hone .transformation (by decide)) "transformation_config_hash" (by decide)
  have hqc := lastRecorded_eq (hone .qc (by decide)) "qc_config_hash" (by decide)
  refine congrArg some (canonical_fingerprintPayload_congr rfl rfl rfl ?_ ?_ ?_ ?_ ?_ ?_)
  · exact congrArg (·.getD .null) (congrArg₂ Option.or hsync hdefault)
  · exact congrArg (·.getD .null) hcleaning
  · exact congrArg (·.getD .null) htransformation
  · exact congrArg (·.getD .null) hqc
  · exact hpackage.fields "packaging_config_hash" (by decide)
  · exact Option.some.inj hsplits

/-! ## Ancestries -/

namespace CatalogDb

variable {db db' : CatalogDb} {packageId packageId' : String}

/-- The manifest of an artifact. -/
def manifestAt (db : CatalogDb) (k : ArtifactKey) : Json :=
  ((db.getArtifact k).map ArtifactRow.metadata).getD .null

theorem upstreamManifests_eq (db : CatalogDb) (packageId : String) (type : ArtifactType) :
    db.upstreamManifests packageId type =
      ((db.traverse (packageKey packageId) .upstream none).keys.filter (·.artifactType = type)).map
        db.manifestAt := by
  obtain ⟨-, -, hrows⟩ := traverse_nodup db (packageKey packageId) .upstream none
  rw [upstreamManifests, manifestsOf, Traversal.keys, List.filter_map, List.map_map]
  refine List.map_congr_left fun p hp ↦ ?_
  rw [Function.comp, manifestAt, hrows p (List.mem_filter.mp hp).1]
  rfl

theorem mem_keys_upstream_iff {root : ArtifactKey} (hroot : db.Registered root) {k : ArtifactKey} :
    k ∈ (db.traverse root .upstream none).keys ↔ db.Upstream k root := by
  rw [(traverse_upstream_isExact hroot none).mem_keys_iff, exists_isDist_none_iff, exists_isDist_iff,
    Upstream]

end CatalogDb

/-- Two artifacts have isomorphic ancestries, whose artifacts record the same. -/
structure LineageIso (db db' : CatalogDb) (root root' : ArtifactKey)
    (φ : ArtifactKey → ArtifactKey) : Prop where
  root_eq : φ root = root'
  bijOn : Set.BijOn φ {k | db.Upstream k root} {k | db'.Upstream k root'}
  artifactType_eq : ∀ k, db.Upstream k root → (φ k).artifactType = k.artifactType
  edges : ∀ p c relationship, db.Upstream p root → db.Upstream c root →
    (⟨p, c, relationship⟩ ∈ db.lineageEdges ↔ ⟨φ p, φ c, relationship⟩ ∈ db'.lineageEdges)
  records : ∀ k, db.Upstream k root → SameRecords (db.manifestAt k) (db'.manifestAt (φ k))

/-- At most one artifact of each of the stages lies upstream of the package. -/
def SingleStages (db : CatalogDb) (root : ArtifactKey) : Prop :=
  ∀ k k', db.Upstream k root → db.Upstream k' root → k.artifactType ∈ singleStages →
    k.artifactType = k'.artifactType → k = k'

namespace CatalogDb

variable {db db' : CatalogDb} {packageId packageId' : String} {φ : ArtifactKey → ArtifactKey}

theorem exists_upstreamManifests_of_iso (hroot : db.Registered (packageKey packageId))
    (hroot' : db'.Registered (packageKey packageId'))
    (h : LineageIso db db' (packageKey packageId) (packageKey packageId') φ) (type : ArtifactType) :
    ∃ l, List.Forall₂ SameRecords (db.upstreamManifests packageId type) l ∧
      l.Perm (db'.upstreamManifests packageId' type) := by
  obtain ⟨hnodup, -, -⟩ := traverse_nodup db (packageKey packageId) .upstream none
  obtain ⟨hnodup', -, -⟩ := traverse_nodup db' (packageKey packageId') .upstream none
  have hmem := fun k ↦ mem_keys_upstream_iff hroot (k := k)
  have hmem' := fun k ↦ mem_keys_upstream_iff hroot' (k := k)
  rw [upstreamManifests_eq, upstreamManifests_eq]
  generalize (db.traverse (packageKey packageId) .upstream none).keys = keys at hnodup hmem
  generalize (db'.traverse (packageKey packageId') .upstream none).keys = keys' at hnodup' hmem'
  have hperm : (keys.map φ).Perm keys' := by
    refine (List.perm_ext_iff_of_nodup ?_ hnodup').mpr fun k' ↦ ?_
    · refine hnodup.map_on fun k hk k₁ hk₁ heq ↦ ?_
      exact h.bijOn.injOn ((hmem k).mp hk) ((hmem k₁).mp hk₁) heq
    · rw [hmem', List.mem_map]
      constructor
      · rintro ⟨k, hk, rfl⟩
        exact h.bijOn.mapsTo ((hmem k).mp hk)
      · intro hk'
        obtain ⟨k, hk, rfl⟩ := h.bijOn.surjOn hk'
        exact ⟨k, (hmem k).mpr hk, rfl⟩
  have hfilter : (keys.map φ).filter (·.artifactType = type) =
      (keys.filter (·.artifactType = type)).map φ := by
    rw [List.filter_map]
    refine congrArg (List.map φ) (List.filter_congr fun k hk ↦ ?_)
    rw [Function.comp, h.artifactType_eq k ((hmem k).mp hk)]
  refine ⟨((keys.filter (·.artifactType = type)).map φ).map db'.manifestAt, ?_, ?_⟩
  · rw [List.map_map, List.forall₂_map_left_iff, List.forall₂_map_right_iff, List.forall₂_same]
    exact fun k hk ↦ h.records k ((hmem k).mp (List.mem_filter.mp hk).1)
  · rw [← hfilter]
    exact (hperm.filter _).map _

theorem length_upstreamManifests_le (hroot : db.Registered (packageKey packageId))
    (hsingle : SingleStages db (packageKey packageId)) {type : ArtifactType}
    (htype : type ∈ singleStages) : (db.upstreamManifests packageId type).length ≤ 1 := by
  obtain ⟨hnodup, -, -⟩ := traverse_nodup db (packageKey packageId) .upstream none
  rw [upstreamManifests_eq, List.length_map]
  have hsame : ∀ k ∈ (db.traverse (packageKey packageId) .upstream none).keys.filter
      (·.artifactType = type), db.Upstream k (packageKey packageId) ∧ k.artifactType = type := by
    intro k hk
    obtain ⟨hmem, hk⟩ := List.mem_filter.mp hk
    exact ⟨(mem_keys_upstream_iff hroot).mp hmem, of_decide_eq_true hk⟩
  have hsub := hnodup.filter (·.artifactType = type)
  generalize (db.traverse (packageKey packageId) .upstream none).keys.filter
    (·.artifactType = type) = l at hsame hsub
  match l, hsame, hsub with
  | [], _, _ => exact Nat.zero_le 1
  | [_], _, _ => exact Nat.le_refl 1
  | k :: k' :: _, hsame, hsub =>
    obtain ⟨hk, rfl⟩ := hsame k (List.mem_cons_self ..)
    obtain ⟨hk', htype'⟩ := hsame k' (List.mem_cons_of_mem _ (List.mem_cons_self ..))
    have heq := hsingle k k' hk hk' htype htype'.symm
    exact absurd (heq ▸ List.mem_cons_self ..) (List.nodup_cons.mp hsub).1

/-! ## The order of insertion -/

theorem sortKey_injective : Function.Injective sortKey := by
  intro a b h
  have hpair := toLex.injective h
  have hid := congrArg Prod.snd (toLex.injective (congrArg Prod.snd hpair))
  have hrank : ∀ type type' : ArtifactType, type.stageRank = type'.stageRank → type = type' := by
    intro type type' h
    cases type <;> cases type' <;> first | rfl | exact absurd h (by decide)
  obtain ⟨type, id⟩ := a
  obtain ⟨type', id'⟩ := b
  rw [hrank type type' (congrArg Prod.fst hpair), show id = id' from hid]

theorem pairwise_keys_traverse (db : CatalogDb) (root : ArtifactKey) (direction : Direction)
    (maxDepth : Option ℕ) :
    (db.traverse root direction maxDepth).keys.Pairwise fun a b ↦ sortKey a ≤ sortKey b := by
  rw [Traversal.keys, List.pairwise_map]
  exact List.pairwise_insertionSort (fun a b : ArtifactKey × ArtifactRow ↦ sortKey a.1 ≤ sortKey b.1) _

/-- **The order of insertion does not matter.** -/
theorem collectReproducibilityData_congr (hartifacts : db.artifacts.items.Perm db'.artifacts.items)
    (hedges : db.lineageEdges.Perm db'.lineageEdges) (packageId : String) :
    db.collectReproducibilityData packageId = db'.collectReproducibilityData packageId := by
  have hget : db.getArtifact = db'.getArtifact := by
    funext k
    refine Option.ext fun row ↦ ?_
    rw [getArtifact, getArtifact, Dict.get?_eq_some_iff, Dict.get?_eq_some_iff, hartifacts.mem_iff]
  rw [collectReproducibilityData, collectReproducibilityData, hget]
  rcases hroot' : db'.getArtifact (packageKey packageId) with _ | row
  · rfl
  have hreg' : db'.Registered (packageKey packageId) := registered_iff.mpr ⟨row, hroot'⟩
  have hreg : db.Registered (packageKey packageId) := registered_iff.mpr ⟨row, hget ▸ hroot'⟩
  have hedge : db.Edge = db'.Edge := by
    funext p c
    exact propext (exists_congr fun e ↦ and_congr_left fun _ ↦ hedges.mem_iff)
  have hkeys : (db.traverse (packageKey packageId) .upstream none).keys =
      (db'.traverse (packageKey packageId) .upstream none).keys := by
    refine List.Perm.eq_of_pairwise (fun a b _ _ hab hba ↦ ?_)
      (pairwise_keys_traverse db _ _ _) (pairwise_keys_traverse db' _ _ _) ?_
    · exact sortKey_injective (le_antisymm hab hba)
    · refine (List.perm_ext_iff_of_nodup (traverse_nodup db _ _ _).1 (traverse_nodup db' _ _ _).1).mpr ?_
      intro k
      rw [mem_keys_upstream_iff hreg, mem_keys_upstream_iff hreg', Upstream, Upstream, hedge]
  have hmanifests : db.upstreamManifests packageId = db'.upstreamManifests packageId := by
    funext type
    have hat : db.manifestAt = db'.manifestAt := by
      funext k
      rw [manifestAt, manifestAt, hget]
    rw [upstreamManifests_eq, upstreamManifests_eq, hkeys, hat]
  rw [hmanifests]

/-! ## The result -/

/-- **The lineage fingerprint is free of ids.** Two packages of two catalogs whose ancestries are
isomorphic and record the same contents and configurations have the same fingerprint, if each has at
most one artifact of each stage behind the streams. And a catalog with the same rows in another order
gives every package the same fingerprint. -/
theorem lineageFingerprint_eq (sha : Json → String) :
    (∀ (db db' : CatalogDb) packageId packageId' φ, db.Registered (packageKey packageId) →
      db'.Registered (packageKey packageId') →
      LineageIso db db' (packageKey packageId) (packageKey packageId') φ →
      SingleStages db (packageKey packageId) →
      db.lineageFingerprint sha packageId = db'.lineageFingerprint sha packageId') ∧
    ∀ db db' : CatalogDb, db.artifacts.items.Perm db'.artifacts.items →
      db.lineageEdges.Perm db'.lineageEdges → ∀ packageId,
      db.lineageFingerprint sha packageId = db'.lineageFingerprint sha packageId := by
  refine ⟨?_, fun db db' hartifacts hedges packageId ↦ ?_⟩
  · intro db db' packageId packageId' φ hroot hroot' hiso hsingle
    obtain ⟨row, hrow⟩ := registered_iff.mp hroot
    obtain ⟨row', hrow'⟩ := registered_iff.mp hroot'
    have hpackage : SameRecords row.metadata row'.metadata := by
      have hrecords := hiso.records _ ReflTransGen.refl
      rwa [hiso.root_eq, manifestAt, manifestAt, hrow, hrow'] at hrecords
    have hpayload := fingerprintPayload_eq hpackage (exists_upstreamManifests_of_iso hroot hroot' hiso)
      fun type htype ↦ length_upstreamManifests_le hroot hsingle htype
    have hhashes := congrArg (Option.map sha) hpayload
    rw [Option.map_map, Option.map_map] at hhashes
    rw [lineageFingerprint, lineageFingerprint, collectReproducibilityData, collectReproducibilityData,
      hrow, hrow']
    exact congrArg Except.ok hhashes
  · rw [lineageFingerprint, lineageFingerprint, collectReproducibilityData_congr hartifacts hedges]

/-! ## Two runs over the same data -/

/-- A package of two streams, with the given ids. -/
def twoStreams (first second sync package : String) (hne : first ≠ second) : CatalogDb :=
  { empty with
    artifacts := .ofPairs [
      (⟨.ingestion, first⟩, { plainRow .ingestion with
        metadata := .obj [("ingestion_id", .str first), ("sha256", .str "a1")] }),
      (⟨.ingestion, second⟩, { plainRow .ingestion with
        metadata := .obj [("ingestion_id", .str second), ("sha256", .str "b2")] }),
      (⟨.synchronization, sync⟩, { plainRow .synchronization with
        metadata := .obj [("synchronization_config_hash", .str "c3"), ("storage_uri", .str sync)] }),
      (packageKey package, { plainRow .package with
        metadata := .obj [("packaging_config_hash", .str "d4"),
          ("splits", .obj [("train", .obj [("artifact_uri", .str package), ("sha256", .str "e5")])])] })]
    lineageEdges := [⟨⟨.ingestion, first⟩, ⟨.synchronization, sync⟩, .synchronizedFrom⟩,
      ⟨⟨.ingestion, second⟩, ⟨.synchronization, sync⟩, .synchronizedFrom⟩,
      ⟨⟨.synchronization, sync⟩, packageKey package, .packagedFrom⟩]
    edges_nodup := by simp [packageKey, hne]
    edges_registered := by simp [Dict.mem_keys_ofPairs] }

/-- The first run. -/
def firstRun : CatalogDb := twoStreams "i1" "i2" "s1" "p1" (by decide)

/-- The second run, whose ingestions sort the other way round. -/
def secondRun : CatalogDb := twoStreams "i9" "i8" "s2" "p2" (by decide)

/-- Which artifact of the second run stands for one of the first. -/
def corresponding (k : ArtifactKey) : ArtifactKey :=
  ⟨k.artifactType, (Dict.ofPairs [("i1", "i9"), ("i2", "i8"), ("s1", "s2")]).getD k.artifactId "p2"⟩

/-- The artifacts of the first run. -/
def firstKeys : List ArtifactKey :=
  [⟨.ingestion, "i1"⟩, ⟨.ingestion, "i2"⟩, ⟨.synchronization, "s1"⟩, packageKey "p1"]

theorem upstream_firstRun_iff (k : ArtifactKey) :
    firstRun.Upstream k (packageKey "p1") ↔ k ∈ firstKeys := by
  rw [← mem_keys_upstream_iff (by decide +kernel)]
  exact iff_of_eq (congrArg (k ∈ ·) (by decide +kernel))

theorem upstream_secondRun_iff (k : ArtifactKey) :
    secondRun.Upstream k (packageKey "p2") ↔ k ∈ firstKeys.map corresponding := by
  rw [← mem_keys_upstream_iff (by decide +kernel)]
  have hperm : (secondRun.traverse (packageKey "p2") .upstream none).keys.Perm
      (firstKeys.map corresponding) := by decide +kernel
  exact hperm.mem_iff

theorem sameRecords_firstKeys :
    ∀ k ∈ firstKeys, SameRecords (firstRun.manifestAt k) (secondRun.manifestAt (corresponding k)) := by
  intro k hk
  refine ⟨?_, ?_, ?_, ?_⟩
  · revert k
    decide +kernel
  · revert k
    decide +kernel
  · revert k
    decide +kernel
  · revert k
    decide +kernel

theorem lineageIso_firstRun_secondRun :
    LineageIso firstRun secondRun (packageKey "p1") (packageKey "p2") corresponding := by
  have hfirst := fun k ↦ (upstream_firstRun_iff k).mp
  refine ⟨by decide +kernel, ⟨?_, ?_, ?_⟩, ?_, ?_, ?_⟩
  · exact fun k hk ↦ (upstream_secondRun_iff _).mpr (List.mem_map_of_mem (hfirst k hk))
  · have hinj : ∀ k ∈ firstKeys, ∀ k' ∈ firstKeys, corresponding k = corresponding k' → k = k' := by
      decide +kernel
    exact fun k hk k' hk' ↦ hinj k (hfirst k hk) k' (hfirst k' hk')
  · intro k' hk'
    obtain ⟨k, hk, rfl⟩ := List.mem_map.mp ((upstream_secondRun_iff k').mp hk')
    exact ⟨k, (upstream_firstRun_iff k).mpr hk, rfl⟩
  · exact fun k _ ↦ rfl
  · have hedges : ∀ p ∈ firstKeys, ∀ c ∈ firstKeys, ∀ e ∈ firstRun.lineageEdges ++ secondRun.lineageEdges,
        (⟨p, c, e.relationship⟩ ∈ firstRun.lineageEdges ↔
          ⟨corresponding p, corresponding c, e.relationship⟩ ∈ secondRun.lineageEdges) := by
      decide +kernel
    intro p c relationship hp hc
    refine ⟨fun he ↦ ?_, fun he ↦ ?_⟩
    · exact (hedges p (hfirst p hp) c (hfirst c hc) _ (List.mem_append_left _ he)).mp he
    · exact (hedges p (hfirst p hp) c (hfirst c hc) _ (List.mem_append_right _ he)).mpr he
  · exact fun k hk ↦ sameRecords_firstKeys k (hfirst k hk)

theorem singleStages_firstRun : SingleStages firstRun (packageKey "p1") := by
  intro k k' hk hk'
  have hsingle : ∀ k ∈ firstKeys, ∀ k' ∈ firstKeys, k.artifactType ∈ singleStages →
      k.artifactType = k'.artifactType → k = k' := by decide +kernel
  exact hsingle k ((upstream_firstRun_iff k).mp hk) k' ((upstream_firstRun_iff k').mp hk')

/-- The first run with its artifacts registered and its edges inserted the other way round. -/
def firstRunReversed : CatalogDb :=
  { firstRun with
    artifacts := .ofPairs firstRun.artifacts.items.reverse
    lineageEdges := firstRun.lineageEdges.reverse
    edges_nodup := by decide +kernel
    edges_registered := by decide +kernel }

/-- What is hashed of the runs. -/
def twoStreamsPayload : Json :=
  .obj [("cleaning_config_hash", .null), ("normalization_config_hashes", .arr []),
    ("package_config_hash", .str "d4"), ("qc_config_hash", .null),
    ("raw_sha256_values", .arr [.str "a1", .str "b2"]), ("schema_versions", .arr []),
    ("split_checksums", .obj [("train", .str "e5")]), ("synchronization_config_hash", .str "c3"),
    ("transformation_config_hash", .null)]

/-- A hash that tells this payload from the others. -/
def payloadHash (payload : Json) : String := if payload = twoStreamsPayload then "f6" else "00"

/-- Both runs, and the first one in another order, have one fingerprint. -/
theorem lineageFingerprint_eq_twoStreams :
    firstRun.lineageFingerprint payloadHash "p1" = .ok (some "f6") ∧
      firstRun.lineageFingerprint payloadHash "p1" = secondRun.lineageFingerprint payloadHash "p2" ∧
      firstRun.lineageFingerprint payloadHash "p1" =
        firstRunReversed.lineageFingerprint payloadHash "p1" := by
  obtain ⟨hiso, horder⟩ := lineageFingerprint_eq payloadHash
  refine ⟨by decide +kernel, ?_, ?_⟩
  · exact hiso firstRun secondRun "p1" "p2" corresponding (by decide +kernel) (by decide +kernel)
      lineageIso_firstRun_secondRun singleStages_firstRun
  · exact horder firstRun firstRunReversed (by decide +kernel) (by decide +kernel) "p1"

end CatalogDb

end ForgeData
