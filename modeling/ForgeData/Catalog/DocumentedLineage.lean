import ForgeData.Catalog.ScanLists
import ForgeData.Catalog.StageRequests

/-!
# Edges and the manifests they come from

Edges are only stored for the references in a manifest, and the manifest of a registered artifact never
changes. So every edge into an artifact is documented by the metadata of the artifact, in every catalog
that scans and rebuilds produce. A rebuild step relies on this: it takes its parents from the edges and
puts its request together from the manifest.
-/

namespace ForgeData

open Python

/-- The references that the scanner of a stage takes from a manifest. -/
def parentRefs : ArtifactType → Json → Option (List ParentRef)
  | .ingestion => fun _ ↦ some []
  | .validation => oneParent .ingestion "ingestion_id" .validatedFrom
  | .integrity => oneParent .validation "validation_id" .checkedFrom
  | .normalization => oneParent .integrity "integrity_id" .normalizedFrom
  | .synchronization => streamRefs
  | .cleaning => oneParent .synchronization "synchronization_id" .cleanedFrom
  | .transformation => oneParent .cleaning "cleaning_id" .transformedFrom
  | .qc => oneParent .transformation "transformation_id" .qcOf
  | .package => packageRefs

theorem parentRefs_of_scanManifest {type : ArtifactType} {idField : String}
    {statusField storageField sha256Field : Option String} {createdField : String}
    {session : Json → Option (Option String)} {parents : Json → Option (List ParentRef)}
    {file : ManifestFile} {d : DiscoveredArtifact}
    (h : scanManifest type idField statusField storageField sha256Field createdField session parents
      file = some d) :
    ∃ data, parents data = some d.parents ∧ ∀ t, (d.record t).metadata = data.canonical := by
  simp only [scanManifest, bind, Option.bind_eq_some_iff] at h
  obtain ⟨data, -, id, -, status, -, storageUri, -, sha256, -, createdAt, -, sessionId, -,
    refs, hrefs, hd⟩ := h
  cases hd
  exact ⟨data, hrefs, fun _ ↦ rfl⟩

theorem parentRefs_of_mem_scanners {s : ArtifactType × (ManifestFile → Option DiscoveredArtifact)}
    (hs : s ∈ scanners) {file : ManifestFile} {d : DiscoveredArtifact} (h : s.2 file = some d) :
    ∃ data, parentRefs d.key.artifactType data = some d.parents ∧
      ∀ t, (d.record t).metadata = data.canonical := by
  rw [(rank_of_mem_scanners hs h).1]
  simp only [scanners, List.mem_cons, List.not_mem_nil, or_false] at hs
  rcases hs with rfl | rfl | rfl | rfl | rfl | rfl | rfl | rfl | rfl <;>
    exact parentRefs_of_scanManifest h

/-! ## References in canonical manifests -/

theorem parentRef_canonical (type : ArtifactType) (field : String)
    (relationship : RelationshipType) (data : Json) :
    parentRef type field relationship data.canonical = parentRef type field relationship data := by
  rw [parentRef, parentRef, Json.getStr?_canonical]

theorem streamRefs_canonical (data : Json) : streamRefs data.canonical = streamRefs data := by
  rw [streamRefs, streamRefs, Json.get?_canonical]
  rcases data.get? "streams" with _ | v
  · rfl
  · rw [Option.map_some]
    cases v with
    | arr streams =>
      simp only [Json.canonical, Json.canonicalList_eq_map]
      induction streams with
      | nil => rfl
      | cons stream streams ih =>
        rw [List.map_cons, List.mapM_cons, List.mapM_cons, parentRef_canonical, ih]
    | obj fields =>
      cases fields with
      | nil => rfl
      | cons p fields =>
        have hne : (Json.canonicalFields (p :: fields)).insertionSort (fun p q ↦ p.1 ≤ q.1)
            ≠ [] := fun h ↦ by
          have hlength := congrArg List.length h
          rw [List.length_insertionSort] at hlength
          cases hlength
        rw [Json.canonical]
        split <;> simp_all
    | null | bool | int | real | str => rfl

theorem parentRefs_canonical (type : ArtifactType) (data : Json) :
    parentRefs type data.canonical = parentRefs type data := by
  cases type with
  | ingestion => rfl
  | synchronization => exact streamRefs_canonical data
  | package => simp only [parentRefs, packageRefs, parentRef_canonical]
  | validation | integrity | normalization | cleaning | transformation | qc =>
    simp only [parentRefs, oneParent, parentRef_canonical]

namespace CatalogDb

/-- The references in the manifest of a registered artifact. -/
def documentedParents (db : CatalogDb) (k : ArtifactKey) : List ParentRef :=
  ((db.getArtifact k).bind fun row ↦ parentRefs k.artifactType row.metadata).getD []

/-- Every edge comes from the manifest of the child. -/
def Documented (db : CatalogDb) : Prop :=
  ∀ e ∈ db.lineageEdges, ⟨e.parent, e.relationship⟩ ∈ db.documentedParents e.child

variable {db db' : CatalogDb} {strict : Bool} {clock : ScanClock} {files : Files} {st : ScanState}

theorem documented_of_no_edges (h : db.lineageEdges = []) : db.Documented := fun e he ↦ by
  rw [h] at he
  cases he

/-- **A scan keeps the edges documented.** -/
theorem Documented.scan (hdb : db.Documented) (h : db.scan strict clock files = .ok st) :
    st.db.Documented := by
  have hscanned := scanned_of_scan h
  intro e he
  rcases (hscanned.edges e).1 he with hold | ⟨d, hd, ref, href, -, rfl⟩
  · have hdoc := hdb e hold
    rwa [documentedParents, hscanned.oldRows _ (db.edges_registered e hold).2]
  · obtain ⟨row, hrow⟩ := registered_iff.1 (st.db.edges_registered _ he).2
    obtain ⟨o, ho, hod⟩ := List.mem_filterMap.1 hd
    cases hod
    obtain ⟨s, hs, hstage⟩ := List.mem_flatMap.1 ho
    obtain ⟨file, -, hfile⟩ := List.mem_map.1 hstage
    obtain ⟨data, hrefs, hmetadata⟩ := parentRefs_of_mem_scanners hs hfile
    have hagrees := hscanned.agrees d hd row hrow
    have hrow' : st.db.getArtifact (d.edge ref).child = some row := hrow
    rw [documentedParents, hrow', Option.bind_some, hagrees.metadata, hmetadata,
      parentRefs_canonical]
    exact hrefs ▸ href

end CatalogDb

/-! ## The inputs of a request -/

/-- The artifact that a step reads in place of one that its manifest refers to. -/
def PlanStep.inputFor (step : PlanStep) (resolved : Dict ArtifactKey String) (k : ArtifactKey) :
    ArtifactKey :=
  if step.parents.any fun p ↦ p.replaced && p.artifact = k then
    ⟨k.artifactType, resolved.getD k k.artifactId⟩
  else k

namespace CatalogDb

/-- The parents of the step are the edges into its artifact. -/
def TakesParents (db : CatalogDb) (step : PlanStep) : Prop :=
  ∃ replaced, step.parents = (db.getParents step.artifact).map (stepParent replaced)

variable {db : CatalogDb} {step : PlanStep} {resolved : Dict ArtifactKey String}
  {p : PlanStepParent} {id : String}

theorem TakesParents.replaced_eq (h : db.TakesParents step) {p p' : PlanStepParent}
    (hp : p ∈ step.parents) (hp' : p' ∈ step.parents) (heq : p.artifact = p'.artifact) :
    p.replaced = p'.replaced := by
  obtain ⟨replaced, hparents⟩ := h
  rw [hparents] at hp hp'
  obtain ⟨e, -, rfl⟩ := List.mem_map.1 hp
  obtain ⟨e', -, rfl⟩ := List.mem_map.1 hp'
  have hartifact : ∀ e : EdgeRow, (stepParent replaced e).artifact = e.parent := fun e ↦ by
    rw [stepParent]
    split <;> rfl
  have hflag : ∀ e : EdgeRow, (stepParent replaced e).replaced = decide (e.parent ∈ replaced) :=
    fun e ↦ by
      rw [stepParent]
      split <;> simp [*]
  rw [hartifact, hartifact] at heq
  rw [hflag, hflag, heq]

theorem TakesParents.inputFor_eq (h : db.TakesParents step) (hp : p ∈ step.parents)
    (hid : resolveParentId resolved p = .ok id) :
    step.inputFor resolved p.artifact = ⟨p.artifact.artifactType, id⟩ := by
  have hany : (step.parents.any fun p' ↦ p'.replaced && p'.artifact = p.artifact) = p.replaced := by
    rw [Bool.eq_iff_iff, List.any_eq_true]
    constructor
    · rintro ⟨p', hp', hand⟩
      rw [Bool.and_eq_true, decide_eq_true_eq] at hand
      rw [← hand.1]
      exact h.replaced_eq hp hp' hand.2.symm
    · exact fun hreplaced ↦ ⟨p, hp, by simp [hreplaced]⟩
  rw [PlanStep.inputFor, hany]
  rw [resolveParentId] at hid
  split at hid
  · next hreplaced =>
    rw [if_pos hreplaced]
    split at hid
    · next id' hget =>
      cases hid
      rw [Dict.getD, hget, Option.getD_some]
    · cases hid
  · next hreplaced =>
    cases hid
    rw [if_neg hreplaced]

theorem inputFor_of_not_mem {k : ArtifactKey} (h : ∀ p ∈ step.parents, p.artifact ≠ k) :
    step.inputFor resolved k = k := by
  rw [PlanStep.inputFor, if_neg]
  simp only [List.any_eq_true, Bool.and_eq_true, decide_eq_true_eq, not_exists, not_and]
  exact fun p hp _ ↦ h p hp

theorem TakesParents.documented (h : db.TakesParents step) (hdb : db.Documented)
    (hp : p ∈ step.parents) :
    ∃ ref ∈ db.documentedParents step.artifact, ref.artifact = p.artifact := by
  obtain ⟨replaced, hparents⟩ := h
  rw [hparents] at hp
  obtain ⟨e, he, rfl⟩ := List.mem_map.1 hp
  obtain ⟨hmem, hchild⟩ := mem_getParents.1 he
  refine ⟨_, hchild ▸ hdb e hmem, ?_⟩
  rw [stepParent]
  split <;> rfl

/-- The parent that a step finds by its kind is the one the manifest refers to, if it refers to one
of that kind only. -/
theorem TakesParents.inputFor_eq_of_nextParent (h : db.TakesParents step) (hdb : db.Documented)
    {type : ArtifactType} {ref : ParentRef}
    (hrefs : ∀ ref' ∈ db.documentedParents step.artifact, ref'.artifact.artifactType = type →
      ref' = ref)
    (hnext : nextParent step type = .ok p) (hid : resolveParentId resolved p = .ok id) :
    step.inputFor resolved ref.artifact = ⟨type, id⟩ := by
  rw [nextParent] at hnext
  split at hnext
  · next parent hfind =>
    cases hnext
    have htype : p.artifact.artifactType = type := by simpa using List.find?_some hfind
    have hp : p ∈ step.parents := List.mem_of_find?_eq_some hfind
    obtain ⟨ref', href', heq⟩ := h.documented hdb hp
    obtain rfl := hrefs ref' href' (heq ▸ htype)
    rw [heq, h.inputFor_eq hp hid, htype]
  · cases hnext

theorem inputs_of_oneInputRequest (h : db.TakesParents step) (hdb : db.Documented)
    {type : ArtifactType} {field versioned : String} {relationship : RelationshipType}
    {data manifest : Json} {refs : List ParentRef} {rawConfig : Option Json}
    {make : String → Json → Json → Json → StageRequest}
    (hmake : ∀ id name version config, (make id name version config).inputs = [⟨type, id⟩])
    (hone : oneParent type field relationship data = some refs)
    (hdocs : db.documentedParents step.artifact = refs) {request : StageRequest}
    (hrequest : oneInputRequest type versioned make step resolved manifest rawConfig = .ok request) :
    request.inputs = refs.map fun ref ↦ step.inputFor resolved ref.artifact := by
  obtain ⟨ref, href, rfl⟩ := Option.map_eq_some_iff.1 hone
  simp only [oneInputRequest, bind_eq_ok_iff] at hrequest
  obtain ⟨parent, hnext, id, hid, config, -, policy, -, name, -, policy', -, version, -, hmade⟩ :=
    hrequest
  cases hmade
  have hrefs : ∀ ref' ∈ db.documentedParents step.artifact, ref'.artifact.artifactType = type →
      ref' = ref := fun ref' href' _ ↦ List.mem_singleton.1 (hdocs ▸ href')
  have hinput := h.inputFor_eq_of_nextParent hdb hrefs hnext hid
  rw [hmake, List.map_singleton, hinput]

theorem inputs_of_packagingRequest (h : db.TakesParents step) (hdb : db.Documented)
    {data manifest : Json} {refs : List ParentRef} {rawConfig : Option Json}
    (hrefs : packageRefs data = some refs) (hdocs : db.documentedParents step.artifact = refs)
    {request : StageRequest}
    (hrequest : packagingRequest step resolved manifest rawConfig = .ok request) :
    request.inputs = refs.map fun ref ↦ step.inputFor resolved ref.artifact := by
  simp only [packageRefs, bind, Option.bind_eq_some_iff] at hrefs
  obtain ⟨r₁, h₁, r₂, h₂, hrefs⟩ := hrefs
  cases hrefs
  have htype₁ := type_of_parentRef h₁
  have htype₂ := type_of_parentRef h₂
  simp only [packagingRequest, bind_eq_ok_iff] at hrequest
  obtain ⟨transformation, hnext₁, qc, hnext₂, transformationId, hid₁, qcId, hid₂, config, -,
    profile, -, name, -, profile', -, version, -, hmade⟩ := hrequest
  cases hmade
  have honly₁ : ∀ ref ∈ db.documentedParents step.artifact,
      ref.artifact.artifactType = .transformation → ref = r₁ := by
    intro ref href htype
    rw [hdocs] at href
    rcases List.mem_pair.1 href with rfl | rfl
    · rfl
    · rw [htype] at htype₂
      cases htype₂
  have honly₂ : ∀ ref ∈ db.documentedParents step.artifact,
      ref.artifact.artifactType = .qc → ref = r₂ := by
    intro ref href htype
    rw [hdocs] at href
    rcases List.mem_pair.1 href with rfl | rfl
    · rw [htype] at htype₁
      cases htype₁
    · rfl
  have hinput₁ := h.inputFor_eq_of_nextParent hdb honly₁ hnext₁ hid₁
  have hinput₂ := h.inputFor_eq_of_nextParent hdb honly₂ hnext₂ hid₂
  rw [List.map_cons, List.map_singleton, hinput₁, hinput₂]
  rfl

/-! ## The streams of a synchronization -/

theorem item_eq_ok_iff {data v : Json} {field : String} :
    item data field = .ok v ↔ data.get? field = some v := by
  cases data with
  | obj fields =>
    rw [item, Json.get?]
    cases fields.lookup field <;> simp
  | null | bool | int | real | str | arr => simp [item, Json.get?]

/-- A stream reads the normalization that its entry refers to, or what replaces it. -/
theorem TakesParents.stream_eq (h : db.TakesParents step) {s : Json} {stream : Json × String}
    {ref : ParentRef} (href : parentRef .normalization "normalization_id" .synchronizedFrom s
      = some ref) (hstream : streamRequest (parentByOriginalId step) resolved s = .ok stream) :
    (⟨.normalization, stream.2⟩ : ArtifactKey) = step.inputFor resolved ref.artifact := by
  obtain ⟨id, hid, rfl⟩ := Option.map_eq_some_iff.1 href
  have hget : s.get? "normalization_id" = some (.str id) := by
    rw [Json.getStr?] at hid
    split at hid
    · next hget => rw [hget, Option.some.inj hid]
    · cases hid
  simp only [streamRequest, bind_eq_ok_iff] at hstream
  obtain ⟨v, hv, hstream⟩ := hstream
  rw [item_eq_ok_iff, hget] at hv
  cases hv
  simp only at hstream
  split at hstream
  · next parent hparent =>
    simp only [bind_eq_ok_iff] at hstream
    obtain ⟨normalizationId, hnormalization, name, -, hmade⟩ := hstream
    cases hmade
    have hmem := Dict.mem_of_get?_ofPairs hparent
    obtain ⟨p, hp, heq⟩ := List.mem_map.1 hmem
    rw [Prod.mk.injEq] at heq
    obtain ⟨rfl, rfl⟩ := heq
    obtain ⟨hp, htype⟩ := List.mem_filter.1 hp
    rw [decide_eq_true_eq] at htype
    have hinput := h.inputFor_eq hp hnormalization
    rw [← htype, hinput]
  · next hnone =>
    simp only [bind_eq_ok_iff] at hstream
    obtain ⟨normalizationId, hnormalization, name, -, hmade⟩ := hstream
    cases hnormalization
    cases hmade
    refine (inputFor_of_not_mem fun p hp heq ↦ ?_).symm
    refine Dict.get?_eq_none_iff.1 hnone (Dict.mem_keys_ofPairs.2 ?_)
    rw [List.map_map]
    exact List.mem_map.2 ⟨p, List.mem_filter.2 ⟨hp, by simp [heq]⟩, by simp [heq]⟩

theorem inputs_of_synchronizationRequest (h : db.TakesParents step) {manifest : Json}
    {refs : List ParentRef} (hrefs : streamRefs manifest = some refs) {request : StageRequest}
    (hrequest : synchronizationRequest step resolved manifest = .ok request) :
    request.inputs = refs.map fun ref ↦ step.inputFor resolved ref.artifact := by
  simp only [synchronizationRequest, bind_eq_ok_iff] at hrequest
  obtain ⟨v, hv, l, hl, streams, hstreams, reference, -, alignment, -, hmade⟩ := hrequest
  cases hmade
  rw [item_eq_ok_iff] at hv
  rw [streamRefs, hv] at hrefs
  have hnil : l = [] → refs = [] → (StageRequest.synchronize streams reference alignment
      (((manifest.get? "clock_corrections").filter (!falsy ·)).getD (.obj []))).inputs
        = refs.map fun ref ↦ step.inputFor resolved ref.artifact := by
    rintro rfl rfl
    cases hstreams
    rfl
  split at hrefs
  · next heq => cases heq
  · next heq =>
    cases heq
    cases hl
    cases hrefs
    exact hnil rfl rfl
  · next heq =>
    cases heq
    cases hl
    cases hrefs
    exact hnil rfl rfl
  · next entries heq =>
    cases heq
    cases hl
    have hall := forall₂_of_mapM_eq_ok hstreams
    clear hstreams hnil hv
    induction hall generalizing refs with
    | nil =>
      cases hrefs
      rfl
    | cons hstream _ ih =>
      simp only [List.mapM_cons, bind, Option.bind_eq_some_iff] at hrefs
      obtain ⟨ref, href, refs', hrefs', hrefs⟩ := hrefs
      cases hrefs
      have htail := ih hrefs'
      rw [StageRequest.inputs] at htail
      rw [StageRequest.inputs, List.map_cons, List.map_cons, h.stream_eq href hstream, htail]
  · cases hrefs

/-- **The inputs of a request**: the artifacts that the manifest refers to, with those that the plan
replaces exchanged for what they were replaced by. -/
theorem TakesParents.inputs_eq (h : db.TakesParents step) (hdb : db.Documented)
    (hne : step.parents ≠ []) {rawConfig : Option Json} {request : StageRequest}
    (hrequest : stageRequest step resolved
      (((db.getArtifact step.artifact).map ArtifactRow.metadata).getD (.obj [])) rawConfig
        = .ok request) :
    request.inputs
      = (db.documentedParents step.artifact).map fun ref ↦ step.inputFor resolved ref.artifact := by
  obtain ⟨p, hp⟩ := List.exists_mem_of_ne_nil _ hne
  obtain ⟨ref, href, -⟩ := h.documented hdb hp
  have hdocs := href
  rw [documentedParents] at hdocs
  obtain ⟨refs, hrefs⟩ : ∃ refs, (db.getArtifact step.artifact).bind (fun row ↦
      parentRefs step.artifact.artifactType row.metadata) = some refs := by
    rcases hbind : (db.getArtifact step.artifact).bind (fun row ↦
      parentRefs step.artifact.artifactType row.metadata) with _ | refs
    · rw [hbind] at hdocs
      cases hdocs
    · exact ⟨refs, rfl⟩
  have heq : db.documentedParents step.artifact = refs := by
    rw [documentedParents, hrefs, Option.getD_some]
  obtain ⟨row, hrow, hparse⟩ := Option.bind_eq_some_iff.1 hrefs
  rw [hrow, Option.map_some, Option.getD_some, stageRequest] at hrequest
  rw [heq]
  split at hrequest
  · next htype =>
    rw [htype] at hparse
    exact inputs_of_synchronizationRequest h hparse hrequest
  · next htype =>
    rw [htype] at hparse
    exact inputs_of_oneInputRequest h hdb (fun _ _ _ _ ↦ rfl) hparse heq hrequest
  · next htype =>
    rw [htype] at hparse
    exact inputs_of_oneInputRequest h hdb (fun _ _ _ _ ↦ rfl) hparse heq hrequest
  · next htype =>
    rw [htype] at hparse
    exact inputs_of_oneInputRequest h hdb (fun _ _ _ _ ↦ rfl) hparse heq hrequest
  · next htype =>
    rw [htype] at hparse
    exact inputs_of_packagingRequest h hdb hparse heq hrequest
  · cases hrequest

end CatalogDb

end ForgeData
