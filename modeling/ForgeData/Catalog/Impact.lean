import ForgeData.Catalog.Governance

/-!
# Impact analysis

What `impact` and `enriched_impact` report about an artifact: the artifacts downstream of it by type,
the packages among them, and the dataset versions that point to one of these packages, each with its
effective status.

The report walks downstream from the artifact, the effective status of a version walks upstream from
its package. Both stop at the same graph, so they agree on every package but one: the loop over the
nodes skips the artifact itself, and with it the versions that point to it.
-/

namespace ForgeData

open Python Relation

structure AffectedVersion where
  version : String × String
  packageId : String
  effective : EffectiveStatus
  deriving DecidableEq, Repr

/-- `EnrichedImpactResponse`. -/
structure EnrichedImpact where
  sourceGovernanceState : GovernanceState
  affectedArtifacts : Dict String ℕ
  affectedPackages : List String
  affectedDatasetVersions : List AffectedVersion
  descendantGovernanceCounts : Dict String ℕ

/-- The version is among the affected ones. -/
def EnrichedImpact.Reports (report : EnrichedImpact) (version : String × String) : Prop :=
  ∃ r ∈ report.affectedDatasetVersions, r.version = version

namespace CatalogDb

variable (db : CatalogDb)

/-- The message for an artifact without a row. -/
def notFound (k : ArtifactKey) : CatalogError :=
  .artifactNotFound s!"No {k.artifactType.text} artifact with id '{k.artifactId}'"

/-- `CatalogService.impact`. -/
def impact (k : ArtifactKey) : Except CatalogError (Dict String ℕ) :=
  match db.getArtifact k with
  | none => .error (notFound k)
  | some _ => .ok (db.impactAnalysis k)

/-- The affected versions with their effective status, in the order of the report. -/
def affectedVersions (k : ArtifactKey) : List AffectedVersion :=
  sortedBy (fun r ↦ toLex r.version) ((db.impactVersions k).map fun v ↦
    ⟨v.1, v.2.packageId, db.computeEffectiveVersionStatus v.1 v.2.packageId⟩)

/-- The loop of `enriched_impact` over the states of the nodes. -/
def countGovernance (k : ArtifactKey) : Dict String ℕ :=
  ((db.traverse k .downstream none).others k).foldl (fun counts a ↦
    counts.set (db.governanceState a).text (counts.getD (db.governanceState a).text 0 + 1)) Dict.empty

/-- `CatalogService.enriched_impact`. -/
def enrichedImpact (k : ArtifactKey) : Except CatalogError EnrichedImpact :=
  match db.getArtifact k with
  | none => .error (notFound k)
  | some _ =>
    let counts := db.impactAnalysis k
    if (db.affectedVersions k).length = counts.getD "dataset_versions" 0 then
      .ok {
        sourceGovernanceState := db.governanceState k
        affectedArtifacts := counts.erase "dataset_versions"
        affectedPackages := sortedBy id (db.impactCounts k).2.dedup
        affectedDatasetVersions := db.affectedVersions k
        descendantGovernanceCounts := db.countGovernance k }
    else .error (.assertionError "enriched impact must agree with impact() on version count")

/-! ## Which versions are counted -/

variable {db} {k a : ArtifactKey} {v : String × String} {row : VersionRow}

theorem mem_foldl_countImpact_iff {root : ArtifactKey} {nodes : List (ArtifactKey × ArtifactRow)}
    {acc : Dict String ℕ × List String} {id : String} :
    id ∈ (nodes.foldl (countImpact root) acc).2 ↔
      id ∈ acc.2 ∨ packageKey id ≠ root ∧ ∃ row, (packageKey id, row) ∈ nodes := by
  induction nodes generalizing acc with
  | nil => simp
  | cons n nodes ih =>
    obtain ⟨⟨type, id'⟩, row⟩ := n
    have hstep : id ∈ (countImpact root acc (⟨type, id'⟩, row)).2 ↔
        id ∈ acc.2 ∨ packageKey id ≠ root ∧ packageKey id = ⟨type, id'⟩ := by
      rw [countImpact]
      split
      · next h => exact ⟨.inl, fun h' ↦ h'.elim (fun h ↦ h) fun h' ↦ (h'.1 (h'.2.trans h)).elim⟩
      · next h =>
        dsimp only
        split
        · next hp =>
          subst hp
          rw [List.mem_append, List.mem_singleton]
          refine or_congr_right ⟨?_, fun heq ↦ congrArg ArtifactKey.artifactId heq.2⟩
          rintro rfl
          exact ⟨h, rfl⟩
        · next hp =>
          exact ⟨.inl, fun h' ↦ h'.elim (fun h ↦ h) fun h' ↦
            (hp (congrArg ArtifactKey.artifactType h'.2).symm).elim⟩
    rw [List.foldl_cons, ih, hstep, or_assoc, ← and_or_left]
    refine or_congr_right (and_congr_right fun _ ↦ ⟨?_, ?_⟩)
    · rintro (heq | ⟨row', hrow'⟩)
      · exact ⟨row, heq ▸ List.mem_cons_self ..⟩
      · exact ⟨row', List.mem_cons_of_mem _ hrow'⟩
    · rintro ⟨row', hrow'⟩
      rcases List.mem_cons.1 hrow' with heq | hrow'
      · exact .inl (congrArg Prod.fst heq)
      · exact .inr ⟨row', hrow'⟩

theorem mem_impactVersions_iff : (v, row) ∈ db.impactVersions a ↔
    db.getDatasetVersion v = some row ∧ TransGen db.Edge a (packageKey row.packageId) ∧
      packageKey row.packageId ≠ a := by
  have hpackage : row.packageId ∈ (db.impactCounts a).2 ↔
      TransGen db.Edge a (packageKey row.packageId) ∧ packageKey row.packageId ≠ a := by
    rw [impactCounts, mem_foldl_countImpact_iff, or_iff_right List.not_mem_nil, and_comm]
    refine and_congr_left fun hne ↦ ⟨fun ⟨prow, hnode⟩ ↦ ?_, fun h ↦ ?_⟩
    · have hdown := (mem_nodes_downstream_iff.1 hnode).2
      exact (Graph.eq_or_transGen_of_reflTransGen hdown).resolve_left (Ne.symm hne)
    · obtain ⟨prow, hprow⟩ := registered_iff.1 (registered_of_transGen h).2
      exact ⟨prow, mem_nodes_downstream_iff.2 ⟨hprow, h.to_reflTransGen⟩⟩
  rw [impactVersions, listDatasetVersionsForPackages, mem_sortedBy, List.mem_filter,
    decide_eq_true_eq, hpackage, getDatasetVersion, Dict.get?_eq_some_iff]

theorem reports_iff {report : EnrichedImpact} (h : db.enrichedImpact a = .ok report) :
    report.Reports v ↔ v ∈ (db.impactVersions a).map Prod.fst := by
  rw [enrichedImpact] at h
  split at h
  · cases h
  dsimp only at h
  split at h
  · cases h
    obtain ⟨datasetName, version⟩ := v
    simp [EnrichedImpact.Reports, affectedVersions]
  · cases h

theorem exists_enrichedImpact (h : db.Registered a) : ∃ report, db.enrichedImpact a = .ok report ∧
    report.affectedDatasetVersions.length = (db.impactVersions a).length := by
  obtain ⟨row, hrow⟩ := registered_iff.1 h
  have hlen : (db.affectedVersions a).length = (db.impactVersions a).length := by
    rw [affectedVersions, (perm_sortedBy _ _).length_eq, List.length_map]
  simp [enrichedImpact, hrow, impactAnalysis, Dict.getD, hlen]

/-! ## The effective status of a version -/

/-- A version without a judgment of its own is affected if something in the lineage of its package is
invalid, and healthy otherwise. -/
theorem status_eq_affected_iff {packageId : String} (h : db.getDatasetVersionGovernance v = none) :
    (db.computeEffectiveVersionStatus v packageId).status = .affected ↔
      ¬ db.LineageFree .invalid (packageKey packageId) := by
  rw [← invalid_clear_iff, computeEffectiveVersionStatus, h]
  dsimp only [derivedStatus]
  split
  · next hdirect => simp [hdirect]
  · next hdirect => split <;> simp [*]

theorem status_eq_healthy_iff {packageId : String} (h : db.getDatasetVersionGovernance v = none) :
    (db.computeEffectiveVersionStatus v packageId).status = .healthy ↔
      db.LineageFree .invalid (packageKey packageId) := by
  rw [← invalid_clear_iff, computeEffectiveVersionStatus, h]
  dsimp only [derivedStatus]
  split
  · next hdirect => simp [hdirect]
  · next hdirect => split <;> simp [*]

/-- **Marking an artifact invalid** affects the healthy versions whose package has it in its lineage,
the package itself included. -/
theorem status_eq_affected_iff_upstream {previous : GovernanceState} {grow : GovernanceRow}
    {packageId : String} (h : db.getDatasetVersionGovernance v = none)
    (hhealthy : (db.computeEffectiveVersionStatus v packageId).status = .healthy)
    (hgrow : grow.state = .invalid) :
    ((db.setArtifactGovernance a previous grow).computeEffectiveVersionStatus v packageId).status
        = .affected ↔ db.Upstream a (packageKey packageId) := by
  have hfree := (status_eq_healthy_iff h).1 hhealthy
  have h' : (db.setArtifactGovernance a previous grow).getDatasetVersionGovernance v = none := h
  rw [status_eq_affected_iff h']
  simp only [LineageFree, upstream_setArtifactGovernance, governanceState_setArtifactGovernance,
    hgrow, not_forall]
  constructor
  · rintro ⟨x, hx, hstate⟩
    split at hstate
    · next heq => exact heq ▸ hx
    · exact (hstate (hfree x hx)).elim
  · exact fun hup ↦ ⟨a, hup, by simp⟩

/-- **Impact analysis foresees the effective status of a healthy version**, of every version whose
package is not the artifact itself. -/
theorem reports_iff_affected_iff {report : EnrichedImpact} {request : GovernanceRequest}
    {updatedAt : String} {db' : CatalogDb} (hv : db.getDatasetVersion v = some row)
    (hgov : db.getDatasetVersionGovernance v = none)
    (hhealthy : (db.computeEffectiveVersionStatus v row.packageId).status = .healthy)
    (hreport : db.enrichedImpact a = .ok report)
    (hmark : db.changeGovernance a request updatedAt = .ok db')
    (hinvalid : request.newState = "invalid") :
    ((report.Reports v ∧ v ∈ (db.impactVersions a).map Prod.fst) ↔
        (db'.computeEffectiveVersionStatus v row.packageId).status = .affected) ↔
      packageKey row.packageId ≠ a := by
  obtain ⟨-, state, reason, hstate, rfl⟩ := of_changeGovernance hmark
  have hrow : (request.row state reason updatedAt).state = .invalid := by
    rw [hinvalid] at hstate
    change state = .invalid
    revert hstate
    cases state <;> decide
  have hcounted : v ∈ (db.impactVersions a).map Prod.fst ↔
      TransGen db.Edge a (packageKey row.packageId) ∧ packageKey row.packageId ≠ a := by
    rw [List.mem_map]
    constructor
    · rintro ⟨⟨v', row'⟩, hmem, rfl⟩
      obtain ⟨hrow', hrest⟩ := mem_impactVersions_iff.1 hmem
      rw [hv] at hrow'
      cases hrow'
      exact hrest
    · exact fun h ↦ ⟨(v, row), mem_impactVersions_iff.2 ⟨hv, h⟩, rfl⟩
  rw [reports_iff hreport, and_self, hcounted, status_eq_affected_iff_upstream hgov hhealthy hrow]
  constructor
  · rintro h rfl
    exact (h.2 .refl).2 rfl
  · refine fun hne ↦ ⟨fun h ↦ h.1.to_reflTransGen, fun hup ↦ ⟨?_, hne⟩⟩
    exact (Graph.eq_or_transGen_of_reflTransGen hup).resolve_left (Ne.symm hne)

/-! ### A version whose package is the artifact -/

/-- A row without columns worth mentioning. -/
def plainRow (type : ArtifactType) : ArtifactRow :=
  ⟨type.stageRank, some "completed", none, none, none, none, none, none, .obj [], "t0"⟩

/-- One transformation, one package made from it, and one version that points to the package. -/
def onePackage : CatalogDb :=
  { empty with
    artifacts := .ofPairs [(⟨.transformation, "t"⟩, plainRow .transformation),
      (packageKey "p", plainRow .package)]
    lineageEdges := [⟨⟨.transformation, "t"⟩, packageKey "p", .packagedFrom⟩]
    datasets := .ofPairs [("d", ⟨none, .obj [], "t0"⟩)]
    datasetVersions := .ofPairs [(("d", "1.0.0"), ⟨"p", none, [], "active", "t0"⟩)]
    edges_nodup := by decide
    edges_registered := by decide
    versions_registered := by decide
    governed_registered := List.forall_mem_nil _ }

/-- A call that marks an artifact invalid. -/
def markInvalid : GovernanceRequest := ⟨"invalid", some "bad", none, none, none⟩

/-- The package is marked invalid: its version is affected, and was not reported. -/
theorem package_not_in_own_impact : ∃ report db',
    onePackage.enrichedImpact (packageKey "p") = .ok report ∧
    onePackage.changeGovernance (packageKey "p") markInvalid "t1" = .ok db' ∧
    (onePackage.computeEffectiveVersionStatus ("d", "1.0.0") "p").status = .healthy ∧
    report.affectedDatasetVersions = [] ∧
    onePackage.impactVersions (packageKey "p") = [] ∧
    (db'.computeEffectiveVersionStatus ("d", "1.0.0") "p").status = .affected :=
  ⟨_, _, rfl, rfl, by decide +kernel, by decide +kernel, by decide +kernel, by decide +kernel⟩

/-- The version is reported for the transformation. -/
theorem reports_iff_affected_iff_transformation : ∃ report db',
    onePackage.enrichedImpact ⟨.transformation, "t"⟩ = .ok report ∧
    onePackage.changeGovernance ⟨.transformation, "t"⟩ markInvalid "t1" = .ok db' ∧
    (((report.Reports ("d", "1.0.0") ∧
        ("d", "1.0.0") ∈ (onePackage.impactVersions ⟨.transformation, "t"⟩).map Prod.fst) ↔
      (db'.computeEffectiveVersionStatus ("d", "1.0.0") "p").status = .affected) ↔
      packageKey "p" ≠ ⟨.transformation, "t"⟩) := by
  have hv : onePackage.getDatasetVersion ("d", "1.0.0") = some ⟨"p", none, [], "active", "t0"⟩ := by
    decide +kernel
  have hmark : ∃ db', onePackage.changeGovernance ⟨.transformation, "t"⟩ markInvalid "t1"
      = .ok db' := ⟨_, rfl⟩
  obtain ⟨report, hreport, -⟩ := exists_enrichedImpact
    (show onePackage.Registered ⟨.transformation, "t"⟩ by decide +kernel)
  obtain ⟨db', hmark⟩ := hmark
  exact ⟨report, db', hreport, hmark, reports_iff_affected_iff hv (by decide +kernel)
    (by decide +kernel) hreport hmark rfl⟩

end CatalogDb

end ForgeData
