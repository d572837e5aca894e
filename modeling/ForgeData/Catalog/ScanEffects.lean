import ForgeData.Catalog.Scanner
import ForgeData.Python.Loop

/-!
# What a scan does

One reference, one artifact, and a whole list of artifacts: for each, what a successful pass leaves
behind, and when it succeeds. The references of an artifact lead to earlier stages and the stages are
scanned in order, so whether a parent is registered does not depend on where in the scan the reference
is met: a parent counts as registered if it was there before, or if the scan finds its manifest.
-/

namespace ForgeData

open Python Graph Relation

/-! ## Tables that a scan leaves alone -/

/-- The tables that are not derived from manifests are the same. -/
structure CatalogDb.SameUserTables (db db' : CatalogDb) : Prop where
  datasets : db'.datasets = db.datasets
  datasetVersions : db'.datasetVersions = db.datasetVersions
  artifactGovernance : db'.artifactGovernance = db.artifactGovernance
  artifactGovernanceEvents : db'.artifactGovernanceEvents = db.artifactGovernanceEvents
  versionGovernance : db'.versionGovernance = db.versionGovernance
  versionGovernanceEvents : db'.versionGovernanceEvents = db.versionGovernanceEvents

namespace CatalogDb.SameUserTables

theorem refl (db : CatalogDb) : db.SameUserTables db := ⟨rfl, rfl, rfl, rfl, rfl, rfl⟩

theorem trans {db db' db'' : CatalogDb} (h : db.SameUserTables db') (h' : db'.SameUserTables db'') :
    db.SameUserTables db'' :=
  ⟨h'.1.trans h.1, h'.2.trans h.2, h'.3.trans h.3, h'.4.trans h.4, h'.5.trans h.5, h'.6.trans h.6⟩

end CatalogDb.SameUserTables

/-! ## Rows that agree -/

/-- The rows have the same values in the fields that must not change. -/
structure ArtifactRow.Agrees (existing record : ArtifactRow) : Prop where
  contentSha256 : existing.contentSha256 = record.contentSha256
  manifestUri : existing.manifestUri = record.manifestUri
  manifestSha256 : existing.manifestSha256 = record.manifestSha256
  storageUri : existing.storageUri = record.storageUri
  metadata : existing.metadata = record.metadata

namespace ArtifactRow.Agrees

variable {row row' record record' : ArtifactRow}

theorem of_untimed_eq (h : row.untimed = record.untimed) : row.Agrees record := by
  simp only [ArtifactRow.untimed, ArtifactRow.mk.injEq] at h
  obtain ⟨-, -, hstorage, hcontent, huri, hsha, -, -, hmetadata, -⟩ := h
  exact ⟨hcontent, huri, hsha, hstorage, hmetadata⟩

theorem trans {row₁ row₂ row₃ : ArtifactRow} (h : row₁.Agrees row₂) (h' : row₂.Agrees row₃) :
    row₁.Agrees row₃ :=
  ⟨h.1.trans h'.1, h.2.trans h'.2, h.3.trans h'.3, h.4.trans h'.4, h.5.trans h'.5⟩

end ArtifactRow.Agrees

namespace CatalogDb

variable {db db' : CatalogDb}

theorem find?_conflictFields_eq_none_iff {existing record : ArtifactRow} :
    (conflictFields existing record).find? (fun p ↦ !p.2) = none ↔ existing.Agrees record := by
  simp only [conflictFields, List.find?_eq_none, List.forall_mem_cons,
    Bool.not_eq_true, Bool.not_eq_false', decide_eq_true_eq]
  constructor
  · rintro ⟨h₁, h₂, h₃, h₄, h₅, -⟩
    exact ⟨h₁, h₂, h₃, h₄, h₅⟩
  · rintro ⟨h₁, h₂, h₃, h₄, h₅⟩
    exact ⟨h₁, h₂, h₃, h₄, h₅, List.forall_mem_nil _⟩

/-- **What inserting an edge does.** -/
theorem of_insertEdge {e : EdgeRow} {inserted : Bool} (h : db.insertEdge e = .ok (inserted, db')) :
    db'.artifacts = db.artifacts ∧ db.SameUserTables db' ∧ db'.lineageIssues = db.lineageIssues ∧
      ∀ e', e' ∈ db'.lineageEdges ↔ e' ∈ db.lineageEdges ∨ e' = e := by
  rw [insertEdge] at h
  split at h
  · next hmem =>
    cases h
    exact ⟨rfl, .refl db, rfl, fun e' ↦ ⟨.inl, fun h ↦ h.elim id fun h ↦ h ▸ hmem⟩⟩
  · split at h
    · cases h
      exact ⟨rfl, ⟨rfl, rfl, rfl, rfl, rfl, rfl⟩, rfl, fun e' ↦ by simp⟩
    · cases h

theorem exists_insertEdge {e : EdgeRow} (hp : db.Registered e.parent) (hc : db.Registered e.child) :
    ∃ r, db.insertEdge e = .ok r := by
  rw [insertEdge]
  split
  · exact ⟨_, rfl⟩
  · rw [dif_pos ⟨hp, hc⟩]
    exact ⟨_, rfl⟩

/-- **What registering an artifact does**: the row is added if there is none, and a row that is there
agrees with it. -/
theorem of_upsertArtifact {k : ArtifactKey} {record : ArtifactRow} {inserted : Bool}
    (h : db.upsertArtifact k record = .ok (inserted, db')) :
    db'.lineageEdges = db.lineageEdges ∧ db.SameUserTables db' ∧
      db'.lineageIssues = db.lineageIssues ∧ (∀ row, db.getArtifact k = some row → row.Agrees record) ∧
      ∀ k', db'.getArtifact k' =
        if k' = k ∧ ¬ db.Registered k then some record else db.getArtifact k' := by
  rw [upsertArtifact] at h
  split at h
  · next hnone =>
    cases h
    have hreg : ¬ db.Registered k := getArtifact_eq_none_iff.1 hnone
    refine ⟨rfl, ⟨rfl, rfl, rfl, rfl, rfl, rfl⟩, rfl, fun row hrow ↦ ?_, fun k' ↦ ?_⟩
    · rw [hnone] at hrow
      cases hrow
    · simp [getArtifact, hreg]
  · next row hrow =>
    have hreg : db.Registered k := registered_iff.2 ⟨row, hrow⟩
    split at h
    · cases h
    · next hfind =>
      cases h
      refine ⟨rfl, .refl db, rfl, fun row' hrow' ↦ ?_, fun k' ↦ by simp [hreg]⟩
      rw [hrow] at hrow'
      cases hrow'
      exact find?_conflictFields_eq_none_iff.1 hfind

theorem registered_of_upsertArtifact {k : ArtifactKey} {record : ArtifactRow} {inserted : Bool}
    (h : db.upsertArtifact k record = .ok (inserted, db')) (k' : ArtifactKey) :
    db'.Registered k' ↔ db.Registered k' ∨ k' = k := by
  obtain ⟨-, -, -, -, hget⟩ := of_upsertArtifact h
  rw [registered_iff, hget]
  by_cases hk : k' = k
  · subst hk
    by_cases hold : db.Registered k'
    · simp [hold, registered_iff.1 hold]
    · simp [hold]
  · simp [hk, registered_iff]

theorem exists_upsertArtifact {k : ArtifactKey} {record : ArtifactRow}
    (h : ∀ row, db.getArtifact k = some row → row.Agrees record) :
    ∃ r, db.upsertArtifact k record = .ok r := by
  rw [upsertArtifact]
  split
  · exact ⟨_, rfl⟩
  · next row hrow =>
    rw [find?_conflictFields_eq_none_iff.2 (h row hrow)]
    exact ⟨_, rfl⟩

end CatalogDb

/-- The edge lies on no cycle. -/
def CatalogDb.OffCycle (db : CatalogDb) (e : EdgeRow) : Prop := ¬ db.Upstream e.child e.parent

theorem CatalogDb.acyclic_iff_offCycle {db : CatalogDb} :
    Acyclic db.Edge ↔ ∀ e ∈ db.lineageEdges, db.OffCycle e := by
  rw [acyclic_iff]
  exact ⟨fun h e he ↦ h _ _ ⟨e, he, rfl, rfl⟩, fun h a b ⟨e, he, ha, hb⟩ ↦ ha ▸ hb ▸ h e he⟩

/-! ## One reference -/

/-- What a pass of the inner loop does. -/
structure ParentRegistered (strict : Bool) (d : DiscoveredArtifact) (ref : ParentRef)
    (st st' : ScanState) : Prop where
  artifacts : st'.db.artifacts = st.db.artifacts
  tables : st.db.SameUserTables st'.db
  edges : ∀ e, e ∈ st'.db.lineageEdges ↔
    e ∈ st.db.lineageEdges ∨ st.db.Registered ref.artifact ∧ e = d.edge ref
  issues : ∃ rows, st'.db.lineageIssues = st.db.lineageIssues ++ rows ∧
    rows.map IssueRow.issue = if st.db.Registered ref.artifact then [] else [d.missingParent ref]
  present : strict = true → st.db.Registered ref.artifact
  noCycle : st.db.Registered ref.artifact → ¬ st.db.Upstream d.key ref.artifact

theorem of_registerParent {strict : Bool} {clock : ScanClock} {d : DiscoveredArtifact}
    {ref : ParentRef} {st st' : ScanState} (h : registerParent strict clock d st ref = .ok st') :
    ParentRegistered strict d ref st st' := by
  rw [registerParent] at h
  split at h
  · next hnone =>
    have hreg : ¬ st.db.Registered ref.artifact := CatalogDb.getArtifact_eq_none_iff.1 hnone
    split at h
    · cases h
    · next hstrict =>
      cases h
      exact ⟨rfl, ⟨rfl, rfl, rfl, rfl, rfl, rfl⟩, fun e ↦ (or_iff_left fun h ↦ hreg h.1).symm,
        ⟨_, rfl, by simp [hreg]⟩, fun h ↦ (hstrict h).elim, fun h ↦ (hreg h).elim⟩
  · next row hrow =>
    have hreg : st.db.Registered ref.artifact := CatalogDb.registered_iff.2 ⟨row, hrow⟩
    split at h
    · cases h
    · next hcycle =>
      split at h
      · cases h
      · next inserted db' hinsert =>
        obtain ⟨hartifacts, htables, hissues, hedges⟩ := CatalogDb.of_insertEdge hinsert
        cases h
        exact ⟨hartifacts, htables, fun e ↦ by simp [hedges e, hreg],
          ⟨[], by simp [hissues], by simp [hreg]⟩,
          fun _ ↦ hreg, fun _ hup ↦ hcycle (CatalogDb.wouldCreateCycle_iff.2 hup)⟩

/-- A reference whose parent is registered ends up off all cycles, and so does every edge that was
off them before. -/
theorem ParentRegistered.offCycle {strict : Bool} {d : DiscoveredArtifact} {ref : ParentRef}
    {st st' : ScanState} (h : ParentRegistered strict d ref st st') {e : EdgeRow}
    (he : (e ∈ st.db.lineageEdges ∧ st.db.OffCycle e) ∨
      st.db.Registered ref.artifact ∧ e = d.edge ref) : st'.db.OffCycle e := by
  have hedge : ∀ a b, st'.db.Edge a b ↔ st.db.Edge a b ∨
      (st.db.Registered ref.artifact ∧ a = ref.artifact ∧ b = d.key) := by
    intro a b
    simp only [CatalogDb.Edge, h.edges, or_and_right, exists_or]
    refine or_congr_right ⟨?_, ?_⟩
    · rintro ⟨e, ⟨hreg, rfl⟩, rfl, rfl⟩
      exact ⟨hreg, rfl, rfl⟩
    · rintro ⟨hreg, ha, hb⟩
      exact ⟨d.edge ref, ⟨hreg, rfl⟩, ha.symm, hb.symm⟩
  rw [CatalogDb.OffCycle, CatalogDb.Upstream, reflTransGen_congr hedge]
  by_cases hreg : st.db.Registered ref.artifact
  · simp only [hreg, true_and]
    rcases he with ⟨he, hoff⟩ | ⟨-, rfl⟩
    · exact not_reflTransGen_insert (h.noCycle hreg) ⟨e, he, rfl, rfl⟩ hoff
    · exact fun hback ↦ h.noCycle hreg (reflTransGen_of_insert (h.noCycle hreg) hback)
  · simp only [hreg, false_and, or_false]
    exact (he.resolve_right fun h ↦ hreg h.1).2

/-- **When a reference can be registered**: its child is registered, its parent is unless the scan is
not strict, and the edge closes no cycle. -/
theorem exists_registerParent {strict : Bool} (clock : ScanClock) {d : DiscoveredArtifact}
    (ref : ParentRef) {st : ScanState} (hchild : st.db.Registered d.key)
    (hparent : strict = true → st.db.Registered ref.artifact)
    (hcycle : st.db.Registered ref.artifact → ¬ st.db.Upstream d.key ref.artifact) :
    ∃ st', registerParent strict clock d st ref = .ok st' := by
  rw [registerParent]
  split
  · next hnone =>
    split
    · next hstrict => exact (CatalogDb.getArtifact_eq_none_iff.1 hnone (hparent hstrict)).elim
    · exact ⟨_, rfl⟩
  · next row hrow =>
    have hreg : st.db.Registered ref.artifact := CatalogDb.registered_iff.2 ⟨row, hrow⟩
    obtain ⟨r, hr⟩ := CatalogDb.exists_insertEdge (e := d.edge ref) hreg hchild
    rw [if_neg fun h ↦ hcycle hreg (CatalogDb.wouldCreateCycle_iff.1 h), hr]
    exact ⟨_, rfl⟩

/-! ## All references of an artifact -/

/-- What some passes of the inner loop do. -/
structure ParentsRegistered (strict : Bool) (d : DiscoveredArtifact) (st : ScanState)
    (refs : List ParentRef) (st' : ScanState) : Prop where
  artifacts : st'.db.artifacts = st.db.artifacts
  tables : st.db.SameUserTables st'.db
  edges : ∀ e, e ∈ st'.db.lineageEdges ↔
    e ∈ st.db.lineageEdges ∨ ∃ ref ∈ refs, st.db.Registered ref.artifact ∧ e = d.edge ref
  issues : ∃ rows, st'.db.lineageIssues = st.db.lineageIssues ++ rows ∧
    rows.map IssueRow.issue =
      (refs.filter fun ref ↦ ¬ st.db.Registered ref.artifact).map d.missingParent
  present : strict = true → ∀ ref ∈ refs, st.db.Registered ref.artifact
  offCycle : ∀ e, (e ∈ st.db.lineageEdges ∧ st.db.OffCycle e) ∨
    (∃ ref ∈ refs, st.db.Registered ref.artifact ∧ e = d.edge ref) → st'.db.OffCycle e

theorem ParentsRegistered.nil {strict : Bool} {d : DiscoveredArtifact} (st : ScanState) :
    ParentsRegistered strict d st [] st :=
  ⟨rfl, .refl _, fun e ↦ by simp, ⟨[], by simp, rfl⟩, fun _ ↦ List.forall_mem_nil _,
    fun e he ↦ (he.resolve_right fun ⟨_, h, _⟩ ↦ nomatch h).2⟩

theorem ParentsRegistered.snoc {strict : Bool} {d : DiscoveredArtifact} {refs : List ParentRef}
    {ref : ParentRef} {st st₁ st₂ : ScanState} (h : ParentsRegistered strict d st refs st₁)
    (hlast : ParentRegistered strict d ref st₁ st₂) :
    ParentsRegistered strict d st (refs ++ [ref]) st₂ := by
  have hreg : st₁.db.Registered ref.artifact ↔ st.db.Registered ref.artifact := by
    rw [CatalogDb.Registered, h.artifacts, CatalogDb.Registered]
  have hsplit : ∀ e, (∃ r ∈ refs ++ [ref], st.db.Registered r.artifact ∧ e = d.edge r) ↔
      (∃ r ∈ refs, st.db.Registered r.artifact ∧ e = d.edge r) ∨
        st.db.Registered ref.artifact ∧ e = d.edge ref := fun e ↦ by
    simp only [List.mem_append, List.mem_singleton, or_and_right, exists_or, exists_eq_left]
  refine ⟨hlast.artifacts.trans h.artifacts, h.tables.trans hlast.tables, fun e ↦ ?_, ?_,
    fun hstrict r hr ↦ ?_, fun e he ↦ ?_⟩
  · rw [hlast.edges, h.edges, hreg, hsplit, or_assoc]
  · obtain ⟨rows, hrows, hmap⟩ := h.issues
    obtain ⟨rows', hrows', hmap'⟩ := hlast.issues
    refine ⟨rows ++ rows', by rw [hrows', hrows, List.append_assoc], ?_⟩
    rw [List.map_append, hmap, hmap', List.filter_append, List.map_append]
    by_cases href : st.db.Registered ref.artifact <;> simp [hreg, href]
  · rcases List.mem_append.1 hr with hr | hr
    · exact h.present hstrict r hr
    · rw [List.mem_singleton.1 hr]
      exact hreg.1 (hlast.present hstrict)
  · rw [hsplit, ← or_assoc] at he
    rcases he with he | he
    · exact hlast.offCycle (.inl ⟨(h.edges e).2 (he.imp_left And.left), h.offCycle e he⟩)
    · exact hlast.offCycle (.inr ⟨hreg.2 he.1, he.2⟩)

theorem of_registerParents {strict : Bool} {clock : ScanClock} {d : DiscoveredArtifact}
    {refs : List ParentRef} {st st' : ScanState}
    (h : refs.foldlM (registerParent strict clock d) st = .ok st') :
    ParentsRegistered strict d st refs st' :=
  foldlM_invariant (I := fun pre st₁ ↦ ParentsRegistered strict d st pre st₁)
    (fun _ hpre hstep ↦ hpre.snoc (of_registerParent hstep)) (.nil st) h

/-- The references of an artifact can be registered if they close no loop in some relation that
contains the edges so far and the references themselves. -/
theorem exists_registerParents {strict : Bool} (clock : ScanClock) {d : DiscoveredArtifact}
    {st : ScanState} {E : ArtifactKey → ArtifactKey → Prop} (hE : ∀ a b, st.db.Edge a b → E a b)
    (hrefs : ∀ ref ∈ d.parents, st.db.Registered ref.artifact →
      E ref.artifact d.key ∧ ¬ ReflTransGen E d.key ref.artifact)
    (hchild : st.db.Registered d.key)
    (hparents : strict = true → ∀ ref ∈ d.parents, st.db.Registered ref.artifact) :
    ∃ st', d.parents.foldlM (registerParent strict clock d) st = .ok st' := by
  suffices htotal : ∃ st', d.parents.foldlM (registerParent strict clock d) st = .ok st' ∧
      ParentsRegistered strict d st d.parents st' ∧ ∀ ref ∈ d.parents, ref ∈ d.parents by
    obtain ⟨st', hst', -⟩ := htotal
    exact ⟨st', hst'⟩
  refine foldlM_total
    (I := fun pre st₁ ↦ ParentsRegistered strict d st pre st₁ ∧ ∀ ref ∈ pre, ref ∈ d.parents)
    (fun {pre ref post st₁} hl ⟨hpre, hmem⟩ ↦ ?_) ⟨.nil st, List.forall_mem_nil _⟩
  have href : ref ∈ d.parents := hl ▸ List.mem_append_right _ (List.mem_cons_self ..)
  have hE₁ : ∀ a b, st₁.db.Edge a b → E a b := by
    rintro a b ⟨e, he, rfl, rfl⟩
    rcases (hpre.edges e).1 he with he | ⟨r, hr, hreg, rfl⟩
    · exact hE _ _ ⟨e, he, rfl, rfl⟩
    · exact (hrefs r (hmem r hr) hreg).1
  have hreg : ∀ k, st₁.db.Registered k ↔ st.db.Registered k := fun k ↦ by
    rw [CatalogDb.Registered, hpre.artifacts, CatalogDb.Registered]
  obtain ⟨st₂, hst₂⟩ := exists_registerParent clock ref ((hreg _).2 hchild)
    (fun hstrict ↦ (hreg _).2 (hparents hstrict ref href))
    fun hr hup ↦ (hrefs ref href ((hreg _).1 hr)).2 (ReflTransGen.mono hE₁ _ _ hup)
  refine ⟨st₂, hst₂, hpre.snoc (of_registerParent hst₂), fun r hr ↦ ?_⟩
  rcases List.mem_append.1 hr with hr | hr
  · exact hmem r hr
  · rw [List.mem_singleton.1 hr]
    exact href

/-! ## One artifact -/

/-- What a pass of the outer loop does. -/
structure ArtifactRegistered (strict : Bool) (d : DiscoveredArtifact) (st st' : ScanState) :
    Prop where
  registered : ∀ k, st'.db.Registered k ↔ st.db.Registered k ∨ k = d.key
  oldRows : ∀ k, st.db.Registered k → st'.db.getArtifact k = st.db.getArtifact k
  newRow : ¬ st.db.Registered d.key → ∃ t, st'.db.getArtifact d.key = some (d.record t)
  agrees : ∀ row, st.db.getArtifact d.key = some row → row.Agrees (d.record "")
  tables : st.db.SameUserTables st'.db
  edges : ∀ e, e ∈ st'.db.lineageEdges ↔
    e ∈ st.db.lineageEdges ∨ ∃ ref ∈ d.parents, st'.db.Registered ref.artifact ∧ e = d.edge ref
  issues : ∃ rows, st'.db.lineageIssues = st.db.lineageIssues ++ rows ∧
    rows.map IssueRow.issue =
      (d.parents.filter fun ref ↦ ¬ st'.db.Registered ref.artifact).map d.missingParent
  present : strict = true → ∀ ref ∈ d.parents, st'.db.Registered ref.artifact
  offCycle : ∀ e, (e ∈ st.db.lineageEdges ∧ st.db.OffCycle e) ∨
    (∃ ref ∈ d.parents, st'.db.Registered ref.artifact ∧ e = d.edge ref) → st'.db.OffCycle e

theorem of_registerArtifact {strict : Bool} {clock : ScanClock} {d : DiscoveredArtifact}
    {st st' : ScanState} (h : registerArtifact strict clock st d = .ok st') :
    ArtifactRegistered strict d st st' := by
  rw [registerArtifact] at h
  split at h
  · cases h
  · next inserted db₁ hupsert =>
    obtain ⟨hedges, htables, hissues, hagrees, hget⟩ := CatalogDb.of_upsertArtifact hupsert
    have hparents := of_registerParents h
    have hreg : ∀ k, st'.db.Registered k ↔ db₁.Registered k := fun k ↦ by
      rw [CatalogDb.Registered, hparents.artifacts, CatalogDb.Registered]
    have hrow : ∀ k, st'.db.getArtifact k = db₁.getArtifact k := fun k ↦ by
      rw [CatalogDb.getArtifact, hparents.artifacts, CatalogDb.getArtifact]
    have hup : ∀ a b, db₁.Upstream a b ↔ st.db.Upstream a b := fun a b ↦
      reflTransGen_congr fun p c ↦ by rw [CatalogDb.Edge, hedges, CatalogDb.Edge]
    refine ⟨fun k ↦ (hreg k).trans (CatalogDb.registered_of_upsertArtifact hupsert k),
      fun k hk ↦ ?_, fun hnew ↦ ?_, fun row hrow ↦ ?_, htables.trans hparents.tables, fun e ↦ ?_,
      ?_, fun hstrict r hr ↦ ?_, fun e he ↦ ?_⟩
    · rw [hrow, hget, if_neg fun h ↦ h.2 (h.1 ▸ hk)]
    · exact ⟨_, by rw [hrow, hget, if_pos ⟨rfl, hnew⟩]⟩
    · exact (hagrees row hrow).trans (.of_untimed_eq (d.untimed_record _ _))
    · simp only [hparents.edges, hedges, hreg]
    · obtain ⟨rows, hrows, hmap⟩ := hparents.issues
      exact ⟨rows, by rw [hrows, hissues], by simp only [hmap, hreg]⟩
    · exact (hreg _).2 (hparents.present hstrict r hr)
    · refine hparents.offCycle e (he.imp (fun h ↦ ⟨hedges ▸ h.1, fun hcycle ↦ ?_⟩) ?_)
      · exact h.2 ((hup _ _).1 hcycle)
      · rintro ⟨ref, href, hr, heq⟩
        exact ⟨ref, href, (hreg _).1 hr, heq⟩

theorem exists_registerArtifact {strict : Bool} (clock : ScanClock) {d : DiscoveredArtifact}
    {st : ScanState} {E : ArtifactKey → ArtifactKey → Prop} (hE : ∀ a b, st.db.Edge a b → E a b)
    (hrefs : ∀ ref ∈ d.parents, st.db.Registered ref.artifact ∨ ref.artifact = d.key →
      E ref.artifact d.key ∧ ¬ ReflTransGen E d.key ref.artifact)
    (hagrees : ∀ row, st.db.getArtifact d.key = some row → row.Agrees (d.record ""))
    (hparents : strict = true → ∀ ref ∈ d.parents, st.db.Registered ref.artifact) :
    ∃ st', registerArtifact strict clock st d = .ok st' := by
  have hupsert : ∃ r, st.db.upsertArtifact d.key
      (d.record (clock.registeredAt (st.outcome.inserted + st.outcome.unchanged))) = .ok r :=
    CatalogDb.exists_upsertArtifact fun row hrow ↦
      (hagrees row hrow).trans (.of_untimed_eq (d.untimed_record _ _))
  obtain ⟨⟨inserted, db₁⟩, hupsert⟩ := hupsert
  have hreg := CatalogDb.registered_of_upsertArtifact hupsert
  have hedges := (CatalogDb.of_upsertArtifact hupsert).1
  rw [registerArtifact, hupsert]
  refine exists_registerParents clock (E := E) ?_ (fun ref href hr ↦ hrefs ref href ((hreg _).1 hr))
    ((hreg d.key).2 (.inr rfl)) fun hstrict ref href ↦
      (hreg ref.artifact).2 (.inl (hparents hstrict ref href))
  rintro p c ⟨e, he, rfl, rfl⟩
  exact hE _ _ ⟨e, hedges ▸ he, rfl, rfl⟩

end ForgeData
