import ForgeData.Catalog.ScanIssues
import ForgeData.Catalog.Writes

/-!
# The lineage graph stays acyclic

Edges are only ever inserted by a scan, and a scan asks before each insertion whether the edge would
close a cycle. The answer is exact on every edge table. So the graph is acyclic in every state of every
run, whatever the manifests say and whoever else is at work.

An edge that is stored already passes the check again, since an acyclic graph has no way back from its
child to its parent.
-/

namespace ForgeData

open Python Interleaving Graph Relation

namespace CatalogDb

variable {db : CatalogDb} {strict : Bool} {clock : ScanClock} {files : Files} {st : ScanState}

theorem acyclic_of_scan (h : Acyclic db.Edge) (hscan : db.scan strict clock files = .ok st) :
    Acyclic st.db.Edge := acyclic_of_foldlM h (scan_eq_ok_iff.1 hscan).2

theorem acyclic_of_edges_eq {db' : CatalogDb} (h : Acyclic db.Edge)
    (hedges : db'.lineageEdges = db.lineageEdges) : Acyclic db'.Edge := by
  refine h.mono fun a b ⟨e, he, ha, hb⟩ ↦ ⟨e, ?_, ha, hb⟩
  rwa [← hedges]

theorem acyclic_clearArtifactIndex (db : CatalogDb) : Acyclic db.clearArtifactIndex.Edge :=
  acyclic_iff.2 fun _ _ ⟨_, he, _⟩ ↦ nomatch he

/-- Every reference to a known artifact is stored. -/
def StoresReferences (db : CatalogDb) (files : Files) : Prop :=
  ∀ d ∈ discovered files, ∀ ref ∈ d.parents, db.Known (discovered files) ref.artifact →
    d.edge ref ∈ db.lineageEdges

/-- While stored references are scanned again, only known artifacts are registered and no edge is
new. -/
structure Rescanning (db : CatalogDb) (files : Files) (db' : CatalogDb) : Prop where
  known : ∀ k, db'.Registered k → db.Known (discovered files) k
  edges : ∀ e ∈ db'.lineageEdges, e ∈ db.lineageEdges

variable {db₁ : CatalogDb} {d : DiscoveredArtifact} {st₁ st₂ : ScanState}

theorem Rescanning.registerArtifact (h : db.Rescanning files st₁.db)
    (hstored : db.StoresReferences files) (hd : d ∈ discovered files)
    (hstep : registerArtifact strict clock st₁ d = .ok st₂) : db.Rescanning files st₂.db := by
  have hregistered := of_registerArtifact hstep
  have hknown : ∀ k, st₂.db.Registered k → db.Known (discovered files) k := fun k hk ↦ by
    rcases (hregistered.registered k).1 hk with hk | rfl
    · exact h.known k hk
    · exact .inr (List.mem_map_of_mem hd)
  refine ⟨hknown, fun e he ↦ ?_⟩
  rcases (hregistered.edges e).1 he with he | ⟨ref, href, hreg, rfl⟩
  · exact h.edges e he
  · exact hstored d hd ref href (hknown _ hreg)

theorem Rescanning.wouldCreateCycle_eq_false (h : db.Rescanning files db₁)
    (hacyclic : Acyclic db.Edge) {p c : ArtifactKey} (hedge : db.Edge p c) :
    db₁.wouldCreateCycle p c = false := by
  rw [Bool.eq_false_iff, ne_eq, wouldCreateCycle_iff]
  intro hup
  refine acyclic_iff.1 hacyclic p c hedge (ReflTransGen.mono ?_ _ _ hup)
  rintro a b ⟨e, he, ha, hb⟩
  exact ⟨e, h.edges e he, ha, hb⟩

/-- A reference that is refused is refused for another reason. -/
theorem Rescanning.of_registerParent_eq_error (h : db.Rescanning files st₁.db)
    (hacyclic : Acyclic db.Edge) (hstored : db.StoresReferences files) (hd : d ∈ discovered files)
    {ref : ParentRef} (href : ref ∈ d.parents) {e : CatalogError}
    (herror : registerParent strict clock d st₁ ref = .error e) (message : String) :
    e ≠ .lineageCycleDetected message := by
  rw [registerParent] at herror
  split at herror
  · split at herror
    · cases herror
      rintro ⟨⟩
    · cases herror
  · next row hrow =>
    have hedge : db.Edge ref.artifact d.key :=
      ⟨_, hstored d hd ref href (h.known _ (registered_iff.2 ⟨row, hrow⟩)), rfl, rfl⟩
    rw [if_neg (Bool.eq_false_iff.1 (h.wouldCreateCycle_eq_false hacyclic hedge))] at herror
    split at herror
    · next e' hinsert =>
      cases herror
      rw [insertEdge] at hinsert
      split at hinsert
      · cases hinsert
      · split at hinsert
        · cases hinsert
        · cases hinsert
          rintro ⟨⟩
    · cases herror

/-- **Scanning stored references again never reports a cycle.** -/
theorem scan_ne_cycleDetected (hacyclic : Acyclic db.Edge) (hstored : db.StoresReferences files)
    {e : CatalogError} (herror : db.scan strict clock files = .error e) (message : String) :
    e ≠ .lineageCycleDetected message := by
  obtain ⟨pre, o, post, st₁, hsplit, hpre, hnext⟩ := exists_of_foldlM_eq_error herror
  have hmem : ∀ d, some d ∈ manifests files → d ∈ discovered files := fun d hd ↦
    List.mem_filterMap.2 ⟨some d, hd, rfl⟩
  have hst₁ : db.Rescanning files st₁.db := by
    -- along the scan the edges stay among those that the references store
    refine foldlM_invariant (I := fun _ st ↦ db.Rescanning files st.db)
      (fun {pre' o' post' st st'} hsplit' hst hstep ↦ ?_) ⟨fun k hk ↦ .inl hk, fun e he ↦ he⟩ hpre
    rcases o' with _ | d
    · cases hstep
    · exact hst.registerArtifact hstored (hmem d (by simp [hsplit, hsplit'])) hstep
  rcases o with _ | d
  · cases hnext
    rintro ⟨⟩
  have hd : d ∈ discovered files := hmem d (by simp [hsplit])
  simp only [scanNext, ForgeData.registerArtifact] at hnext
  split at hnext
  · next e' hupsert =>
    cases hnext
    rw [upsertArtifact] at hupsert
    split at hupsert
    · cases hupsert
    · split at hupsert
      · cases hupsert
        rintro ⟨⟩
      · cases hupsert
  · next inserted db₁ hupsert =>
    obtain ⟨pre', ref, post', st₂, hrefs, hpre', herror'⟩ := exists_of_foldlM_eq_error hnext
    have hparents := of_registerParents hpre'
    have hknown : ∀ k, st₂.db.Registered k → db.Known (discovered files) k := fun k hk ↦ by
      have hk₁ : db₁.Registered k := by
        rw [Registered, hparents.artifacts] at hk
        exact hk
      rcases (registered_of_upsertArtifact hupsert k).1 hk₁ with hk | rfl
      · exact hst₁.known k hk
      · exact .inr (List.mem_map_of_mem hd)
    -- the same among the references of the manifest that raises
    have hst₂ : db.Rescanning files st₂.db := by
      refine ⟨hknown, fun e he ↦ ?_⟩
      rcases (hparents.edges e).1 he with he | ⟨r, hr, hreg, rfl⟩
      · refine hst₁.edges e ?_
        rwa [← (of_upsertArtifact hupsert).1]
      · refine hstored d hd r (by simp [hrefs, hr]) (hknown _ ?_)
        rw [Registered, hparents.artifacts]
        exact hreg
    exact hst₂.of_registerParent_eq_error hacyclic hstored hd (by simp [hrefs]) herror' message

end CatalogDb

/-! ## Runs -/

variable {sha : Json → String} {o : CatalogOp} {s s' : CatalogState}

theorem Writes.acyclic {db db' : CatalogDb} (h : Writes db o db') (hdb : Acyclic db.Edge) :
    Acyclic db'.Edge := by
  rcases h.index with ⟨-, hedges⟩ |
    ⟨-, start, strict, clock, files, st, hstart, hscan, -, hedges⟩
  · exact CatalogDb.acyclic_of_edges_eq hdb hedges
  · refine CatalogDb.acyclic_of_edges_eq (CatalogDb.acyclic_of_scan ?_ hscan) hedges
    rcases hstart with rfl | rfl
    · exact hdb
    · exact db.acyclic_clearArtifactIndex

theorem CatalogSem.acyclic {a : o.Ans} (h : CatalogSem sha o s a s') (hs : Acyclic s.db.Edge) :
    Acyclic s'.db.Edge := by
  rcases h.writes with hdb | hwrites
  · exact hdb ▸ hs
  · exact hwrites.acyclic hs

/-- **The lineage graph is acyclic in every state** that any callers can reach from one where it is;
and scanning manifests whose references are stored reports no cycle there. The check that this rests on
comes to an end and is exact on every edge table. -/
theorem lineage_acyclic_of_run {Party : CatalogProg Unit → Prop} {ps qs : List (CatalogProg Unit)}
    {t : List CatalogStep} (hs : Acyclic s.db.Edge) (h : CatalogRun sha Party ps s t qs s') :
    (∀ (db : CatalogDb) (p c : ArtifactKey),
      (∃ found, search (fun k ↦ (db.getChildren k).map EdgeRow.child) p
        (db.lineageEdges.length + 2) [c] [] = some found) ∧
      (db.wouldCreateCycle p c = true ↔ c = p ∨ TransGen db.Edge c p)) ∧
    ((∀ x ∈ t, Acyclic x.after.db.Edge) ∧ Acyclic s'.db.Edge) ∧
    ∀ (strict : Bool) (clock : ScanClock) (files : Files) (e : CatalogError) (message : String),
      s'.db.StoresReferences files → s'.db.scan strict clock files = .error e →
        e ≠ .lineageCycleDetected message := by
  have hrun := h.invariant (J := fun s ↦ Acyclic s.db.Edge)
    (fun x hx hbefore ↦ (h.sem_of_mem x hx).acyclic hbefore) hs
  refine ⟨fun db p c ↦ ⟨CatalogDb.exists_search_eq_some db p c, ?_⟩, ⟨hrun.2, hrun.1⟩,
    fun strict clock files e message hstored herror ↦
      CatalogDb.scan_ne_cycleDetected hrun.1 hstored herror message⟩
  rw [CatalogDb.wouldCreateCycle_iff]
  exact ⟨eq_or_transGen_of_reflTransGen, fun h ↦ h.elim (fun h ↦ h ▸ .refl) TransGen.to_reflTransGen⟩

/-- What the operations draw from outside when a report has arrived after the manifest it refers to. -/
def lateReportInput : CatalogInput := { quietCatalogInput with files := CatalogDb.filesAfter }

/-- Two callers scan, one after the other. -/
def twoScans : List CatalogTurn :=
  [.start CatalogOp.scan.perform.discard, .start CatalogOp.scan.perform.discard,
    .act 1 lateReportInput, .act 0 lateReportInput]

/-- Two callers scan the same manifests. -/
theorem lineage_acyclic_of_run_twoScans :
    Acyclic (simulateCatalog (fun _ ↦ "") twoScans .empty).state.db.Edge ∧
      ∀ (strict : Bool) (clock : ScanClock) (files : Files) (e : CatalogError) (message : String),
        (simulateCatalog (fun _ ↦ "") twoScans .empty).state.db.StoresReferences files →
        (simulateCatalog (fun _ ↦ "") twoScans .empty).state.db.scan strict clock files = .error e →
        e ≠ .lineageCycleDetected message := by
  have hstart : Acyclic CatalogState.empty.db.Edge := CatalogDb.acyclic_clearArtifactIndex .empty
  have hrun : CatalogRun (fun _ ↦ "") (fun _ ↦ True) [] .empty
      (simulateCatalog (fun _ ↦ "") twoScans .empty).history
      (simulateCatalog (fun _ ↦ "") twoScans .empty).threads
      (simulateCatalog (fun _ ↦ "") twoScans .empty).state :=
    catalogRun_simulate (fun _ _ ↦ trivial) .empty
  have h := lineage_acyclic_of_run hstart hrun
  exact ⟨h.2.1.2, h.2.2⟩

end ForgeData
