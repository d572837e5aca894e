import ForgeData.Catalog.ScanIssues

/-!
# Incremental scans converge

Manifests are immutable and arrive in any order, children perhaps before their parents. If the
catalog is scanned after each arrival, it ends up with the rows and edges that a single scan of
everything would have produced, and a full rebuild too. The reason is that a catalog which mirrors the
files scanned last mirrors the next ones after the next scan: a child whose parent was missing is read
again, and its edge is added then.
-/

namespace ForgeData

open Python Graph Relation

namespace Files

/-- All manifests of the first files are among the second, unchanged. -/
def Grows (files files' : Files) : Prop := ∀ type, ∀ file ∈ files type, file ∈ files' type

/-- Two manifests of a stage do not share an id. -/
def DistinctIds (files : Files) : Prop :=
  ∀ s ∈ scanners, ∀ file ∈ files s.1, ∀ file' ∈ files s.1, ∀ d d', s.2 file = some d →
    s.2 file' = some d' → d.key = d'.key → file = file'

/-- No manifests at all. -/
def none : Files := fun _ ↦ []

instance : Trans Grows Grows Grows :=
  ⟨fun h h' type file hfile ↦ h' type file (h type file hfile)⟩

theorem none_grows (files : Files) : none.Grows files := fun _ _ h ↦ nomatch h

end Files

theorem mem_discovered_iff {files : Files} {d : DiscoveredArtifact} :
    d ∈ discovered files ↔
      ∃ s ∈ scanners, ∃ file ∈ files s.1, file.staging = false ∧ s.2 file = some d := by
  simp [discovered, manifests, stageManifests, and_assoc]

theorem readable_iff {files : Files} : Readable files ↔
    ∀ s ∈ scanners, ∀ file ∈ files s.1, file.staging = false → s.2 file ≠ none := by
  simp [Readable, manifests, stageManifests]

theorem scanners_inj {s s' : ArtifactType × (ManifestFile → Option DiscoveredArtifact)}
    (hs : s ∈ scanners) (hs' : s' ∈ scanners) (h : s.1 = s'.1) : s = s' := by
  have hnodup : (scanners.map Prod.fst).Nodup := by decide
  exact List.inj_on_of_nodup_map hnodup hs hs' h

namespace Files

variable {files files' : Files}

theorem Grows.mem_discovered (h : files.Grows files') {d : DiscoveredArtifact}
    (hd : d ∈ discovered files) : d ∈ discovered files' := by
  obtain ⟨s, hs, file, hfile, hrest⟩ := mem_discovered_iff.1 hd
  exact mem_discovered_iff.2 ⟨s, hs, file, h s.1 file hfile, hrest⟩

theorem Grows.mem_keys (h : files.Grows files') {k : ArtifactKey}
    (hk : k ∈ (discovered files).map DiscoveredArtifact.key) :
    k ∈ (discovered files').map DiscoveredArtifact.key := by
  obtain ⟨d, hd, rfl⟩ := List.mem_map.1 hk
  exact List.mem_map_of_mem (h.mem_discovered hd)

theorem Grows.readable (h : files.Grows files') (hreadable : Readable files') : Readable files :=
  readable_iff.2 fun s hs file hfile ↦ readable_iff.1 hreadable s hs file (h s.1 file hfile)

theorem DistinctIds.of_grows (h' : files'.DistinctIds) (h : files.Grows files') :
    files.DistinctIds := fun s hs file hfile file' hfile' ↦
  h' s hs file (h s.1 file hfile) file' (h s.1 file' hfile')

theorem DistinctIds.eq_of_key_eq (h : files.DistinctIds) {d d' : DiscoveredArtifact}
    (hd : d ∈ discovered files) (hd' : d' ∈ discovered files) (hkey : d.key = d'.key) : d = d' := by
  obtain ⟨s, hs, file, hfile, -, hread⟩ := mem_discovered_iff.1 hd
  obtain ⟨s', hs', file', hfile', -, hread'⟩ := mem_discovered_iff.1 hd'
  have htype : s.1 = s'.1 := by
    rw [← (rank_of_mem_scanners hs hread).1, ← (rank_of_mem_scanners hs' hread').1, hkey]
  obtain rfl := scanners_inj hs hs' htype
  obtain rfl := h s hs file hfile file' hfile' d d' hread hread' hkey
  exact Option.some.inj (hread.symm.trans hread')

end Files

namespace CatalogDb

/-- The two catalogs have the same rows, apart from the times of registration, and the same edges. -/
structure SameLineage (db db' : CatalogDb) : Prop where
  rows : ∀ k, (db'.getArtifact k).map ArtifactRow.untimed =
    (db.getArtifact k).map ArtifactRow.untimed
  edges : ∀ e, e ∈ db'.lineageEdges ↔ e ∈ db.lineageEdges

/-- The index shows the files: their artifacts with their rows, and the edges between them. -/
structure Mirrors (db : CatalogDb) (files : Files) : Prop where
  registered : ∀ k, db.Registered k ↔ k ∈ (discovered files).map DiscoveredArtifact.key
  rows : ∀ d ∈ discovered files,
    (db.getArtifact d.key).map ArtifactRow.untimed = some (d.record "").untimed
  edges : ∀ e, e ∈ db.lineageEdges ↔ ∃ d ∈ discovered files, ∃ ref ∈ d.parents,
    ref.artifact ∈ (discovered files).map DiscoveredArtifact.key ∧ e = d.edge ref

variable {db db' : CatalogDb} {files files' : Files} {strict : Bool} {clock : ScanClock}
  {st : ScanState}

theorem Mirrors.sameLineage (h : db.Mirrors files) (h' : db'.Mirrors files) :
    db.SameLineage db' := by
  refine ⟨fun k ↦ ?_, fun e ↦ (h'.edges e).trans (h.edges e).symm⟩
  by_cases hk : k ∈ (discovered files).map DiscoveredArtifact.key
  · obtain ⟨d, hd, rfl⟩ := List.mem_map.1 hk
    rw [h.rows d hd, h'.rows d hd]
  · rw [getArtifact_eq_none_iff.2 (mt (h.registered k).1 hk),
      getArtifact_eq_none_iff.2 (mt (h'.registered k).1 hk)]

theorem mirrors_none (h : db.artifacts = Dict.empty) : db.Mirrors Files.none := by
  have hreg : ∀ k, ¬ db.Registered k := fun k hk ↦ by
    rw [Registered, h] at hk
    exact List.not_mem_nil hk
  have hfound : discovered Files.none = [] := rfl
  refine ⟨fun k ↦ ?_, ?_, fun e ↦ ?_⟩
  · simp [hfound, hreg k]
  · simp [hfound]
  · rw [hfound]
    exact iff_of_false (fun he ↦ hreg _ (db.edges_registered e he).1)
      fun h ↦ (List.not_mem_nil h.choose_spec.1).elim

theorem Mirrors.untimed_eq (h : db.Mirrors files) (hgrows : files.Grows files')
    (hdistinct : files'.DistinctIds) {d : DiscoveredArtifact} (hd : d ∈ discovered files')
    {row : ArtifactRow} (hrow : db.getArtifact d.key = some row) :
    row.untimed = (d.record "").untimed := by
  obtain ⟨d₀, hd₀, hkey⟩ := List.mem_map.1 ((h.registered d.key).1 (registered_iff.2 ⟨row, hrow⟩))
  have hrow₀ := h.rows d₀ hd₀
  obtain rfl := hdistinct.eq_of_key_eq (hgrows.mem_discovered hd₀) hd hkey
  rw [hrow] at hrow₀
  exact Option.some.inj hrow₀

/-- **A scan succeeds** on readable manifests with distinct ids that extend those the catalog mirrors;
a strict one needs all parents. -/
theorem Mirrors.exists_scan (h : db.Mirrors files) (hgrows : files.Grows files')
    (hreadable : Readable files') (hdistinct : files'.DistinctIds) (clock : ScanClock)
    (hparents : strict = true → ∀ d ∈ discovered files', ∀ ref ∈ d.parents,
      ref.artifact ∈ (discovered files').map DiscoveredArtifact.key) :
    ∃ st, db.scan strict clock files' = .ok st := by
  have hregister : ∃ st, (discovered files').foldlM (registerArtifact strict clock) ⟨db, {}⟩
      = .ok st := by
    refine exists_foldlM_registerArtifact clock (stagedList_discovered files') (E := EarlierStage)
      ?_ (fun d hd ref href _ ↦ ?_) (fun d hd row hrow ↦ ?_) (fun d hd d' hd' hkey ↦ ?_)
      fun hstrict d hd ref href ↦ .inr (hparents hstrict d hd ref href)
    · rintro a b ⟨e, he, rfl, rfl⟩
      obtain ⟨d, hd, ref, href, -, rfl⟩ := (h.edges e).1 he
      exact (stagedList_discovered files).staged d hd ref href
    · have hearlier := (stagedList_discovered files').staged d hd ref href
      exact ⟨hearlier, fun hback ↦ Nat.not_lt.2 (stageRank_le_of_reflTransGen hback) hearlier⟩
    · exact .of_untimed_eq (h.untimed_eq hgrows hdistinct hd hrow)
    · rw [hdistinct.eq_of_key_eq hd' hd hkey]
      exact .of_untimed_eq rfl
  obtain ⟨st, hst⟩ := hregister
  exact ⟨st, scan_eq_ok_iff.2 ⟨hreadable, hst⟩⟩

/-- **A scan keeps up with the files.** -/
theorem Mirrors.scan (h : db.Mirrors files) (hgrows : files.Grows files')
    (hdistinct : files'.DistinctIds) (hscan : db.scan strict clock files' = .ok st) :
    st.db.Mirrors files' := by
  have hscanned := scanned_of_scan hscan
  have hknown : ∀ k, db.Known (discovered files') k ↔
      k ∈ (discovered files').map DiscoveredArtifact.key := fun k ↦
    ⟨fun hk ↦ hk.elim (fun hreg ↦ hgrows.mem_keys ((h.registered k).1 hreg)) id, .inr⟩
  refine ⟨fun k ↦ (hscanned.registered k).trans (hknown k), fun d hd ↦ ?_, fun e ↦ ?_⟩
  · obtain ⟨row, hrow⟩ := registered_iff.1
      ((hscanned.registered d.key).2 (.inr (List.mem_map_of_mem hd)))
    rw [hrow, Option.map_some]
    by_cases hold : db.Registered d.key
    · rw [hscanned.oldRows _ hold] at hrow
      rw [h.untimed_eq hgrows hdistinct hd hrow]
    · obtain ⟨d₁, hd₁, hkey, t, rfl⟩ := hscanned.newRows _ hold row hrow
      obtain rfl := hdistinct.eq_of_key_eq hd₁ hd hkey
      exact congrArg some (d₁.untimed_record _ _)
  · rw [hscanned.edges, h.edges]
    simp only [hknown]
    refine ⟨?_, .inr⟩
    rintro (⟨d, hd, ref, href, hfound, rfl⟩ | hnew)
    · exact ⟨d, hgrows.mem_discovered hd, ref, href, hgrows.mem_keys hfound, rfl⟩
    · exact hnew

/-! ## Arrivals -/

/-- Scans of the given files, one after the other. -/
def scanEach (db : CatalogDb) (runs : List (ScanClock × Files)) : Except CatalogError CatalogDb :=
  runs.foldlM (fun db run ↦ (db.scanCatalog run.1 run.2).1.map fun _ ↦
    (db.scanCatalog run.1 run.2).2) db

theorem Mirrors.scanCatalog (h : db.Mirrors files) (hgrows : files.Grows files')
    (hreadable : Readable files') (hdistinct : files'.DistinctIds) (clock : ScanClock) :
    ∃ outcome db', db.scanCatalog clock files' = (.ok outcome, db') ∧ db'.Mirrors files' := by
  have hscan : ∃ st, db.scan false clock files' = .ok st :=
    h.exists_scan hgrows hreadable hdistinct clock nofun
  obtain ⟨st, hst⟩ := hscan
  have hmirrors := h.scan hgrows hdistinct hst
  exact ⟨_, _, scanCatalog_eq_ok_iff.2 ⟨st, hst, rfl, rfl⟩,
    hmirrors.registered, hmirrors.rows, hmirrors.edges⟩

/-- After each arrival the catalog mirrors the files so far. -/
theorem Mirrors.scanEach {runs : List (ScanClock × Files)} {last : ScanClock × Files}
    (h : db.Mirrors files) (hgrows : (files :: (runs ++ [last]).map Prod.snd).Pairwise Files.Grows)
    (hreadable : Readable last.2) (hdistinct : last.2.DistinctIds) :
    ∃ db', db.scanEach (runs ++ [last]) = .ok db' ∧ db'.Mirrors last.2 := by
  induction runs generalizing db files with
  | nil =>
    have hlast : files.Grows last.2 := (List.pairwise_cons.1 hgrows).1 _ (List.mem_singleton_self _)
    obtain ⟨outcome, db', hscan, hmirrors⟩ := h.scanCatalog hlast hreadable hdistinct last.1
    exact ⟨db', by simp [CatalogDb.scanEach, hscan, Except.map], hmirrors⟩
  | cons run runs ih =>
    obtain ⟨hfirst, hrest⟩ := List.pairwise_cons.1 hgrows
    have hlast : run.2.Grows last.2 := (List.pairwise_cons.1 hrest).1 _
      (List.mem_map_of_mem (List.mem_append_right _ (List.mem_singleton_self _)))
    obtain ⟨outcome, db₁, hscan, hmirrors⟩ := h.scanCatalog
      (hfirst _ (List.mem_cons_self ..)) (hlast.readable hreadable) (hdistinct.of_grows hlast) run.1
    obtain ⟨db', hdb', hfinal⟩ := ih hmirrors hrest
    refine ⟨db', ?_, hfinal⟩
    rw [List.cons_append, CatalogDb.scanEach, List.foldlM_cons, hscan]
    exact hdb'

theorem rebuildIndex_eq_ok_iff {outcome : ScanOutcome} :
    db.rebuildIndex clock files = (.ok outcome, db') ↔
      ∃ st, db.clearArtifactIndex.scan true clock files = .ok st ∧
        st.outcome = outcome ∧ st.db.setMetadata "last_scan_at" clock.finishedAt = db' := by
  rw [rebuildIndex]
  split <;> simp [*]

/-- **Incremental scanning converges.** Scans after each arrival succeed and leave the rows and edges
of one scan of everything into an empty index, and those of a full rebuild; and the rebuild succeeds
if no referenced parent is missing. -/
theorem scanEach_converges {runs : List (ScanClock × Files)} {last : ScanClock × Files}
    (hempty : db.artifacts = Dict.empty)
    (hgrows : ((runs ++ [last]).map Prod.snd).IsChain Files.Grows)
    (hreadable : Readable last.2) (hdistinct : last.2.DistinctIds) :
    ∃ db', db.scanEach (runs ++ [last]) = .ok db' ∧
      (∀ db₁ : CatalogDb, db₁.artifacts = Dict.empty → ∀ clock, ∃ outcome db₂,
        db₁.scanCatalog clock last.2 = (.ok outcome, db₂) ∧ db'.SameLineage db₂) ∧
      (∀ (db₁ : CatalogDb) clock outcome db₂,
        db₁.rebuildIndex clock last.2 = (.ok outcome, db₂) → db'.SameLineage db₂) ∧
      ((∀ d ∈ discovered last.2, ∀ ref ∈ d.parents,
          ref.artifact ∈ (discovered last.2).map DiscoveredArtifact.key) →
        ∀ (db₁ : CatalogDb) clock, ∃ outcome db₂,
          db₁.rebuildIndex clock last.2 = (.ok outcome, db₂)) := by
  have hpairwise : (Files.none :: (runs ++ [last]).map Prod.snd).Pairwise Files.Grows :=
    List.pairwise_cons.2 ⟨fun files _ ↦ files.none_grows, List.isChain_iff_pairwise.1 hgrows⟩
  obtain ⟨db', hdb', hmirrors⟩ := (mirrors_none hempty).scanEach hpairwise hreadable hdistinct
  refine ⟨db', hdb', fun db₁ h₁ clock ↦ ?_, fun db₁ clock outcome db₂ h ↦ ?_,
    fun hparents db₁ clock ↦ ?_⟩
  · obtain ⟨outcome, db₂, hscan, h₂⟩ :=
      (mirrors_none h₁).scanCatalog (Files.none_grows _) hreadable hdistinct clock
    exact ⟨outcome, db₂, hscan, hmirrors.sameLineage h₂⟩
  · obtain ⟨st, hst, -, rfl⟩ := rebuildIndex_eq_ok_iff.1 h
    have hcleared : db₁.clearArtifactIndex.Mirrors Files.none := mirrors_none rfl
    have h₂ := hcleared.scan (Files.none_grows _) hdistinct hst
    exact hmirrors.sameLineage ⟨h₂.registered, h₂.rows, h₂.edges⟩
  · have hcleared : db₁.clearArtifactIndex.Mirrors Files.none := mirrors_none rfl
    obtain ⟨st, hst⟩ := hcleared.exists_scan (Files.none_grows _) hreadable hdistinct clock
      fun _ ↦ hparents
    exact ⟨_, _, rebuildIndex_eq_ok_iff.2 ⟨st, hst, rfl, rfl⟩⟩

/-- The report arrives before the manifest it refers to. -/
theorem scanEach_converges_lateReport :
    ∃ db', empty.scanEach [(stillClock, filesBefore), (stillClock, filesAfter)] = .ok db' ∧
      (∀ db₁ : CatalogDb, db₁.artifacts = Dict.empty → ∀ clock, ∃ outcome db₂,
        db₁.scanCatalog clock filesAfter = (.ok outcome, db₂) ∧ db'.SameLineage db₂) ∧
      (∀ (db₁ : CatalogDb) clock outcome db₂,
        db₁.rebuildIndex clock filesAfter = (.ok outcome, db₂) → db'.SameLineage db₂) ∧
      ((∀ d ∈ discovered filesAfter, ∀ ref ∈ d.parents,
          ref.artifact ∈ (discovered filesAfter).map DiscoveredArtifact.key) →
        ∀ (db₁ : CatalogDb) clock, ∃ outcome db₂,
          db₁.rebuildIndex clock filesAfter = (.ok outcome, db₂)) := by
  have hgrows : filesBefore.Grows filesAfter := fun type file hfile ↦ by
    rw [filesBefore] at hfile
    split at hfile
    · next htype => rwa [filesAfter, if_pos htype]
    · cases hfile
  have hdistinct : filesAfter.DistinctIds := fun s _ file hfile file' hfile' _ _ _ _ _ ↦ by
    rw [filesAfter] at hfile hfile'
    split at hfile
    · next htype =>
      rw [if_pos htype] at hfile'
      rw [List.mem_singleton.1 hfile, List.mem_singleton.1 hfile']
    · next htype =>
      rw [if_neg htype] at hfile'
      split at hfile
      · next htype' =>
        rw [if_pos htype'] at hfile'
        rw [List.mem_singleton.1 hfile, List.mem_singleton.1 hfile']
      · cases hfile
  have hreadable : Readable filesAfter := by decide +kernel
  have hchain : (([(stillClock, filesBefore)] ++ [(stillClock, filesAfter)]).map Prod.snd).IsChain
      Files.Grows := .cons_cons hgrows (.singleton _)
  exact scanEach_converges rfl hchain hreadable hdistinct

end CatalogDb

end ForgeData
