import ForgeData.Catalog.ScanEffects

/-!
# What a whole scan does

The artifacts found by a scan come in the order of the stages, and each refers to earlier stages only.
So at the moment a reference is met, its parent is registered exactly if it was registered before the
scan or is found by it. With this the effect of a scan is a plain function of the artifacts found and
the catalog before: which rows, which edges, which issues.
-/

namespace ForgeData

open Python Graph Relation

/-- The first artifact belongs to an earlier stage. -/
def EarlierStage (a b : ArtifactKey) : Prop :=
  a.artifactType.stageRank < b.artifactType.stageRank

theorem stageRank_le_of_reflTransGen {a b : ArtifactKey} (h : ReflTransGen EarlierStage a b) :
    a.artifactType.stageRank ≤ b.artifactType.stageRank := by
  induction h with
  | refl => exact Nat.le_refl _
  | tail _ hstep ih => exact Nat.le_trans ih (Nat.le_of_lt hstep)

/-- The artifacts found, stage by stage, referring to earlier stages. -/
structure StagedList (ds : List DiscoveredArtifact) : Prop where
  sorted : ds.Pairwise fun d d' ↦
    d.key.artifactType.stageRank ≤ d'.key.artifactType.stageRank
  staged : ∀ d ∈ ds, ∀ ref ∈ d.parents, EarlierStage ref.artifact d.key

/-- The artifact is registered, or found by the scan. -/
def CatalogDb.Known (db : CatalogDb) (ds : List DiscoveredArtifact) (k : ArtifactKey) : Prop :=
  db.Registered k ∨ k ∈ ds.map DiscoveredArtifact.key

instance (db : CatalogDb) (ds : List DiscoveredArtifact) (k : ArtifactKey) :
    Decidable (db.Known ds k) := inferInstanceAs (Decidable (_ ∨ _))

theorem StagedList.mem_of_parent {ds pre post : List DiscoveredArtifact} {d : DiscoveredArtifact}
    (h : StagedList ds) (hds : ds = pre ++ d :: post) {ref : ParentRef} (href : ref ∈ d.parents)
    (hfound : ref.artifact ∈ ds.map DiscoveredArtifact.key) :
    ref.artifact ∈ pre.map DiscoveredArtifact.key := by
  subst hds
  obtain ⟨d', hd', hkey⟩ := List.mem_map.1 hfound
  have hlt := h.staged d (List.mem_append_right _ (List.mem_cons_self ..)) ref href
  rw [← hkey] at hlt ⊢
  rcases List.mem_append.1 hd' with hd' | hd'
  · exact List.mem_map_of_mem hd'
  · rcases List.mem_cons.1 hd' with rfl | hd'
    · exact (Nat.lt_irrefl _ hlt).elim
    · have hle := (List.pairwise_cons.1 (List.pairwise_append.1 h.sorted).2.1).1 d' hd'
      exact (Nat.not_lt.2 hle hlt).elim

/-- What a scan that finds the artifacts `ds` has done after the first of them. -/
structure Scanned (strict : Bool) (st : ScanState) (ds pre : List DiscoveredArtifact)
    (st' : ScanState) : Prop where
  registered : ∀ k, st'.db.Registered k ↔ st.db.Known pre k
  oldRows : ∀ k, st.db.Registered k → st'.db.getArtifact k = st.db.getArtifact k
  newRows : ∀ k, ¬ st.db.Registered k → ∀ row, st'.db.getArtifact k = some row →
    ∃ d ∈ pre, d.key = k ∧ ∃ t, row = d.record t
  agrees : ∀ d ∈ pre, ∀ row, st'.db.getArtifact d.key = some row → row.Agrees (d.record "")
  tables : st.db.SameUserTables st'.db
  edges : ∀ e, e ∈ st'.db.lineageEdges ↔ e ∈ st.db.lineageEdges ∨
    ∃ d ∈ pre, ∃ ref ∈ d.parents, st.db.Known ds ref.artifact ∧ e = d.edge ref
  issues : ∃ rows, st'.db.lineageIssues = st.db.lineageIssues ++ rows ∧
    rows.map IssueRow.issue = pre.flatMap fun d ↦
      (d.parents.filter fun ref ↦ ¬ st.db.Known ds ref.artifact).map d.missingParent
  present : strict = true → ∀ d ∈ pre, ∀ ref ∈ d.parents, st.db.Known ds ref.artifact
  offCycle : ∀ e, (e ∈ st.db.lineageEdges ∧ st.db.OffCycle e) ∨
    (∃ d ∈ pre, ∃ ref ∈ d.parents, st.db.Known ds ref.artifact ∧ e = d.edge ref) →
      st'.db.OffCycle e

namespace Scanned

variable {strict : Bool} {clock : ScanClock} {st st₁ st₂ : ScanState}
  {ds pre post : List DiscoveredArtifact} {d : DiscoveredArtifact}

theorem nil (ds : List DiscoveredArtifact) (st : ScanState) : Scanned strict st ds [] st where
  registered k := by simp [CatalogDb.Known]
  oldRows _ _ := rfl
  newRows k hk row hrow := (hk (CatalogDb.registered_iff.2 ⟨row, hrow⟩)).elim
  agrees := List.forall_mem_nil _
  tables := .refl _
  edges e := by simp
  issues := ⟨[], by simp, rfl⟩
  present _ := List.forall_mem_nil _
  offCycle e he := (he.resolve_right fun ⟨_, h, _⟩ ↦ nomatch h).2

theorem registered_parent_iff (h : Scanned strict st ds pre st₁) (hlist : StagedList ds)
    (hds : ds = pre ++ d :: post) (hd : ArtifactRegistered strict d st₁ st₂) {ref : ParentRef}
    (href : ref ∈ d.parents) :
    st₂.db.Registered ref.artifact ↔ st.db.Known ds ref.artifact := by
  rw [hd.registered, h.registered, CatalogDb.Known, CatalogDb.Known, or_assoc]
  refine or_congr_right ⟨?_, fun hfound ↦ .inl (hlist.mem_of_parent hds href hfound)⟩
  rintro (hpre | hkey)
  · rw [hds, List.map_append]
    exact List.mem_append_left _ hpre
  · rw [hkey, hds]
    simp

theorem snoc (h : Scanned strict st ds pre st₁) (hlist : StagedList ds)
    (hds : ds = pre ++ d :: post) (hd : ArtifactRegistered strict d st₁ st₂) :
    Scanned strict st ds (pre ++ [d]) st₂ := by
  -- a parent stands earlier in the list than its child, so if it is there it is registered by now
  have hparent : ∀ ref ∈ d.parents, st₂.db.Registered ref.artifact ↔ st.db.Known ds ref.artifact :=
    fun ref href ↦ h.registered_parent_iff hlist hds hd href
  have hold₁ : ∀ k, st.db.Registered k → st₁.db.Registered k := fun k hk ↦
    (h.registered k).2 (.inl hk)
  have hedges : ∀ e, (∃ ref ∈ d.parents, st₂.db.Registered ref.artifact ∧ e = d.edge ref) ↔
      ∃ ref ∈ d.parents, st.db.Known ds ref.artifact ∧ e = d.edge ref := fun e ↦
    exists_congr fun ref ↦ and_congr_right fun href ↦ by rw [hparent ref href]
  have hsplit : ∀ P : DiscoveredArtifact → Prop,
      (∃ d' ∈ pre ++ [d], P d') ↔ (∃ d' ∈ pre, P d') ∨ P d := fun P ↦ by
    simp only [List.mem_append, List.mem_singleton, or_and_right, exists_or, exists_eq_left]
  refine ⟨fun k ↦ ?_, fun k hk ↦ ?_, fun k hk row hrow ↦ ?_, fun d' hd' row hrow ↦ ?_,
    h.tables.trans hd.tables, fun e ↦ ?_, ?_, fun hstrict d' hd' ref href ↦ ?_, fun e he ↦ ?_⟩
  · rw [hd.registered, h.registered, CatalogDb.Known, CatalogDb.Known, or_assoc]
    simp
  · rw [hd.oldRows k (hold₁ k hk), h.oldRows k hk]
  -- a row found now was there before this artifact, or is the row of this artifact
  · by_cases hk₁ : st₁.db.Registered k
    · rw [hd.oldRows k hk₁] at hrow
      obtain ⟨d', hd', hrest⟩ := h.newRows k hk row hrow
      exact ⟨d', List.mem_append_left _ hd', hrest⟩
    · have hkey := ((hd.registered k).1 (CatalogDb.registered_iff.2 ⟨row, hrow⟩)).resolve_left hk₁
      subst hkey
      obtain ⟨t, ht⟩ := hd.newRow hk₁
      rw [ht] at hrow
      exact ⟨d, by simp, rfl, t, (Option.some.inj hrow).symm⟩
  · have hd'' : d' ∈ pre ∨ d' = d := by simpa using hd'
    by_cases hk₁ : st₁.db.Registered d'.key
    · rw [hd.oldRows _ hk₁] at hrow
      rcases hd'' with hd' | rfl
      · exact h.agrees d' hd' row hrow
      · exact hd.agrees row hrow
    · rcases hd'' with hd' | rfl
      · exact (hk₁ ((h.registered _).2 (.inr (List.mem_map_of_mem hd')))).elim
      · obtain ⟨t, ht⟩ := hd.newRow hk₁
        rw [ht] at hrow
        cases hrow
        exact .of_untimed_eq (d'.untimed_record _ _)
  · rw [hd.edges, h.edges, hedges, hsplit, or_assoc]
  -- the issues are those found before, and those of this artifact
  · obtain ⟨rows, hrows, hmap⟩ := h.issues
    obtain ⟨rows', hrows', hmap'⟩ := hd.issues
    refine ⟨rows ++ rows', by rw [hrows', hrows, List.append_assoc], ?_⟩
    rw [List.map_append, hmap, hmap', List.flatMap_append, List.flatMap_singleton]
    congr 2
    exact List.filter_congr fun ref href ↦ by rw [decide_eq_decide, hparent ref href]
  · rcases List.mem_append.1 hd' with hd' | hd'
    · exact h.present hstrict d' hd' ref href
    · rw [List.mem_singleton] at hd'
      subst hd'
      exact (hparent ref href).1 (hd.present hstrict ref href)
  · rw [hsplit, ← or_assoc, ← hedges] at he
    rcases he with he | he
    · exact hd.offCycle e (.inl ⟨(h.edges e).2 (he.imp_left And.left), h.offCycle e he⟩)
    · exact hd.offCycle e (.inr he)

theorem agrees_next (h : Scanned strict st ds pre st₁)
    (hrows : ∀ row, st.db.getArtifact d.key = some row → row.Agrees (d.record ""))
    (hsame : ∀ d' ∈ pre, d'.key = d.key → (d'.record "").Agrees (d.record ""))
    {row : ArtifactRow} (hrow : st₁.db.getArtifact d.key = some row) :
    row.Agrees (d.record "") := by
  by_cases hold : st.db.Registered d.key
  · rw [h.oldRows _ hold] at hrow
    exact hrows row hrow
  · obtain ⟨d', hd', hkey, t, rfl⟩ := h.newRows _ hold row hrow
    exact ArtifactRow.Agrees.trans (.of_untimed_eq (d'.untimed_record _ _)) (hsame d' hd' hkey)

end Scanned

/-! ## Whole lists -/

section

variable {strict : Bool} {clock : ScanClock} {st st' : ScanState} {ds : List DiscoveredArtifact}

theorem scanned_of_foldlM (hlist : StagedList ds)
    (h : ds.foldlM (registerArtifact strict clock) st = .ok st') : Scanned strict st ds ds st' :=
  foldlM_invariant (I := fun pre st₁ ↦ Scanned strict st ds pre st₁)
    (fun hds hpre hstep ↦ hpre.snoc hlist hds (of_registerArtifact hstep)) (.nil ds st) h

theorem acyclic_of_foldlM (hacyclic : Acyclic st.db.Edge)
    (h : ds.foldlM (registerArtifact strict clock) st = .ok st') : Acyclic st'.db.Edge := by
  refine foldlM_invariant (I := fun _ st₁ ↦ Acyclic st₁.db.Edge)
    (fun {pre d post st₁ st₂} _ hpre hstep ↦ ?_) hacyclic h
  have hd := of_registerArtifact hstep
  rw [CatalogDb.acyclic_iff_offCycle] at hpre ⊢
  exact fun e he ↦ hd.offCycle e (((hd.edges e).1 he).imp_left fun hold ↦ ⟨hold, hpre e hold⟩)

/-- **When a list of artifacts can be registered**: no row and no two artifacts disagree, no reference
closes a loop in some relation that contains them all, and unless the scan is lenient every parent is
known. -/
theorem exists_foldlM_registerArtifact (clock : ScanClock) (hlist : StagedList ds)
    {E : ArtifactKey → ArtifactKey → Prop} (hE : ∀ a b, st.db.Edge a b → E a b)
    (hrefs : ∀ d ∈ ds, ∀ ref ∈ d.parents, st.db.Known ds ref.artifact →
      E ref.artifact d.key ∧ ¬ ReflTransGen E d.key ref.artifact)
    (hrows : ∀ d ∈ ds, ∀ row, st.db.getArtifact d.key = some row → row.Agrees (d.record ""))
    (hsame : ∀ d ∈ ds, ∀ d' ∈ ds, d'.key = d.key → (d'.record "").Agrees (d.record ""))
    (hparents : strict = true → ∀ d ∈ ds, ∀ ref ∈ d.parents, st.db.Known ds ref.artifact) :
    ∃ st', ds.foldlM (registerArtifact strict clock) st = .ok st' := by
  suffices htotal : ∃ st', ds.foldlM (registerArtifact strict clock) st = .ok st' ∧
      Scanned strict st ds ds st' by
    obtain ⟨st', hst', -⟩ := htotal
    exact ⟨st', hst'⟩
  refine foldlM_total (I := fun pre st₁ ↦ Scanned strict st ds pre st₁)
    (fun {pre d post st₁} hds hpre ↦ ?_) (.nil ds st)
  have hd : d ∈ ds := hds ▸ List.mem_append_right _ (List.mem_cons_self ..)
  have hmem : ∀ d' ∈ pre, d' ∈ ds := fun d' hd' ↦ hds ▸ List.mem_append_left _ hd'
  have hE₁ : ∀ a b, st₁.db.Edge a b → E a b := by
    rintro a b ⟨e, he, rfl, rfl⟩
    rcases (hpre.edges e).1 he with he | ⟨d', hd', ref, href, hknown, rfl⟩
    · exact hE _ _ ⟨e, he, rfl, rfl⟩
    · exact (hrefs d' (hmem d' hd') ref href hknown).1
  have hknown : ∀ k, st₁.db.Registered k ∨ k = d.key → st.db.Known ds k := by
    rintro k (hk | rfl)
    · refine ((hpre.registered k).1 hk).imp_right fun hfound ↦ ?_
      rw [hds, List.map_append]
      exact List.mem_append_left _ hfound
    · exact .inr (List.mem_map_of_mem hd)
  obtain ⟨st₂, hst₂⟩ := exists_registerArtifact clock hE₁
    (fun ref href hr ↦ hrefs d hd ref href (hknown _ hr))
    (fun row hrow ↦ hpre.agrees_next (hrows d hd) (fun d' hd' ↦ hsame d hd d' (hmem d' hd')) hrow)
    fun hstrict ref href ↦ (hpre.registered _).2 ((hparents hstrict d hd ref href).imp_right
      (hlist.mem_of_parent hds href))
  exact ⟨st₂, hst₂, hpre.snoc hlist hds (of_registerArtifact hst₂)⟩

end

/-! ## The artifacts found in files -/

/-- The artifacts whose manifests can be read. -/
def discovered (files : Files) : List DiscoveredArtifact := (manifests files).filterMap id

/-- Every manifest can be read. -/
def Readable (files : Files) : Prop := none ∉ manifests files

instance (files : Files) : Decidable (Readable files) :=
  decidable_of_iff (¬ (manifests files).any Option.isNone) (by simp [Readable])

theorem stagedList_discovered (files : Files) : StagedList (discovered files) := by
  have hmem : ∀ s ∈ scanners, ∀ d ∈ (stageManifests files s).filterMap id,
      d.key.artifactType = s.1 ∧ ∀ ref ∈ d.parents, EarlierStage ref.artifact d.key := by
    intro s hs d hd
    rw [List.mem_filterMap] at hd
    obtain ⟨o, ho, rfl⟩ := hd
    obtain ⟨file, -, hfile⟩ := List.mem_map.1 ho
    obtain ⟨htype, hrefs⟩ := rank_of_mem_scanners hs hfile
    exact ⟨htype, fun ref href ↦ by rw [EarlierStage, htype]; exact hrefs ref href⟩
  have hsorted : scanners.Pairwise fun s s' ↦ s.1.stageRank ≤ s'.1.stageRank := by decide
  rw [discovered, manifests, List.filterMap_flatMap]
  constructor
  · rw [List.pairwise_flatMap]
    refine ⟨fun s hs ↦ List.pairwise_of_forall_mem_list fun d hd d' hd' ↦ ?_, ?_⟩
    · rw [(hmem s hs d hd).1, (hmem s hs d' hd').1]
    · refine hsorted.imp_of_mem fun {s s'} hs hs' hle d hd d' hd' ↦ ?_
      rwa [(hmem s hs d hd).1, (hmem s' hs' d' hd').1]
  · intro d hd
    obtain ⟨s, hs, hd⟩ := List.mem_flatMap.1 hd
    exact (hmem s hs d hd).2

theorem foldlM_scanNext_eq_ok_iff {strict : Bool} {clock : ScanClock}
    {l : List (Option DiscoveredArtifact)} {st st' : ScanState} :
    l.foldlM (scanNext strict clock) st = .ok st' ↔
      none ∉ l ∧ (l.filterMap id).foldlM (registerArtifact strict clock) st = .ok st' := by
  induction l generalizing st with
  | nil => simp
  | cons o l ih =>
    rcases o with _ | d
    · rw [List.foldlM_cons, bind_eq_ok_iff]
      exact iff_of_false (fun ⟨_, h, _⟩ ↦ nomatch h) fun h ↦ h.1 (List.mem_cons_self ..)
    · rw [List.foldlM_cons, List.filterMap_cons_some (rfl : id (some d) = some d), List.foldlM_cons,
        bind_eq_ok_iff, bind_eq_ok_iff]
      simp only [ih, List.mem_cons, reduceCtorEq, false_or, scanNext]
      exact ⟨fun ⟨st₁, h, hnone, hrest⟩ ↦ ⟨hnone, st₁, h, hrest⟩,
        fun ⟨hnone, st₁, h, hrest⟩ ↦ ⟨st₁, h, hnone, hrest⟩⟩

namespace CatalogDb

variable {db : CatalogDb} {strict : Bool} {clock : ScanClock} {files : Files} {st : ScanState}

theorem scan_eq_ok_iff : db.scan strict clock files = .ok st ↔ Readable files ∧
    (discovered files).foldlM (registerArtifact strict clock) ⟨db, {}⟩ = .ok st :=
  foldlM_scanNext_eq_ok_iff

/-- **The effect of a scan.** -/
theorem scanned_of_scan (h : db.scan strict clock files = .ok st) :
    Scanned strict ⟨db, {}⟩ (discovered files) (discovered files) st :=
  scanned_of_foldlM (stagedList_discovered files) (scan_eq_ok_iff.1 h).2

theorem scanCatalog_eq_ok_iff {db' : CatalogDb} {outcome : ScanOutcome} :
    db.scanCatalog clock files = (.ok outcome, db') ↔ ∃ st, db.scan false clock files = .ok st ∧
      st.outcome = outcome ∧ st.db.setMetadata "last_scan_at" clock.finishedAt = db' := by
  rw [scanCatalog]
  split <;> simp [*]

theorem scanned_of_scanCatalog {db' : CatalogDb} {outcome : ScanOutcome}
    (h : db.scanCatalog clock files = (.ok outcome, db')) :
    Scanned false ⟨db, {}⟩ (discovered files) (discovered files) ⟨db', outcome⟩ := by
  obtain ⟨st, hst, rfl, rfl⟩ := scanCatalog_eq_ok_iff.1 h
  have hscan := scanned_of_scan hst
  exact ⟨hscan.registered, hscan.oldRows, hscan.newRows, hscan.agrees,
    hscan.tables.trans ⟨rfl, rfl, rfl, rfl, rfl, rfl⟩, hscan.edges, hscan.issues, hscan.present,
    hscan.offCycle⟩

end CatalogDb

end ForgeData
