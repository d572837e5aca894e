import ForgeData.Catalog.Service
import ForgeData.Catalog.Writes
import ForgeData.Interleaving.Schedule

/-!
# What a full rebuild reports

A full rebuild counts the rows of the user-owned tables before it takes its lock, and again after its
transaction is committed and the lock released. The transaction leaves these tables alone. But other
processes may write them between the two counts, and then the rebuild raises although it has been
committed. It reports success exactly if the numbers of rows are the same both times.
-/

namespace ForgeData

open Python Interleaving

variable {sha : Json → String} {Env : Type} {env : Env → CatalogState → CatalogState → Prop}
  {s s' : CatalogState}

/-! ## The transaction -/

theorem metadata_of_registerParent {strict : Bool} {clock : ScanClock} {d : DiscoveredArtifact}
    {ref : ParentRef} {st st' : ScanState} (h : registerParent strict clock d st ref = .ok st') :
    st'.db.metadata = st.db.metadata := by
  rw [registerParent] at h
  split at h
  · split at h
    · cases h
    · cases h
      rfl
  · split at h
    · cases h
    · split at h
      · cases h
      · next inserted db hinsert =>
        cases h
        rw [CatalogDb.insertEdge] at hinsert
        split at hinsert
        · cases hinsert
          rfl
        · split at hinsert
          · cases hinsert
            rfl
          · cases hinsert

theorem metadata_of_registerArtifact {strict : Bool} {clock : ScanClock} {d : DiscoveredArtifact}
    {st st' : ScanState} (h : registerArtifact strict clock st d = .ok st') :
    st'.db.metadata = st.db.metadata := by
  rw [registerArtifact] at h
  split at h
  · cases h
  · next inserted db hupsert =>
    have hdb : db.metadata = st.db.metadata := by
      rw [CatalogDb.upsertArtifact] at hupsert
      split at hupsert
      · cases hupsert
        rfl
      · split at hupsert
        · cases hupsert
        · cases hupsert
          rfl
    exact foldlM_invariant (I := fun _ st₁ ↦ st₁.db.metadata = st.db.metadata)
      (fun _ hpre hstep ↦ (metadata_of_registerParent hstep).trans hpre) hdb h

theorem CatalogDb.metadata_of_scan {db : CatalogDb} {strict : Bool} {clock : ScanClock} {files : Files}
    {st : ScanState} (h : db.scan strict clock files = .ok st) : st.db.metadata = db.metadata := by
  refine foldlM_invariant (I := fun _ st₁ ↦ st₁.db.metadata = db.metadata)
    (fun {_ a _ _ _} _ hpre hstep ↦ ?_) rfl h
  cases a with
  | none => cases hstep
  | some d => exact (metadata_of_registerArtifact hstep).trans hpre

/-- A step of a full rebuild beside other parties. -/
abbrev FullRebuildStep (Env : Type) := Step CatalogOp CatalogOp.Ans CatalogState Env

/-- The step only writes the artifacts, edges and issues, and the time of the last scan. -/
structure OnlyIndex (x : FullRebuildStep Env) : Prop where
  tables : x.before.db.SameUserTables x.after.db
  metadata : ∀ key, key ≠ "last_scan_at" → x.after.db.metadata.get? key = x.before.db.metadata.get? key
  runs : x.after.runs = x.before.runs

/-- **What the transaction writes.** -/
theorem onlyIndex_of_rebuildIndex {x : FullRebuildStep Env} {answer : Except CatalogError ScanOutcome}
    (hx : x.event = .own .rebuildIndex answer)
    (h : CatalogSem sha .rebuildIndex x.before answer x.after) : OnlyIndex x := by
  obtain ⟨i, hrun⟩ := h
  obtain ⟨event, s, s'⟩ := x
  simp only [CatalogOp.run] at hrun
  split at hrun
  · cases hrun
    exact ⟨.refl _, fun _ _ ↦ rfl, rfl⟩
  · cases hrun
    simp only [CatalogDb.rebuildIndex]
    split
    · exact ⟨.refl _, fun _ _ ↦ rfl, rfl⟩
    · next st hscan =>
      have htables := (CatalogDb.scanned_of_scan hscan).tables
      refine ⟨⟨htables.1, htables.2, htables.3, htables.4, htables.5, htables.6⟩,
        fun key hkey ↦ ?_, rfl⟩
      have hmetadata := CatalogDb.metadata_of_scan hscan
      rw [CatalogDb.setMetadata, Dict.get?_set, if_neg hkey, hmetadata]
      rfl

/-! ## The counts -/

/-- What a step of the rebuild has counted. -/
def countedBy (x : FullRebuildStep Env) : Option (UserTable × ℕ) :=
  match x.event with
  | .own (.count table) n => some (table, n)
  | _ => none

/-- What the transaction has found, if the step has committed it. -/
def committedBy (x : FullRebuildStep Env) : Option ScanOutcome :=
  match x.event with
  | .own .rebuildIndex (.ok outcome) => some outcome
  | _ => none

@[simp] theorem countedBy_count (table : UserTable) (n : ℕ) :
    countedBy (⟨.own (.count table) n, s, s'⟩ : FullRebuildStep Env) = some (table, n) := rfl

@[simp] theorem countedBy_of_ne {o : CatalogOp} {a : o.Ans} (ho : ∀ table, o ≠ .count table) :
    countedBy (⟨.own o a, s, s'⟩ : FullRebuildStep Env) = none := by
  cases o with
  | count table => exact (ho table rfl).elim
  | _ => rfl

@[simp] theorem committedBy_ok (outcome : ScanOutcome) :
    committedBy (⟨.own .rebuildIndex (.ok outcome), s, s'⟩ : FullRebuildStep Env) = some outcome := rfl

@[simp] theorem committedBy_error (e : CatalogError) :
    committedBy (⟨.own .rebuildIndex (.error e), s, s'⟩ : FullRebuildStep Env) = none := rfl

@[simp] theorem committedBy_of_ne {o : CatalogOp} {a : o.Ans} (ho : o ≠ .rebuildIndex) :
    committedBy (⟨.own o a, s, s'⟩ : FullRebuildStep Env) = none := by
  cases o with
  | rebuildIndex => exact (ho rfl).elim
  | _ => rfl

/-- The tables in the order in which they are counted. -/
def userTables : List UserTable :=
  [.datasets, .datasetVersions, .artifactGovernance, .versionGovernance] ++ runTables

theorem of_countRows {tables : List UserTable} {ns : List ℕ} {t : History CatalogOp CatalogOp.Ans CatalogState Env}
    (h : Exec (catalogSystem sha env) (countRows tables) s t (.pure ns) s') :
    ns.length = tables.length ∧ (ownSteps t).filterMap countedBy = tables.zip ns ∧
      (ownSteps t).filterMap committedBy = [] := by
  induction tables generalizing s t ns s' with
  | nil =>
    obtain ⟨rfl, ht⟩ := h.ownSteps_of_pure
    simp [ht]
  | cons table tables ih =>
    obtain ⟨n, s₁, s₂, t', ht, -, hrest⟩ := Exec.ownSteps_of_op_bind h
    obtain ⟨ns', s₃, t₁, t₂, rfl, hcount, hend⟩ := Exec.of_bind_pure hrest
    obtain ⟨rfl, hnil⟩ := Exec.ownSteps_of_pure hend
    obtain ⟨hlength, hcounted, hcommitted⟩ := ih hcount
    rw [ownSteps_append, hnil, List.append_nil] at ht
    simp [ht, hlength, hcounted, hcommitted]

/-- How a full rebuild ends: it was not committed, or it was committed and either reports success, all
numbers being as before, or raises at the first of them that is not. -/
inductive RebuildEnds (before : List ℕ) : List ℕ → List ScanOutcome → Except CatalogError ScanOutcome → Prop
  | uncommitted (e : CatalogError) : RebuildEnds before [] [] (.error e)
  | completed (outcome : ScanOutcome) : RebuildEnds before before [outcome] (.ok outcome)
  | refused {after : List ℕ} (outcome : ScanOutcome) (e : CatalogError) :
      after.length ≤ before.length → ¬ after <+: before →
      RebuildEnds before after [outcome] (.error e)

theorem of_assertPreserved {datasets versions artifacts governed : ℕ} {runs : List ℕ}
    {outcome : ScanOutcome} {result : Except CatalogError ScanOutcome}
    {t : History CatalogOp CatalogOp.Ans CatalogState Env}
    (hlength : runs.length = runTables.length)
    (h : Exec (catalogSystem sha env)
      (assertPreserved datasets versions artifacts governed runs outcome) s t (.pure result) s') :
    (ownSteps t).filterMap committedBy = [] ∧
      ∃ after, (ownSteps t).filterMap countedBy = userTables.zip after ∧
        RebuildEnds (datasets :: versions :: artifacts :: governed :: runs) after [outcome] result := by
  obtain ⟨datasets', _, _, t₁, ht₁, -, h₁⟩ := Exec.ownSteps_of_op_bind h
  obtain ⟨versions', _, _, t₂, ht₂, -, h₂⟩ := Exec.ownSteps_of_op_bind h₁
  rw [ht₂] at ht₁
  -- the counts are compared in the order of the source, which stops at the first difference
  by_cases hdatasets : datasets' ≠ datasets ∨ versions' ≠ versions
  · rw [if_pos hdatasets] at h₂
    obtain ⟨rfl, ht⟩ := Exec.ownSteps_of_pure h₂
    rw [ht] at ht₁
    refine ⟨by simp [ht₁], [datasets', versions'],
      by simp [ht₁, userTables], .refused outcome _ (by simp) ?_⟩
    rw [List.cons_prefix_cons, List.cons_prefix_cons]
    tauto
  rw [if_neg hdatasets] at h₂
  obtain ⟨artifacts', _, _, t₃, ht₃, -, h₃⟩ := Exec.ownSteps_of_op_bind h₂
  obtain ⟨governed', _, s₄, t₄, ht₄, -, h₄⟩ := Exec.ownSteps_of_op_bind h₃
  rw [ht₃, ht₄] at ht₁
  -- artifacts and governance rows come after datasets and versions
  by_cases hgoverned : artifacts' ≠ artifacts ∨ governed' ≠ governed
  · have hend : ∃ e, Exec (catalogSystem sha env) (.pure (.error e)) s₄ t₄ (.pure result) s' := by
      split at h₄
      · exact ⟨_, h₄⟩
      · next hartifacts =>
        rw [if_pos (hgoverned.resolve_left hartifacts)] at h₄
        exact ⟨_, h₄⟩
    obtain ⟨e, hend⟩ := hend
    obtain ⟨rfl, ht⟩ := hend.ownSteps_of_pure
    rw [ht] at ht₁
    refine ⟨by simp [ht₁], [datasets', versions', artifacts', governed'],
      by simp [ht₁, userTables], .refused outcome _ (by simp) ?_⟩
    simp only [List.cons_prefix_cons]
    tauto
  rw [not_or, not_ne_iff, not_ne_iff] at hdatasets hgoverned
  rw [if_neg (not_not_intro hgoverned.1), if_neg (not_not_intro hgoverned.2)] at h₄
  -- and last the tables of the runs, read in one loop
  obtain ⟨runs', _, t₅, t₆, rfl, hruns, h₅⟩ := Exec.of_bind_pure h₄
  obtain ⟨hlength', hcounted, hcommitted⟩ := of_countRows hruns
  have hend : ownSteps t₆ = [] ∧ RebuildEnds (datasets' :: versions' :: artifacts' :: governed' :: runs)
      (datasets' :: versions' :: artifacts' :: governed' :: runs') [outcome] result := by
    split at h₅
    · next hne =>
      obtain ⟨rfl, ht⟩ := Exec.ownSteps_of_pure h₅
      refine ⟨ht, .refused outcome _ (by simp [hlength, hlength']) ?_⟩
      simp only [List.cons_prefix_cons, true_and]
      exact fun hpre ↦ hne (hpre.eq_of_length (hlength'.trans hlength.symm))
    · next heq =>
      obtain ⟨rfl, ht⟩ := Exec.ownSteps_of_pure h₅
      rw [not_ne_iff.1 heq]
      exact ⟨ht, .completed outcome⟩
  obtain ⟨hnil, hends⟩ := hend
  rw [hdatasets.1, hdatasets.2, hgoverned.1, hgoverned.2] at hends
  rw [ownSteps_append, hnil, List.append_nil] at ht₁
  refine ⟨by simp [ht₁, hcommitted],
    datasets :: versions :: artifacts :: governed :: runs', ?_, hends⟩
  simp [ht₁, hcounted, userTables, hdatasets, hgoverned]

/-- **The course of a full rebuild.** -/
theorem rebuildEnds_of_rebuild {t : History CatalogOp CatalogOp.Ans CatalogState Env}
    {result : Except CatalogError ScanOutcome}
    (h : Exec (catalogSystem sha env) rebuild s t (.pure result) s') :
    ∃ before after committed, before.length = userTables.length ∧
      (ownSteps t).filterMap countedBy = userTables.zip before ++ userTables.zip after ∧
      (ownSteps t).filterMap committedBy = committed ∧ RebuildEnds before after committed result := by
  obtain ⟨datasets, _, _, t₁, ht₁, -, h₁⟩ := Exec.ownSteps_of_op_bind h
  obtain ⟨versions, _, _, t₂, ht₂, -, h₂⟩ := Exec.ownSteps_of_op_bind h₁
  obtain ⟨artifacts, _, _, t₃, ht₃, -, h₃⟩ := Exec.ownSteps_of_op_bind h₂
  obtain ⟨governed, _, _, t₄, ht₄, -, h₄⟩ := Exec.ownSteps_of_op_bind h₃
  obtain ⟨runs, _, t₅, t₆, rfl, hruns, h₅⟩ := Exec.of_bind_pure h₄
  obtain ⟨hlength, hcounted, hcommitted⟩ := of_countRows hruns
  obtain ⟨locked, _, _, t₇, ht₇, -, h₆⟩ := Exec.ownSteps_of_call h₅
  rw [ownSteps_append, ht₇] at ht₄
  rw [ht₂, ht₃, ht₄] at ht₁
  have hfirst : (ownSteps t).filterMap countedBy =
      userTables.zip (datasets :: versions :: artifacts :: governed :: runs) ++
        (ownSteps t₇).filterMap countedBy := by
    simp [ht₁, hcounted, userTables]
  have hsecond : (ownSteps t).filterMap committedBy = (ownSteps t₇).filterMap committedBy := by
    simp [ht₁, hcommitted]
  refine ⟨datasets :: versions :: artifacts :: governed :: runs, ?_⟩
  rw [hfirst, hsecond]
  -- the index is locked by a scan, or the rebuild goes on
  rcases locked with e | _
  · obtain ⟨rfl, ht⟩ := Exec.ownSteps_of_pure h₆
    exact ⟨[], [], by simp [hlength, userTables], by simp [ht], by simp [ht], .uncommitted e⟩
  obtain ⟨answer, _, _, t₈, ht₈, -, h₇⟩ := Exec.ownSteps_of_op_bind h₆
  obtain ⟨_, _, _, t₉, ht₉, -, h₈⟩ := Exec.ownSteps_of_op_bind h₇
  rw [ht₉] at ht₈
  -- nothing is committed when the strict scan raises
  rcases answer with e | outcome
  · obtain ⟨rfl, ht⟩ := Exec.ownSteps_of_pure h₈
    rw [ht] at ht₈
    exact ⟨[], [], by simp [hlength, userTables], by simp [ht₈],
      by simp [ht₈], .uncommitted e⟩
  · obtain ⟨hnone, after, hafter, hends⟩ := of_assertPreserved hlength h₈
    exact ⟨after, [outcome], by simp [hlength, userTables], by simp [ht₈, hafter],
      by simp [ht₈, hnone], hends⟩

/-! ## The report -/

/-- Numbers that are assigned to some keys twice, the second time perhaps only to the first of them, are
the same both times exactly if the second ones begin the first ones. -/
theorem zip_functional_iff {κ ν : Type} {keys : List κ} (hkeys : keys.Nodup) {before after : List ν}
    (hbefore : before.length = keys.length) (hafter : after.length ≤ before.length) :
    (∀ p ∈ keys.zip before ++ keys.zip after, ∀ q ∈ keys.zip before ++ keys.zip after,
      p.1 = q.1 → p.2 = q.2) ↔ after <+: before := by
  rw [List.prefix_iff_getElem]
  constructor
  · refine fun h ↦ ⟨hafter, fun i hi ↦ ?_⟩
    have hin : (keys[i], after[i]) ∈ keys.zip after := by
      rw [List.mem_iff_getElem]
      exact ⟨i, by simp; omega, by simp⟩
    have hin' : (keys[i], before[i]) ∈ keys.zip before := by
      rw [List.mem_iff_getElem]
      exact ⟨i, by simp; omega, by simp⟩
    exact h _ (List.mem_append_right _ hin) _ (List.mem_append_left _ hin') rfl
  · rintro ⟨hle, hsame⟩
    -- every pair of either list is a key with its number from the first list
    have hvalue : ∀ p ∈ keys.zip before ++ keys.zip after,
        ∃ (i : ℕ) (hi : i < keys.length), p.1 = keys[i] ∧ p.2 = before[i] := by
      intro p hp
      rcases List.mem_append.1 hp with hp | hp
      · obtain ⟨i, hi, rfl⟩ := List.mem_iff_getElem.1 hp
        rw [List.length_zip] at hi
        exact ⟨i, by omega, by simp⟩
      · obtain ⟨i, hi, rfl⟩ := List.mem_iff_getElem.1 hp
        rw [List.length_zip] at hi
        exact ⟨i, by omega, by simp [hsame i (by omega)]⟩
    intro p hp q hq heq
    obtain ⟨i, hi, hp₁, hp₂⟩ := hvalue p hp
    obtain ⟨j, hj, hq₁, hq₂⟩ := hvalue q hq
    obtain rfl : i = j := (hkeys.getElem_inj_iff).1 (hp₁.symm.trans (heq.trans hq₁))
    exact hp₂.trans hq₂.symm

/-- Whenever the rebuild counts a table, it has the same number of rows. -/
def CountsKept (t : History CatalogOp CatalogOp.Ans CatalogState Env) : Prop :=
  ∀ x ∈ t, ∀ y ∈ t, ∀ table n m, x.event = .own (.count table) n → y.event = .own (.count table) m →
    x.before.count table = y.before.count table

/-- A rebuild whose transaction was committed reports what that has found. -/
def ReportsCommit (t : History CatalogOp CatalogOp.Ans CatalogState Env)
    (result : Except CatalogError ScanOutcome) : Prop :=
  ∀ x ∈ t, ∀ outcome, x.event = .own .rebuildIndex (.ok outcome) → result = .ok outcome

/-- The transaction of the rebuild writes only the index. -/
def WritesOnlyIndex (t : History CatalogOp CatalogOp.Ans CatalogState Env) : Prop :=
  ∀ x ∈ t, ∀ answer, x.event = .own .rebuildIndex answer → OnlyIndex x

theorem countedBy_eq_some_iff {x : FullRebuildStep Env} {table : UserTable} {n : ℕ} :
    countedBy x = some (table, n) ↔ x.event = .own (.count table) n := by
  obtain ⟨event, s, s'⟩ := x
  constructor
  · intro h
    cases event with
    | env e => cases h
    | own o a =>
      cases o with
      | count table' =>
        cases h
        rfl
      | _ => cases h
  · rintro rfl
    rfl

theorem committedBy_eq_some_iff {x : FullRebuildStep Env} {outcome : ScanOutcome} :
    committedBy x = some outcome ↔ x.event = .own .rebuildIndex (.ok outcome) := by
  obtain ⟨event, s, s'⟩ := x
  constructor
  · intro h
    cases event with
    | env e => cases h
    | own o a =>
      cases o with
      | rebuildIndex =>
        rcases a with e | outcome'
        · cases h
        · cases h
          rfl
      | _ => cases h
  · rintro rfl
    rfl

/-- What is counted is the number of rows. -/
theorem countsKept_iff {α : Type} {p q : CatalogProg α}
    {t : History CatalogOp CatalogOp.Ans CatalogState Env}
    (h : Exec (catalogSystem sha env) p s t q s') : CountsKept t ↔
      ∀ p ∈ (ownSteps t).filterMap countedBy, ∀ q ∈ (ownSteps t).filterMap countedBy,
        p.1 = q.1 → p.2 = q.2 := by
  have hcount : ∀ x ∈ t, ∀ table n, x.event = .own (.count table) n → n = x.before.count table := by
    intro x hx table n hevent
    obtain ⟨_, hrun⟩ := h.sem_of_mem hx hevent
    exact (congrArg Prod.fst hrun).symm
  have hmem : ∀ table n, (table, n) ∈ (ownSteps t).filterMap countedBy ↔
      ∃ x ∈ t, x.event = .own (.count table) n := by
    intro table n
    simp only [List.mem_filterMap, countedBy_eq_some_iff]
    exact exists_congr fun x ↦ and_congr_left fun hevent ↦ mem_ownSteps_iff hevent
  constructor
  · rintro hkept ⟨table, n⟩ hp ⟨table', m⟩ hq htable
    obtain rfl : table = table' := htable
    obtain ⟨x, hx, hevent⟩ := (hmem table n).1 hp
    obtain ⟨y, hy, hevent'⟩ := (hmem table m).1 hq
    have hsame := hkept x hx y hy table n m hevent hevent'
    rwa [← hcount x hx table n hevent, ← hcount y hy table m hevent'] at hsame
  · intro hsame x hx y hy table n m hevent hevent'
    rw [← hcount x hx table n hevent, ← hcount y hy table m hevent']
    exact hsame _ ((hmem table n).2 ⟨x, hx, hevent⟩) _ ((hmem table m).2 ⟨y, hy, hevent'⟩) rfl

/-- **What a full rebuild reports**, whatever other parties do: its transaction writes only the index, and
a committed rebuild reports success, if and only if no table changes its number of rows between the two
counts. -/
theorem rebuild_reports_iff {t : History CatalogOp CatalogOp.Ans CatalogState Env}
    {result : Except CatalogError ScanOutcome}
    (h : Exec (catalogSystem sha env) rebuild s t (.pure result) s') :
    ReportsCommit t result ∧ WritesOnlyIndex t ↔ CountsKept t := by
  obtain ⟨before, after, committed, hlength, hcounted, hcommitted, hends⟩ := rebuildEnds_of_rebuild h
  have honly : WritesOnlyIndex t := fun x hx answer hevent ↦
    onlyIndex_of_rebuildIndex hevent (h.sem_of_mem hx hevent)
  have hreports : ReportsCommit t result ↔ ∀ outcome ∈ committed, result = .ok outcome := by
    simp only [← hcommitted, List.mem_filterMap, committedBy_eq_some_iff]
    constructor
    · rintro hreport outcome ⟨x, hx, hevent⟩
      exact hreport x ((mem_ownSteps_iff hevent).1 hx) outcome hevent
    · intro hreport x hx outcome hevent
      exact hreport outcome ⟨x, (mem_ownSteps_iff hevent).2 hx, hevent⟩
  have hafter : after.length ≤ before.length := by
    cases hends with
    | uncommitted => exact Nat.zero_le _
    | completed => exact Nat.le_refl _
    | refused _ _ hle => exact hle
  rw [and_iff_left honly, hreports, countsKept_iff h, hcounted,
    zip_functional_iff (by decide) hlength hafter]
  cases hends with
  | uncommitted e => simp
  | completed outcome => simp
  | refused outcome e _ hpre => simp [hpre]

/-! ## A dataset that is created meanwhile -/

/-- Others create datasets. -/
def CreatesDataset (datasetName : String) (s s' : CatalogState) : Prop :=
  ∃ a, CatalogSem (fun _ ↦ "") (.createDataset datasetName none .null) s a s'

/-- A full rebuild of a catalog without manifests, in these turns. -/
def rebuildBeside (turns : List (Turn CatalogInput String)) :
    Point CatalogOp CatalogOp.Ans CatalogState String (Except CatalogError ScanOutcome) :=
  simulate (fun i o s ↦ o.run (fun _ ↦ "") i s)
    (fun datasetName s ↦ ((CatalogOp.createDataset datasetName none .null).run (fun _ ↦ "")
      quietCatalogInput s).2) turns rebuild .empty

theorem exec_rebuildBeside (turns : List (Turn CatalogInput String))
    {result : Except CatalogError ScanOutcome}
    (hresult : (rebuildBeside turns).rest.result? = some result) :
    Exec (catalogSystem (fun _ ↦ "") CreatesDataset) rebuild .empty (rebuildBeside turns).history
      (.pure result) (rebuildBeside turns).state := by
  have hexec : Exec (catalogSystem (fun _ ↦ "") CreatesDataset) rebuild .empty
      (rebuildBeside turns).history (rebuildBeside turns).rest (rebuildBeside turns).state := by
    refine exec_simulate (fun i o s ↦ ?_) (fun datasetName s ↦ ?_) turns rebuild
      CatalogState.empty
    · exact ⟨i, rfl⟩
    · exact ⟨_, quietCatalogInput, rfl⟩
  exact Prog.eq_pure_of_result? hresult ▸ hexec

/-- The turns of a rebuild during which a dataset is created. -/
def creatingAfter (n : ℕ) : List (Turn CatalogInput String) :=
  List.replicate n (.own quietCatalogInput) ++ .env "walks" ::
    List.replicate (19 - n) (.own quietCatalogInput)

/-- The dataset is created before the rebuild starts. -/
theorem rebuild_reports_iff_createdBefore :
    ReportsCommit (rebuildBeside (creatingAfter 0)).history (.ok {}) ∧
      WritesOnlyIndex (rebuildBeside (creatingAfter 0)).history := by
  have hexec := exec_rebuildBeside (creatingAfter 0)
    (show _ = some (.ok {}) by decide +kernel)
  exact (rebuild_reports_iff hexec).2 ((countsKept_iff hexec).2 (by decide +kernel))

/-- The dataset is created before the tables are counted again: the committed rebuild raises. -/
theorem rebuild_not_reports :
    ¬ ∀ (t : History CatalogOp CatalogOp.Ans CatalogState String)
      (result : Except CatalogError ScanOutcome) (s' : CatalogState),
      Exec (catalogSystem (fun _ ↦ "") CreatesDataset) rebuild .empty t (.pure result) s' →
        ReportsCommit t result := by
  intro h
  have hexec := exec_rebuildBeside (creatingAfter 11)
    (show _ = some (.error (.assertionError "rebuild must never alter dataset/version tables")) by
      decide +kernel)
  obtain ⟨x, hx, hcommitted⟩ : ∃ x ∈ (rebuildBeside (creatingAfter 11)).history,
      committedBy x = some {} := by decide +kernel
  cases h _ _ _ hexec x hx {} (committedBy_eq_some_iff.1 hcommitted)

end ForgeData
