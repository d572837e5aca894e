import ForgeData.FileSystem.Closed
import ForgeData.FileSystem.Prune
import ForgeData.Python.Loop
import ForgeData.Storage.Publication
import ForgeData.Storage.Recovery

/-!
# What a cleanup removes

A cleanup removes what is at or below a staging directory whose journal says that its operation has
started long ago, and nothing else. The staging directories that are left are classified as before, so
that a second cleanup at the same time has nothing to do.
-/

namespace ForgeData

namespace Storage

open Python FileSystem

variable {R F : Type} [FloatText R] [DurationFloat F] {settings : RecoverySettings F} {now : ℤ}
  {t : Tree String Byte}

/-! ## Staging directories -/

/-- Where the staging directories of a store are: in `.staging`, or anywhere under a name of their own. -/
def IsStagingDir (settings : RecoverySettings F) (stage : String) (dir : Path String) : Prop :=
  ∃ root, (stage, root) ∈ stagingRoots settings ∧ ((∃ name, dir = root ++ [".staging", name]) ∨
    ∃ q name, isTmpName name = true ∧ dir = root ++ q ++ [name])

theorem mem_map_below {p q : Path String} (hq : q ≠ []) (h : t.isDir (p ++ q) = true) :
    p ++ q ∈ (t.below p).map (p ++ ·) := by
  refine List.mem_map_of_mem (t.mem_below.mpr ⟨hq, ?_⟩)
  rw [(t.isDir_iff.mp h).resolve_left (List.append_ne_nil_of_right_ne_nil p hq)]
  rfl

theorem mem_subdirectories {path p : Path String} :
    p ∈ subdirectories t path ↔ (∃ name, p = path ++ [name]) ∧ t.isDir p = true := by
  rw [subdirectories, List.mem_filter, decide_eq_true_eq]
  constructor
  · rintro ⟨hmem, hlength, hdir⟩
    obtain ⟨q, -, rfl⟩ := List.mem_map.mp hmem
    rw [List.length_append, Nat.add_left_cancel_iff, List.length_eq_one_iff] at hlength
    obtain ⟨name, rfl⟩ := hlength
    exact ⟨⟨name, rfl⟩, hdir⟩
  · rintro ⟨⟨name, rfl⟩, hdir⟩
    exact ⟨mem_map_below (List.cons_ne_nil _ _) hdir, List.length_append, hdir⟩

theorem mem_tmpDirectories {path p : Path String} :
    p ∈ tmpDirectories t path ↔
      (∃ q name, isTmpName name = true ∧ p = path ++ q ++ [name]) ∧ t.isDir p = true := by
  rw [tmpDirectories, List.mem_filter, decide_eq_true_eq]
  constructor
  · rintro ⟨hmem, hname, hdir⟩
    obtain ⟨q, hq, rfl⟩ := List.mem_map.mp hmem
    obtain ⟨q, name, rfl⟩ := (List.eq_nil_or_concat q).resolve_left (t.mem_below.mp hq).1
    rw [List.concat_eq_append, ← List.append_assoc] at hname hdir ⊢
    rw [List.getLast?_concat, Option.any_some] at hname
    exact ⟨⟨q, name, hname, rfl⟩, hdir⟩
  · rintro ⟨⟨q, name, hname, rfl⟩, hdir⟩
    refine ⟨?_, by rwa [List.getLast?_concat, Option.any_some], hdir⟩
    rw [List.append_assoc] at hdir ⊢
    exact mem_map_below (List.append_ne_nil_of_right_ne_nil q (List.cons_ne_nil _ _)) hdir

/-- **What is found** below a root are the directories at such places. -/
theorem mem_findStagingDirs (hclosed : t.Closed) {root dir : Path String} :
    dir ∈ findStagingDirs t root ↔ ((∃ name, dir = root ++ [".staging", name]) ∨
      ∃ q name, isTmpName name = true ∧ dir = root ++ q ++ [name]) ∧ t.isDir dir = true := by
  have hite {l : List (Path String)} {b : Bool} (p : Path String) :
      p ∈ (if b = true then l else []) ↔ b = true ∧ p ∈ l := by
    cases b <;> simp
  rw [findStagingDirs, List.mem_append, hite, hite, mem_subdirectories, mem_tmpDirectories]
  constructor
  · rintro (⟨-, ⟨name, rfl⟩, hdir⟩ | ⟨-, hname, hdir⟩)
    · exact ⟨.inl ⟨name, List.append_assoc ..⟩, hdir⟩
    · exact ⟨.inr hname, hdir⟩
  · rintro ⟨⟨name, rfl⟩ | ⟨q, name, hname, rfl⟩, hdir⟩
    · have hpath : root ++ [".staging", name] = root ++ [".staging"] ++ [name] :=
        (List.append_assoc root [".staging"] [name]).symm
      rw [hpath] at hdir ⊢
      exact .inl ⟨hclosed.isDir_of_append hdir, ⟨name, rfl⟩, hdir⟩
    · refine .inr ⟨?_, ⟨q, name, hname, rfl⟩, hdir⟩
      rw [List.append_assoc] at hdir
      exact hclosed.isDir_of_append hdir

/-! ## Classification -/

/-- The journal in a directory says that its operation has started long ago. -/
def IsStale (R : Type) [FloatText R] (settings : RecoverySettings F) (now : ℤ) (t : Tree String Byte)
    (dir : Path String) : Prop :=
  ∃ (metadata : Record R) (text : Str) (started : ZonedDatetime) (offset : UtcOffset),
    metadataAt R t dir = .ok (some metadata) ∧
    metadata.get? (Str.ofString "started_at") = some (.str text) ∧ fromisoformat text = some started ∧
    started.tzinfo = some offset ∧
    ¬DurationFloat.totalSeconds (now - started.instant offset) < settings.staleStagingAfterSeconds

/-- What a journal with these bytes says. -/
def metadataOfBytes (R : Type) [FloatText R] (bytes : List Byte) :
    Except (StorageException RecoveryError) (Option (Record R)) :=
  match Utf8.decode bytes with
  | none => .error .unicode
  | some text =>
    match (loads text.universalNewlines : Except JsonError (Value R)) with
    | .ok raw => .ok (stagingMetadataOf R raw)
    | .error .decodeError => .ok none
    | .error .tooManyDigits => .error .value

/-- What the journal in a directory says depends on the file at its place only. -/
theorem metadataAt_eq (dir : Path String) :
    metadataAt R t dir = ((t.file? (dir ++ [stagingStateFilename])).elim (.ok none) (metadataOfBytes R)) := by
  have hrun : Runs (readStagingMetadata R dir : StorageProgram RecoveryError _) t
      ((t.file? (dir ++ [stagingStateFilename])).elim (.ok none) (metadataOfBytes R)) t := by
    rw [readStagingMetadata]
    refine Runs.bind (Runs.call (o := .pathExists (dir ++ [stagingStateFilename]))
      (v := t.pathExists (dir ++ [stagingStateFilename])) rfl) ?_
    rcases hfile : t.file? (dir ++ [stagingStateFilename]) with _ | bytes
    · -- there is nothing, or a directory that cannot be read
      rcases t.pathExists (dir ++ [stagingStateFilename]) with _ | _
      · exact Runs.pure _ t
      · have hperform : perform (.read (dir ++ [stagingStateFilename])) t =
            (.error (if t.isDir (dir ++ [stagingStateFilename]) then .isADirectory else .notFound), t) := by
          rw [perform, hfile]
        exact Runs.tryCatch_error (Runs.bind_error _ (Runs.bind_error _ (Runs.call_error hperform)))
          (Runs.pure _ t)
    · have hexists : t.pathExists (dir ++ [stagingStateFilename]) = true := by
        rw [Tree.pathExists, t.file?_eq_some_iff.mp hfile]
        exact Bool.or_true _
      have hread := runs_readText_of_file (ε := RecoveryError) hfile
      rw [hexists, Option.elim_some, metadataOfBytes]
      rcases hdecode : Utf8.decode bytes with _ | text
      · rw [hdecode] at hread
        exact Runs.tryCatch_error (Runs.bind_error _ hread) (Runs.throw _ t)
      · rw [hdecode, Option.elim_some] at hread
        dsimp only
        rcases hloads : (loads text.universalNewlines : Except JsonError (Value R)) with (_ | _) | raw
        · refine Runs.tryCatch_ok _ (Runs.bind hread ?_)
          rw [hloads]
          exact Runs.pure _ t
        · refine Runs.tryCatch_error (e := .value) (Runs.bind hread ?_) (Runs.throw _ t)
          rw [hloads]
          exact Runs.throw _ t
        · refine Runs.tryCatch_ok _ (Runs.bind hread ?_)
          rw [hloads]
          exact Runs.pure _ t
  exact congrArg Prod.fst hrun

/-- An entry without the size of its directory. -/
def RecoveryEntry.withoutSize (e : RecoveryEntry R) : RecoveryEntry R := { e with sizeBytes := 0 }

/-- The entry of a directory depends on its journal, its size apart. -/
theorem map_withoutSize_classify (settings : RecoverySettings F) (now : ℤ) {t t' : Tree String Byte}
    {dir : Path String} (stage : String)
    (h : metadataAt R t' dir = metadataAt R t dir) :
    (classify settings now t' stage dir).map RecoveryEntry.withoutSize =
      (classify (R := R) settings now t stage dir).map RecoveryEntry.withoutSize := by
  rw [classify, classify, h]
  rcases metadataAt R t dir with e | (_ | metadata)
  · rfl
  · rfl
  · rcases hstarted : metadata.get? (Str.ofString "started_at") with _ | v
    · simp only [hstarted, bind, Except.bind]
    · cases v with
      | str text =>
        simp only [hstarted, bind, Except.bind]
        rcases fromisoformat text with _ | started
        · rfl
        · dsimp only
          rcases (ageSeconds now started : Except (StorageException RecoveryError) F) with e | age
          · rfl
          · dsimp only
            split <;> rfl
      | _ => simp only [hstarted, bind, Except.bind]

/-- **An entry is stale** exactly if the journal says so. -/
theorem classify_ok {stage : String} {dir : Path String} {e : RecoveryEntry R}
    (h : classify settings now t stage dir = .ok e) :
    e.stage = stage ∧ e.stagingPath = dir ∧ (e.classification = .stale ↔ IsStale R settings now t dir) := by
  -- whatever branch is taken, the journal has been read only once
  have hnot {v : Option (Record R)} (hv : metadataAt R t dir = .ok v)
      (hno : ∀ metadata text started offset, v = some metadata →
        metadata.get? (Str.ofString "started_at") = some (.str text) →
        fromisoformat text = some started → started.tzinfo = some offset →
        DurationFloat.totalSeconds (now - started.instant offset) < settings.staleStagingAfterSeconds) :
      ¬IsStale R settings now t dir := by
    rintro ⟨metadata, text, started, offset, hmetadata, htext, hiso, hoffset, hage⟩
    rw [hv] at hmetadata
    exact hage (hno metadata text started offset (Except.ok.inj hmetadata) htext hiso hoffset)
  rw [classify] at h
  -- the branches of the source: no journal, no usable start time, its age
  rcases hmetadata : metadataAt R t dir with error | (_ | metadata)
  · rw [hmetadata] at h
    cases h
  · rw [hmetadata] at h
    obtain rfl := Except.ok.inj h
    refine ⟨rfl, rfl, iff_of_false (by simp) (hnot hmetadata ?_)⟩
    rintro metadata - - - hnone
    cases hnone
  · rw [hmetadata] at h
    simp only [bind, Except.bind] at h
    split at h
    · next text htext =>
      split at h
      · next hiso =>
        obtain rfl := Except.ok.inj h
        refine ⟨rfl, rfl, iff_of_false (by simp) (hnot hmetadata ?_)⟩
        rintro metadata' text' started offset hsome htext' hstarted -
        obtain rfl := Option.some.inj hsome
        rw [htext, Option.some_inj, Value.str.injEq] at htext'
        rw [← htext', hiso] at hstarted
        cases hstarted
      · next started hiso =>
        rcases hoffset : started.tzinfo with _ | offset
        · rw [ageSeconds, hoffset] at h
          cases h
        · rw [ageSeconds, hoffset] at h
          dsimp only at h
          split at h
          -- too young
          · next hage =>
            obtain rfl := Except.ok.inj h
            refine ⟨rfl, rfl, iff_of_false (by simp) (hnot hmetadata ?_)⟩
            rintro metadata' text' started' offset' hsome htext' hstarted hoffset'
            obtain rfl := Option.some.inj hsome
            rw [htext, Option.some_inj, Value.str.injEq] at htext'
            rw [← htext', hiso, Option.some_inj] at hstarted
            rw [← hstarted, hoffset, Option.some_inj] at hoffset'
            rwa [← hstarted, ← hoffset']
          -- old enough, the only branch that answers stale
          · next hage =>
            obtain rfl := Except.ok.inj h
            exact ⟨rfl, rfl, iff_of_true rfl ⟨metadata, text, started, offset, hmetadata, htext, hiso,
              hoffset, hage⟩⟩
    · cases h

/-! ## Scans -/

/-- The entries of a scan are staging directories that are there, classified. -/
theorem isStagingDir_of_mem (hclosed : t.Closed) {result : RecoveryScanResult R}
    (h : scan settings now t = .ok result) {e : RecoveryEntry R} (he : e ∈ result.entries) :
    IsStagingDir settings e.stage e.stagingPath ∧ t.isDir e.stagingPath = true ∧
      classify settings now t e.stage e.stagingPath = .ok e := by
  rw [scan, bind_eq_ok_iff] at h
  obtain ⟨lists, hlists, heq⟩ := h
  obtain rfl := Except.ok.inj heq
  obtain ⟨es, hes, he⟩ := List.mem_flatten.mp he
  obtain ⟨⟨stage, root⟩, hstore, hscan⟩ := exists_of_forall₂_right (forall₂_of_mapM_eq_ok hlists) hes
  rw [scanRoot] at hscan
  split at hscan
  · obtain rfl := Except.ok.inj hscan
    cases he
  · obtain ⟨dir, hdir, hclassify⟩ := exists_of_forall₂_right (forall₂_of_mapM_eq_ok hscan) he
    rw [List.mem_insertionSort, mem_findStagingDirs hclosed] at hdir
    obtain ⟨rfl, rfl, -⟩ := classify_ok hclassify
    exact ⟨⟨root, hstore, hdir.1⟩, hdir.2, hclassify⟩

/-- **No staging directory is missed.** -/
theorem exists_entry (hclosed : t.Closed) {result : RecoveryScanResult R}
    (h : scan settings now t = .ok result) {stage : String} {dir : Path String}
    (hplace : IsStagingDir settings stage dir) (hdir : t.isDir dir = true) :
    ∃ e ∈ result.entries, e.stage = stage ∧ e.stagingPath = dir := by
  rw [scan, bind_eq_ok_iff] at h
  obtain ⟨lists, hlists, heq⟩ := h
  obtain rfl := Except.ok.inj heq
  obtain ⟨root, hstore, hplace⟩ := hplace
  obtain ⟨es, hes, hscan⟩ : ∃ es ∈ lists, scanRoot settings now t (stage, root) = .ok es :=
    exists_of_forall₂_right (forall₂_of_mapM_eq_ok hlists).flip hstore
  have hroot : t.pathExists root = true := by
    apply Tree.pathExists_of_isDir
    rcases hplace with ⟨name, rfl⟩ | ⟨q, name, -, rfl⟩
    · exact hclosed.isDir_of_append hdir
    · rw [List.append_assoc] at hdir
      exact hclosed.isDir_of_append hdir
  rw [scanRoot, hroot, if_neg (by decide)] at hscan
  have hmem : dir ∈ (findStagingDirs t root).insertionSort (· ≤ ·) := by
    rw [List.mem_insertionSort, mem_findStagingDirs hclosed]
    exact ⟨hplace, hdir⟩
  obtain ⟨e, he, hclassify⟩ : ∃ e ∈ es, classify settings now t stage dir = .ok e :=
    exists_of_forall₂_right (forall₂_of_mapM_eq_ok hscan).flip hmem
  obtain ⟨hstage, hpath, -⟩ := classify_ok hclassify
  exact ⟨e, List.mem_flatten.mpr ⟨es, hes, he⟩, hstage, hpath⟩

/-! ## Scans of a pruned tree -/

section Prune

variable {keep : Path String → Bool}

theorem subdirectories_prune (path : Path String) :
    subdirectories (t.prune keep) path = (subdirectories t path).filter keep := by
  rw [subdirectories, subdirectories, t.map_below_prune, List.filter_filter, List.filter_filter]
  refine List.filter_congr fun p _ ↦ ?_
  rcases hp : keep p with _ | _
  · simp
  · simp [t.isDir_prune keep hp]

theorem tmpDirectories_prune (path : Path String) :
    tmpDirectories (t.prune keep) path = (tmpDirectories t path).filter keep := by
  rw [tmpDirectories, tmpDirectories, t.map_below_prune, List.filter_filter, List.filter_filter]
  refine List.filter_congr fun p _ ↦ ?_
  rcases hp : keep p with _ | _
  · simp
  · simp [t.isDir_prune keep hp]

/-- What is below a directory that goes, goes with it. -/
theorem ite_filter_prune (hkeep : ∀ p q, p <+: q → keep p = false → keep q = false) {path : Path String}
    {l : List (Path String)} (hl : ∀ p ∈ l, path <+: p) :
    (if (t.prune keep).isDir path then l.filter keep else []) =
      (if t.isDir path then l else []).filter keep := by
  rcases hp : keep path with _ | _
  · have hnil : l.filter keep = [] := by
      refine List.filter_eq_nil_iff.mpr fun p hmem ↦ ?_
      rw [hkeep path p (hl p hmem) hp]
      exact Bool.false_ne_true
    rw [hnil, ite_self]
    split
    · exact hnil.symm
    · rfl
  · rw [t.isDir_prune keep hp]
    split
    · rfl
    · rfl

theorem findStagingDirs_prune (hkeep : ∀ p q, p <+: q → keep p = false → keep q = false)
    (root : Path String) :
    findStagingDirs (t.prune keep) root = (findStagingDirs t root).filter keep := by
  rw [findStagingDirs, findStagingDirs, List.filter_append, subdirectories_prune, tmpDirectories_prune,
    ite_filter_prune hkeep fun p hp ↦ ?_, ite_filter_prune hkeep fun p hp ↦ ?_]
  · obtain ⟨⟨q, name, -, rfl⟩, -⟩ := mem_tmpDirectories.mp hp
    rw [List.append_assoc]
    exact List.prefix_append _ _
  · obtain ⟨⟨name, rfl⟩, -⟩ := mem_subdirectories.mp hp
    exact List.prefix_append _ _

theorem filter_insertionSort (k : Path String → Bool) (l : List (Path String)) :
    (l.insertionSort (· ≤ ·)).filter k = (l.filter k).insertionSort (· ≤ ·) := by
  refine List.Perm.eq_of_pairwise' ((List.pairwise_insertionSort _ l).filter k)
    (List.pairwise_insertionSort _ (l.filter k)) ?_
  exact ((List.perm_insertionSort _ l).filter k).trans (List.perm_insertionSort _ (l.filter k)).symm

/-- The journals of the directories that are kept say what they said. -/
def KeepsJournals (R : Type) [FloatText R] (t : Tree String Byte) (keep : Path String → Bool) : Prop :=
  ∀ dir, keep dir = true → metadataAt R (t.prune keep) dir = metadataAt R t dir

theorem mapM_classify_prune (hjournals : KeepsJournals R t keep) (stage : String)
    {dirs : List (Path String)} {entries : List (RecoveryEntry R)}
    (h : dirs.mapM (classify settings now t stage) = .ok entries) :
    ∃ entries', (dirs.filter keep).mapM (classify settings now (t.prune keep) stage) = .ok entries' ∧
      entries'.map RecoveryEntry.withoutSize =
        (entries.filter fun e ↦ keep e.stagingPath).map RecoveryEntry.withoutSize := by
  induction dirs generalizing entries with
  | nil =>
    obtain rfl := Except.ok.inj h
    exact ⟨[], rfl, rfl⟩
  | cons dir dirs ih =>
    rw [List.mapM_cons, bind_eq_ok_iff] at h
    obtain ⟨e, he, h⟩ := h
    rw [bind_eq_ok_iff] at h
    obtain ⟨rest, hrest, heq⟩ := h
    obtain rfl := Except.ok.inj heq
    obtain ⟨rest', hrest', hmap⟩ := ih hrest
    obtain ⟨-, hpath, -⟩ := classify_ok he
    rcases hdir : keep dir with _ | _
    · rw [List.filter_cons_of_neg (by simp [hdir]), List.filter_cons_of_neg (by simp [hpath, hdir])]
      exact ⟨rest', hrest', hmap⟩
    · have hsame := map_withoutSize_classify (R := R) settings now stage (hjournals dir hdir)
      rw [he] at hsame
      rcases he' : classify (R := R) settings now (t.prune keep) stage dir with _ | e'
      · rw [he'] at hsame
        cases hsame
      · rw [he'] at hsame
        rw [List.filter_cons_of_pos hdir, List.filter_cons_of_pos (by simp [hpath, hdir]), List.mapM_cons, he',
          hrest']
        refine ⟨e' :: rest', rfl, ?_⟩
        rw [List.map_cons, List.map_cons, hmap, Except.ok.inj hsame]

/-- A root that goes takes its staging directories with it. -/
theorem filter_findStagingDirs_eq_nil (hkeep : ∀ p q, p <+: q → keep p = false → keep q = false)
    {root : Path String} (hroot : keep root = false) : (findStagingDirs t root).filter keep = [] := by
  refine List.filter_eq_nil_iff.mpr fun p hp ↦ ?_
  have hle : root <+: p := by
    rw [findStagingDirs, List.mem_append] at hp
    rcases hp with hp | hp
    · split at hp
      · obtain ⟨⟨name, rfl⟩, -⟩ := mem_subdirectories.mp hp
        rw [List.append_assoc]
        exact List.prefix_append _ _
      · cases hp
    · split at hp
      · obtain ⟨⟨q, name, -, rfl⟩, -⟩ := mem_tmpDirectories.mp hp
        rw [List.append_assoc]
        exact List.prefix_append _ _
      · cases hp
  rw [hkeep root p hle hroot]
  exact Bool.false_ne_true

theorem scanRoot_prune (hkeep : ∀ p q, p <+: q → keep p = false → keep q = false)
    (hjournals : KeepsJournals R t keep) {store : String × Path String} {entries : List (RecoveryEntry R)}
    (h : scanRoot settings now t store = .ok entries) :
    ∃ entries', scanRoot settings now (t.prune keep) store = .ok entries' ∧
      entries'.map RecoveryEntry.withoutSize =
        (entries.filter fun e ↦ keep e.stagingPath).map RecoveryEntry.withoutSize := by
  rw [scanRoot] at h ⊢
  rcases hroot : t.pathExists store.2 with _ | _
  · have hgone : (t.prune keep).pathExists store.2 = false := by
      rw [Tree.pathExists, Bool.or_eq_false_iff, Option.isSome_eq_false_iff, Option.isNone_iff_eq_none] at hroot ⊢
      refine ⟨hroot.1, ?_⟩
      rw [t.get?_prune, hroot.2, ite_self]
    rw [hroot] at h
    obtain rfl := Except.ok.inj h
    rw [hgone]
    exact ⟨[], rfl, rfl⟩
  · rw [hroot, if_neg (by decide)] at h
    obtain ⟨entries', hentries', hmap⟩ := mapM_classify_prune hjournals store.1 h
    rw [filter_insertionSort] at hentries'
    rw [findStagingDirs_prune hkeep]
    rcases hroot' : (t.prune keep).pathExists store.2 with _ | _
    · have hgone : keep store.2 = false := by
        by_contra hkept
        rw [Tree.pathExists, t.get?_prune, if_pos (by simpa using hkept)] at hroot'
        rw [Tree.pathExists, hroot'] at hroot
        cases hroot
      rw [filter_findStagingDirs_eq_nil hkeep hgone] at hentries'
      obtain rfl := Except.ok.inj hentries'
      exact ⟨[], rfl, hmap⟩
    · exact ⟨entries', hentries', hmap⟩

/-- **A scan of a pruned tree** finds the staging directories that are kept, classified as before. -/
theorem scan_prune (hkeep : ∀ p q, p <+: q → keep p = false → keep q = false)
    (hjournals : KeepsJournals R t keep) {result : RecoveryScanResult R}
    (h : scan settings now t = .ok result) :
    ∃ result', scan settings now (t.prune keep) = .ok result' ∧
      result'.staleCount = result'.entries.countP (fun e ↦ e.classification = .stale) ∧
      result'.entries.map RecoveryEntry.withoutSize =
        (result.entries.filter fun e ↦ keep e.stagingPath).map RecoveryEntry.withoutSize := by
  have hstores {stores : List (String × Path String)} {lists : List (List (RecoveryEntry R))}
      (hlists : stores.mapM (scanRoot settings now t) = .ok lists) :
      ∃ lists', stores.mapM (scanRoot settings now (t.prune keep)) = .ok lists' ∧
        lists'.flatten.map RecoveryEntry.withoutSize =
          (lists.flatten.filter fun e ↦ keep e.stagingPath).map RecoveryEntry.withoutSize := by
    induction stores generalizing lists with
    | nil =>
      obtain rfl := Except.ok.inj hlists
      exact ⟨[], rfl, rfl⟩
    | cons store stores ih =>
      rw [List.mapM_cons, bind_eq_ok_iff] at hlists
      obtain ⟨es, hes, hlists⟩ := hlists
      rw [bind_eq_ok_iff] at hlists
      obtain ⟨rest, hrest, heq⟩ := hlists
      obtain rfl := Except.ok.inj heq
      obtain ⟨es', hes', hmap⟩ := scanRoot_prune hkeep hjournals hes
      obtain ⟨rest', hrest', hmaps⟩ := ih hrest
      refine ⟨es' :: rest', ?_, ?_⟩
      · rw [List.mapM_cons, hes', hrest']
        rfl
      · rw [List.flatten_cons, List.flatten_cons, List.map_append, List.filter_append, List.map_append, hmap,
          hmaps]
  rw [scan, bind_eq_ok_iff] at h
  obtain ⟨lists, hlists, heq⟩ := h
  obtain rfl := Except.ok.inj heq
  obtain ⟨lists', hlists', hmap⟩ := hstores hlists
  have hscan : ∃ result', scan settings now (t.prune keep) = .ok result' ∧
      result'.staleCount = lists'.flatten.countP (fun e ↦ e.classification = .stale) ∧
      result'.entries = lists'.flatten := by
    rw [scan, hlists']
    exact ⟨_, rfl, rfl, rfl⟩
  obtain ⟨result', hresult', hcount, hentries⟩ := hscan
  exact ⟨result', hresult', by rw [hcount, hentries], by rw [hentries, hmap]⟩

end Prune

/-! ## Discarding -/

/-- What is below none of the staging directories. -/
def outside (entries : List (RecoveryEntry R)) (p : Path String) : Bool :=
  entries.all fun e ↦ !(decide (e.stagingPath <+: p))

omit [FloatText R] in
theorem outside_eq_true_iff {entries : List (RecoveryEntry R)} {p : Path String} :
    outside entries p = true ↔ ∀ e ∈ entries, ¬e.stagingPath <+: p := by
  simp [outside]

omit [FloatText R] in
theorem outside_eq_false_iff {entries : List (RecoveryEntry R)} {p : Path String} :
    outside entries p = false ↔ ∃ e ∈ entries, e.stagingPath <+: p := by
  rw [← Bool.not_eq_true, outside_eq_true_iff]
  push Not
  rfl

omit [FloatText R] in
theorem outside_eq_false_mono (entries : List (RecoveryEntry R)) (p q : Path String) (hle : p <+: q)
    (h : outside entries p = false) : outside entries q = false := by
  rw [outside_eq_false_iff] at h ⊢
  exact h.imp fun e he ↦ ⟨he.1, he.2.trans hle⟩

omit [FloatText R] in
/-- **Discarding** staging directories, one after the other, removes what is at or below them: also where
one of them is below another. -/
theorem discardAll_eq_prune {entries : List (RecoveryEntry R)}
    (h : ∀ e ∈ entries, t.isDir e.stagingPath = true ∨ t.Absent e.stagingPath) :
    discardAll t entries = t.prune (outside entries) := by
  induction entries generalizing t with
  | nil => exact (t.prune_eq_self fun _ _ ↦ rfl).symm
  | cons e entries ih =>
    rw [List.forall_mem_cons] at h
    have hstep : (runProg (discardStagingDir e.stagingPath : StorageProgram RecoveryError Unit).run t).2 =
        t.prune fun p ↦ !(decide (e.stagingPath <+: p)) := by
      change (if t.isDir e.stagingPath then t.removeTree e.stagingPath else t) = _
      rcases h.1 with hdir | habsent
      · rw [if_pos hdir, t.removeTree_eq_prune]
      · have hself : t.prune (fun p ↦ !(decide (e.stagingPath <+: p))) = t :=
          t.prune_eq_self fun p hp ↦ by simpa using fun hle ↦ hp (habsent p hle)
        rw [hself]
        split
        · rw [t.removeTree_eq_prune, hself]
        · rfl
    rw [discardAll, List.foldl_cons, hstep, ← discardAll, ih fun e' he' ↦ ?_, t.prune_prune]
    · rfl
    · -- the next one is still there, or it went with this one
      rcases hle : decide (e.stagingPath <+: e'.stagingPath) with _ | _
      · refine (h.2 e' he').imp (fun hdir ↦ ?_) fun habsent p hp ↦ ?_
        · rwa [t.isDir_prune _ (by rw [hle]; rfl)]
        · rw [t.get?_prune, habsent p hp, ite_self]
      · refine .inr fun p hp ↦ ?_
        rw [t.get?_prune, if_neg]
        simpa using (of_decide_eq_true hle).trans hp

theorem keepsJournals_outside {entries : List (RecoveryEntry R)}
    (h : ∀ e ∈ entries, t.isDir e.stagingPath = true) : KeepsJournals R t (outside entries) := by
  intro dir hdir
  rw [metadataAt_eq, metadataAt_eq]
  congr 1
  rcases hkeep : outside entries (dir ++ [stagingStateFilename]) with _ | _
  · obtain ⟨e, he, hle⟩ := outside_eq_false_iff.mp hkeep
    rcases List.prefix_concat_iff.mp hle with heq | hle
    · have hnode := (t.isDir_iff.mp (h e he)).resolve_left (by rw [heq]; simp)
      rw [heq] at hnode
      rw [t.file?_eq_none_iff.mpr (.inr hnode), Tree.file?_eq_none_iff, t.get?_prune, hkeep]
      exact .inl rfl
    · exact absurd hle (outside_eq_true_iff.mp hdir e he)
  · rw [Tree.file?, Tree.file?, t.get?_prune, if_pos hkeep]

/-! ## The cleanup -/

/-- The entries that a cleanup acts on. -/
def RecoveryScanResult.stale (result : RecoveryScanResult R) : List (RecoveryEntry R) :=
  result.entries.filter fun e ↦ e.classification = .stale

omit [FloatText R] in
theorem mem_stale_iff {result : RecoveryScanResult R} {e : RecoveryEntry R} :
    e ∈ result.stale ↔ e ∈ result.entries ∧ e.classification = .stale := by
  rw [RecoveryScanResult.stale, List.mem_filter, decide_eq_true_eq]

theorem isDir_of_mem_stale (hclosed : t.Closed) {result : RecoveryScanResult R}
    (hscan : scan settings now t = .ok result) : ∀ e ∈ result.stale, t.isDir e.stagingPath = true :=
  fun _ he ↦ (isStagingDir_of_mem hclosed hscan (mem_stale_iff.mp he).1).2.1

theorem cleanupStale_eq (hclosed : t.Closed) {result : RecoveryScanResult R}
    (hscan : scan settings now t = .ok result) :
    cleanupStale settings now false t = (.ok result.stale, t.prune (outside result.stale)) := by
  rw [cleanupStale, hscan,
    ← discardAll_eq_prune fun e he ↦ .inl (isDir_of_mem_stale hclosed hscan e he)]
  rfl

theorem outside_stale_eq_false_iff (hclosed : t.Closed) {result : RecoveryScanResult R}
    (hscan : scan settings now t = .ok result) {p : Path String} :
    outside result.stale p = false ↔ ∃ stage dir, IsStagingDir settings stage dir ∧ t.isDir dir = true ∧
      IsStale R settings now t dir ∧ dir <+: p := by
  rw [outside_eq_false_iff]
  constructor
  · rintro ⟨e, he, hle⟩
    obtain ⟨hmem, hstale⟩ := mem_stale_iff.mp he
    obtain ⟨hplace, hdir, hclassify⟩ := isStagingDir_of_mem hclosed hscan hmem
    exact ⟨_, _, hplace, hdir, (classify_ok hclassify).2.2.mp hstale, hle⟩
  · rintro ⟨stage, dir, hplace, hdir, hold, hle⟩
    obtain ⟨e, he, rfl, rfl⟩ := exists_entry hclosed hscan hplace hdir
    have hclassify := (isStagingDir_of_mem hclosed hscan he).2.2
    exact ⟨e, mem_stale_iff.mpr ⟨he, (classify_ok hclassify).2.2.mpr hold⟩, hle⟩

/-- **A cleanup is exact.** It removes everything at or below a staging directory whose journal says that
its operation has started long ago, and nothing else. The staging directories that are left are found and
classified as before, and none of them is stale. -/
theorem cleanupStale_exact (hclosed : t.Closed) {result : RecoveryScanResult R}
    (hscan : scan settings now t = .ok result) :
    ∃ t', cleanupStale settings now false t = (.ok result.stale, t') ∧
      (∀ stage dir p, IsStagingDir settings stage dir → t.isDir dir = true →
        IsStale R settings now t dir → dir <+: p → t'.get? p = none) ∧
      (∀ p, (∀ stage dir, IsStagingDir settings stage dir → t.isDir dir = true →
        IsStale R settings now t dir → ¬dir <+: p) → t'.get? p = t.get? p) ∧
      ∃ result', scan settings now t' = .ok result' ∧ result'.staleCount = 0 ∧
        result'.entries.map RecoveryEntry.withoutSize =
          (result.entries.filter fun e ↦ outside result.stale e.stagingPath).map
            RecoveryEntry.withoutSize := by
  have hgone {p : Path String} := outside_stale_eq_false_iff (p := p) hclosed hscan
  obtain ⟨result', hscan', hcount, hmap⟩ := scan_prune (outside_eq_false_mono result.stale)
    (keepsJournals_outside (isDir_of_mem_stale hclosed hscan)) hscan
  refine ⟨_, cleanupStale_eq hclosed hscan, fun stage dir p hplace hdir hold hle ↦ ?_, fun p hp ↦ ?_,
    result', hscan', ?_, hmap⟩
  · rw [t.get?_prune, hgone.mpr ⟨stage, dir, hplace, hdir, hold, hle⟩, if_neg Bool.false_ne_true]
  · rw [t.get?_prune, if_pos]
    by_contra hfalse
    obtain ⟨stage, dir, hplace, hdir, hold, hle⟩ := hgone.mp (by simpa using hfalse)
    exact hp stage dir hplace hdir hold hle
  · rw [hcount, List.countP_eq_zero]
    intro e he hold
    have hmem := hmap ▸ List.mem_map_of_mem (f := RecoveryEntry.withoutSize) he
    obtain ⟨e', he', heq⟩ := List.mem_map.mp hmem
    rw [List.mem_filter] at he'
    have hsame := congrArg RecoveryEntry.classification heq
    change e'.classification = e.classification at hsame
    refine outside_eq_true_iff.mp he'.2 e' (mem_stale_iff.mpr ⟨he'.1, ?_⟩) List.prefix_rfl
    rw [hsame]
    exact of_decide_eq_true hold

/-- Stores below one directory. -/
def plainRecoverySettings : RecoverySettings ℚ where
  rawStorageRoot := ["data", "raw"]
  validationStorageRoot := ["data", "validation"]
  integrityStorageRoot := ["data", "integrity"]
  normalizedStorageRoot := ["data", "normalized"]
  synchronizedStorageRoot := ["data", "synchronized"]
  cleanedStorageRoot := ["data", "cleaned"]
  transformedStorageRoot := ["data", "transformed"]
  qcStorageRoot := ["data", "qc"]
  packageStorageRoot := ["data", "packages"]
  staleStagingAfterSeconds := 3600

/-- A staging directory of the ingestion store, made at that time. -/
def stageUpload (dir : Path String) (startedAt : String) : StorageProgram RecoveryError Unit :=
  createStagingDir BitFloat ⟨1, startedAt⟩ (["data", "raw"] ++ dir) "ing" "ing" "ingestion"
    ["data", "raw", "a", "s", "ing"]

/-- One operation has been abandoned long ago and one is at work. Below the directory of the second there
is an abandoned one, below that of the first one without a journal, and another one without beside them. -/
def mixedStaging : Tree String Byte :=
  (runProg (do
    stageUpload [".staging", "old"] "2024-01-01T00:00:00+00:00"
    stageUpload [".staging", "new"] "2033-05-18T03:33:00+00:00"
    stageUpload [".staging", "new", ".tmp-part"] "2024-01-01T00:00:00+00:00"
    call (.makeDirs ["data", "raw", ".staging", "old", ".tmp-part"] false)
    call (.makeDirs ["data", "raw", ".staging", "odd"] false) :
      StorageProgram RecoveryError Unit).run Dict.empty).2

theorem closed_mixedStaging : mixedStaging.Closed := runProg_closed _ Tree.closed_empty

/-- What a scan lists of a staging directory. -/
def listed (entries : List (RecoveryEntry BitFloat)) : List (Path String × Classification) :=
  entries.map fun e ↦ (e.stagingPath, e.classification)

/-- The two abandoned directories go, and everything that is not below them stays. -/
theorem cleanupStale_exact_mixedStaging : ∃ result : RecoveryScanResult BitFloat, ∃ t',
    cleanupStale plainRecoverySettings 2000000000000000 false mixedStaging = (.ok result.stale, t') ∧
    listed result.entries =
      [(["data", "raw", ".staging", "new"], .active),
        (["data", "raw", ".staging", "new", ".tmp-part"], .stale),
        (["data", "raw", ".staging", "odd"], .invalid), (["data", "raw", ".staging", "old"], .stale),
        (["data", "raw", ".staging", "old", ".tmp-part"], .invalid)] ∧
    t'.get? ["data", "raw", ".staging", "old", ".tmp-part"] = none ∧
    (∀ p, ¬["data", "raw", ".staging", "old"] <+: p →
      ¬["data", "raw", ".staging", "new", ".tmp-part"] <+: p → t'.get? p = mixedStaging.get? p) ∧
    ∃ result' : RecoveryScanResult BitFloat,
      scan plainRecoverySettings 2000000000000000 t' = .ok result' ∧
      listed result'.entries =
        [(["data", "raw", ".staging", "new"], .active), (["data", "raw", ".staging", "odd"], .invalid)] := by
  have hentries : ((scan (R := BitFloat) plainRecoverySettings 2000000000000000 mixedStaging).toOption.map
      fun r ↦ (listed r.entries, listed (r.entries.filter fun e ↦ outside r.stale e.stagingPath))) =
      some ([(["data", "raw", ".staging", "new"], .active),
        (["data", "raw", ".staging", "new", ".tmp-part"], .stale),
        (["data", "raw", ".staging", "odd"], .invalid), (["data", "raw", ".staging", "old"], .stale),
        (["data", "raw", ".staging", "old", ".tmp-part"], .invalid)],
        [(["data", "raw", ".staging", "new"], .active),
          (["data", "raw", ".staging", "odd"], .invalid)]) := by decide +kernel
  rcases hscan : scan (R := BitFloat) plainRecoverySettings 2000000000000000 mixedStaging with e | result
  · rw [hscan] at hentries
    cases hentries
  rw [hscan] at hentries
  obtain ⟨hlisted, hkept⟩ := Prod.mk.inj (Option.some.inj hentries)
  obtain ⟨t', hcleanup, hgone, hstays, result', hscan', -, hmap⟩ :=
    cleanupStale_exact closed_mixedStaging hscan
  have hplace {dir : Path String} {c : Classification} (hmem : (dir, c) ∈ listed result.entries) :
      ∃ stage, IsStagingDir plainRecoverySettings stage dir ∧ mixedStaging.isDir dir = true ∧
        (c = .stale ↔ IsStale BitFloat plainRecoverySettings 2000000000000000 mixedStaging dir) := by
    obtain ⟨e, he, heq⟩ := List.mem_map.mp hmem
    obtain ⟨rfl, rfl⟩ := Prod.mk.inj heq
    obtain ⟨hplace, hdir, hclassify⟩ := isStagingDir_of_mem closed_mixedStaging hscan he
    exact ⟨e.stage, hplace, hdir, (classify_ok hclassify).2.2⟩
  refine ⟨result, t', hcleanup, hlisted, ?_, fun p hold hnew ↦ hstays p fun stage dir hdir hthere hage hle ↦ ?_,
    result', hscan', ?_⟩
  · have hmem : (["data", "raw", ".staging", "old"], .stale) ∈ listed result.entries := by
      rw [hlisted]
      simp
    obtain ⟨stage, hold, hdir, hstale⟩ := hplace hmem
    exact hgone stage _ _ hold hdir (hstale.mp rfl) (List.prefix_append _ [".tmp-part"])
  · -- every stale staging directory is listed as one
    obtain ⟨e, he, -, rfl⟩ := exists_entry closed_mixedStaging hscan hdir hthere
    have hclassify := (isStagingDir_of_mem closed_mixedStaging hscan he).2.2
    have hmem : (e.stagingPath, e.classification) ∈ listed result.entries := List.mem_map_of_mem he
    rw [(classify_ok hclassify).2.2.mpr hage, hlisted] at hmem
    simp only [List.mem_cons, Prod.mk.injEq, reduceCtorEq, and_false, and_true, false_or, or_false,
      List.not_mem_nil] at hmem
    rcases hmem with heq | heq
    · exact hnew (heq ▸ hle)
    · exact hold (heq ▸ hle)
  · have hsame := congrArg (List.map fun e ↦ (e.stagingPath, e.classification)) hmap
    rw [List.map_map, List.map_map] at hsame
    exact hsame.trans hkept

end Storage

end ForgeData
