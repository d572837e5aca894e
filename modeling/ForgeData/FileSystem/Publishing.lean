import ForgeData.FileSystem.Faults

/-!
# Publishing a directory under a lock

A protocol for any number of programs that want to put a directory in the same place. A program makes
the staging directory, which only one of them can; fills it; and renames it. Between the two it is the
only one that works below the staging directory. After the rename it may still add files, of which only
the scratch files may change or vanish.

Whatever the programs do in whatever order, and wherever they are stopped or a call fails them, there is
nothing at the final place or a complete directory, and what has become visible stays
(`Published.of_poolRun`).
-/

namespace FileSystem

open Python (Dict)
open Interleaving

variable {N B : Type} [DecidableEq N]

/-- What is below a directory, and the directory itself. -/
def Tree.sub (t : Tree N B) (dir : Path N) : View N B := fun q ↦ t.get? (dir ++ q)

/-- An empty directory. -/
def View.emptyDir : View N B := Function.update (fun _ ↦ none) [] (some .dir)

/-- What a publication is about. -/
structure Publishing (N B : Type) where
  staging : Path N
  final : Path N
  /-- What may be visible at the final place. -/
  Complete : View N B → Prop
  /-- The files there that may change or vanish. -/
  Scratch : Path N → Prop
  /-- The calls that any program may make at any time. -/
  Free : Op N B → Prop
  free : ∀ {o p}, Free o → staging <+: p ∨ final <+: p → ¬o.Touches p
  /-- A complete directory is not empty. -/
  exists_of_complete : ∀ {v}, Complete v → ∃ q, q ≠ [] ∧ v q ≠ none
  notInStaging : ¬staging <+: final
  notInFinal : ¬final <+: staging

/-- How far a program is. -/
inductive PublishPhase (N B : Type) where
  /-- It works elsewhere. -/
  | outside
  /-- It has made the staging directory, and this is below it. -/
  | writing (v : View N B)
  /-- It has made the staging directory, and a write has gone wrong. -/
  | spoiled
  /-- It has renamed the directory, and this is below it now. -/
  | published (v : View N B)

/-- The program is the one that works below the staging directory. -/
def PublishPhase.Holding : PublishPhase N B → Prop
  | .writing _ | .spoiled => True
  | _ => False

omit [DecidableEq N] in
theorem PublishPhase.holding_writing (v : View N B) : (writing v).Holding := trivial

omit [DecidableEq N] in
theorem PublishPhase.holding_spoiled : (spoiled : PublishPhase N B).Holding := trivial

omit [DecidableEq N] in
theorem PublishPhase.not_holding_outside : ¬(outside : PublishPhase N B).Holding := id

omit [DecidableEq N] in
theorem PublishPhase.not_holding_published (v : View N B) : ¬(published v).Holding := id

/-- What successful calls make of a directory. -/
inductive Makes (dir : Path N) : (o : Op N B) → o.Ans → View N B → View N B → Prop
  | makeDir {v : View N B} {name : N} (existOk : Bool) : v [] = some .dir → v [name] = none →
      Makes dir (.makeDirs (dir ++ [name]) existOk) (.ok ()) v (Function.update v [name] (some .dir))
  | create {v : View N B} {q : Path N} : q ≠ [] →
      Makes dir (.create (dir ++ q)) (.ok ()) v (Function.update v q (some (.file [])))
  | append {v : View N B} {q : Path N} {before content : List B} : q ≠ [] →
      v q = some (.file before) → Makes dir (.append (dir ++ q) content) (.ok ()) v
        (Function.update v q (some (.file (before ++ content))))
  | unlink {v : View N B} {q : Path N} (missingOk : Bool) : q ≠ [] →
      Makes dir (.unlink (dir ++ q) missingOk) (.ok ()) v (Function.update v q none)
  | replace {v : View N B} {src dst : Path N} {content : List B} : src ≠ [] → dst ≠ [] →
      v src = some (.file content) → Makes dir (.replace (dir ++ src) (dir ++ dst)) (.ok ()) v
        (Function.update (Function.update v src none) dst (some (.file content)))

/-! ## What is below a directory -/

theorem Tree.sub_nil (t : Tree N B) (dir : Path N) : t.sub dir [] = t.get? dir := by
  rw [Tree.sub, List.append_nil]

theorem Tree.sub_congr {t t' : Tree N B} {dir : Path N} (h : ∀ p, dir <+: p → t'.get? p = t.get? p) :
    t'.sub dir = t.sub dir := funext fun q ↦ h _ (List.prefix_append dir q)

theorem Tree.absent_iff {t : Tree N B} {dir : Path N} : t.Absent dir ↔ ∀ q, t.sub dir q = none := by
  constructor
  · exact fun h q ↦ h _ (List.prefix_append dir q)
  · rintro h _ ⟨q, rfl⟩
    exact h q

theorem Tree.sub_change {t t' : Tree N B} {dir q : Path N} {node : Option (Node B)}
    (h : ∀ p, dir <+: p → t'.get? p = if p = dir ++ q then node else t.get? p) :
    t'.sub dir = Function.update (t.sub dir) q node := by
  funext r
  rw [Tree.sub, h _ (List.prefix_append dir r), Function.update_apply]
  simp only [List.append_cancel_left_eq]
  rfl

namespace Makes

variable {dir : Path N} {o : Op N B} {a : o.Ans} {v v' : View N B}

/-- **What the calls do to a tree**, if they are not stopped. -/
theorem sub_eq (h : Makes dir o a v v') {t t' : Tree N B} (hv : t.sub dir = v) (he : Effect o t a t') :
    t'.sub dir = v' := by
  subst hv
  cases h with
  | @makeDir _ name existOk hdir hnone =>
    obtain ⟨-, rfl⟩ := perform_makeDirs_ok (he.of_ok (by simp))
    refine Tree.sub_change fun p hpre ↦ ?_
    rw [Tree.get?_addDirs]
    by_cases hp : p = dir ++ [name]
    · subst hp
      rw [if_pos rfl, if_pos]
      exact ⟨mem_ancestors.mpr ⟨List.prefix_rfl, by simp⟩, hnone⟩
    · rw [if_neg hp, if_neg]
      rintro ⟨hmem, hnode⟩
      -- between the directory and the new one there is only the directory
      have hle := (List.prefix_concat_iff.mp (mem_ancestors.mp hmem).1).resolve_left hp
      rw [← hpre.eq_of_length_le hle.length_le, ← t.sub_nil, hdir] at hnode
      cases hnode
  | create hq =>
    rw [perform_create_ok (he.of_ok (by simp))]
    exact Tree.sub_change fun p _ ↦ Dict.get?_set ..
  | append hq hfile =>
    have hperform := he.of_ok (by simp)
    rw [perform, t.file?_eq_some_iff.mpr hfile] at hperform
    rw [← (Prod.mk.inj hperform).2]
    exact Tree.sub_change fun p _ ↦ Dict.get?_set ..
  | unlink missingOk hq =>
    exact Tree.sub_change fun p _ ↦ perform_unlink_ok (he.of_ok (by simp)) p
  | replace hsrc hdst hfile =>
    rw [perform_replace_ok hfile (he.of_ok (by simp)), Tree.sub_change fun p _ ↦ Dict.get?_set ..,
      Tree.sub_change fun p _ ↦ Dict.get?_erase ..]

theorem self (h : Makes dir o a v v') : v' [] = v [] := by
  cases h with
  | makeDir existOk _ _ => exact Function.update_of_ne (List.cons_ne_nil _ _).symm _ _
  | create hq | append hq _ | unlink _ hq => exact Function.update_of_ne hq.symm _ _
  | replace hsrc hdst _ =>
    rw [Function.update_of_ne hdst.symm, Function.update_of_ne hsrc.symm]

theorem touches (h : Makes dir o a v v') {p : Path N} (hp : o.Touches p) : dir <+: p ∨ p <+: dir := by
  cases h with
  | makeDir existOk _ _ =>
    rcases List.prefix_concat_iff.mp hp with rfl | hp
    · exact .inl (List.prefix_append dir _)
    · exact .inr hp
  | create _ | append _ _ | unlink _ _ =>
    exact .inl (hp ▸ List.prefix_append dir _)
  | replace _ _ _ =>
    rcases hp with rfl | rfl
    · exact .inl (List.prefix_append dir _)
    · exact .inl (List.prefix_append dir _)

end Makes

namespace Publishing

/-- The calls of the programs, and how far they get. -/
inductive Next (P : Publishing N B) : Protocol (Op N B) Op.Ans (PublishPhase N B)
  | free {q : PublishPhase N B} {o : Op N B} {a : o.Ans} : P.Free o → Next P q o a q
  | read {q : PublishPhase N B} {o : Op N B} {a : o.Ans} : (∀ p, ¬o.Touches p) → Next P q o a q
  | parents {q : PublishPhase N B} {a : (Op.makeDirs P.final.dropLast true : Op N B).Ans} :
      Next P q (.makeDirs P.final.dropLast true) a q
  | failed {q : PublishPhase N B} {o : Op N B} {e : Error} : o.Indivisible → Next P q o (.error e) q
  | notMade {q : PublishPhase N B} {p : Path N} {existOk : Bool} {e : Error} :
      p.dropLast <+: P.staging.dropLast ∨ q.Holding ∧ p.dropLast = P.staging →
      Next P q (.makeDirs p existOk) (.error e) q
  | lock : Next P .outside (.makeDirs P.staging false) (.ok ()) (.writing .emptyDir)
  | write {v v' : View N B} {o : Op N B} {a : o.Ans} : Makes P.staging o a v v' →
      Next P (.writing v) o a (.writing v')
  | writeFailed {v : View N B} {q : Path N} {content : List B} {e : Error} : q ≠ [] →
      Next P (.writing v) (.append (P.staging ++ q) content) (.error e) .spoiled
  | discard {q : PublishPhase N B} {a : (Op.removeTree P.staging : Op N B).Ans} : q.Holding →
      Next P q (.removeTree P.staging) a .outside
  | publish {v : View N B} : P.Complete v →
      Next P (.writing v) (.rename P.staging P.final) (.ok ()) (.published v)
  | extend {v v' : View N B} {o : Op N B} {a : o.Ans} : Makes P.final o a v v' → P.Complete v' →
      (∀ q, ¬P.Scratch q → v q ≠ none → v' q = v q) → Next P (.published v) o a (.published v')
  | extendFailed {v : View N B} {q : Path N} {content : List B} {e : Error} : q ≠ [] → P.Scratch q →
      (∀ node, P.Complete (Function.update v q node)) →
      Next P (.published v) (.append (P.final ++ q) content) (.error e) .outside

/-- What holds at every point: one program at most works below the staging directory, and one at most
below the final one; what is visible is complete, and all of it that ever was still is. -/
structure Invariant (P : Publishing N B) (phase : ℕ → PublishPhase N B)
    (h : List (PoolStep (Op N B) Op.Ans (Tree N B))) (t : Tree N B) : Prop where
  unique : ∀ i j, (phase i).Holding → (phase j).Holding → i = j
  locked : ∀ i, (phase i).Holding → t.get? P.staging = some .dir
  staged : ∀ i v, phase i = .writing v → t.sub P.staging = v
  closed : t.get? P.staging = none → t.Absent P.staging
  visible : t.Absent P.final ∨ P.Complete (t.sub P.final)
  author : ∀ i j v w, phase i = .published v → phase j = .published w → i = j
  published : ∀ i v, phase i = .published v → t.sub P.final = v ∧ P.Complete v
  lasting : ∀ x ∈ h, ∀ q, ¬P.Scratch q → x.after.sub P.final q ≠ none →
    t.sub P.final q = x.after.sub P.final q

variable {P : Publishing N B} {phase : ℕ → PublishPhase N B}
  {h : List (PoolStep (Op N B) Op.Ans (Tree N B))} {t t' : Tree N B} {i : ℕ}

omit [DecidableEq N] in
theorem apart {p p' : Path N} (hp : P.staging <+: p) (hp' : P.final <+: p') (hle : p <+: p' ∨ p' <+: p) :
    False := by
  rcases hle with hle | hle
  · exact (List.prefix_or_prefix_of_prefix (hp.trans hle) hp').elim P.notInStaging P.notInFinal
  · exact (List.prefix_or_prefix_of_prefix hp (hp'.trans hle)).elim P.notInStaging P.notInFinal

omit [DecidableEq N] in
theorem staging_ne_nil : P.staging ≠ [] := by
  intro hnil
  have hnot := P.notInStaging
  rw [hnil] at hnot
  exact hnot List.nil_prefix

omit [DecidableEq N] in
theorem final_ne_nil : P.final ≠ [] := by
  intro hnil
  have hnot := P.notInFinal
  rw [hnil] at hnot
  exact hnot List.nil_prefix

omit [DecidableEq N] in
theorem not_prefix_dropLast {dir : Path N} (h : dir ≠ []) : ¬dir <+: dir.dropLast := by
  intro hle
  have hlength := hle.length_le
  have hpos := List.length_pos_iff.mpr h
  rw [List.length_dropLast] at hlength
  omega

omit [DecidableEq N] in
theorem parents_apart {p : Path N} (hp : P.staging <+: p ∨ P.final <+: p) :
    ¬p <+: P.final.dropLast := by
  intro hle
  rcases hp with hp | hp
  · exact P.notInStaging ((hp.trans hle).trans (List.dropLast_prefix _))
  · exact not_prefix_dropLast final_ne_nil (hp.trans hle)

omit [DecidableEq N] in
theorem staging_parents_apart {p : Path N} (hp : P.staging <+: p ∨ P.final <+: p) :
    ¬p <+: P.staging.dropLast := by
  intro hle
  rcases hp with hp | hp
  · exact not_prefix_dropLast staging_ne_nil (hp.trans hle)
  · exact P.notInFinal ((hp.trans hle).trans (List.dropLast_prefix _))

/-- What becomes of the invariant when one program moves on: it may take the lock only if nobody else
has it, and may change what is below a directory only if nobody else works there. -/
theorem Invariant.of_step (hI : P.Invariant phase h t) {q : PublishPhase N B}
    (hfree : q.Holding → ∀ j, j ≠ i → ¬(phase j).Holding)
    (hstaging : ∀ j, j ≠ i → (phase j).Holding → t'.sub P.staging = t.sub P.staging)
    (hlocked : q.Holding → t'.get? P.staging = some .dir)
    (hstaged : ∀ v, q = .writing v → t'.sub P.staging = v)
    (hclosed : t'.get? P.staging = none → t'.Absent P.staging)
    (hvisible : t'.Absent P.final ∨ P.Complete (t'.sub P.final))
    (hauthor : ∀ v, q = .published v → ∀ j w, j ≠ i → phase j ≠ .published w)
    (hpublished : ∀ v, q = .published v → t'.sub P.final = v ∧ P.Complete v)
    (hfinal : ∀ j v, j ≠ i → phase j = .published v → t'.sub P.final = t.sub P.final)
    (hlasting : ∀ r, ¬P.Scratch r → t.sub P.final r ≠ none → t'.sub P.final r = t.sub P.final r)
    {x : PoolStep (Op N B) Op.Ans (Tree N B)} (hx : x.after = t') :
    P.Invariant (Function.update phase i q) (h ++ [x]) t' := by
  have hself : Function.update phase i q i = q := Function.update_self ..
  have hne {j : ℕ} (hj : j ≠ i) : Function.update phase i q j = phase j := Function.update_of_ne hj ..
  refine ⟨fun j k hj hk ↦ ?_, fun j hj ↦ ?_, fun j v hj ↦ ?_, hclosed, hvisible,
    fun j k v w hj hk ↦ ?_, fun j v hj ↦ ?_, fun y hy r hr hy' ↦ ?_⟩
  -- two holders: neither has moved, or the one that has took the lock while it was free
  · by_cases hji : j = i <;> by_cases hki : k = i
    · exact hji.trans hki.symm
    · rw [hji, hself] at hj
      rw [hne hki] at hk
      exact absurd hk (hfree hj k hki)
    · rw [hki, hself] at hk
      rw [hne hji] at hj
      exact absurd hj (hfree hk j hji)
    · rw [hne hji] at hj
      rw [hne hki] at hk
      exact hI.unique j k hj hk
  · rcases eq_or_ne j i with rfl | hji
    · exact hlocked (hself ▸ hj)
    · rw [hne hji] at hj
      rw [← t'.sub_nil, hstaging j hji hj, t.sub_nil]
      exact hI.locked j hj
  · rcases eq_or_ne j i with rfl | hji
    · exact hstaged v (hself ▸ hj)
    · rw [hne hji] at hj
      rw [hstaging j hji (hj ▸ trivial)]
      exact hI.staged j v hj
  -- two authors: likewise, with publishing in place of the lock
  · by_cases hji : j = i <;> by_cases hki : k = i
    · exact hji.trans hki.symm
    · rw [hji, hself] at hj
      exact absurd ((hne hki).symm.trans hk) (hauthor v hj k w hki)
    · rw [hki, hself] at hk
      exact absurd ((hne hji).symm.trans hj) (hauthor w hk j v hji)
    · exact hI.author j k v w ((hne hji).symm.trans hj) ((hne hki).symm.trans hk)
  · rcases eq_or_ne j i with rfl | hji
    · exact hpublished v (hself ▸ hj)
    · rw [hne hji] at hj
      rw [hfinal j v hji hj]
      exact hI.published j v hj
  -- what an earlier step showed stays shown, and the last step shows the tree as it is
  · rcases List.mem_append.mp hy with hy | hy
    · have hlast := hI.lasting y hy r hr hy'
      rw [← hlast] at hy' ⊢
      exact hlasting r hr hy'
    · rw [List.mem_singleton.mp hy, hx]

/-- A step that leaves both directories as they are. -/
theorem Invariant.of_unchanged (hI : P.Invariant phase h t)
    (hsame : ∀ p, P.staging <+: p ∨ P.final <+: p → t'.get? p = t.get? p)
    {x : PoolStep (Op N B) Op.Ans (Tree N B)} (hx : x.after = t') :
    P.Invariant phase (h ++ [x]) t' := by
  have hstaging : t'.sub P.staging = t.sub P.staging := Tree.sub_congr fun p hp ↦ hsame p (.inl hp)
  have hfinal : t'.sub P.final = t.sub P.final := Tree.sub_congr fun p hp ↦ hsame p (.inr hp)
  refine ⟨hI.unique, fun j hj ↦ ?_, fun j v hj ↦ ?_, fun hnone ↦ ?_, ?_, hI.author,
    fun j v hj ↦ ?_, fun y hy r hr hy' ↦ ?_⟩
  · rw [hsame _ (.inl List.prefix_rfl)]
    exact hI.locked j hj
  · rw [hstaging]
    exact hI.staged j v hj
  · rw [hsame _ (.inl List.prefix_rfl)] at hnone
    exact fun p hp ↦ (hsame p (.inl hp)).trans (hI.closed hnone p hp)
  · rw [hfinal]
    exact hI.visible.imp_left fun habsent p hp ↦ (hsame p (.inr hp)).trans (habsent p hp)
  · rw [hfinal]
    exact hI.published j v hj
  · rw [hfinal]
    rcases List.mem_append.mp hy with hy | hy
    · exact hI.lasting y hy r hr hy'
    · rw [List.mem_singleton.mp hy, hx, hfinal]

/-! ## The steps -/

theorem Invariant.lock (hI : P.Invariant phase h t)
    (he : Effect (.makeDirs P.staging false) t (.ok ()) t')
    {x : PoolStep (Op N B) Op.Ans (Tree N B)} (hx : x.after = t') :
    P.Invariant (Function.update phase i (.writing .emptyDir)) (h ++ [x]) t' := by
  obtain ⟨hexists, rfl⟩ := perform_makeDirs_ok (he.of_ok (by simp))
  have hnone : t.get? P.staging = none := by
    rw [Tree.pathExists_eq staging_ne_nil] at hexists
    exact Option.not_isSome_iff_eq_none.mp fun hsome ↦ absurd (hexists hsome) Bool.false_ne_true
  have habsent : t.Absent P.staging := hI.closed hnone
  have hnobody (j : ℕ) : ¬(phase j).Holding := fun hj ↦ by
    have hdir := hI.locked j hj
    rw [hnone] at hdir
    cases hdir
  have hfinal : (t.addDirs (ancestors P.staging)).sub P.final = t.sub P.final :=
    Tree.sub_congr fun p hp ↦ he.frame fun hle ↦ apart List.prefix_rfl hp (.inr hle)
  have hstaging : (t.addDirs (ancestors P.staging)).sub P.staging = .emptyDir := by
    have hempty : t.sub P.staging = fun _ ↦ none := funext (Tree.absent_iff.mp habsent)
    rw [View.emptyDir, ← hempty]
    refine Tree.sub_change fun p hp ↦ ?_
    rw [Tree.get?_addDirs, habsent p hp, List.append_nil]
    refine if_congr ?_ rfl rfl
    constructor
    · exact fun hmem ↦ (hp.eq_of_length_le (mem_ancestors.mp hmem.1).1.length_le).symm
    · rintro rfl
      exact ⟨mem_ancestors.mpr ⟨List.prefix_rfl, staging_ne_nil⟩, rfl⟩
  have hdir : (t.addDirs (ancestors P.staging)).get? P.staging = some .dir := by
    rw [← Tree.sub_nil, hstaging]
    exact Function.update_self ..
  refine hI.of_step (fun _ j _ ↦ hnobody j) (fun j _ hj ↦ absurd hj (hnobody j)) (fun _ ↦ hdir)
    (fun v hv ↦ ?_) (fun h' ↦ ?_) ?_ (fun v hv ↦ ?_) (fun v hv ↦ ?_) (fun _ _ _ _ ↦ hfinal)
    (fun r _ _ ↦ congrFun hfinal r) hx
  · rw [hstaging]
    exact PublishPhase.writing.inj hv
  · rw [hdir] at h'
    cases h'
  · rw [Tree.absent_iff, hfinal, ← Tree.absent_iff]
    exact hI.visible
  · cases hv
  · cases hv

theorem Invariant.below_staging (hI : P.Invariant phase h t) (hi : (phase i).Holding)
    {q : PublishPhase N B} (hsame : ∀ p, P.final <+: p → t'.get? p = t.get? p)
    (hlocked : q.Holding → t'.get? P.staging = some .dir)
    (hstaged : ∀ v, q = .writing v → t'.sub P.staging = v)
    (hclosed : t'.get? P.staging = none → t'.Absent P.staging) (hq : ∀ v, q ≠ .published v)
    {x : PoolStep (Op N B) Op.Ans (Tree N B)} (hx : x.after = t') :
    P.Invariant (Function.update phase i q) (h ++ [x]) t' := by
  have hnobody (j : ℕ) (hji : j ≠ i) : ¬(phase j).Holding := fun hj ↦ hji (hI.unique j i hj hi)
  have hfinal : t'.sub P.final = t.sub P.final := Tree.sub_congr hsame
  refine hI.of_step (fun _ ↦ hnobody) (fun j hji hj ↦ absurd hj (hnobody j hji)) hlocked hstaged hclosed
    ?_ (fun v hv ↦ absurd hv (hq v)) (fun v hv ↦ absurd hv (hq v)) (fun _ _ _ _ ↦ hfinal)
    (fun r _ _ ↦ congrFun hfinal r) hx
  rw [Tree.absent_iff, hfinal, ← Tree.absent_iff]
  exact hI.visible

/-- A step of the program that has published, below the final directory. -/
theorem Invariant.below_final (hI : P.Invariant phase h t) {v : View N B} (hi : phase i = .published v)
    {q : PublishPhase N B} (hsame : ∀ p, P.staging <+: p → t'.get? p = t.get? p)
    (hcomplete : P.Complete (t'.sub P.final)) (hq : ¬q.Holding)
    (hpublished : ∀ w, q = .published w → t'.sub P.final = w)
    (hlasting : ∀ r, ¬P.Scratch r → v r ≠ none → t'.sub P.final r = v r)
    {x : PoolStep (Op N B) Op.Ans (Tree N B)} (hx : x.after = t') :
    P.Invariant (Function.update phase i q) (h ++ [x]) t' := by
  have hother {j : ℕ} {w : View N B} (hji : j ≠ i) : phase j ≠ .published w := fun hj ↦
    hji (hI.author j i w v hj hi)
  have hstaging : t'.sub P.staging = t.sub P.staging := Tree.sub_congr hsame
  refine hI.of_step (fun h' ↦ absurd h' hq) (fun _ _ _ ↦ hstaging) (fun h' ↦ absurd h' hq)
    (fun w hw ↦ absurd (hw ▸ trivial) hq) (fun hnone ↦ ?_) (.inr hcomplete)
    (fun _ _ j w hji ↦ hother hji) (fun w hw ↦ ⟨hpublished w hw, hpublished w hw ▸ hcomplete⟩)
    (fun j w hji hj ↦ absurd hj (hother hji)) (fun r hr hnone ↦ ?_) hx
  · rw [hsame _ List.prefix_rfl] at hnone
    exact fun p hp ↦ (hsame p hp).trans (hI.closed hnone p hp)
  · rw [(hI.published i v hi).1] at hnone ⊢
    exact hlasting r hr hnone

/-- **A directory that is not made** leaves both as they are: it may have made some above the staging
directory, or this one for the program that has it already. -/
theorem Invariant.notMade (hI : P.Invariant phase h t) {p : Path N} {existOk : Bool} {e : Error}
    (hp : p.dropLast <+: P.staging.dropLast ∨ (phase i).Holding ∧ p.dropLast = P.staging)
    (he : Effect (.makeDirs p existOk) t (.error e) t')
    {x : PoolStep (Op N B) Op.Ans (Tree N B)} (hx : x.after = t') :
    P.Invariant phase (h ++ [x]) t' := by
  refine hI.of_unchanged (fun r hr ↦ he.frame_of_makeDirs_error fun hle ↦ ?_) hx
  rcases hp with hp | ⟨hi, hp⟩
  · exact absurd (hle.trans hp) (staging_parents_apart hr)
  · rw [hp] at hle
    rcases hr with hr | hr
    · rw [hle.eq_of_length_le hr.length_le, hI.locked i hi]
      exact Option.some_ne_none _
    · exact absurd (hr.trans hle) P.notInFinal

theorem Invariant.write (hI : P.Invariant phase h t) {v v' : View N B} {o : Op N B} {a : o.Ans}
    (hi : phase i = .writing v) (hmakes : Makes P.staging o a v v') (he : Effect o t a t')
    {x : PoolStep (Op N B) Op.Ans (Tree N B)} (hx : x.after = t') :
    P.Invariant (Function.update phase i (.writing v')) (h ++ [x]) t' := by
  have hv : t.sub P.staging = v := hI.staged i v hi
  have hv' : t'.sub P.staging = v' := hmakes.sub_eq hv he
  have hdir : t'.get? P.staging = some .dir := by
    rw [← t'.sub_nil, hv', hmakes.self, ← hv, t.sub_nil]
    exact hI.locked i (hi ▸ trivial)
  refine hI.below_staging (hi ▸ trivial) (fun p hp ↦ he.frame fun htouches ↦ ?_) (fun _ ↦ hdir)
    (fun w hw ↦ ?_) (fun hnone ↦ ?_) (fun w hw ↦ ?_) hx
  · rcases hmakes.touches htouches with hle | hle
    · exact apart List.prefix_rfl hp (.inl hle)
    · exact apart List.prefix_rfl hp (.inr hle)
  · rw [hv']
    exact PublishPhase.writing.inj hw
  · rw [hdir] at hnone
    cases hnone
  · cases hw

theorem Invariant.writeFailed (hI : P.Invariant phase h t) {v : View N B} {q : Path N}
    {content : List B} {e : Error} (hi : phase i = .writing v) (hq : q ≠ [])
    (he : Effect (.append (P.staging ++ q) content) t (.error e) t')
    {x : PoolStep (Op N B) Op.Ans (Tree N B)} (hx : x.after = t') :
    P.Invariant (Function.update phase i .spoiled) (h ++ [x]) t' := by
  have hdir : t'.get? P.staging = some .dir := by
    rw [he.frame fun heq ↦ hq (List.append_right_eq_self.mp heq.symm)]
    exact hI.locked i (hi ▸ trivial)
  refine hI.below_staging (hi ▸ trivial) (fun p hp ↦ he.frame fun heq ↦ ?_) (fun _ ↦ hdir)
    (fun w hw ↦ ?_) (fun hnone ↦ ?_) (fun w hw ↦ ?_) hx
  · exact apart (List.prefix_append _ q) (heq ▸ hp) (.inl List.prefix_rfl)
  · cases hw
  · rw [hdir] at hnone
    cases hnone
  · cases hw

theorem Invariant.discard (hI : P.Invariant phase h t) (hi : (phase i).Holding)
    {a : (Op.removeTree P.staging : Op N B).Ans} (he : Effect (.removeTree P.staging) t a t')
    {x : PoolStep (Op N B) Op.Ans (Tree N B)} (hx : x.after = t') :
    P.Invariant (Function.update phase i .outside) (h ++ [x]) t' := by
  refine hI.below_staging hi (fun p hp ↦ he.frame fun hle ↦ ?_) (absurd · PublishPhase.not_holding_outside)
    (fun v hv ↦ ?_) (fun hnone ↦ ?_) (fun v hv ↦ ?_) hx
  · exact apart List.prefix_rfl hp (.inl hle)
  · cases hv
  · rcases he with he | ⟨-, hself, -⟩
    · rw [perform, if_pos (t.isDir_iff.mpr (.inr (hI.locked i hi)))] at he
      rw [← (Prod.mk.inj he).2]
      exact fun p hp ↦ (t.get?_removeTree _ p).trans (if_pos hp)
    · rw [hself, hI.locked i hi] at hnone
      cases hnone
  · cases hv

theorem Invariant.publish (hI : P.Invariant phase h t) {v : View N B} (hi : phase i = .writing v)
    (hcomplete : P.Complete v) (he : Effect (.rename P.staging P.final) t (.ok ()) t')
    {x : PoolStep (Op N B) Op.Ans (Tree N B)} (hx : x.after = t') :
    P.Invariant (Function.update phase i (.published v)) (h ++ [x]) t' := by
  obtain ⟨hsrc, hdst, hbelow, rfl⟩ := perform_rename_ok (he.of_ok (by simp))
  have hempty {w : View N B} (hw : t.sub P.final = w) : ¬P.Complete w := fun hw' ↦ by
    obtain ⟨q, hq, hsome⟩ := P.exists_of_complete hw'
    rw [← hw] at hsome
    have hmem := t.mem_below.mpr ⟨hq, Option.isSome_iff_ne_none.mpr hsome⟩
    rw [hbelow] at hmem
    exact List.not_mem_nil hmem
  have habsent : t.Absent P.final := hI.visible.resolve_right (hempty rfl)
  have hnobody (j : ℕ) (hji : j ≠ i) : ¬(phase j).Holding := fun hj ↦
    hji (hI.unique j i hj (hi ▸ trivial))
  have hunpublished (j : ℕ) (w : View N B) : phase j ≠ .published w := fun hj ↦
    hempty (hI.published j w hj).1 (hI.published j w hj).2
  have hfinal : (t.move P.staging P.final).sub P.final = v := by
    rw [← hI.staged i v hi]
    funext q
    rw [Tree.sub, Tree.get?_move t hsrc hdst, if_pos (List.prefix_append _ q), relocate_append]
    rfl
  have hgone : (t.move P.staging P.final).Absent P.staging := fun p hp ↦ by
    rw [Tree.get?_move t hsrc hdst, if_neg (fun hle ↦ apart hp hle (.inl List.prefix_rfl)), if_pos hp]
  refine hI.of_step (absurd · (PublishPhase.not_holding_published v))
    (fun j hji hj ↦ absurd hj (hnobody j hji)) (absurd · (PublishPhase.not_holding_published v))
    (fun w hw ↦ ?_) (fun _ ↦ hgone) (.inr (hfinal ▸ hcomplete)) (fun _ _ j w _ ↦ hunpublished j w)
    (fun w hw ↦ ?_) (fun j w _ hj ↦ absurd hj (hunpublished j w))
    (fun r _ hr ↦ absurd (Tree.absent_iff.mp habsent r) hr) hx
  · cases hw
  · cases hw
    exact ⟨hfinal, hcomplete⟩

theorem Invariant.extend (hI : P.Invariant phase h t) {v v' : View N B} {o : Op N B} {a : o.Ans}
    (hi : phase i = .published v) (hmakes : Makes P.final o a v v') (hcomplete : P.Complete v')
    (hkeep : ∀ r, ¬P.Scratch r → v r ≠ none → v' r = v r) (he : Effect o t a t')
    {x : PoolStep (Op N B) Op.Ans (Tree N B)} (hx : x.after = t') :
    P.Invariant (Function.update phase i (.published v')) (h ++ [x]) t' := by
  have hv' : t'.sub P.final = v' := hmakes.sub_eq (hI.published i v hi).1 he
  refine hI.below_final hi (fun p hp ↦ he.frame fun htouches ↦ ?_) (hv' ▸ hcomplete)
    (PublishPhase.not_holding_published v') (fun w hw ↦ ?_) (fun r hr hnone ↦ ?_) hx
  · rcases hmakes.touches htouches with hle | hle
    · exact apart hp List.prefix_rfl (.inr hle)
    · exact apart hp List.prefix_rfl (.inl hle)
  · rw [hv']
    exact PublishPhase.published.inj hw
  · rw [hv']
    exact hkeep r hr hnone

theorem exists_sub_of_append_error {dir q : Path N} {content : List B} {e : Error}
    (he : Effect (.append (dir ++ q) content) t (.error e) t') :
    ∃ node, t'.sub dir = Function.update (t.sub dir) q node := by
  have hperform (written : List B) :
      ∃ node, (perform (.append (dir ++ q) written) t).2.sub dir = Function.update (t.sub dir) q node := by
    rw [perform]
    split
    · exact ⟨_, Tree.sub_change fun p _ ↦ Dict.get?_set ..⟩
    · exact ⟨t.sub dir q, (Function.update_eq_self ..).symm⟩
  rcases he with he | ⟨_, written, -, -, rfl⟩
  · obtain ⟨node, hnode⟩ := hperform content
    rw [he] at hnode
    exact ⟨node, hnode⟩
  · exact hperform written

theorem Invariant.extendFailed (hI : P.Invariant phase h t) {v : View N B} {q : Path N}
    {content : List B} {e : Error} (hi : phase i = .published v) (hq : P.Scratch q)
    (hcomplete : ∀ node, P.Complete (Function.update v q node))
    (he : Effect (.append (P.final ++ q) content) t (.error e) t')
    {x : PoolStep (Op N B) Op.Ans (Tree N B)} (hx : x.after = t') :
    P.Invariant (Function.update phase i .outside) (h ++ [x]) t' := by
  obtain ⟨node, hnode⟩ := exists_sub_of_append_error he
  rw [(hI.published i v hi).1] at hnode
  refine hI.below_final hi (fun p hp ↦ he.frame fun heq ↦ ?_) (hnode ▸ hcomplete node)
    PublishPhase.not_holding_outside (fun w hw ↦ ?_) (fun r hr _ ↦ ?_) hx
  · exact apart hp (List.prefix_append _ q) (.inr (heq ▸ List.prefix_rfl))
  · cases hw
  · rw [hnode, Function.update_of_ne]
    rintro rfl
    exact hr hq

/-- **Every step of the protocol keeps the invariant.** -/
theorem Invariant.step (hI : P.Invariant phase h t) {o : Op N B} {a : o.Ans} {q : PublishPhase N B}
    (hnext : P.Next (phase i) o a q) (he : Effect o t a t')
    {x : PoolStep (Op N B) Op.Ans (Tree N B)} (hx : x.after = t') :
    P.Invariant (Function.update phase i q) (h ++ [x]) t' := by
  generalize hi : phase i = r at hnext
  cases hnext with
  | free ho =>
    rw [← hi, Function.update_eq_self]
    exact hI.of_unchanged (fun p hp ↦ he.frame (P.free ho hp)) hx
  | read ho =>
    rw [← hi, Function.update_eq_self]
    exact hI.of_unchanged (fun p _ ↦ he.frame (ho p)) hx
  | parents =>
    rw [← hi, Function.update_eq_self]
    exact hI.of_unchanged (fun p hp ↦ he.frame (parents_apart hp)) hx
  | failed ho =>
    obtain rfl := he.of_error ho
    rw [← hi, Function.update_eq_self]
    exact hI.of_unchanged (fun _ _ ↦ rfl) hx
  | notMade hp =>
    rw [← hi] at hp ⊢
    rw [Function.update_eq_self]
    exact hI.notMade hp he hx
  | lock => exact hI.lock he hx
  | write hmakes => exact hI.write hi hmakes he hx
  | writeFailed hq => exact hI.writeFailed hi hq he hx
  | discard hq => exact hI.discard (hi ▸ hq) he hx
  | publish hcomplete => exact hI.publish hi hcomplete he hx
  | extend hmakes hcomplete hkeep => exact hI.extend hi hmakes hcomplete hkeep he hx
  | extendFailed _ hscratch hcomplete => exact hI.extendFailed hi hscratch hcomplete he hx

/-! ## What the programs touch -/

/-- A successful call of the protocol touches what is below or above one of the directories, unless it
is one that any program may make. -/
theorem Next.touches {q q' : PublishPhase N B} {o : Op N B} {v : o.Val} (h : P.Next q o (.ok v) q')
    {p : Path N} (hp : o.Touches p) :
    P.Free o ∨ (P.staging <+: p ∨ p <+: P.staging) ∨ P.final <+: p ∨ p <+: P.final := by
  generalize ha : (Except.ok v : o.Ans) = a at h
  cases h with
  | free ho => exact .inl ho
  | read ho => exact absurd hp (ho p)
  | parents => exact .inr (.inr (.inr (hp.trans (List.dropLast_prefix _))))
  | failed | notMade => cases ha
  | lock => exact .inr (.inl (.inr hp))
  | write hmakes => exact .inr (.inl (hmakes.touches hp))
  | writeFailed => cases ha
  | discard => exact .inr (.inl (.inl hp))
  | publish =>
    rcases hp with hp | hp
    · exact .inr (.inl (.inl hp))
    · exact .inr (.inr (.inl hp))
  | extend hmakes => exact .inr (.inr (hmakes.touches hp))
  | extendFailed => cases ha

/-! ## Runs -/

/-- **Publication is atomic and lasting.** Start programs that keep to the protocol, as many as you
like, where nothing is at the final place. Whatever has been done and has failed since, there is nothing
there or a complete directory, and everything that was ever visible still is, but for scratch files. -/
theorem visible_of_poolRun {Party : Prog (Op N B) Op.Ans Unit → Prop}
    {F : Unit → PublishPhase N B → Prop}
    (hparty : ∀ p : Prog (Op N B) Op.Ans Unit, Party p → p.Follows P.Next F .outside)
    {qs : List (Prog (Op N B) Op.Ans Unit)} (hrun : PoolRun Effect Party [] t h qs t')
    (hfinal : t.Absent P.final) (hstaging : t.get? P.staging = none → t.Absent P.staging) :
    (t'.Absent P.final ∨ P.Complete (t'.sub P.final)) ∧
      ∀ x ∈ h, ∀ q, ¬P.Scratch q → x.after.sub P.final q ≠ none →
        t'.sub P.final q = x.after.sub P.final q := by
  have hinitial : P.Invariant (fun _ ↦ .outside) [] t :=
    { unique := fun _ _ hi ↦ absurd hi PublishPhase.not_holding_outside
      locked := fun _ hi ↦ absurd hi PublishPhase.not_holding_outside
      staged := fun _ _ hi ↦ by cases hi
      closed := hstaging
      visible := .inl hfinal
      author := fun _ _ _ _ hi ↦ by cases hi
      published := fun _ _ hi ↦ by cases hi
      lasting := List.forall_mem_nil _ }
  obtain ⟨phase', hI⟩ := hrun.exists_phases (J := P.Invariant) hparty
    (fun hI hnext he ↦ Invariant.step hI hnext he rfl) hinitial
  exact ⟨hI.visible, hI.lasting⟩

end Publishing

end FileSystem
