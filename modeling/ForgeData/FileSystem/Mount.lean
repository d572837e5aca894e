import ForgeData.FileSystem.Operations
import Mathlib.Logic.Function.Basic

/-!
# Work below a directory

A tree seen as a directory with what is below it, and the rest. Calls on paths below the directory
change only the first part, and do to it what they would do to a tree of their own; when the directory
is renamed, all of that part moves.
-/

namespace FileSystem

open Python (Dict)

variable {N B : Type}

/-- What is under which path. -/
abbrev View (N B : Type) := Path N → Option (Node B)

/-- The view with directories at those of the paths where there is nothing. -/
def View.withDirs [DecidableEq N] (v : View N B) (ps : List (Path N)) : View N B := fun p ↦
  if p ∈ ps ∧ v p = none then some .dir else v p

/-- The directory is there with the directories above it; below it is the first view, and everywhere
else the second. -/
structure Mounted (t : Tree N B) (dir : Path N) (sub rest : View N B) [DecidableEq N] : Prop where
  above : ∀ p, p ≠ [] → p <+: dir → t.get? p = some .dir
  inside : ∀ q, q ≠ [] → t.get? (dir ++ q) = sub q
  outside : ∀ p, ¬dir <+: p → t.get? p = rest p

variable [DecidableEq N]

theorem Tree.isDir_eq_false {t : Tree N B} {p : Path N} (hp : p ≠ []) (h : t.get? p ≠ some .dir) :
    t.isDir p = false := by
  rw [← Bool.not_eq_true, t.isDir_iff, not_or]
  exact ⟨hp, h⟩

theorem Tree.pathExists_eq {t : Tree N B} {p : Path N} (hp : p ≠ []) :
    t.pathExists p = (t.get? p).isSome := by
  rw [Tree.pathExists, decide_eq_false hp, Bool.false_or]

/-! ## Making the directory -/

/-- A new directory is empty, and besides it only missing parents are made. -/
theorem runs_makeDirs {ε : Type} [HasError ε] {t : Tree N B} {dir : Path N} (hne : dir ≠ [])
    (habsent : t.Absent dir) (hparents : ∀ p, p ≠ [] → p <+: dir.dropLast → t.file? p = none)
    (existOk : Bool) : ∃ t', Runs (call (.makeDirs dir existOk) : Program N B ε Unit) t (.ok ()) t' ∧
      Mounted t' dir (fun _ ↦ none) (View.withDirs t.get? (ancestors dir)) := by
  have hany : ((ancestors dir.dropLast).any fun q ↦ (t.file? q).isSome) = false := by
    rw [List.any_eq_false]
    intro q hq
    obtain ⟨hpre, hq'⟩ := mem_ancestors.mp hq
    rw [hparents q hq' hpre]
    exact Bool.false_ne_true
  have hexists : t.pathExists dir = false := by
    rw [Tree.pathExists_eq hne, habsent dir List.prefix_rfl]
    rfl
  refine ⟨t.addDirs (ancestors dir), Runs.call ?_, ?_, ?_, ?_⟩
  · rw [perform, hany, hexists]
    rfl
  · intro p hp hpre
    rw [Tree.get?_addDirs]
    cases hnode : t.get? p with
    | none => rw [if_pos ⟨mem_ancestors.mpr ⟨hpre, hp⟩, rfl⟩]
    | some node =>
      rw [if_neg (fun h ↦ absurd h.2 nofun)]
      cases node with
      | dir => rfl
      | file content =>
        -- the directory itself is absent, so a file would be above it
        have hfile : t.file? p = some content := t.file?_eq_some_iff.mpr hnode
        have hdrop : p <+: dir.dropLast := by
          obtain ⟨s, rfl⟩ := hpre
          rcases eq_or_ne s [] with rfl | hs
          · rw [List.append_nil] at habsent
            rw [habsent p List.prefix_rfl] at hnode
            exact absurd hnode nofun
          · rw [List.dropLast_append_of_ne_nil hs]
            exact List.prefix_append _ _
        rw [hparents p hp hdrop] at hfile
        exact absurd hfile nofun
  · intro q hq
    rw [Tree.get?_addDirs, if_neg, habsent _ (List.prefix_append dir q)]
    rintro ⟨hmem, -⟩
    have hlength := (mem_ancestors.mp hmem).1.length_le
    rw [List.length_append] at hlength
    exact hq (List.eq_nil_of_length_eq_zero (by omega))
  · intro p _
    exact t.get?_addDirs _ p

/-! ## Calls below the directory -/

namespace Mounted

variable {t : Tree N B} {dir : Path N} {sub rest : View N B} {ε : Type} [HasError ε]

theorem isDir_append (h : Mounted t dir sub rest) (q : Path N) :
    t.isDir (dir ++ q) = true ↔ q = [] ∨ sub q = some .dir := by
  rcases eq_or_ne q [] with rfl | hq
  · rw [List.append_nil, t.isDir_iff]
    refine ⟨fun _ ↦ .inl rfl, fun _ ↦ ?_⟩
    rcases eq_or_ne dir [] with hdir | hdir
    · exact .inl hdir
    · exact .inr (h.above dir hdir List.prefix_rfl)
  · rw [t.isDir_iff, h.inside q hq]
    refine or_congr_left ⟨fun hnil ↦ absurd (List.append_eq_nil_iff.mp hnil).2 hq, fun hnil ↦ absurd hnil hq⟩

theorem isDir_eq_false (h : Mounted t dir sub rest) {q : Path N} (hq : q ≠ [])
    (hnot : sub q ≠ some .dir) : t.isDir (dir ++ q) = false := by
  rw [← Bool.not_eq_true, h.isDir_append, not_or]
  exact ⟨hq, hnot⟩

theorem file?_append (h : Mounted t dir sub rest) {q : Path N} (hq : q ≠ []) {content : List B}
    (hfile : sub q = some (.file content)) : t.file? (dir ++ q) = some content := by
  rw [t.file?_eq_some_iff, h.inside q hq, hfile]

/-- A change of one node below the directory. -/
theorem change (h : Mounted t dir sub rest) {q : Path N} (hq : q ≠ []) {node : Option (Node B)}
    {t' : Tree N B} (ht : ∀ p, t'.get? p = if p = dir ++ q then node else t.get? p) :
    Mounted t' dir (Function.update sub q node) rest := by
  refine ⟨fun p hp hpre ↦ ?_, fun q' hq' ↦ ?_, fun p hp ↦ ?_⟩
  · rw [ht, if_neg, h.above p hp hpre]
    rintro rfl
    have hlength := hpre.length_le
    rw [List.length_append] at hlength
    exact hq (List.eq_nil_of_length_eq_zero (by omega))
  · rw [ht, Function.update_apply]
    simp only [List.append_cancel_left_eq]
    split
    · rfl
    · exact h.inside q' hq'
  · rw [ht, if_neg, h.outside p hp]
    rintro rfl
    exact hp (List.prefix_append dir q)

theorem pathExists (h : Mounted t dir sub rest) {q : Path N} (hq : q ≠ []) :
    Runs (call (.pathExists (dir ++ q)) : Program N B ε Bool) t (.ok (sub q).isSome) t := by
  refine Runs.call ?_
  rw [perform, Tree.pathExists_eq (List.append_ne_nil_of_right_ne_nil _ hq), h.inside q hq]

theorem create (h : Mounted t dir sub rest) {q : Path N} (hq : q ≠ [])
    (hparent : q.dropLast = [] ∨ sub q.dropLast = some .dir) (hnot : sub q ≠ some .dir) :
    ∃ t', Runs (call (.create (dir ++ q)) : Program N B ε Unit) t (.ok ()) t' ∧
      Mounted t' dir (Function.update sub q (some (.file []))) rest := by
  refine ⟨t.set (dir ++ q) (.file []), Runs.call ?_, h.change hq fun p ↦ Dict.get?_set ..⟩
  rw [perform, h.isDir_eq_false hq hnot, List.dropLast_append_of_ne_nil hq,
    (h.isDir_append _).mpr hparent]
  rfl

theorem append (h : Mounted t dir sub rest) {q : Path N} (hq : q ≠ []) {before : List B}
    (hfile : sub q = some (.file before)) (content : List B) :
    ∃ t', Runs (call (.append (dir ++ q) content) : Program N B ε Unit) t (.ok ()) t' ∧
      Mounted t' dir (Function.update sub q (some (.file (before ++ content)))) rest := by
  refine ⟨t.set (dir ++ q) (.file (before ++ content)), Runs.call ?_,
    h.change hq fun p ↦ Dict.get?_set ..⟩
  rw [perform, h.file?_append hq hfile]

theorem read (h : Mounted t dir sub rest) {q : Path N} (hq : q ≠ []) {content : List B}
    (hfile : sub q = some (.file content)) :
    Runs (call (.read (dir ++ q)) : Program N B ε (List B)) t (.ok content) t := by
  refine Runs.call ?_
  rw [perform, h.file?_append hq hfile]

theorem unlink (h : Mounted t dir sub rest) {q : Path N} (hq : q ≠ []) {content : List B}
    (hfile : sub q = some (.file content)) (missingOk : Bool) :
    ∃ t', Runs (call (.unlink (dir ++ q) missingOk) : Program N B ε Unit) t (.ok ()) t' ∧
      Mounted t' dir (Function.update sub q none) rest := by
  refine ⟨t.erase (dir ++ q), Runs.call ?_, h.change hq fun p ↦ Dict.get?_erase ..⟩
  rw [perform, h.inside q hq, hfile]

theorem replace (h : Mounted t dir sub rest) {src dst : Path N} (hsrc : src ≠ []) (hdst : dst ≠ [])
    {content : List B} (hfile : sub src = some (.file content))
    (hparent : dst.dropLast = [] ∨ sub dst.dropLast = some .dir) (hnot : sub dst ≠ some .dir) :
    ∃ t', Runs (call (.replace (dir ++ src) (dir ++ dst)) : Program N B ε Unit) t (.ok ()) t' ∧
      Mounted t' dir (Function.update (Function.update sub src none) dst (some (.file content)))
        rest := by
  refine ⟨(t.erase (dir ++ src)).set (dir ++ dst) (.file content), Runs.call ?_, ?_⟩
  · rw [perform, h.file?_append hsrc hfile, h.isDir_eq_false hdst hnot,
      List.dropLast_append_of_ne_nil hdst, (h.isDir_append _).mpr hparent]
    rfl
  · exact (h.change hsrc fun p ↦ Dict.get?_erase ..).change hdst fun p ↦ Dict.get?_set ..

/-- A directory in the directory. -/
theorem makeDir (h : Mounted t dir sub rest) (name : N) (hnone : sub [name] = none)
    (existOk : Bool) :
    ∃ t', Runs (call (.makeDirs (dir ++ [name]) existOk) : Program N B ε Unit) t (.ok ()) t' ∧
      Mounted t' dir (Function.update sub [name] (some .dir)) rest := by
  have hany : ((ancestors (dir ++ [name]).dropLast).any fun q ↦ (t.file? q).isSome) = false := by
    rw [List.any_eq_false, List.dropLast_concat]
    intro q hq
    obtain ⟨hpre, hq'⟩ := mem_ancestors.mp hq
    rw [Tree.file?, h.above q hq' hpre]
    exact Bool.false_ne_true
  have hexists : t.pathExists (dir ++ [name]) = false := by
    rw [Tree.pathExists_eq (List.append_ne_nil_of_right_ne_nil _ (List.cons_ne_nil _ _)),
      h.inside _ (List.cons_ne_nil _ _), hnone]
    rfl
  refine ⟨t.addDirs (ancestors (dir ++ [name])), Runs.call ?_, h.change (List.cons_ne_nil _ _) ?_⟩
  · rw [perform, hany, hexists]
    rfl
  · intro p
    rw [Tree.get?_addDirs]
    simp only [mem_ancestors, List.prefix_concat_iff]
    by_cases hp : p = dir ++ [name]
    · subst hp
      rw [if_pos rfl, h.inside _ (List.cons_ne_nil _ _), hnone,
        if_pos ⟨⟨.inl rfl, List.append_ne_nil_of_right_ne_nil _ (List.cons_ne_nil _ _)⟩, rfl⟩]
    · rw [if_neg hp, if_neg]
      rintro ⟨⟨hpre, hp'⟩, hnone'⟩
      rw [h.above p hp' (hpre.resolve_left hp)] at hnone'
      cases hnone'

/-- Directories that are made elsewhere. -/
theorem makeDirs (h : Mounted t dir sub rest) {p : Path N} (hp : ¬dir <+: p)
    (hfiles : ∀ q, q ≠ [] → q <+: p → rest q = none ∨ rest q = some .dir) :
    ∃ t', Runs (call (.makeDirs p true) : Program N B ε Unit) t (.ok ()) t' ∧
      Mounted t' dir sub (rest.withDirs (ancestors p)) := by
  have hout {q : Path N} (hq : q <+: p) : t.get? q = rest q :=
    h.outside q fun hdir ↦ hp (hdir.trans hq)
  have hfile {q : Path N} (hne : q ≠ []) (hq : q <+: p) : t.file? q = none := by
    rw [Tree.file?, hout hq]
    rcases hfiles q hne hq with hnode | hnode <;> rw [hnode]
  -- nothing in the way is a file
  have hany : ((ancestors p.dropLast).any fun q ↦ (t.file? q).isSome) = false := by
    rw [List.any_eq_false]
    intro q hq
    obtain ⟨hpre, hq'⟩ := mem_ancestors.mp hq
    rw [hfile hq' (hpre.trans (List.dropLast_prefix p))]
    exact Bool.false_ne_true
  have hexists : (t.pathExists p && !(t.isDir p && true)) = false := by
    rcases eq_or_ne p [] with rfl | hne
    · rfl
    rw [Tree.pathExists_eq hne, hout List.prefix_rfl]
    rcases hfiles p hne List.prefix_rfl with hnode | hnode
    · rw [hnode]
      rfl
    · rw [t.isDir_iff.mpr (.inr ((hout List.prefix_rfl).trans hnode))]
      exact Bool.and_false _
  refine ⟨t.addDirs (ancestors p), Runs.call ?_, fun q hq hpre ↦ ?_, fun q hq ↦ ?_, fun q hq ↦ ?_⟩
  · rw [perform, hany, hexists]
    rfl
  · rw [Tree.get?_addDirs, h.above q hq hpre, if_neg (fun hnone ↦ Option.some_ne_none _ hnone.2)]
  · rw [Tree.get?_addDirs, if_neg, h.inside q hq]
    rintro ⟨hmem, -⟩
    exact hp ((List.prefix_append dir q).trans (mem_ancestors.mp hmem).1)
  · rw [Tree.get?_addDirs, h.outside q hq]
    rfl

/-- All that is below the directory moves with it. -/
theorem rename (h : Mounted t dir sub rest) {dst : Path N} (hne : dir ≠ []) (hsrc : ¬dir <+: dst)
    (hdst : ¬dst <+: dir) (habsent : ∀ p, dst <+: p → rest p = none)
    (hparents : ∀ p, p ≠ [] → p <+: dst.dropLast → rest p = some .dir) :
    ∃ t', Runs (call (.rename dir dst) : Program N B ε Unit) t (.ok ()) t' ∧
      Mounted t' dst sub fun p ↦ if dir <+: p then none else rest p := by
  have hapart {p : Path N} (hp : dst <+: p) : ¬dir <+: p := fun hdir ↦
    (List.prefix_or_prefix_of_prefix hdir hp).elim hsrc hdst
  have hnone : t.Absent dst := fun p hp ↦ (h.outside p (hapart hp)).trans (habsent p hp)
  have hout {p : Path N} (hp : p <+: dst) : t.get? p = rest p :=
    h.outside p fun hdir ↦ hsrc (hdir.trans hp)
  have hdir : t.isDir dir = true := by
    rw [← List.append_nil dir, h.isDir_append]
    exact .inl rfl
  have hparent : t.isDir dst.dropLast = true := by
    rw [t.isDir_iff]
    rcases eq_or_ne dst.dropLast [] with hnil | hnil
    · exact .inl hnil
    · right
      rw [hout (List.dropLast_prefix dst)]
      exact hparents _ hnil List.prefix_rfl
  have hfile : t.file? dst = none := by rw [Tree.file?, hnone dst List.prefix_rfl]
  refine ⟨t.move dir dst, Runs.call ?_, fun p hp hpre ↦ ?_, fun q hq ↦ ?_, fun p hp ↦ ?_⟩
  · rw [perform, hdir, hfile, hnone.below_eq_nil, hparent]
    simp [hsrc, hdst]
  · rw [Tree.get?_move t hsrc hdst]
    split
    -- the new place itself holds the node of the moved directory; above it nothing changes
    · next hle =>
      obtain rfl := hpre.eq_of_length_le hle.length_le
      have hself : relocate p dir p = dir := by rw [relocate, List.drop_length, List.append_nil]
      rw [hself]
      exact h.above dir hne List.prefix_rfl
    · next hnot =>
      rw [if_neg (fun hle ↦ hsrc (hle.trans hpre)), hout hpre]
      obtain ⟨s, rfl⟩ := hpre
      have hs : s ≠ [] := by
        rintro rfl
        exact hnot (by rw [List.append_nil])
      refine hparents p hp ?_
      rw [List.dropLast_append_of_ne_nil hs]
      exact List.prefix_append _ _
  · rw [Tree.get?_move t hsrc hdst, if_pos (List.prefix_append dst q), relocate_append, h.inside q hq]
  · rw [Tree.get?_move t hsrc hdst, if_neg hp]
    split
    · rfl
    · next hnot => exact h.outside p hnot

theorem removeTree (h : Mounted t dir sub rest) :
    ∃ t', Runs (call (.removeTree dir) : Program N B ε Unit) t (.ok ()) t' ∧
      ∀ p, t'.get? p = if dir <+: p then none else rest p := by
  have hdir : t.isDir dir = true := by
    rw [← List.append_nil dir, h.isDir_append]
    exact .inl rfl
  refine ⟨t.removeTree dir, Runs.call ?_, fun p ↦ ?_⟩
  · rw [perform, if_pos hdir]
  · rw [Tree.get?_removeTree]
    split
    · rfl
    · next hp => exact h.outside p hp

end Mounted

end FileSystem
