import ForgeData.Python.Dict
import Mathlib.Data.List.Infix

/-!
# Trees of directories and files

A file system as the nodes under their paths, a path being the names from the root on. The root is
the empty path; it is a directory and has no entry. There are no links, so two paths never name the
same node.

Each operation is characterised by what it does to lookup, `get?`.
-/

namespace FileSystem

open Python (Dict)

/-- A path: the names from the root on. -/
abbrev Path (N : Type) := List N

/-- A directory, or a file with its bytes. -/
inductive Node (B : Type) where
  | dir
  | file (content : List B)
deriving DecidableEq

/-- The nodes under their paths. -/
abbrev Tree (N B : Type) := Dict (Path N) (Node B)

variable {N B : Type}

/-- A path seen from another place: the part below `src` is put below `dst`. -/
def relocate (src dst p : Path N) : Path N := dst ++ p.drop src.length

theorem relocate_append (src dst p : Path N) : relocate src dst (src ++ p) = dst ++ p := by
  rw [relocate, List.drop_left]

/-- The nonempty prefixes of a path. -/
def ancestors [DecidableEq N] (p : Path N) : List (Path N) := p.inits.filter (· ≠ [])

theorem mem_ancestors [DecidableEq N] {p q : Path N} : q ∈ ancestors p ↔ q <+: p ∧ q ≠ [] := by
  rw [ancestors, List.mem_filter, List.mem_inits, decide_eq_true_eq]

namespace Tree

variable [DecidableEq N] (t : Tree N B)

/-- There is a directory at the path. -/
def isDir (p : Path N) : Bool :=
  p = [] || match t.get? p with
    | some .dir => true
    | _ => false

/-- There is a file or a directory at the path. -/
def pathExists (p : Path N) : Bool := p = [] || (t.get? p).isSome

/-- The file at the path. -/
def file? (p : Path N) : Option (List B) :=
  match t.get? p with
  | some (.file content) => some content
  | _ => none

/-- The paths strictly below a path, from its end on. -/
def below (p : Path N) : List (Path N) :=
  (t.keys.filter fun q ↦ p <+: q ∧ q ≠ p).map (·.drop p.length)

/-- Nothing is at the path or below it. -/
def Absent (p : Path N) : Prop := ∀ q, p <+: q → t.get? q = none

theorem file?_eq_some_iff {p : Path N} {content : List B} :
    t.file? p = some content ↔ t.get? p = some (.file content) := by
  rw [file?]
  constructor
  · intro h
    split at h
    · next heq =>
      obtain rfl := Option.some.inj h
      exact heq
    · cases h
  · intro h
    rw [h]

theorem file?_eq_none_iff {p : Path N} :
    t.file? p = none ↔ t.get? p = none ∨ t.get? p = some .dir := by
  rw [file?]
  rcases t.get? p with _ | (_ | content) <;> simp

theorem isDir_iff {p : Path N} : t.isDir p = true ↔ p = [] ∨ t.get? p = some .dir := by
  rw [isDir, Bool.or_eq_true, decide_eq_true_eq]
  refine or_congr_right ?_
  split
  · next h => exact ⟨fun _ ↦ h, fun _ ↦ rfl⟩
  · next h => exact ⟨fun hfalse ↦ absurd hfalse Bool.false_ne_true, fun heq ↦ absurd heq h⟩

theorem mem_below {p q : Path N} : q ∈ t.below p ↔ q ≠ [] ∧ (t.get? (p ++ q)).isSome = true := by
  rw [below, List.mem_map]
  constructor
  · rintro ⟨r, hr, rfl⟩
    rw [List.mem_filter, decide_eq_true_eq] at hr
    obtain ⟨hmem, ⟨s, rfl⟩, hne⟩ := hr
    rw [List.drop_left]
    obtain ⟨node, hnode⟩ := Dict.mem_keys_iff.mp hmem
    exact ⟨fun hnil ↦ hne (by rw [hnil, List.append_nil]), by rw [hnode]; rfl⟩
  · rintro ⟨hne, hsome⟩
    refine ⟨p ++ q, List.mem_filter.mpr ⟨?_, ?_⟩, List.drop_left⟩
    · exact Dict.mem_keys_iff.mpr (Option.isSome_iff_exists.mp hsome)
    · exact decide_eq_true ⟨List.prefix_append p q, fun heq ↦ hne (List.append_right_eq_self.mp heq)⟩

theorem Absent.below_eq_nil {p : Path N} (h : t.Absent p) : t.below p = [] := by
  rw [List.eq_nil_iff_forall_not_mem]
  intro q hq
  have hsome := ((mem_below t).mp hq).2
  rw [h _ (List.prefix_append p q)] at hsome
  exact absurd hsome Bool.false_ne_true

/-! ## Making directories -/

/-- The tree with directories at those of the paths where there is nothing. -/
def addDirs (ps : List (Path N)) : Tree N B :=
  ps.foldl (fun t p ↦ if (t.get? p).isNone then t.set p .dir else t) t

@[simp] theorem get?_addDirs (ps : List (Path N)) (q : Path N) :
    (t.addDirs ps).get? q = if q ∈ ps ∧ t.get? q = none then some .dir else t.get? q := by
  induction ps generalizing t with
  | nil => simp [addDirs]
  | cons p ps ih =>
    have hcons : t.addDirs (p :: ps) = Tree.addDirs (if (t.get? p).isNone then t.set p .dir else t) ps :=
      rfl
    rw [hcons, ih]
    by_cases hp : t.get? p = none
    · have hset : (if (t.get? p).isNone then t.set p .dir else t) = t.set p .dir :=
        if_pos (Option.isNone_iff_eq_none.mpr hp)
      rw [hset, Dict.get?_set]
      by_cases hq : q = p
      · subst hq
        simp [hp]
      · simp [hq]
    · have hset : (if (t.get? p).isNone then t.set p .dir else t) = t :=
        if_neg fun h ↦ hp (Option.isNone_iff_eq_none.mp h)
      rw [hset]
      by_cases hq : q = p
      · subst hq
        simp [hp]
      · simp [hq]

/-! ## Removing a directory -/

/-- The tree without what is at the path or below it. -/
def removeTree (p : Path N) : Tree N B where
  items := t.items.filter fun e ↦ ¬p <+: e.1
  nodup := t.nodup.sublist (List.filter_sublist.map Prod.fst)

@[simp] theorem get?_removeTree (p q : Path N) :
    (t.removeTree p).get? q = if p <+: q then none else t.get? q := by
  ext node
  rw [Dict.get?_eq_some_iff, removeTree, List.mem_filter, decide_eq_true_eq]
  split
  · next hq => exact ⟨fun h ↦ absurd hq h.2, fun h ↦ (Option.some_ne_none node h.symm).elim⟩
  · next hq => exact ⟨fun h ↦ Dict.get?_eq_some_iff.mpr h.1, fun h ↦ ⟨Dict.get?_eq_some_iff.mp h, hq⟩⟩

/-! ## Moving a directory -/

/-- The tree with the directory at `src` moved to `dst`, in the place of what was there. -/
def move (src dst : Path N) : Tree N B where
  items := (t.items.filter fun e ↦ ¬dst <+: e.1).map fun e ↦
    (if src <+: e.1 then relocate src dst e.1 else e.1, e.2)
  nodup := by
    have hinj : ∀ e ∈ t.items.filter fun e ↦ ¬dst <+: e.1, ∀ e' ∈ t.items.filter fun e ↦ ¬dst <+: e.1,
        (if src <+: e.1 then relocate src dst e.1 else e.1) =
          (if src <+: e'.1 then relocate src dst e'.1 else e'.1) → e.1 = e'.1 := by
      intro e he e' he' heq
      have hdst : ∀ {x}, x ∈ t.items.filter (fun e ↦ ¬dst <+: e.1) → ¬dst <+: x.1 := by
        intro x hx
        exact of_decide_eq_true (List.mem_filter.mp hx).2
      split at heq
      · next hsrc =>
        split at heq
        · next hsrc' =>
          obtain ⟨r, hr⟩ := hsrc
          obtain ⟨r', hr'⟩ := hsrc'
          rw [← hr, ← hr', relocate_append, relocate_append] at heq
          rw [← hr, ← hr', List.append_cancel_left heq]
        · exact absurd (heq ▸ List.prefix_append _ _) (hdst he')
      · split at heq
        · exact absurd (heq ▸ List.prefix_append _ _) (hdst he)
        · exact heq
    have hnodup : ((t.items.filter fun e ↦ ¬dst <+: e.1).map Prod.fst).Nodup :=
      t.nodup.sublist (List.filter_sublist.map Prod.fst)
    rw [List.map_map]
    rw [List.Nodup, List.pairwise_map] at hnodup ⊢
    refine hnodup.imp_of_mem fun he he' hne heq ↦ ?_
    exact hne (hinj _ he _ he' heq)

/-- **Where everything is after the move.** -/
theorem get?_move {src dst : Path N} (hsrc : ¬src <+: dst) (hdst : ¬dst <+: src) (q : Path N) :
    (t.move src dst).get? q =
      if dst <+: q then t.get? (relocate dst src q) else if src <+: q then none else t.get? q := by
  have hapart : ∀ r, ¬dst <+: src ++ r := by
    intro r h
    rcases List.prefix_or_prefix_of_prefix h (List.prefix_append src r) with h | h
    · exact hdst h
    · exact hsrc h
  ext node
  rw [Dict.get?_eq_some_iff, move, List.mem_map]
  constructor
  · rintro ⟨e, he, heq⟩
    obtain ⟨hmem, hnot⟩ := List.mem_filter.mp he
    have hnot : ¬dst <+: e.1 := of_decide_eq_true hnot
    obtain ⟨rfl, rfl⟩ := Prod.mk.inj heq
    by_cases hs : src <+: e.1
    · obtain ⟨r, hr⟩ := hs
      rw [← hr, if_pos (List.prefix_append src r), relocate_append, if_pos (List.prefix_append dst r),
        relocate_append, hr]
      exact Dict.get?_eq_some_iff.mpr hmem
    · rw [if_neg hs, if_neg hnot, if_neg hs]
      exact Dict.get?_eq_some_iff.mpr hmem
  · intro h
    split at h
    · next hq =>
      obtain ⟨r, rfl⟩ := hq
      rw [relocate_append] at h
      refine ⟨(src ++ r, node), List.mem_filter.mpr ⟨Dict.get?_eq_some_iff.mp h, ?_⟩, ?_⟩
      · exact decide_eq_true (hapart r)
      · rw [if_pos (List.prefix_append src r), relocate_append]
    · next hq =>
      split at h
      · cases h
      · next hs =>
        refine ⟨(q, node), List.mem_filter.mpr ⟨Dict.get?_eq_some_iff.mp h, decide_eq_true hq⟩, ?_⟩
        rw [if_neg hs]

end Tree

end FileSystem
