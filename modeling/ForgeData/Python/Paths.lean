import Mathlib.Data.List.Basic
import Mathlib.Data.List.Chain
import Mathlib.Data.String.Basic
import Mathlib.Tactic.Common

/-!
# Path texts

An absolute path is the list of its components. Its text has a slash before each of them, a `file`
URI has the scheme before the text, and reading the URI back takes the scheme out and splits the text.
-/

namespace Python

/-- A component of a resolved path. -/
def IsComponent (part : String) : Prop := part ≠ "" ∧ part ≠ "." ∧ '/' ∉ part.toList

instance (part : String) : Decidable (IsComponent part) := inferInstanceAs (Decidable (_ ∧ _ ∧ _))

/-- `str(path)`, of an absolute path. -/
def pathText (parts : List String) : String := String.join (parts.map ("/" ++ ·))

/-- `Path(text)`: repeated slashes and single dots are dropped. -/
def pathParts (text : List Char) : List String :=
  ((text.splitOn '/').map String.ofList).filter fun part ↦ part ≠ "" ∧ part ≠ "."

/-- `text.replace(pattern, "")`, for a pattern that is not empty; the number says how many characters
of an occurrence are still to be skipped. -/
def eraseAll (pattern : List Char) : ℕ → List Char → List Char
  | _, [] => []
  | skip + 1, _ :: text => eraseAll pattern skip text
  | 0, c :: text =>
    if pattern.isPrefixOf (c :: text) then eraseAll pattern (pattern.length - 1) text
    else c :: eraseAll pattern 0 text

/-- `f"file://{path}"`. -/
def fileUri (parts : List String) : String := "file://" ++ pathText parts

/-- `Path(uri.replace("file://", ""))`. -/
def uriToPath (uri : String) : List String := pathParts (eraseAll "file://".toList 0 uri.toList)

/-! ## Round trips -/

theorem toList_pathText (parts : List String) :
    (pathText parts).toList = parts.flatMap fun part ↦ '/' :: part.toList := by
  rw [pathText, String.toList_join, List.flatMap_map]
  refine List.flatMap_congr fun part _ ↦ ?_
  rw [String.toList_append]
  rfl

theorem intercalate_eq_flatMap (parts : List String) :
    ['/'].intercalate ([] :: parts.map String.toList) = parts.flatMap fun part ↦ '/' :: part.toList := by
  suffices h : ∀ first : List Char, ['/'].intercalate (first :: parts.map String.toList) =
      first ++ parts.flatMap fun part ↦ '/' :: part.toList from h []
  induction parts with
  | nil => intro first; simp
  | cons part parts ih =>
    intro first
    rw [List.map_cons, List.intercalate_cons_cons, ih, List.flatMap_cons]
    simp

theorem pathParts_pathText {parts : List String} (h : ∀ part ∈ parts, IsComponent part) :
    pathParts (pathText parts).toList = parts := by
  have hsplit : ((pathText parts).toList.splitOn '/') = [] :: parts.map String.toList := by
    rw [toList_pathText, ← intercalate_eq_flatMap]
    refine List.splitOn_intercalate '/' (fun part hpart ↦ ?_) (List.cons_ne_nil _ _)
    rcases List.mem_cons.mp hpart with rfl | hpart
    · exact List.not_mem_nil
    · obtain ⟨part', hpart', rfl⟩ := List.mem_map.mp hpart
      exact (h part' hpart').2.2
  rw [pathParts, hsplit, List.map_cons, List.map_map, List.filter_cons_of_neg (by simp)]
  have hid : String.ofList ∘ String.toList = id := funext fun _ ↦ String.ofList_toList
  rw [hid, List.map_id, List.filter_eq_self]
  exact fun part hpart ↦ decide_eq_true ⟨(h part hpart).1, (h part hpart).2.1⟩

theorem pathParts_of_isComponent {part : String} (h : IsComponent part) :
    pathParts part.toList = [part] := by
  have hsplit : part.toList.splitOn '/' = [part.toList] := by
    have hslash : ∀ l ∈ [part.toList], '/' ∉ l := by
      intro l hl
      rw [List.mem_singleton.mp hl]
      exact h.2.2
    have hone := List.splitOn_intercalate '/' hslash (List.cons_ne_nil _ _)
    rwa [List.intercalate_singleton] at hone
  rw [pathParts, hsplit, List.map_singleton, String.ofList_toList, List.filter_eq_self]
  intro name hname
  rw [List.mem_singleton.mp hname]
  exact decide_eq_true ⟨h.1, h.2.1⟩

/-- No two slashes are neighbours. -/
abbrev SingleSlashes (text : List Char) : Prop := text.IsChain fun a b ↦ ¬(a = '/' ∧ b = '/')

theorem singleSlashes_of_notMem {text : List Char} (h : '/' ∉ text) : SingleSlashes text := by
  induction text with
  | nil => exact .nil
  | cons c text ih =>
    rw [List.mem_cons, not_or] at h
    exact List.isChain_cons.mpr ⟨fun _ _ hslash ↦ h.1 hslash.1.symm, ih h.2⟩

theorem singleSlashes_flatMap {parts : List String} (h : ∀ part ∈ parts, IsComponent part) :
    SingleSlashes (parts.flatMap fun part ↦ '/' :: part.toList) := by
  induction parts with
  | nil => exact .nil
  | cons part parts ih =>
    obtain ⟨hpart, hparts⟩ := List.forall_mem_cons.mp h
    obtain ⟨hne, -, hslash⟩ := hpart
    rw [List.flatMap_cons, List.cons_append, SingleSlashes, List.isChain_cons, List.isChain_append]
    refine ⟨fun b hb hboth ↦ ?_, singleSlashes_of_notMem hslash, ih hparts, fun a ha b _ hboth ↦ ?_⟩
    · rcases hchars : part.toList with _ | ⟨c, chars⟩
      · exact hne (String.toList_eq_nil_iff.mp hchars)
      · rw [hchars] at hb hslash
        obtain rfl := Option.some.inj hb
        exact hslash (hboth.2 ▸ List.mem_cons_self ..)
    · exact hslash (hboth.1 ▸ List.mem_of_getLast? ha)

theorem eraseAll_eq_self {text : List Char} (h : SingleSlashes text) :
    eraseAll "file://".toList 0 text = text := by
  induction text with
  | nil => rfl
  | cons c text ih =>
    have hprefix : "file://".toList.isPrefixOf (c :: text) = false := by
      refine Bool.eq_false_iff.mpr fun hprefix ↦ ?_
      have hchain : SingleSlashes "file://".toList := h.prefix (List.isPrefixOf_iff_prefix.mp hprefix)
      exact absurd hchain (by simp [SingleSlashes])
    rw [eraseAll, hprefix, if_neg Bool.false_ne_true, ih h.tail]

/-- **A file URI is read back as the path it was made from.** -/
theorem uriToPath_fileUri {parts : List String} (h : ∀ part ∈ parts, IsComponent part) :
    uriToPath (fileUri parts) = parts := by
  have herase : eraseAll "file://".toList 0 (fileUri parts).toList = (pathText parts).toList := by
    rw [fileUri, String.toList_append]
    have hscheme : eraseAll "file://".toList 0 ("file://".toList ++ (pathText parts).toList) =
        eraseAll "file://".toList 0 (pathText parts).toList := by
      simp [eraseAll]
    rw [hscheme, eraseAll_eq_self]
    rw [toList_pathText]
    exact singleSlashes_flatMap h
  rw [uriToPath, herase, pathParts_pathText h]

end Python
