import ForgeData.Python.CodePoints
import Mathlib.Data.List.TakeWhile

/-!
# Text files line by line

`str.strip`, and the lines of a text file that is opened with universal newlines: every line break is
read as `\n`.
-/

namespace Python

open CodePoint

/-- `str.isspace`, of one code point. -/
def CodePoint.isSpace (c : CodePoint) : Bool :=
  let n := c.val
  (9 ≤ n && n ≤ 13) || (28 ≤ n && n ≤ 32) || n == 0x85 || n == 0xA0 || n == 0x1680
    || (0x2000 ≤ n && n ≤ 0x200A) || n == 0x2028 || n == 0x2029 || n == 0x202F || n == 0x205F
    || n == 0x3000

namespace Str

/-- `s.strip()`. -/
def strip (s : Str) : Str := ((s.dropWhile isSpace).reverse.dropWhile isSpace).reverse

/-- Whether a string is empty but for white space. -/
def isBlank (s : Str) : Bool := s.strip = []

theorem strip_eq_self {s : Str} (hhead : ∀ c ∈ s.head?, c.isSpace = false)
    (hlast : ∀ c ∈ s.getLast?, c.isSpace = false) : s.strip = s := by
  have hdrop : ∀ {t : Str}, (∀ c ∈ t.head?, c.isSpace = false) → t.dropWhile isSpace = t := by
    intro t ht
    cases t with
    | nil => rfl
    | cons c t => exact List.dropWhile_cons_of_neg (by rw [ht c rfl]; decide)
  rw [strip, hdrop hhead, hdrop (by rwa [List.head?_reverse]), List.reverse_reverse]

theorem strip_append_newline {s : Str} (hne : s ≠ []) (hhead : ∀ c ∈ s.head?, c.isSpace = false)
    (hlast : ∀ c ∈ s.getLast?, c.isSpace = false) : (s ++ [ofChar '\n']).strip = s := by
  obtain ⟨c, t, rfl⟩ := List.exists_cons_of_ne_nil hne
  have hspace : isSpace (ofChar '\n') = true := by decide
  have hfirst := hhead c rfl
  have hself := strip_eq_self hhead hlast
  rw [strip, List.dropWhile_cons_of_neg (by rw [hfirst]; decide)] at hself
  rw [strip, List.cons_append, List.dropWhile_cons_of_neg (by rw [hfirst]; decide), ← List.cons_append,
    List.reverse_append, List.reverse_singleton, List.singleton_append,
    List.dropWhile_cons_of_pos hspace, hself]

/-- `s.lower()`, as far as ASCII letters go. -/
def lowerAscii (s : Str) : Str :=
  s.map fun c ↦ if 65 ≤ c.val ∧ c.val ≤ 90 then Fin.ofNat _ (c.val + 32) else c

/-! ## Lines -/

/-- Every line break as `\n`. -/
def universalNewlines : Str → Str
  | [] => []
  | c :: s =>
    if c = ofChar '\r' then
      if s.head? = some (ofChar '\n') then universalNewlines s else ofChar '\n' :: universalNewlines s
    else c :: universalNewlines s

/-- The lines of a text, each with its line break. -/
def linesOf : Str → List Str
  | [] => []
  | c :: s =>
    if c = ofChar '\n' then [c] :: linesOf s
    else match linesOf s with
      | [] => [[c]]
      | line :: lines => (c :: line) :: lines

theorem universalNewlines_eq_self {s : Str} (h : ofChar '\r' ∉ s) : universalNewlines s = s := by
  induction s with
  | nil => rfl
  | cons c s ih =>
    rw [List.mem_cons, not_or] at h
    rw [universalNewlines, if_neg fun hc ↦ h.1 hc.symm, ih h.2]

theorem linesOf_append {line : Str} (h : ofChar '\n' ∉ line) (rest : Str) :
    linesOf (line ++ ofChar '\n' :: rest) = (line ++ [ofChar '\n']) :: linesOf rest := by
  induction line with
  | nil => rw [List.nil_append, linesOf, if_pos rfl, List.nil_append]
  | cons c line ih =>
    rw [List.mem_cons, not_or] at h
    rw [List.cons_append, linesOf, if_neg fun hc ↦ h.1 hc.symm, ih h.2, List.cons_append]

/-- **Lines that were written one by one are read one by one.** -/
theorem linesOf_flatMap {lines : List Str} (h : ∀ line ∈ lines, ofChar '\n' ∉ line) :
    linesOf (lines.flatMap (· ++ [ofChar '\n'])) = lines.map (· ++ [ofChar '\n']) := by
  induction lines with
  | nil => rfl
  | cons line lines ih =>
    rw [List.flatMap_cons, List.append_assoc, List.singleton_append,
      linesOf_append (h line List.mem_cons_self),
      ih fun line hline ↦ h line (List.mem_cons_of_mem _ hline), List.map_cons]

end Str

end Python
