import ForgeData.Normalization.NormalForm
import ForgeData.Synchronization.Readers

/-!
# Fields of normalized records, read again

What `_cast_field` makes of a field in normal form. From JSON and JSONL every field comes back as it
was written, an integer as the float of the same number. From CSV so do null, numbers, booleans and
strings; anything else that was passed through in a field of strings comes back as its text.
-/

namespace ForgeData

namespace Synchronization

open Python Normalization CodePoint

variable {R : Type} [FloatText R]

/-- A value and what is read for it: itself, or for an integer the float of the same number. -/
inductive SameValue : Value R → Value R → Prop where
  | same (v : Value R) : SameValue v v
  | integer {n : ℤ} {y : R} (h : FloatText.integer? y = some n) : SameValue (.int n) (.float y)

/-- A field whose values are passed through. -/
def IsText (type : FieldType) : Prop := type = .string ∨ type = .datetime

/-- Null or a string. -/
def IsNullOrStr (v : Value R) : Prop := v = .none ∨ ∃ s, v = .str s

/-! ## Texts of cells -/

theorem isSpace_of_isPrintable {c : CodePoint} (h : 32 < c.val ∧ c.val < 127) :
    c.isSpace = false := by
  simp only [CodePoint.isSpace, Bool.or_eq_false_iff, Bool.and_eq_false_iff, decide_eq_false_iff_not,
    beq_eq_false_iff_ne]
  omega

theorem strip_eq_self_of_forall {s : Str} (h : ∀ c ∈ s, 32 < c.val ∧ c.val < 127) : s.strip = s :=
  Str.strip_eq_self (fun c hc ↦ isSpace_of_isPrintable (h c (List.mem_of_mem_head? hc)))
    (fun c hc ↦ isSpace_of_isPrintable (h c (List.mem_of_mem_getLast? hc)))

theorem castField_number {type : FieldType} (htype : type = .float ∨ type = .integer) {s : Str}
    (hne : s ≠ []) (hs : ∀ c ∈ s, 32 < c.val ∧ c.val < 127) {y : R}
    (hread : FloatText.ofStr? s = some y) : castField (.str s) (some type) = some (.float y) := by
  have hstrip := strip_eq_self_of_forall hs
  have hnull : isNull (.str s : Value R) = false := by
    simp only [isNull, Str.isBlank, hstrip, hne, decide_false]
  rcases htype with rfl | rfl <;>
    simp only [castField, hnull, toFloat, hstrip, if_neg hne, hread, Option.map_some,
      Bool.false_eq_true, if_false]

theorem nonblank_of_mem_encodeInt {n : ℤ} {c : CodePoint} (h : c ∈ encodeInt n) :
    32 < c.val ∧ c.val < 127 := by
  rcases List.mem_append.mp h with h | h
  · split at h
    · obtain rfl := List.mem_singleton.mp h
      decide
    · exact absurd h List.not_mem_nil
  · have hdigit := isDigit_of_mem_decimal h
    simp only [isDigit, Bool.and_eq_true, decide_eq_true_eq] at hdigit
    omega

theorem castField_text {type : FieldType} (htype : IsText type) (s : Str) :
    castField (.str s : Value R) (some type) = some (if s.isBlank then .none else .str s) := by
  cases hblank : s.isBlank with
  | true => simp only [castField, isNull, hblank, if_true]
  | false =>
    rcases htype with rfl | rfl <;>
      simp only [castField, isNull, hblank, Bool.false_eq_true, if_false]

/-! ## The formats -/

variable [LawfulFloatText R]

/-- **From JSON a field comes back as it was.** -/
theorem castField_json {type : FieldType} {v : Value R} (h : NormalForm type v) :
    ∃ w, castField v (some type) = some w ∧ SameValue v w := by
  cases h with
  | null => exact ⟨.none, rfl, .same _⟩
  | number htype x =>
    refine ⟨.float x, ?_, .same _⟩
    rcases htype with rfl | rfl <;> rfl
  | @integer x n hn =>
    obtain ⟨y, hy, -, hinteger⟩ := LawfulFloatText.float_of_integer x n hn
    refine ⟨.float y, ?_, .integer hinteger⟩
    simp only [castField, isNull, toFloat, hy, Option.map_some, Bool.false_eq_true, if_false]
  | boolean b => exact ⟨.bool b, rfl, .same _⟩
  | passed htype hnull _ =>
    refine ⟨v, ?_, .same _⟩
    rcases htype with rfl | rfl <;> simp only [castField, hnull, Bool.false_eq_true, if_false]

/-- **From CSV a field comes back as it was**, but for what is passed through without being a
string. -/
theorem castField_csv (strOf : Value R → Str) {type : FieldType} {v : Value R}
    (h : NormalForm type v) : ∃ w, castField (.str (csvCell strOf v)) (some type) = some w ∧
      (SameValue v w ↔ (IsText type → IsNullOrStr v)) := by
  cases h with
  | null => exact ⟨.none, rfl, fun _ _ ↦ .inl rfl, fun _ ↦ .same _⟩
  | number htype x =>
    have hnot : ¬IsText type := by
      rintro (rfl | rfl) <;> rcases htype with h | h <;> exact FieldType.noConfusion h
    exact ⟨.float x, castField_number htype (LawfulFloatText.repr_ne_nil x)
      (LawfulFloatText.repr_ascii x) (LawfulFloatText.ofStr?_repr x),
      fun _ htext ↦ absurd htext hnot, fun _ ↦ .same _⟩
  | @integer x n hn =>
    obtain ⟨y, -, hy, hinteger⟩ := LawfulFloatText.float_of_integer x n hn
    have hne : encodeInt n ≠ [] := List.append_ne_nil_of_right_ne_nil _ (decimal_ne_nil _)
    exact ⟨.float y, castField_number (.inr rfl) hne (fun _ ↦ nonblank_of_mem_encodeInt) hy,
      fun _ htext ↦ by rcases htext with h | h <;> exact FieldType.noConfusion h,
      fun _ ↦ .integer hinteger⟩
  | boolean b =>
    have hnot : ¬IsText .boolean := by rintro (h | h) <;> exact FieldType.noConfusion h
    refine ⟨.bool b, ?_, fun _ htext ↦ absurd htext hnot, fun _ ↦ .same _⟩
    cases b <;> rfl
  | passed htype hnull _ =>
    refine ⟨_, castField_text htype _, ?_⟩
    constructor
    · intro hsame _
      generalize hw : (if (csvCell strOf v).isBlank then (.none : Value R)
        else .str (csvCell strOf v)) = w at hsame
      cases hsame with
      | same =>
        split at hw
        · exact .inl hw.symm
        · exact .inr ⟨_, hw.symm⟩
      | integer h =>
        split at hw
        · exact absurd hw nofun
        · exact absurd hw nofun
    · intro htext
      rcases htext htype with rfl | ⟨s, rfl⟩
      · exact absurd hnull (show ¬(true = false) by decide)
      · have hblank : s.isBlank = false := hnull
        simp only [csvCell, hblank, Bool.false_eq_true, if_false]
        exact .same _

end Synchronization

end ForgeData
