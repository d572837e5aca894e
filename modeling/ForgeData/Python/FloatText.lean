import ForgeData.Python.CodePoints

/-!
# Floats and their texts

What the code relies on when it reads and writes floats: `float` of a text and of an integer,
`repr`, and which floats are finite. `LawfulFloatText` is the documented behaviour of `repr`: the
text of a finite float is a decimal literal with a fraction or an exponent, and `float` reads every
`repr` back exactly.
-/

namespace Python

open Str CodePoint

/-- `str(n)` of an integer. -/
def encodeInt (n : ℤ) : Str := (if n < 0 then [ofChar '-'] else []) ++ decimal n.natAbs

/-- `int` refuses more digits than these, and `str` writes no more. -/
def maxStrDigits : ℕ := 4300

/-- The kinds of floats. -/
inductive FloatKind where
  | finite
  | nan
  | inf
  | negInf
deriving DecidableEq

/-- The operations between floats and texts. -/
class FloatText (R : Type) where
  /-- `repr(x)`. -/
  repr : R → Str
  /-- `float(text)`; `none` is `ValueError`. -/
  ofStr? : Str → Option R
  /-- `float(n)`; `none` is `OverflowError`. -/
  ofInt? : ℤ → Option R
  /-- Whether a float is finite, and if not, which of the others it is. -/
  kind : R → FloatKind
  /-- `float("nan")`. -/
  nan : R
  /-- `float("inf")`. -/
  inf : R
  /-- `float("-inf")`. -/
  negInf : R
  /-- The integer of a finite float without a fraction, `int(x)` where `x.is_integer()`. -/
  integer? : R → Option ℤ

/-- `math.isfinite(x)`. -/
def FloatText.isFinite {R : Type} [FloatText R] (x : R) : Bool := kind x = .finite

/-! ## Decimal literals -/

/-- Digits, at least one. -/
def IsDigits (s : Str) : Prop := s ≠ [] ∧ ∀ c ∈ s, c.isDigit = true

/-- The integer part of a literal: no zero in front of other digits. -/
def IsIntPart (s : Str) : Prop := IsDigits s ∧ (s.head? = some (ofChar '0') → s = [ofChar '0'])

/-- A fraction, or none. -/
def IsFraction (s : Str) : Prop := s = [] ∨ ∃ ds, IsDigits ds ∧ s = ofChar '.' :: ds

/-- An exponent, or none. -/
def IsExponent (s : Str) : Prop :=
  s = [] ∨ ∃ sign ds, (sign = [] ∨ sign = [ofChar '+'] ∨ sign = [ofChar '-']) ∧ IsDigits ds ∧
    s = ofChar 'e' :: (sign ++ ds)

/-- A decimal literal with a fraction or an exponent. -/
structure IsFloatLiteral (s : Str) : Prop where
  exists_parts : ∃ sign int frac exp, (sign = [] ∨ sign = [ofChar '-']) ∧ IsIntPart int ∧
    IsFraction frac ∧ IsExponent exp ∧ (frac ≠ [] ∨ exp ≠ []) ∧ s = sign ++ (int ++ (frac ++ exp))

/-- The documented behaviour of `repr` and `float`. -/
class LawfulFloatText (R : Type) [FloatText R] : Prop where
  /-- The text of a float is printable ASCII without blanks. -/
  repr_ascii : ∀ (x : R), ∀ c ∈ FloatText.repr x, 32 < c.val ∧ c.val < 127
  /-- The text of a float is not empty. -/
  repr_ne_nil : ∀ x : R, FloatText.repr x ≠ []
  /-- `float` reads every `repr` back. -/
  ofStr?_repr : ∀ x : R, FloatText.ofStr? (FloatText.repr x) = some x
  /-- The text of a finite float is a literal. -/
  repr_literal : ∀ x : R, FloatText.kind x = .finite → IsFloatLiteral (FloatText.repr x)
  /-- There is one NaN. -/
  kind_eq_nan_iff : ∀ x : R, FloatText.kind x = .nan ↔ x = FloatText.nan
  /-- There is one positive infinity. -/
  kind_eq_inf_iff : ∀ x : R, FloatText.kind x = .inf ↔ x = FloatText.inf
  /-- There is one negative infinity. -/
  kind_eq_negInf_iff : ∀ x : R, FloatText.kind x = .negInf ↔ x = FloatText.negInf
  /-- The integer of a float is converted and read as a float with that integer. -/
  float_of_integer : ∀ (x : R) (n : ℤ), FloatText.integer? x = some n →
    ∃ y : R, FloatText.ofInt? n = some y ∧ FloatText.ofStr? (encodeInt n) = some y ∧
      FloatText.integer? y = some n
  /-- The integer of a float has far fewer digits than `int` reads. -/
  length_integer_le : ∀ (x : R) (n : ℤ), FloatText.integer? x = some n →
    (decimal n.natAbs).length ≤ maxStrDigits

/-! ## A small model -/

/-- Zero and one, with the floats that are not finite: the laws hold of them. -/
inductive BitFloat where
  | zero
  | one
  | nan
  | inf
  | negInf
deriving DecidableEq

namespace BitFloat

instance : FloatText BitFloat where
  repr
    | .zero => ofString "0.0"
    | .one => ofString "1.0"
    | .nan => ofString "nan"
    | .inf => ofString "inf"
    | .negInf => ofString "-inf"
  ofStr? s :=
    if s = ofString "0.0" ∨ s = ofString "0" then some .zero
    else if s = ofString "1.0" ∨ s = ofString "1" then some .one
    else if s = ofString "nan" then some .nan
    else if s = ofString "inf" then some .inf
    else if s = ofString "-inf" then some .negInf
    else none
  ofInt? n := if n = 0 then some .zero else if n = 1 then some .one else none
  kind
    | .zero | .one => .finite
    | .nan => .nan
    | .inf => .inf
    | .negInf => .negInf
  nan := .nan
  inf := .inf
  negInf := .negInf
  integer?
    | .zero => some 0
    | .one => some 1
    | .nan | .inf | .negInf => none

/-- One leaves everything as it is; the rest is as in IEEE 754, but for the sign of zero. -/
instance : Mul BitFloat where
  mul
    | .one, x | x, .one => x
    | .zero, .zero => .zero
    | .inf, .inf | .negInf, .negInf => .inf
    | .inf, .negInf | .negInf, .inf => .negInf
    | _, _ => .nan

theorem isFloatLiteral_point_zero {c : CodePoint} (h : c.isDigit = true) :
    IsFloatLiteral [c, ofChar '.', ofChar '0'] where
  exists_parts := by
    refine ⟨[], [c], [ofChar '.', ofChar '0'], [], .inl rfl, ⟨⟨List.cons_ne_nil _ _, ?_⟩, ?_⟩,
      .inr ⟨[ofChar '0'], ⟨List.cons_ne_nil _ _, ?_⟩, rfl⟩, .inl rfl, .inl (List.cons_ne_nil _ _), rfl⟩
    · exact List.forall_mem_singleton.mpr h
    · exact fun hzero ↦ congrArg (· :: []) (Option.some.inj hzero)
    · exact List.forall_mem_singleton.mpr (by decide)

instance : LawfulFloatText BitFloat where
  repr_ascii x c hc := by
    have hall : (FloatText.repr x).all (fun c ↦ 32 < c.val ∧ c.val < 127) = true := by
      cases x <;> decide
    exact of_decide_eq_true (List.all_eq_true.mp hall c hc)
  repr_ne_nil x := by cases x <;> exact List.cons_ne_nil _ _
  ofStr?_repr x := by cases x <;> rfl
  repr_literal x h := by
    cases x with
    | zero => exact isFloatLiteral_point_zero (by decide)
    | one => exact isFloatLiteral_point_zero (by decide)
    | nan | inf | negInf => exact FloatKind.noConfusion h
  kind_eq_nan_iff x := by cases x <;> decide
  kind_eq_inf_iff x := by cases x <;> decide
  kind_eq_negInf_iff x := by cases x <;> decide
  float_of_integer x n h := by
    cases x with
    | zero =>
      obtain rfl := Option.some.inj h
      exact ⟨.zero, rfl, by decide +kernel, rfl⟩
    | one =>
      obtain rfl := Option.some.inj h
      exact ⟨.one, rfl, by decide +kernel, rfl⟩
    | nan | inf | negInf => exact absurd h nofun
  length_integer_le x n h := by
    cases x with
    | zero =>
      obtain rfl := Option.some.inj h
      decide +kernel
    | one =>
      obtain rfl := Option.some.inj h
      decide +kernel
    | nan | inf | negInf => exact absurd h nofun

end BitFloat

end Python
