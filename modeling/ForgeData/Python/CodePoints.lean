import Mathlib.Data.Fin.Basic
import Mathlib.Data.List.Basic
import Mathlib.Algebra.Order.Ring.Int
import Mathlib.Tactic.Common

/-!
# Strings as sequences of code points

A Python string is a sequence of code points, surrogates included: `json.loads` makes a lone
surrogate of an escape such as `\ud800`, and such a string has no UTF-8 encoding. Decimal numbers
and their digits are here too, with the reader of a fixed number of digits that is inverse to the
zero-padded writer.
-/

namespace Python

/-- A code point. -/
abbrev CodePoint := Fin 0x110000

instance neZeroCodePoints : NeZero 0x110000 := ⟨by decide⟩

/-- A string. -/
abbrev Str := List CodePoint

namespace CodePoint

/-- The code point of a character. -/
def ofChar (c : Char) : CodePoint :=
  ⟨c.toNat, by
    rcases c.valid with h | ⟨_, h⟩
    · exact Nat.lt_trans h (by decide)
    · exact h⟩

/-- The code points that UTF-16 uses in pairs; UTF-8 has no encoding for them. -/
def isSurrogate (c : CodePoint) : Bool := 0xD800 ≤ c.val && c.val ≤ 0xDFFF

/-- The digit of a number below ten. -/
def digit (d : ℕ) : CodePoint := Fin.ofNat _ (48 + d % 10)

/-- An ASCII digit. -/
def isDigit (c : CodePoint) : Bool := 48 ≤ c.val && c.val ≤ 57

theorem digit_val (d : ℕ) : (digit d).val = 48 + d % 10 := by
  rw [digit, Fin.val_ofNat]
  omega

theorem isDigit_digit (d : ℕ) : (digit d).isDigit = true := by
  simp only [isDigit, digit_val, Bool.and_eq_true, decide_eq_true_eq]
  omega

theorem digit_ne {c : CodePoint} (h : c.isDigit = false) (d : ℕ) : digit d ≠ c := by
  rintro rfl
  rw [isDigit_digit] at h
  exact Bool.noConfusion h

theorem isSurrogate_of_isDigit {c : CodePoint} (h : c.isDigit = true) : c.isSurrogate = false := by
  simp only [isDigit, Bool.and_eq_true, decide_eq_true_eq] at h
  simp only [isSurrogate, Bool.and_eq_false_iff, decide_eq_false_iff_not]
  omega

theorem isSurrogate_ofChar (c : Char) : (ofChar c).isSurrogate = false := by
  simp only [isSurrogate, ofChar, Bool.and_eq_false_iff]
  rcases c.valid with h | ⟨h, -⟩
  · exact .inl (decide_eq_false (Nat.not_le.mpr h))
  · exact .inr (decide_eq_false (Nat.not_le.mpr h))

end CodePoint

namespace Str

open CodePoint

/-- The string of a text without surrogates. -/
def ofString (s : String) : Str := s.toList.map ofChar

/-! ## Decimal numbers -/

/-- `str(n)`. -/
def decimal (n : ℕ) : Str := if n < 10 then [digit n] else decimal (n / 10) ++ [digit n]

/-- The last `k` digits of a number, with zeros in front where it has fewer. -/
def zeroPad : ℕ → ℕ → Str
  | 0, _ => []
  | k + 1, n => zeroPad k (n / 10) ++ [digit n]

@[simp] theorem length_zeroPad (k n : ℕ) : (zeroPad k n).length = k := by
  induction k generalizing n with
  | zero => rfl
  | succ k ih => rw [zeroPad, List.length_append, ih, List.length_singleton]

theorem isDigit_of_mem_zeroPad {k n : ℕ} {c : CodePoint} (h : c ∈ zeroPad k n) :
    c.isDigit = true := by
  induction k generalizing n with
  | zero => exact absurd h List.not_mem_nil
  | succ k ih =>
    rw [zeroPad, List.mem_append, List.mem_singleton] at h
    rcases h with h | rfl
    · exact ih h
    · exact isDigit_digit n

theorem decimal_eq_zeroPad {k n : ℕ} (hle : k = 0 ∨ 10 ^ k ≤ n) (hlt : n < 10 ^ (k + 1)) :
    decimal n = zeroPad (k + 1) n := by
  induction k generalizing n with
  | zero =>
    rw [decimal, if_pos (by omega)]
    rfl
  | succ k ih =>
    have hpow : 10 ^ (k + 1) ≤ n := hle.resolve_left (Nat.succ_ne_zero k)
    have hpos : 1 ≤ 10 ^ k := Nat.one_le_pow _ _ (by decide)
    rw [Nat.pow_succ] at hpow hlt
    rw [decimal, if_neg (by omega), zeroPad, ih (by omega) (by omega)]

theorem exists_decimal_eq_zeroPad {n k : ℕ} (h : n < 10 ^ (k + 1)) :
    ∃ j ≤ k, decimal n = zeroPad (j + 1) n := by
  induction k with
  | zero => exact ⟨0, le_rfl, decimal_eq_zeroPad (.inl rfl) h⟩
  | succ k ih =>
    by_cases hlt : n < 10 ^ (k + 1)
    · obtain ⟨j, hj, heq⟩ := ih hlt
      exact ⟨j, Nat.le_succ_of_le hj, heq⟩
    · exact ⟨k + 1, le_rfl, decimal_eq_zeroPad (.inr (Nat.le_of_not_lt hlt)) h⟩

/-- `parse_digits`: exactly `k` ASCII digits, with the value read so far in front. -/
def parseDigits : ℕ → Str → ℕ → Option (ℕ × Str)
  | 0, s, value => some (value, s)
  | _ + 1, [], _ => none
  | k + 1, c :: s, value =>
    if c.isDigit then parseDigits k s (value * 10 + (c.val - 48)) else none

theorem parseDigits_append (k j value : ℕ) (s rest : Str) (h : s.length = k) :
    parseDigits (k + j) (s ++ rest) value = (parseDigits k s value).bind fun p ↦
      parseDigits j rest p.1 := by
  induction s generalizing k value with
  | nil =>
    obtain rfl : k = 0 := h.symm
    simp [parseDigits]
  | cons c s ih =>
    obtain ⟨k, rfl⟩ : ∃ k', k = k' + 1 := ⟨s.length, h.symm⟩
    rw [show k + 1 + j = k + j + 1 by omega, List.cons_append, parseDigits, parseDigits]
    split
    · exact ih k _ (Nat.succ.inj h)
    · rfl

/-- **Reading is inverse to padding.** -/
theorem parseDigits_zeroPad {k n : ℕ} (h : n < 10 ^ k) (value : ℕ) (rest : Str) :
    parseDigits k (zeroPad k n ++ rest) value = some (value * 10 ^ k + n, rest) := by
  induction k generalizing n rest with
  | zero =>
    obtain rfl : n = 0 := by omega
    simp [zeroPad, parseDigits]
  | succ k ih =>
    rw [Nat.pow_succ] at h
    have hread : parseDigits (k + 1) (zeroPad k (n / 10) ++ ([digit n] ++ rest)) value =
        ((parseDigits k (zeroPad k (n / 10)) value).bind fun p ↦
          parseDigits 1 ([digit n] ++ rest) p.1) :=
      parseDigits_append k 1 value _ _ (length_zeroPad k _)
    have hinit := ih (n := n / 10) (by omega) []
    rw [List.append_nil] at hinit
    rw [zeroPad, List.append_assoc, hread, hinit]
    simp only [Option.bind_some, List.singleton_append, parseDigits, isDigit_digit, if_true,
      digit_val, Option.some.injEq, Prod.mk.injEq, and_true]
    rw [Nat.pow_succ]
    have : value * (10 ^ k * 10) = value * 10 ^ k * 10 := (Nat.mul_assoc ..).symm
    omega

theorem parseDigits_eq_none {k j : ℕ} {s rest : Str} {c : CodePoint} (hs : s.length = j)
    (hj : j < k) (hc : c.isDigit = false) (value : ℕ) :
    parseDigits k (s ++ c :: rest) value = none := by
  obtain ⟨i, rfl⟩ : ∃ i, k = j + (i + 1) := ⟨k - j - 1, by omega⟩
  rw [parseDigits_append j (i + 1) value s _ hs]
  cases parseDigits j s value with
  | none => rfl
  | some p => simp [parseDigits, hc]

end Str

end Python
