import Mathlib.Algebra.Order.Ring.Rat
import Mathlib.Data.Rat.Floor
import Mathlib.Tactic.Common

/-!
# Python floats without their laws

Rounding, infinities and NaN break nearly every law of arithmetic, so code that computes with
`float` is modelled over a type that has the operations and no axioms at all. A theorem stated for
every `PyFloat` holds of IEEE doubles, rounding and NaN included, and of the exact rationals, which
are the instance on which definitions are evaluated.
-/

namespace Python

/-- The operations the code uses on `float` values; none of them is assumed to obey any law. -/
class PyFloat (R : Type) extends Add R, Sub R, Mul R, Div R, IntCast R, LT R, LE R where
  /-- Float comparison is decidable, NaN included. -/
  decidableLT : DecidableRel (α := R) (· < ·)
  /-- Float comparison is decidable, NaN included. -/
  decidableLE : DecidableRel (α := R) (· ≤ ·)
  /-- The literal `m * 10 ** (-e)`. -/
  ofDecimal : ℕ → ℕ → R
  /-- `int(x)`: truncation towards zero; `none` where Python raises (an infinity or NaN). -/
  toInt? : R → Option ℤ
  /-- `str(x)`. -/
  toText : R → String

namespace PyFloat

variable {R : Type} [PyFloat R]

instance : DecidableRel (α := R) (· < ·) := decidableLT

instance : DecidableRel (α := R) (· ≤ ·) := decidableLE

/-- The float of a Python integer. -/
def ofInt (n : ℤ) : R := IntCast.intCast n

/-- `abs(x)`. -/
def abs (x : R) : R := if x < ofInt 0 then ofInt 0 - x else x

/-- Truncation of a rational towards zero. -/
def truncate (q : ℚ) : ℤ := if 0 ≤ q then ⌊q⌋ else ⌈q⌉

instance : PyFloat ℚ where
  decidableLT := inferInstance
  decidableLE := inferInstance
  ofDecimal m e := m / 10 ^ e
  toInt? q := some (truncate q)
  toText q := toString q

end PyFloat

end Python
