import Mathlib.Algebra.Order.Floor.Ring
import Mathlib.Algebra.Order.Ring.Rat
import Mathlib.Data.Rat.Floor
import Mathlib.Tactic.Linarith

/-!
# Rounding half to even

`round(x)` of Python, on exact rationals: the nearest integer, and of two that are equally near the
even one. Rounding keeps order, which is all that is used of it.
-/

namespace Python

/-- `round(x)`. -/
def roundHalfEven (x : ℚ) : ℤ :=
  let rest := x - ⌊x⌋
  if rest < 1 / 2 then ⌊x⌋
  else if 1 / 2 < rest then ⌊x⌋ + 1
  else ⌊x⌋ + ⌊x⌋ % 2

theorem floor_le_roundHalfEven (x : ℚ) : ⌊x⌋ ≤ roundHalfEven x := by
  rw [roundHalfEven]
  split_ifs <;> omega

theorem roundHalfEven_le_floor_add_one (x : ℚ) : roundHalfEven x ≤ ⌊x⌋ + 1 := by
  rw [roundHalfEven]
  split_ifs <;> omega

/-- **Rounding keeps order.** -/
theorem roundHalfEven_mono {x y : ℚ} (h : x ≤ y) : roundHalfEven x ≤ roundHalfEven y := by
  rcases (Int.floor_le_floor h).lt_or_eq with hlt | heq
  · calc roundHalfEven x ≤ ⌊x⌋ + 1 := roundHalfEven_le_floor_add_one x
      _ ≤ ⌊y⌋ := hlt
      _ ≤ roundHalfEven y := floor_le_roundHalfEven y
  · have hrest : x - ⌊x⌋ ≤ y - ⌊y⌋ := by rw [heq]; exact sub_le_sub_right h _
    rw [roundHalfEven, roundHalfEven]
    rw [← heq] at hrest ⊢
    -- the values in between are ordered, whichever side of one half the rests lie on
    split_ifs <;> first | omega | linarith

end Python
