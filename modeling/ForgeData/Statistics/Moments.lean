import Mathlib.Algebra.BigOperators.Group.List.Lemmas
import Mathlib.Algebra.Field.Basic
import Mathlib.Algebra.CharZero.Defs
import Mathlib.Data.Nat.Cast.Basic
import Mathlib.Tactic.FieldSimp
import Mathlib.Tactic.LinearCombination
import Mathlib.Tactic.Ring

/-!
# Mean and squared deviations of a growing list

The mean of a list and the sum of the squared deviations from it, as two passes compute them, and how
one more value changes both. The recurrence for the deviations needs no sum of squares: it is the
product of the distances of the new value from the mean before and from the mean after it.
-/

namespace Statistics

variable {K : Type} [Field K]

/-- The mean; that of the empty list is zero. -/
def mean (l : List K) : K := l.sum / l.length

/-- The sum of the squared distances from a point. -/
def sqDeviation (c : K) (l : List K) : K := (l.map fun x ↦ (x - c) ^ 2).sum

theorem sqDeviation_eq (c : K) (l : List K) :
    sqDeviation c l = (l.map fun x ↦ x ^ 2).sum - 2 * c * l.sum + l.length * c ^ 2 := by
  induction l with
  | nil => simp [sqDeviation]
  | cons x l ih =>
    rw [sqDeviation, List.map_cons, List.sum_cons, ← sqDeviation, ih, List.map_cons, List.sum_cons,
      List.sum_cons, List.length_cons, Nat.cast_succ]
    ring

variable [CharZero K]

theorem length_mul_mean (l : List K) : (l.length : K) * mean l = l.sum := by
  cases l with
  | nil => simp [mean]
  | cons x l =>
    have hne : (((x :: l).length : ℕ) : K) ≠ 0 := Nat.cast_ne_zero.mpr (Nat.succ_ne_zero _)
    rw [mean]
    field_simp

theorem mean_concat (l : List K) (x : K) :
    mean (l ++ [x]) = mean l + (x - mean l) / ((l.length + 1 : ℕ) : K) := by
  have hne : ((l.length + 1 : ℕ) : K) ≠ 0 := Nat.cast_ne_zero.mpr (Nat.succ_ne_zero _)
  have hmean := length_mul_mean l
  have hsum : (l ++ [x]).sum = l.sum + x := by rw [List.sum_append, List.sum_singleton]
  rw [mean, hsum, List.length_append, List.length_singleton]
  field_simp
  rw [Nat.cast_succ, ← hmean]
  ring

theorem sqDeviation_mean (l : List K) :
    sqDeviation (mean l) l = (l.map fun x ↦ x ^ 2).sum - mean l * l.sum := by
  rw [sqDeviation_eq]
  linear_combination mean l * length_mul_mean l

/-- **The recurrence.** One more value adds the product of its distances from the two means. -/
theorem sqDeviation_mean_concat (l : List K) (x : K) :
    sqDeviation (mean (l ++ [x])) (l ++ [x]) =
      sqDeviation (mean l) l + (x - mean l) * (x - mean (l ++ [x])) := by
  have hbefore := length_mul_mean l
  have hafter := length_mul_mean (l ++ [x])
  rw [List.length_append, List.length_singleton, List.sum_append, List.sum_singleton,
    Nat.cast_succ] at hafter
  rw [sqDeviation_mean, sqDeviation_mean, List.map_append, List.sum_append, List.map_singleton,
    List.sum_singleton, List.sum_append, List.sum_singleton]
  linear_combination mean (l ++ [x]) * hbefore - mean l * hafter

end Statistics
