import Mathlib.Algebra.Order.Floor.Ring
import Mathlib.Algebra.Order.Field.Basic
import Mathlib.Data.List.GetD
import Mathlib.Data.List.Sort
import Mathlib.Tactic.Linarith
import Mathlib.Tactic.Ring

/-!
# Linear interpolation between closest ranks

The value at a rank of a sequence, where a rank is a number: at an integer the entry there, and in
between the point that divides the two neighbours as the rank divides its integers. Along a monotone
sequence it is monotone in the rank. The percentile of a list takes the sorted list for the sequence.
-/

namespace Statistics

variable {K : Type} [LinearOrder K]

/-! ## Ranks of a list -/

section Ranks

theorem insertionSort_congr {l l' : List K} (h : l.Perm l') :
    l.insertionSort (· ≤ ·) = l'.insertionSort (· ≤ ·) :=
  List.Perm.eq_of_pairwise' (List.pairwise_insertionSort _ l) (List.pairwise_insertionSort _ l')
    (((List.perm_insertionSort _ l).trans h).trans (List.perm_insertionSort _ l').symm)

variable [Zero K]

/-- The entry at a rank of the sorted list; behind the last one it stays the same. -/
def rankValue (l : List K) (i : ℕ) : K :=
  (l.insertionSort (· ≤ ·)).getD (min i (l.length - 1)) 0

variable {l : List K}

theorem rankValue_mem (hne : l ≠ []) (i : ℕ) : rankValue l i ∈ l := by
  have hlt : min i (l.length - 1) < (l.insertionSort (· ≤ ·)).length := by
    have := List.length_pos_iff.mpr hne
    rw [List.length_insertionSort]
    omega
  rw [rankValue, List.getD_eq_getElem _ _ hlt]
  exact (List.mem_insertionSort _).mp (List.getElem_mem hlt)

theorem rankValue_mono (l : List K) : Monotone (rankValue l) := by
  intro i j hij
  rcases eq_or_ne l [] with rfl | hne
  · exact le_rfl
  have hpos := List.length_pos_iff.mpr hne
  have hi : min i (l.length - 1) < (l.insertionSort (· ≤ ·)).length := by
    rw [List.length_insertionSort]
    omega
  have hj : min j (l.length - 1) < (l.insertionSort (· ≤ ·)).length := by
    rw [List.length_insertionSort]
    omega
  rw [rankValue, rankValue, List.getD_eq_getElem _ _ hi, List.getD_eq_getElem _ _ hj]
  rcases (min_le_min_right (l.length - 1) hij).eq_or_lt with heq | hlt
  · simp only [heq, le_refl]
  · exact List.pairwise_iff_getElem.mp (List.pairwise_insertionSort (· ≤ ·) l) _ _ hi hj hlt

theorem exists_rankValue_eq {x : K} (hx : x ∈ l) : ∃ i < l.length, rankValue l i = x := by
  obtain ⟨i, hi, rfl⟩ := List.getElem_of_mem ((List.mem_insertionSort (· ≤ ·)).mpr hx)
  have hlt : i < l.length := by rwa [List.length_insertionSort] at hi
  have hmin : min i (l.length - 1) = i := by omega
  exact ⟨i, hlt, by rw [rankValue, hmin, List.getD_eq_getElem _ _ hi]⟩

theorem isLeast_rankValue (hne : l ≠ []) : IsLeast {x | x ∈ l} (rankValue l 0) := by
  refine ⟨rankValue_mem hne 0, fun x hx ↦ ?_⟩
  obtain ⟨i, -, rfl⟩ := exists_rankValue_eq hx
  exact rankValue_mono l (Nat.zero_le i)

theorem isGreatest_rankValue (hne : l ≠ []) :
    IsGreatest {x | x ∈ l} (rankValue l (l.length - 1)) := by
  refine ⟨rankValue_mem hne _, fun x hx ↦ ?_⟩
  obtain ⟨i, hi, rfl⟩ := exists_rankValue_eq hx
  exact rankValue_mono l (Nat.le_sub_one_of_lt hi)

end Ranks

/-! ## Between the ranks -/

variable [Field K] [IsStrictOrderedRing K] [FloorRing K]

/-- The value at a rank. -/
def interpolate (a : ℕ → K) (r : K) : K := a ⌊r⌋₊ + (a (⌊r⌋₊ + 1) - a ⌊r⌋₊) * (r - ⌊r⌋₊)

variable {a : ℕ → K}

theorem interpolate_natCast (a : ℕ → K) (i : ℕ) : interpolate a (i : K) = a i := by
  rw [interpolate, Nat.floor_natCast, sub_self, mul_zero, add_zero]

theorem le_interpolate (ha : Monotone a) {r : K} (hr : 0 ≤ r) : a ⌊r⌋₊ ≤ interpolate a r := by
  have hstep : 0 ≤ a (⌊r⌋₊ + 1) - a ⌊r⌋₊ := sub_nonneg.mpr (ha (Nat.le_succ _))
  have hfract : 0 ≤ r - ⌊r⌋₊ := sub_nonneg.mpr (Nat.floor_le hr)
  exact le_add_of_nonneg_right (mul_nonneg hstep hfract)

theorem interpolate_le (ha : Monotone a) (r : K) : interpolate a r ≤ a (⌊r⌋₊ + 1) := by
  have hstep : 0 ≤ a (⌊r⌋₊ + 1) - a ⌊r⌋₊ := sub_nonneg.mpr (ha (Nat.le_succ _))
  have hfract : r - ⌊r⌋₊ ≤ 1 := by
    have := Nat.lt_floor_add_one r
    linarith
  have hle := mul_le_mul_of_nonneg_left hfract hstep
  rw [interpolate]
  linarith

/-- **Along a monotone sequence** a larger rank has a larger value. -/
theorem interpolate_mono (ha : Monotone a) {r s : K} (hr : 0 ≤ r) (h : r ≤ s) :
    interpolate a r ≤ interpolate a s := by
  rcases (Nat.floor_le_floor h).eq_or_lt with heq | hlt
  · have hstep : 0 ≤ a (⌊r⌋₊ + 1) - a ⌊r⌋₊ := sub_nonneg.mpr (ha (Nat.le_succ _))
    rw [interpolate, interpolate, ← heq]
    have hle := mul_le_mul_of_nonneg_left (sub_le_sub_right h (⌊r⌋₊ : K)) hstep
    linarith
  · calc interpolate a r ≤ a (⌊r⌋₊ + 1) := interpolate_le ha r
      _ ≤ a ⌊s⌋₊ := ha hlt
      _ ≤ interpolate a s := le_interpolate ha (hr.trans h)

/-! ## Percentiles of a list -/

/-- The percentile at a fraction of the way from the first to the last rank. -/
def percentile (l : List K) (p : K) : K := interpolate (rankValue l) (p * ((l.length - 1 : ℕ) : K))

omit [IsStrictOrderedRing K] in
theorem percentile_congr {l l' : List K} (h : l.Perm l') (p : K) : percentile l p = percentile l' p := by
  have hrank : rankValue l = rankValue l' := by
    funext i
    rw [rankValue, rankValue, insertionSort_congr h, h.length_eq]
  rw [percentile, percentile, hrank, h.length_eq]

variable {l : List K}

theorem exists_le_percentile (hne : l ≠ []) {p : K} (hp : 0 ≤ p) : ∃ x ∈ l, x ≤ percentile l p :=
  ⟨_, rankValue_mem hne _, le_interpolate (rankValue_mono l) (mul_nonneg hp (Nat.cast_nonneg _))⟩

theorem exists_percentile_le (hne : l ≠ []) (p : K) : ∃ x ∈ l, percentile l p ≤ x :=
  ⟨_, rankValue_mem hne _, interpolate_le (rankValue_mono l) _⟩

/-- **Percentiles are monotone.** -/
theorem percentile_mono (l : List K) {p q : K} (hp : 0 ≤ p) (h : p ≤ q) :
    percentile l p ≤ percentile l q :=
  interpolate_mono (rankValue_mono l) (mul_nonneg hp (Nat.cast_nonneg _))
    (mul_le_mul_of_nonneg_right h (Nat.cast_nonneg _))

end Statistics
