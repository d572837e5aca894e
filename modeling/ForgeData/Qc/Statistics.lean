import ForgeData.Python.Loop
import ForgeData.Qc.Metrics
import ForgeData.Statistics.ClosestRanks
import ForgeData.Statistics.Moments
import Mathlib.Algebra.Order.BigOperators.Group.List

/-!
# Streaming statistics

`app/qc/accumulator.py` in exact arithmetic. Welford's accumulator holds the mean and the squared
deviations of what it has seen, by the recurrences of `Statistics.Moments`. The percentile buffer keeps
the values it has room for; as long as it has room for all of them, its percentiles are those of
`Statistics.ClosestRanks`.
-/

namespace ForgeData

namespace Qc

open Python

/-! ## Percentiles -/

/-- What the percentiles ask of floats besides. -/
class RankFloat (R : Type) extends StatFloat R where
  /-- `math.floor(x)`. -/
  floor : R → ℤ
  /-- `math.ceil(x)`. -/
  ceil : R → ℤ

instance : RankFloat ℚ where
  floor x := ⌊x⌋
  ceil x := ⌈x⌉

section Definitions

variable {R : Type}

/-- `l[i]`; `none` is `IndexError`. -/
def getIndex? {α : Type} (l : List α) (i : ℤ) : Option α :=
  if 0 ≤ i then l[i.toNat]? else if 0 ≤ l.length + i then l[(l.length + i).toNat]? else none

/-- `sorted(values)`: a value goes before the ones that are not less. -/
def sortedValues [PyFloat R] (values : List R) : List R := values.insertionSort fun x y ↦ ¬y < x

/-- `_PERCENTILES`, each under its `_label`. -/
def percentileTable [PyFloat R] : List (String × R) :=
  [("p01", PyFloat.ofDecimal 1 2), ("p05", PyFloat.ofDecimal 5 2), ("p25", PyFloat.ofDecimal 25 2),
    ("p50", PyFloat.ofDecimal 50 2), ("p75", PyFloat.ofDecimal 75 2), ("p95", PyFloat.ofDecimal 95 2),
    ("p99", PyFloat.ofDecimal 99 2)]

variable [RankFloat R]

/-- The loop body of `percentiles`, over the sorted values. -/
def closestRanks (ordered : List R) (p : R) : Option R := do
  let rank := p * PyFloat.ofInt ((ordered.length : ℤ) - 1)
  let lower := RankFloat.floor rank
  let upper := RankFloat.ceil rank
  let low ← getIndex? ordered lower
  if lower = upper then return low
  else
    let high ← getIndex? ordered upper
    return low + (high - low) * (rank - PyFloat.ofInt lower)

/-- `PercentileBuffer.percentiles`, under the labels. -/
def PercentileBuffer.percentiles (b : PercentileBuffer R) : Option (List (String × Option R)) :=
  if b.values.isEmpty then some (percentileTable.map fun entry : String × R ↦ (entry.1, none))
  else percentileTable.mapM fun entry ↦
    (closestRanks (sortedValues b.values) entry.2).map fun value ↦ (entry.1, some value)

/-- `WelfordAccumulator.variance`. -/
def WelfordAccumulator.variance (w : WelfordAccumulator R) : R :=
  if w.count ≠ 0 then w.m2 / PyFloat.ofInt w.count else PyFloat.ofInt 0

/-- The accumulator after these values. -/
def welfordOf (values : List R) : WelfordAccumulator R := values.foldl WelfordAccumulator.update .new

/-- The buffer after these values. -/
def percentileBufferOf (maxValues : ℕ) (values : List R) : PercentileBuffer R :=
  values.foldl PercentileBuffer.add { maxValues := maxValues }

end Definitions

/-! ## Welford's accumulator -/

section Welford

/-- What an accumulator over these values holds. -/
structure Summarizes (values : List ℚ) (w : WelfordAccumulator ℚ) : Prop where
  count : w.count = values.length
  mean : w.mean = Statistics.mean values
  m2 : w.m2 = Statistics.sqDeviation (Statistics.mean values) values
  min : ∀ least ∈ w.min, IsLeast {x | x ∈ values} least
  max : ∀ largest ∈ w.max, IsGreatest {x | x ∈ values} largest
  bounded : values ≠ [] → w.min.isSome ∧ w.max.isSome
  empty : values = [] → w.min = none ∧ w.max = none

theorem summarizes_new : Summarizes [] WelfordAccumulator.new where
  count := rfl
  mean := by simp [WelfordAccumulator.new, Statistics.mean, PyFloat.ofInt]
  m2 := by simp [WelfordAccumulator.new, Statistics.sqDeviation, PyFloat.ofInt]
  min := nofun
  max := nofun
  bounded h := absurd rfl h
  empty _ := ⟨rfl, rfl⟩

theorem isLeast_concat {values : List ℚ} {least value : ℚ} (h : IsLeast {x | x ∈ values} least) :
    IsLeast {x | x ∈ values ++ [value]} (if value < least then value else least) := by
  obtain ⟨hmem, hle⟩ := h
  constructor
  · split
    · exact List.mem_append_right _ (List.mem_singleton_self _)
    · exact List.mem_append_left _ hmem
  · intro x hx
    rcases List.mem_append.mp hx with hx | hx
    · have := hle hx
      split <;> linarith
    · rw [List.mem_singleton.mp hx]
      split <;> linarith

theorem isGreatest_concat {values : List ℚ} {largest value : ℚ}
    (h : IsGreatest {x | x ∈ values} largest) :
    IsGreatest {x | x ∈ values ++ [value]} (if largest < value then value else largest) := by
  obtain ⟨hmem, hle⟩ := h
  constructor
  · split
    · exact List.mem_append_right _ (List.mem_singleton_self _)
    · exact List.mem_append_left _ hmem
  · intro x hx
    rcases List.mem_append.mp hx with hx | hx
    · have := hle hx
      split <;> linarith
    · rw [List.mem_singleton.mp hx]
      split <;> linarith

/-- **The step lemma**: one more value. -/
theorem Summarizes.update {values : List ℚ} {w : WelfordAccumulator ℚ} (h : Summarizes values w)
    (value : ℚ) : Summarizes (values ++ [value]) (w.update value) := by
  have hmean : (w.update value).mean = Statistics.mean (values ++ [value]) := by
    rw [Statistics.mean_concat, ← h.mean, ← h.count]
    rfl
  constructor
  · rw [List.length_append, ← h.count]
    rfl
  · exact hmean
  · rw [Statistics.sqDeviation_mean_concat, ← h.m2, ← hmean, ← h.mean]
    rfl
  · intro least hleast
    obtain rfl := Option.some.inj hleast
    rcases hmin : w.min with _ | least
    · have hempty : values = [] := by
        by_contra hne
        simpa [hmin] using (h.bounded hne).1
      subst hempty
      exact ⟨List.mem_singleton_self _, fun x hx ↦ (List.mem_singleton.mp hx).ge⟩
    · exact isLeast_concat (h.min least hmin)
  · intro largest hlargest
    obtain rfl := Option.some.inj hlargest
    rcases hmax : w.max with _ | largest
    · have hempty : values = [] := by
        by_contra hne
        simpa [hmax] using (h.bounded hne).2
      subst hempty
      exact ⟨List.mem_singleton_self _, fun x hx ↦ (List.mem_singleton.mp hx).le⟩
    · exact isGreatest_concat (h.max largest hmax)
  · exact fun _ ↦ ⟨rfl, rfl⟩
  · exact fun hnil ↦ absurd hnil (List.append_ne_nil_of_right_ne_nil _ (List.cons_ne_nil _ _))

/-- **The run lemma.** -/
theorem summarizes_welfordOf (values : List ℚ) : Summarizes values (welfordOf values) := by
  induction values using List.reverseRecOn with
  | nil => exact summarizes_new
  | append_singleton values value ih =>
    rw [welfordOf, List.foldl_append]
    exact ih.update value

end Welford

/-! ## The percentile buffer -/

theorem take_concat {α : Type} (l : List α) (a : α) (room : ℕ) :
    (l ++ [a]).take room = if (l.take room).length < room then l.take room ++ [a] else l.take room := by
  rw [List.length_take]
  by_cases hroom : l.length < room
  · rw [if_pos (by omega), List.take_of_length_le hroom.le, List.take_of_length_le (by simp; omega)]
  · rw [if_neg (by omega), List.take_append_of_le_length (by omega)]

/-- The buffer keeps the first values, and says whether there were more. -/
theorem percentileBufferOf_eq {R : Type} [RankFloat R] (maxValues : ℕ) (values : List R) :
    percentileBufferOf maxValues values =
      ⟨maxValues, values.take maxValues, decide (maxValues < values.length)⟩ := by
  induction values using List.reverseRecOn with
  | nil => simp [percentileBufferOf]
  | append_singleton values value ih =>
    have hconcat : percentileBufferOf maxValues (values ++ [value]) =
        (percentileBufferOf maxValues values).add value := by
      rw [percentileBufferOf, List.foldl_append]
      rfl
    rw [hconcat, ih, PercentileBuffer.add, take_concat]
    dsimp only
    split
    · next hroom =>
      rw [List.length_take] at hroom
      simp only [PercentileBuffer.mk.injEq, true_and, decide_eq_decide, List.length_append,
        List.length_singleton]
      omega
    · next hroom =>
      rw [List.length_take] at hroom
      simp only [PercentileBuffer.mk.injEq, true_and, List.length_append, List.length_singleton]
      exact (decide_eq_true (by omega)).symm

theorem values_of_not_truncated {R : Type} [RankFloat R] {maxValues : ℕ} {values : List R}
    (h : (percentileBufferOf maxValues values).truncated = false) :
    (percentileBufferOf maxValues values).values = values := by
  rw [percentileBufferOf_eq] at h ⊢
  exact List.take_of_length_le (not_lt.mp (of_decide_eq_false h))

section Percentiles

variable {values : List ℚ}

theorem sortedValues_eq (values : List ℚ) : sortedValues values = values.insertionSort (· ≤ ·) := by
  simp only [sortedValues, not_lt]

theorem length_sortedValues (values : List ℚ) : (sortedValues values).length = values.length := by
  rw [sortedValues_eq, List.length_insertionSort]

theorem getElem?_sortedValues {i : ℕ} (h : i < values.length) :
    (sortedValues values)[i]? = some (Statistics.rankValue values i) := by
  have hlt : i < (values.insertionSort (· ≤ ·)).length := by rwa [List.length_insertionSort]
  have hmin : min i (values.length - 1) = i := by omega
  rw [sortedValues_eq, Statistics.rankValue, hmin, List.getD_eq_getElem _ _ hlt,
    List.getElem?_eq_getElem hlt]

theorem getIndex?_sortedValues {i : ℕ} (h : i < values.length) :
    getIndex? (sortedValues values) i = some (Statistics.rankValue values i) := by
  rw [getIndex?, if_pos (Int.natCast_nonneg i), Int.toNat_natCast, getElem?_sortedValues h]

/-- **The loop body computes the percentile**, without an `IndexError`. -/
theorem closestRanks_eq (hvalues : values ≠ []) {p : ℚ} (hp : 0 ≤ p) (hp' : p ≤ 1) :
    closestRanks (sortedValues values) p = some (Statistics.percentile values p) := by
  have hpos := List.length_pos_iff.mpr hvalues
  have hlast : (PyFloat.ofInt (((sortedValues values).length : ℤ) - 1) : ℚ) =
      ((values.length - 1 : ℕ) : ℚ) := by
    rw [length_sortedValues, ← Nat.cast_pred hpos]
    rfl
  rw [closestRanks, hlast, Statistics.percentile]
  generalize hr : p * ((values.length - 1 : ℕ) : ℚ) = r
  have hr₀ : 0 ≤ r := by rw [← hr]; exact mul_nonneg hp (Nat.cast_nonneg _)
  have hr₁ : r ≤ ((values.length - 1 : ℕ) : ℚ) := by
    rw [← hr]
    exact mul_le_of_le_one_left (Nat.cast_nonneg _) hp'
  have hfloor : (RankFloat.floor r : ℤ) = (⌊r⌋₊ : ℤ) := (Int.natCast_floor_eq_floor hr₀).symm
  have hle : ⌊r⌋₊ ≤ values.length - 1 := by
    rw [← Nat.floor_natCast (R := ℚ) (values.length - 1)]
    exact Nat.floor_le_floor hr₁
  simp only [hfloor, getIndex?_sortedValues (show ⌊r⌋₊ < values.length by omega), Option.bind_eq_bind,
    Option.bind_some]
  have hcast : (PyFloat.ofInt (⌊r⌋₊ : ℤ) : ℚ) = (⌊r⌋₊ : ℚ) := rfl
  split
  · next heq =>
    -- floor and ceiling agree, so the rank is a whole number and nothing is interpolated
    have hinteger : r = (⌊r⌋₊ : ℚ) := by
      have hceil : r ≤ ((RankFloat.ceil r : ℤ) : ℚ) := Int.le_ceil r
      rw [← heq] at hceil
      exact le_antisymm hceil (Nat.floor_le hr₀)
    rw [Statistics.interpolate, ← hinteger, sub_self, mul_zero, add_zero]
    rfl
  · next hne =>
    -- otherwise the ceiling is the next rank, which is still in the list
    have hceil : (RankFloat.ceil r : ℤ) = ((⌊r⌋₊ + 1 : ℕ) : ℤ) := by
      have hbelow : (⌊r⌋₊ : ℤ) ≤ ⌈r⌉ := by
        rw [← hfloor]
        exact Int.floor_le_ceil r
      have habove : ⌈r⌉ ≤ ⌊r⌋ + 1 := Int.ceil_le_floor_add_one r
      have hne' : (⌊r⌋₊ : ℤ) ≠ ⌈r⌉ := hne
      have hfloor' : ⌊r⌋ = (⌊r⌋₊ : ℤ) := hfloor
      change ⌈r⌉ = _
      push_cast
      omega
    have hnext : ⌊r⌋₊ + 1 < values.length := by
      have hle' : ⌈r⌉ ≤ ((values.length - 1 : ℕ) : ℤ) := Int.ceil_le.mpr (by exact_mod_cast hr₁)
      have hceil' : ⌈r⌉ = ((⌊r⌋₊ + 1 : ℕ) : ℤ) := hceil
      omega
    rw [hceil, getIndex?_sortedValues hnext, hcast]
    rfl

theorem mem_percentileTable {entry : String × ℚ} (h : entry ∈ percentileTable) :
    0 ≤ entry.2 ∧ entry.2 ≤ 1 := by
  revert entry
  decide +kernel

theorem percentiles_percentileBufferOf (hvalues : values ≠ []) {maxValues : ℕ}
    (h : (percentileBufferOf maxValues values).truncated = false) :
    (percentileBufferOf maxValues values).percentiles =
      some (percentileTable.map fun entry ↦ (entry.1, some (Statistics.percentile values entry.2))) := by
  rw [PercentileBuffer.percentiles, values_of_not_truncated h,
    if_neg (by rwa [List.isEmpty_iff])]
  refine mapM_eq_some_map fun entry hentry ↦ ?_
  obtain ⟨hp, hp'⟩ := mem_percentileTable hentry
  rw [closestRanks_eq hvalues hp hp']
  rfl

end Percentiles

/-! ## All statistics -/

/-- **Streaming statistics are those of two passes.** For every nonempty sequence the mean and the
population variance are the ones computed from all values, the variance is not negative, and the least
and the largest value are held. If the buffer is not truncated, every percentile is the interpolation
between the closest ranks of the sorted values, it lies between the least and the largest, a larger
fraction has a larger percentile, and the order of the values makes no difference. -/
theorem streamingStatistics_exact {values : List ℚ} (hvalues : values ≠ []) (maxValues : ℕ) :
    (welfordOf values).mean = values.sum / values.length ∧
      (welfordOf values).variance =
        (values.map fun x ↦ (x - values.sum / values.length) ^ 2).sum / values.length ∧
      0 ≤ (welfordOf values).variance ∧
      ∃ least largest, (welfordOf values).min = some least ∧ IsLeast {x | x ∈ values} least ∧
        (welfordOf values).max = some largest ∧ IsGreatest {x | x ∈ values} largest ∧
        ((percentileBufferOf maxValues values).truncated = false →
          (percentileBufferOf maxValues values).percentiles = some (percentileTable.map fun entry ↦
            (entry.1, some (Statistics.percentile values entry.2))) ∧
          (∀ p, 0 ≤ p → least ≤ Statistics.percentile values p ∧
            Statistics.percentile values p ≤ largest) ∧
          (∀ p q, 0 ≤ p → p ≤ q →
            Statistics.percentile values p ≤ Statistics.percentile values q) ∧
          ∀ values' : List ℚ, values'.Perm values →
            (percentileBufferOf maxValues values').percentiles =
              (percentileBufferOf maxValues values).percentiles) := by
  have hw := summarizes_welfordOf values
  have hcount : (welfordOf values).count ≠ 0 := by
    rw [hw.count]
    exact List.length_pos_iff.mpr hvalues |>.ne'
  have hvariance : (welfordOf values).variance =
      (values.map fun x ↦ (x - values.sum / values.length) ^ 2).sum / values.length := by
    rw [WelfordAccumulator.variance, if_pos hcount, hw.m2, hw.count]
    rfl
  obtain ⟨hmin, hmax⟩ := hw.bounded hvalues
  obtain ⟨least, hleast⟩ := Option.isSome_iff_exists.mp hmin
  obtain ⟨largest, hlargest⟩ := Option.isSome_iff_exists.mp hmax
  refine ⟨hw.mean, hvariance, ?_, least, largest, hleast, hw.min _ hleast, hlargest,
    hw.max _ hlargest, fun htruncated ↦ ⟨percentiles_percentileBufferOf hvalues htruncated,
      fun p hp ↦ ?_, fun p q ↦ Statistics.percentile_mono values, fun values' hperm ↦ ?_⟩⟩
  · rw [hvariance]
    refine div_nonneg (List.sum_nonneg ?_) (Nat.cast_nonneg _)
    rw [List.forall_mem_map]
    exact fun x _ ↦ sq_nonneg _
  · obtain ⟨x, hx, hlower⟩ := Statistics.exists_le_percentile hvalues hp
    obtain ⟨y, hy, hupper⟩ := Statistics.exists_percentile_le hvalues p
    exact ⟨((hw.min _ hleast).2 hx).trans hlower, hupper.trans ((hw.max _ hlargest).2 hy)⟩
  · have hvalues' : values' ≠ [] := fun hnil ↦ hvalues (List.nil_perm.mp (hnil ▸ hperm))
    have htruncated' : (percentileBufferOf maxValues values').truncated = false := by
      rw [percentileBufferOf_eq] at htruncated ⊢
      rwa [hperm.length_eq]
    rw [percentiles_percentileBufferOf hvalues htruncated,
      percentiles_percentileBufferOf hvalues' htruncated']
    simp only [Statistics.percentile_congr hperm]

theorem streamingStatistics_exact_threeValues : (welfordOf [3, 1, 2]).mean = (2 : ℚ) ∧
    (welfordOf [3, 1, 2]).variance = (2 / 3 : ℚ) ∧
    ∃ reported, (percentileBufferOf 3 [3, 1, 2]).percentiles = some reported ∧
      (percentileBufferOf 3 [1, 2, 3]).percentiles = some reported ∧
      reported.lookup "p25" = some (some (3 / 2 : ℚ)) := by
  obtain ⟨hmean, hvariance, -, least, largest, -, -, -, -, hpercentiles⟩ :=
    streamingStatistics_exact (List.cons_ne_nil (3 : ℚ) [1, 2]) 3
  obtain ⟨hreported, -, -, hperm⟩ := hpercentiles rfl
  refine ⟨hmean.trans (by norm_num), hvariance.trans (by norm_num), _, hreported, ?_, ?_⟩
  · rw [hperm [1, 2, 3] (by decide), hreported]
  · decide +kernel

end Qc

end ForgeData
