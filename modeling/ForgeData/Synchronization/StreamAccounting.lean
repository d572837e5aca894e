import ForgeData.Synchronization.SynchronizedRows
import Mathlib.Algebra.Order.Field.Basic
import Mathlib.Tactic.Positivity

/-!
# The accounting of a stream

The accumulator of a stream sees the results of the stream, row by row. Its counters add up to the
number of results, and the sum of the deltas is at most as many times the greatest one as there are
matches, which is why the mean is at most the maximum. For a stream that is aligned linearly every match
is exact or interpolated.
-/

namespace ForgeData

namespace Synchronization

open Python

/-- What the accumulator of a stream knows after these results. -/
structure StreamMetricsAccumulator.Accounts (acc : StreamMetricsAccumulator)
    (results : List AlignmentResult) : Prop where
  total : acc.matchedRows + acc.unmatchedRows = results.length
  sum_nonneg : 0 ≤ acc.deltaSumMs
  max_nonneg : 0 ≤ acc.deltaMaxMs
  sum_le : acc.deltaSumMs ≤ acc.matchedRows * acc.deltaMaxMs
  linear : (∀ r ∈ results, r.method = .linear) →
    acc.exactMatchCount + acc.interpolatedCount = acc.matchedRows ∧
      (acc.usedLinear = true ↔ 0 < results.length)

namespace StreamMetricsAccumulator

theorem accounts_start (sourceRecords : ℕ) :
    ({ sourceRecords } : StreamMetricsAccumulator).Accounts [] :=
  ⟨rfl, le_refl _, le_refl _, by simp, fun _ ↦ ⟨rfl, by simp⟩⟩

variable {acc : StreamMetricsAccumulator} {results : List AlignmentResult}

theorem record_of_unmatched {r : AlignmentResult} (h : r.matched = false) :
    acc.record r = { acc with
      usedLinear := acc.usedLinear || decide (r.method = .linear)
      unmatchedRows := acc.unmatchedRows + 1 } := by
  rw [record, h]
  by_cases hmethod : r.method = .linear
  · simp [hmethod]
  · simp [hmethod]

/-- A matched result. -/
theorem record_of_matched {r : AlignmentResult} (h : r.matched = true) :
    acc.record r = { acc with
      usedLinear := acc.usedLinear || decide (r.method = .linear)
      matchedRows := acc.matchedRows + 1
      deltaSumMs := acc.deltaSumMs + r.deltaMs.getD 0
      deltaMaxMs := max acc.deltaMaxMs (r.deltaMs.getD 0)
      exactMatchCount := acc.exactMatchCount +
        if r.method = .linear ∧ r.deltaMs.getD 0 = 0 then 1 else 0
      interpolatedCount := acc.interpolatedCount +
        if r.method = .linear ∧ r.deltaMs.getD 0 ≠ 0 then 1 else 0 } := by
  rw [record, h]
  by_cases hmethod : r.method = .linear
  · by_cases hdelta : r.deltaMs.getD 0 = 0
    · simp [hmethod, hdelta]
    · simp [hmethod, hdelta]
  · simp [hmethod]

/-- **One more result.** -/
theorem Accounts.record (h : acc.Accounts results) {r : AlignmentResult}
    (hdelta : ∀ d ∈ r.deltaMs, 0 ≤ d) : (acc.record r).Accounts (results ++ [r]) := by
  have hlength : (results ++ [r]).length = results.length + 1 := List.length_append
  have hall : (∀ r' ∈ results ++ [r], r'.method = .linear) →
      (∀ r' ∈ results, r'.method = .linear) ∧ r.method = .linear := by
    intro hlinear
    exact ⟨fun r' hr' ↦ hlinear r' (List.mem_append_left _ hr'),
      hlinear r (List.mem_append_right _ (List.mem_singleton_self r))⟩
  cases hmatched : r.matched with
  | false =>
    rw [record_of_unmatched hmatched]
    refine ⟨by rw [hlength, ← h.total, Nat.add_assoc], h.sum_nonneg, h.max_nonneg, h.sum_le,
      fun hlinear ↦ ?_⟩
    obtain ⟨hbefore, hmethod⟩ := hall hlinear
    exact ⟨(h.linear hbefore).1, by simp [hmethod]⟩
  | true =>
    have hnonneg : 0 ≤ r.deltaMs.getD 0 := by
      cases hd : r.deltaMs with
      | none => exact le_refl _
      | some d => exact hdelta d hd
    rw [record_of_matched hmatched]
    refine ⟨?_, add_nonneg h.sum_nonneg hnonneg, le_max_of_le_left h.max_nonneg, ?_, fun hlinear ↦ ?_⟩
    · rw [hlength, ← h.total]
      dsimp only
      omega
    · -- both the deltas so far and the new one are at most the new maximum
      have hsum : acc.deltaSumMs ≤ acc.matchedRows * max acc.deltaMaxMs (r.deltaMs.getD 0) :=
        h.sum_le.trans (mul_le_mul_of_nonneg_left (le_max_left _ _) (Nat.cast_nonneg _))
      have hnew : r.deltaMs.getD 0 ≤ max acc.deltaMaxMs (r.deltaMs.getD 0) := le_max_right _ _
      push_cast
      rw [add_one_mul]
      exact add_le_add hsum hnew
    · obtain ⟨hbefore, hmethod⟩ := hall hlinear
      obtain ⟨hcounts, -⟩ := h.linear hbefore
      refine ⟨?_, by simp [hmethod]⟩
      by_cases hzero : r.deltaMs.getD 0 = 0
      · simp only [hmethod, hzero, and_self, if_true, ne_eq, not_true, and_false, if_false]
        omega
      · simp only [hmethod, hzero, and_false, if_false, ne_eq, not_false_iff, and_self, if_true]
        omega

theorem accounts_foldl (sourceRecords : ℕ) (hdelta : ∀ r ∈ results, ∀ d ∈ r.deltaMs, 0 ≤ d) :
    (results.foldl StreamMetricsAccumulator.record { sourceRecords }).Accounts results := by
  refine foldl_invariant (I := fun pre (acc : StreamMetricsAccumulator) ↦ acc.Accounts pre) ?_ (accounts_start sourceRecords)
  intro pre r post acc hl hpre
  exact hpre.record (hdelta r (hl ▸ List.mem_append_right _ List.mem_cons_self))

end StreamMetricsAccumulator

/-- **The metrics of a stream add up.** -/
structure StreamMetrics.Accounted (metrics : StreamMetrics) (rows : ℕ) : Prop where
  total : metrics.matchedRows + metrics.unmatchedRows = rows
  coverage_nonneg : 0 ≤ metrics.coverageRatio
  coverage_le_one : metrics.coverageRatio ≤ 1
  deltas : (metrics.meanAbsDeltaMs = none ∧ metrics.maxAbsDeltaMs = none ∧ metrics.matchedRows = 0) ∨
    ∃ mean max, metrics.meanAbsDeltaMs = some mean ∧ metrics.maxAbsDeltaMs = some max ∧
      0 ≤ mean ∧ mean ≤ max

/-- Every match of a linear stream is exact or interpolated; without rows nothing is reported. -/
structure StreamMetrics.LinearlyAccounted (metrics : StreamMetrics) (rows : ℕ) : Prop where
  counts : metrics.exactMatchCount.getD 0 + metrics.interpolatedCount.getD 0 = metrics.matchedRows
  exact_isSome : metrics.exactMatchCount.isSome = true ↔ 0 < rows
  interpolated_isSome : metrics.interpolatedCount.isSome = true ↔ 0 < rows

section Finalize

variable {acc : StreamMetricsAccumulator} {results : List AlignmentResult}

theorem StreamMetricsAccumulator.Accounts.finalize (h : acc.Accounts results) :
    (acc.finalize results.length).Accounted results.length := by
  have hmatched : acc.matchedRows ≤ results.length := h.total ▸ Nat.le_add_right _ _
  refine ⟨h.total, ?_, ?_, ?_⟩
  · rw [StreamMetricsAccumulator.finalize]
    dsimp only
    split
    · exact le_refl _
    · positivity
  · rw [StreamMetricsAccumulator.finalize]
    dsimp only
    split
    · exact zero_le_one
    · exact div_le_one_of_le₀ (Nat.cast_le.mpr hmatched) (Nat.cast_nonneg _)
  · rw [StreamMetricsAccumulator.finalize]
    dsimp only
    by_cases hzero : acc.matchedRows = 0
    · exact .inl ⟨if_pos hzero, if_pos hzero, hzero⟩
    · have hpos : (0 : ℚ) < acc.matchedRows := Nat.cast_pos.mpr (Nat.pos_of_ne_zero hzero)
      refine .inr ⟨_, _, if_neg hzero, if_neg hzero, div_nonneg h.sum_nonneg hpos.le, ?_⟩
      rw [div_le_iff₀ hpos, mul_comm]
      exact h.sum_le

theorem StreamMetricsAccumulator.Accounts.finalize_linear (h : acc.Accounts results)
    (hlinear : ∀ r ∈ results, r.method = .linear) :
    (acc.finalize results.length).LinearlyAccounted results.length := by
  obtain ⟨hcounts, hused⟩ := h.linear hlinear
  rw [StreamMetricsAccumulator.finalize]
  by_cases hrows : 0 < results.length
  · rw [if_pos (hused.mpr hrows), if_pos (hused.mpr hrows)]
    exact ⟨hcounts, iff_of_true rfl hrows, iff_of_true rfl hrows⟩
  · have hmatched : acc.matchedRows = 0 := by
      have htotal := h.total
      omega
    rw [if_neg (mt hused.mp hrows), if_neg (mt hused.mp hrows)]
    exact ⟨hmatched.symm, iff_of_false nofun hrows, iff_of_false nofun hrows⟩

end Finalize

end Synchronization

end ForgeData
