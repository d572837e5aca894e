import ForgeData.Synchronization.ClockCorrection

/-!
# The fixed-rate timeline

The period of a requested frequency, the intersection of the streams' ranges, and the points of the
uniform timeline over it. The period of an accepted frequency is positive, which its type says; this is
why the loop that generates the points ends.
-/

namespace ForgeData

namespace Synchronization

open Python

/-- The exceptions of a synchronization run. -/
inductive SynchronizationError where
  /-- `f"frequency_hz must be positive, got {frequency_hz}"`. -/
  | frequencyNotPositive (frequencyHz : ℚ)
  /-- `f"frequency_hz={frequency_hz} exceeds the configured maximum of {max_frequency_hz} Hz"`. -/
  | frequencyTooHigh (frequencyHz maxFrequencyHz : ℚ)
  /-- `f"frequency_hz={frequency_hz} is too high to represent at microsecond resolution"`. -/
  | frequencyNotRepresentable (frequencyHz : ℚ)
  /-- `ClockCorrectionError`: the drift of the stream would reverse time order. -/
  | clockCorrection (name : Str) (driftPpm scale : ℚ)
  /-- `ReferenceStreamNotFoundError`. -/
  | referenceStreamNotFound (name : Str)
  /-- `f"Stream '{name}' has no records; fixed_rate synchronization requires at least one sample per
  stream"`. -/
  | conversion (name : Str)
  /-- `ValueError`: the maximum of nothing. -/
  | valueError
  /-- `AttributeError`: a stream without a cursor is advanced. -/
  | attributeError
  /-- `TypeError`: arithmetic on something that is no number. -/
  | typeError
  /-- The `OverflowError` of a timestamp outside the calendar. -/
  | timestamp (e : Normalization.TimestampError)
deriving DecidableEq

/-- A period in microseconds. -/
abbrev Period := { p : ℤ // 0 < p }

/-- `fixed_rate_period_us`. -/
def fixedRatePeriodUs (frequencyHz maxFrequencyHz : ℚ) : Except SynchronizationError Period :=
  if frequencyHz ≤ 0 then .error (.frequencyNotPositive frequencyHz)
  else if maxFrequencyHz < frequencyHz then .error (.frequencyTooHigh frequencyHz maxFrequencyHz)
  else
    let periodUs := roundHalfEven (1000000 / frequencyHz)
    if h : periodUs ≤ 0 then .error (.frequencyNotRepresentable frequencyHz)
    else .ok ⟨periodUs, not_le.mp h⟩

/-- `intersection_interval`: the latest of the first timestamps and the earliest of the last ones. -/
def intersectionInterval (streamRanges : List (ℤ × ℤ)) : Except SynchronizationError (ℤ × ℤ) :=
  match (streamRanges.map Prod.fst).max?, (streamRanges.map Prod.snd).min? with
  | some start, some stop => .ok (start, stop)
  | _, _ => .error .valueError

/-- The loop of `fixed_rate_timeline` from `t` on, in so many turns at most. -/
def timelineFrom (stopEpochUs : ℤ) (period : Period) : ℕ → ℤ → List ℤ
  | 0, _ => []
  | turns + 1, t =>
    if t ≤ stopEpochUs then t :: timelineFrom stopEpochUs period turns (t + period.1) else []

/-- `fixed_rate_timeline`. The points are integers, so there is at most one turn for each integer of
the interval. -/
def fixedRateTimeline (startEpochUs stopEpochUs : ℤ) (period : Period) : List ℤ :=
  timelineFrom stopEpochUs period (stopEpochUs + 1 - startEpochUs).toNat startEpochUs

/-! ## The points of the timeline -/

theorem mem_timelineFrom {stop : ℤ} {period : Period} {turns : ℕ} {t u : ℤ}
    (hturns : stop + 1 - t ≤ turns) :
    u ∈ timelineFrom stop period turns t ↔ ∃ k : ℕ, u = t + k * period.1 ∧ u ≤ stop := by
  have hpos := period.2
  induction turns generalizing t with
  | zero =>
    refine iff_of_false List.not_mem_nil ?_
    rintro ⟨k, rfl, hle⟩
    have hk : 0 ≤ (k : ℤ) * period.1 := by positivity
    omega
  | succ turns ih =>
    rw [timelineFrom]
    split
    · next hle =>
      have hrest := ih (t := t + period.1) (by push_cast at hturns; omega)
      refine (List.mem_cons.trans (or_congr_right hrest)).trans ?_
      constructor
      · rintro (rfl | ⟨k, rfl, hstop⟩)
        · exact ⟨0, by simp, hle⟩
        · exact ⟨k + 1, by push_cast; ring, hstop⟩
      · rintro ⟨k, rfl, hstop⟩
        cases k with
        | zero => exact .inl (by simp)
        | succ k => exact .inr ⟨k, by push_cast; ring, hstop⟩
    · next hlt =>
      refine iff_of_false List.not_mem_nil ?_
      rintro ⟨k, rfl, hle⟩
      have hk : 0 ≤ (k : ℤ) * period.1 := by positivity
      omega

theorem pairwise_timelineFrom (stop : ℤ) (period : Period) (turns : ℕ) (t : ℤ) :
    (timelineFrom stop period turns t).Pairwise (· < ·) ∧
      ∀ u ∈ timelineFrom stop period turns t, t ≤ u := by
  have hpos := period.2
  induction turns generalizing t with
  | zero => exact ⟨List.Pairwise.nil, fun u hu ↦ absurd hu List.not_mem_nil⟩
  | succ turns ih =>
    obtain ⟨hpair, hfirst⟩ := ih (t + period.1)
    rw [timelineFrom]
    split
    · refine ⟨List.pairwise_cons.mpr ⟨fun u hu ↦ ?_, hpair⟩, fun u hu ↦ ?_⟩
      · have := hfirst u hu
        omega
      · rcases List.mem_cons.mp hu with rfl | hu
        · exact le_refl _
        · have := hfirst u hu
          omega
    · exact ⟨List.Pairwise.nil, fun u hu ↦ absurd hu List.not_mem_nil⟩

/-- **The points** are the multiples of the period from the start on, up to the end. -/
theorem mem_fixedRateTimeline {start stop : ℤ} {period : Period} {t : ℤ} :
    t ∈ fixedRateTimeline start stop period ↔ ∃ k : ℕ, t = start + k * period.1 ∧ t ≤ stop :=
  mem_timelineFrom (Int.self_le_toNat _)

theorem pairwise_fixedRateTimeline (start stop : ℤ) (period : Period) :
    (fixedRateTimeline start stop period).Pairwise (· < ·) :=
  (pairwise_timelineFrom _ _ _ _).1

theorem mem_Icc_of_mem_fixedRateTimeline {start stop : ℤ} {period : Period} {t : ℤ}
    (h : t ∈ fixedRateTimeline start stop period) : start ≤ t ∧ t ≤ stop :=
  ⟨(pairwise_timelineFrom _ _ _ _).2 t h, (mem_fixedRateTimeline.mp h).choose_spec.2⟩

/-! ## The intersection -/

/-- An interval that lies in all ranges, and everything that does. -/
theorem intersectionInterval_eq_ok {ranges : List (ℤ × ℤ)} {start stop : ℤ}
    (h : intersectionInterval ranges = .ok (start, stop)) (t : ℤ) :
    start ≤ t ∧ t ≤ stop ↔ ∀ p ∈ ranges, p.1 ≤ t ∧ t ≤ p.2 := by
  rw [intersectionInterval] at h
  split at h
  · next hstart hstop =>
    obtain ⟨rfl, rfl⟩ := Prod.mk.inj (Except.ok.inj h)
    rw [List.max?_eq_some_iff] at hstart
    rw [List.min?_eq_some_iff] at hstop
    rw [forall₂_and]
    refine and_congr ⟨fun hle p hp ↦ ?_, fun hall ↦ ?_⟩ ⟨fun hle p hp ↦ ?_, fun hall ↦ ?_⟩
    · exact (hstart.2 _ (List.mem_map_of_mem hp)).trans hle
    · obtain ⟨p, hp, hp'⟩ := List.mem_map.mp hstart.1
      exact hp' ▸ hall p hp
    · exact hle.trans (hstop.2 _ (List.mem_map_of_mem hp))
    · obtain ⟨p, hp, hp'⟩ := List.mem_map.mp hstop.1
      exact hp' ▸ hall p hp
  · exact absurd h nofun

theorem exists_intersectionInterval {ranges : List (ℤ × ℤ)} (h : ranges ≠ []) :
    ∃ start stop, intersectionInterval ranges = .ok (start, stop) := by
  obtain ⟨p, ranges, rfl⟩ := List.exists_cons_of_ne_nil h
  exact ⟨_, _, rfl⟩

end Synchronization

end ForgeData
