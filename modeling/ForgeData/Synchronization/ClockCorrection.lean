import ForgeData.Python.Rounding
import ForgeData.Synchronization.Readers

/-!
# Clock correction

An affine transform of a stream's clock, anchored at the stream's own first timestamp and rounded to
microseconds. The offset and the drift are exact rationals. With a positive scale the transform keeps
the order of timestamps, and rounding keeps it too.
-/

namespace ForgeData

namespace Synchronization

open Python

/-- The correction of one stream; the default has no effect. -/
structure ClockCorrectionConfig where
  offsetMs : ℚ := 0
  driftPpm : ℚ := 0

/-- `1.0 + drift_ppm / 1_000_000.0`. -/
def ClockCorrectionConfig.scale (correction : ClockCorrectionConfig) : ℚ :=
  1 + correction.driftPpm / 1000000

/-- `apply_clock_correction`. -/
def applyClockCorrection (originalEpochUs anchorEpochUs : ℤ) (correction : ClockCorrectionConfig) : ℤ :=
  let offsetUs := correction.offsetMs * 1000
  let corrected := anchorEpochUs + (originalEpochUs - anchorEpochUs) * correction.scale + offsetUs
  roundHalfEven corrected

theorem applyClockCorrection_mono {correction : ClockCorrectionConfig} (h : 0 < correction.scale)
    (anchor : ℤ) {a b : ℤ} (hab : a ≤ b) :
    applyClockCorrection a anchor correction ≤ applyClockCorrection b anchor correction := by
  refine roundHalfEven_mono ?_
  have hcast : (a : ℚ) - anchor ≤ b - anchor := sub_le_sub_right (Int.cast_le.mpr hab) _
  gcongr

section

variable {R : Type}

/-- The record at another time. -/
def TypedRecord.at (record : TypedRecord R) (epochUs : ℤ) : TypedRecord R := { record with epochUs }

/-- `apply_stream_correction`: the first record gives the anchor. -/
def applyStreamCorrection (records : List (TypedRecord R)) (correction : ClockCorrectionConfig) :
    List (TypedRecord R) :=
  match records with
  | [] => []
  | first :: rest =>
    first.at (applyClockCorrection first.epochUs first.epochUs correction) ::
      rest.map fun record ↦
        record.at (applyClockCorrection record.epochUs first.epochUs correction)

/-- The timestamps of a stream do not go backward. -/
def Nondecreasing (records : List (TypedRecord R)) : Prop :=
  records.Pairwise fun r s ↦ r.epochUs ≤ s.epochUs

theorem exists_applyStreamCorrection_eq_map (records : List (TypedRecord R))
    (correction : ClockCorrectionConfig) : ∃ anchor, applyStreamCorrection records correction =
      records.map fun record ↦ record.at (applyClockCorrection record.epochUs anchor correction) := by
  cases records with
  | nil => exact ⟨0, rfl⟩
  | cons first rest => exact ⟨first.epochUs, rfl⟩

/-- **Correction keeps the order of a stream.** -/
theorem Nondecreasing.applyStreamCorrection {records : List (TypedRecord R)}
    (h : Nondecreasing records) {correction : ClockCorrectionConfig} (hscale : 0 < correction.scale) :
    Nondecreasing (applyStreamCorrection records correction) := by
  obtain ⟨anchor, heq⟩ := exists_applyStreamCorrection_eq_map records correction
  rw [heq, Nondecreasing, List.pairwise_map]
  exact h.imp fun hle ↦ applyClockCorrection_mono hscale anchor hle

theorem length_applyStreamCorrection (records : List (TypedRecord R))
    (correction : ClockCorrectionConfig) :
    (applyStreamCorrection records correction).length = records.length := by
  obtain ⟨anchor, heq⟩ := exists_applyStreamCorrection_eq_map records correction
  rw [heq, List.length_map]

end

end Synchronization

end ForgeData
