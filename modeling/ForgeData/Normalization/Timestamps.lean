import ForgeData.Python.IsoFormat
import ForgeData.Python.Value

/-!
# Timestamps from validation to synchronization

A timestamp is read four times on its way: validation accepts it, integrity parses it to compare it
with the one before, normalization rewrites it in UTC, and synchronization takes the rewritten text
as integer microseconds since the epoch and writes such microseconds out again. The functions of
the four stages are here as each stage has them.
-/

namespace ForgeData

open Python

/-! ## Validation and integrity -/

namespace Validation

/-- `is_valid_iso8601_with_timezone`. -/
def isValidIso8601WithTimezone (value : Str) : Bool :=
  match fromisoformat value with
  | some parsed => parsed.tzinfo.isSome
  | none => false

end Validation

namespace Integrity

variable {R : Type}

/-- `parse_timestamp`: `none` if absent or unparsable. -/
def parseTimestamp : Value R → Option ZonedDatetime
  | .str value => fromisoformat value
  | _ => none

end Integrity

/-! ## Normalization -/

namespace Normalization

/-- The exceptions of the functions on timestamps. -/
inductive TimestampError where
  /-- `ValueError`: the text is not a timestamp, or it has no time zone. -/
  | valueError
  /-- `OverflowError`: in UTC the instant is before year 1 or after year 9999. -/
  | overflowError
  /-- `InvalidTimestampError`, of the synchronization reader. -/
  | invalidTimestamp
deriving DecidableEq

/-- The canonical text of a UTC `datetime`; the fraction is there only if it is not zero. -/
def canonicalText (asUtc : Datetime) : Str :=
  if asUtc.microsecond ≠ 0 then
    strftime "%Y-%m-%dT%H:%M:%S.%f".toList asUtc ++ Str.ofString "Z"
  else strftime "%Y-%m-%dT%H:%M:%S".toList asUtc ++ Str.ofString "Z"

/-- `normalize_timestamp`. -/
def normalizeTimestamp (rawValue : Str) : Except TimestampError Str :=
  match fromisoformat rawValue with
  | none => .error .valueError
  | some parsed =>
    match parsed.tzinfo with
    | none => .error .valueError
    | some offset =>
      match Datetime.ofEpochUs? (parsed.instant offset) with
      | none => .error .overflowError
      | some asUtc => .ok (canonicalText asUtc)

end Normalization

/-! ## Synchronization -/

namespace Synchronization

open Normalization (TimestampError canonicalText)

variable {R : Type}

/-- The microseconds of a `timedelta` between two `datetime`s, from its days, seconds and
microseconds. -/
def deltaUs (delta : ℤ) : ℤ :=
  let days := delta / dayUs
  let seconds := delta % dayUs / 1000000
  let microseconds := delta % dayUs % 1000000
  days * 86400000000 + seconds * 1000000 + microseconds

/-- `parse_canonical_timestamp_us`. -/
def parseCanonicalTimestampUs : Value R → Except TimestampError ℤ
  | .str value =>
    match fromisoformat value with
    | none => .error .invalidTimestamp
    | some parsed =>
      match parsed.tzinfo with
      | none => .error .invalidTimestamp
      | some offset =>
        match Datetime.ofEpochUs? (parsed.instant offset) with
        | none => .error .overflowError
        | some asUtc => .ok (deltaUs asUtc.epochUs)
  | _ => .error .invalidTimestamp

/-- `format_epoch_us`. -/
def formatEpochUs (epochUs : ℤ) : Except TimestampError Str :=
  match Datetime.ofEpochUs? epochUs with
  | none => .error .overflowError
  | some dt => .ok (canonicalText dt)

theorem deltaUs_eq (delta : ℤ) : deltaUs delta = delta := by
  simp only [deltaUs, dayUs]
  omega

end Synchronization

end ForgeData
