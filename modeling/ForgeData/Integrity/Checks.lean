import ForgeData.Normalization.Timestamps

/-!
# Integrity issues and the order of timestamps

An integrity check reports issues; an error makes the record fail, a warning does not.
`TimestampSequenceChecker` keeps the timestamp of the record before and reports a timestamp that is
earlier or the same.
-/

namespace ForgeData

namespace Integrity

open Python

variable {R : Type}

/-- The severity of an issue. -/
inductive IntegritySeverity where
  | warning
  | error
deriving DecidableEq

/-- The codes of issues. -/
inductive IntegrityErrorCode where
  | gpsLatitudeOutOfRange
  | gpsLongitudeOutOfRange
  | gpsNegativeSpeed
  | timestampOutOfOrder
  | duplicateTimestamp
  | nonFiniteValue
  | imuAccelerationExtreme
  | imuGyroExtreme
  | forceTorqueForceExtreme
  | forceTorqueTorqueExtreme
  | emptyDataset
deriving DecidableEq

/-- An issue found in a record, or in the file as a whole. -/
structure IntegrityIssue (R : Type) where
  recordNumber : Option ℕ
  field : Option Str
  code : IntegrityErrorCode
  severity : IntegritySeverity
  message : Str
  value : Value R

/-! ## The order of timestamps -/

/-- The order of two `datetime`s; `none` where one has a time zone and the other has not, and
comparing them is a `TypeError`. -/
def compareDatetimes (a b : ZonedDatetime) : Option Ordering :=
  match a.tzinfo, b.tzinfo with
  | some x, some y => some (compare (a.instant x) (b.instant y))
  | none, none => some (compare a.wall.epochUs b.wall.epochUs)
  | _, _ => none

/-- `TimestampSequenceChecker`: the field it checks and the value of the record before. -/
structure TimestampSequenceChecker where
  fieldName : Str := Str.ofString "timestamp"
  previousValue : Option ZonedDatetime := none

/-- `check`: the issues of a record, and the checker after it. `none` is the `TypeError` of comparing
timestamps with and without a time zone. -/
def TimestampSequenceChecker.check (checker : TimestampSequenceChecker) (recordNumber : ℕ)
    (record : Record R) : Option (List (IntegrityIssue R) × TimestampSequenceChecker) :=
  let rawValue := record.get checker.fieldName
  match parseTimestamp rawValue with
  | none => some ([], checker)
  | some current =>
    let after : TimestampSequenceChecker := { checker with previousValue := some current }
    let issue (code : IntegrityErrorCode) (severity : IntegritySeverity) (what : String) :
        IntegrityIssue R :=
      { recordNumber := some recordNumber
        field := some checker.fieldName
        code
        severity
        message := Str.ofString "Timestamp '" ++ (match rawValue with | .str s => s | _ => []) ++
          Str.ofString what
        value := rawValue }
    match checker.previousValue with
    | none => some ([], after)
    | some previous =>
      match compareDatetimes current previous with
      | none => none
      | some .lt =>
        some ([issue .timestampOutOfOrder .error "' is earlier than the previous record's timestamp"],
          after)
      | some .eq =>
        some ([issue .duplicateTimestamp .warning "' duplicates the previous record's timestamp"],
          after)
      | some .gt => some ([], after)

end Integrity

end ForgeData
