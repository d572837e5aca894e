import ForgeData.Integrity.Checks
import ForgeData.Integrity.Records
import ForgeData.Python.Float
import ForgeData.Validation.Evaluator

/-!
# Integrity checkers and the integrity service

The checkers of GPS, IMU and force/torque records have one loop: the checks of the fields, the order of the
timestamps, and the counts. A check raises on an integer that no float is near, and the order of timestamps
cannot be told if only one of two has a time zone; then there is no report.
-/

namespace ForgeData

namespace Integrity

open Python
open Validation (ValueText textOf)

/-- The exceptions of an integrity run. -/
inductive IntegrityFailure where
  /-- Reading the file raises. -/
  | read (e : ReadError)
  /-- `float(n)` of an integer that is too large. -/
  | overflowError
  /-- The comparison of timestamps with and without a time zone. -/
  | typeError
deriving DecidableEq

/-! ## The accumulator -/

section Accumulator

variable {R : Type}

/-- `IntegrityIssueAccumulator`. -/
structure IntegrityIssueAccumulator (R : Type) where
  maxIssues : ℤ
  issues : List (IntegrityIssue R) := []
  errorCount : ℕ := 0
  warningCount : ℕ := 0
  issuesTruncated : Bool := false

namespace IntegrityIssueAccumulator

variable (accumulator : IntegrityIssueAccumulator R)

/-- The counting half of `add`. -/
def count (severity : IntegritySeverity) : IntegrityIssueAccumulator R :=
  match severity with
  | .error => { accumulator with errorCount := accumulator.errorCount + 1 }
  | .warning => { accumulator with warningCount := accumulator.warningCount + 1 }

/-- `add`. -/
def add (issue : IntegrityIssue R) : IntegrityIssueAccumulator R :=
  let counted := accumulator.count issue.severity
  if (counted.issues.length : ℤ) < counted.maxIssues then
    { counted with issues := counted.issues ++ [issue] }
  else { counted with issuesTruncated := true }

/-- `add_all`. -/
def addAll (issues : List (IntegrityIssue R)) : IntegrityIssueAccumulator R :=
  issues.foldl add accumulator

end IntegrityIssueAccumulator

/-- `IntegrityRecordCounts`. -/
structure IntegrityRecordCounts where
  totalRecords : ℕ := 0
  checkedRecords : ℕ := 0
  passedRecords : ℕ := 0
  failedRecords : ℕ := 0
deriving DecidableEq

end Accumulator

/-! ## Checks of fields -/

section Numbers

variable {R : Type} [ValueText R]

/-- `check_finite`. -/
def checkFinite (recordNumber : ℕ) (fieldName : Str) (value : R) (rawValue : Value R) :
    Option (IntegrityIssue R) :=
  if FloatText.isFinite value then none
  else some {
    recordNumber := some recordNumber
    field := some fieldName
    code := .nonFiniteValue
    severity := .error
    message := Str.ofString "Field '" ++ fieldName ++ Str.ofString "' is not a finite number (got " ++
      ValueText.reprValue rawValue ++ Str.ofString ")"
    value := .str (textOf rawValue) }

/-- The check of a field that is a number: it is to be finite, and then come the checks of its own.
`none` is `OverflowError`. -/
def checkNumber (recordNumber : ℕ) (fieldName : Str) (rawValue : Value R)
    (check : R → List (IntegrityIssue R)) : Option (List (IntegrityIssue R)) :=
  (toFloat rawValue).map fun value ↦
    value.elim [] fun value ↦
      (checkFinite recordNumber fieldName value rawValue).elim (check value) ([·])

end Numbers

/-- The issues of the fields of a record. -/
abbrev FieldChecks (R : Type) := ℕ → Record R → Option (List (IntegrityIssue R))

/-- One check after the other. -/
def FieldChecks.all {R : Type} (checks : List (FieldChecks R)) : FieldChecks R :=
  fun recordNumber record ↦
    (checks.mapM fun (check : FieldChecks R) ↦ check recordNumber record).map List.flatten

section Checkers

variable {R : Type} [ValueText R] [PyFloat R]

/-! ### GPS -/

/-- `GpsLimits`. -/
structure GpsLimits (R : Type) [PyFloat R] where
  latitudeMin : R := PyFloat.ofInt (-90)
  latitudeMax : R := PyFloat.ofInt 90
  longitudeMin : R := PyFloat.ofInt (-180)
  longitudeMax : R := PyFloat.ofInt 180

/-- The body that `_check_latitude` and `_check_longitude` have in common. -/
def checkRange (field label : String) (code : IntegrityErrorCode) (lower upper : R) : FieldChecks R :=
  fun recordNumber record ↦
    checkNumber recordNumber (Str.ofString field) (record.get (Str.ofString field)) fun value ↦
      if lower ≤ value ∧ value ≤ upper then []
      else [{
        recordNumber := some recordNumber
        field := some (Str.ofString field)
        code
        severity := .error
        message := Str.ofString (label ++ " ") ++ FloatText.repr value ++
          Str.ofString " is outside the valid range [" ++ FloatText.repr lower ++ Str.ofString ", " ++
          FloatText.repr upper ++ Str.ofString "]"
        value := .float value }]

/-- `_check_latitude`. -/
def checkLatitude (limits : GpsLimits R) : FieldChecks R :=
  checkRange "latitude" "Latitude" .gpsLatitudeOutOfRange limits.latitudeMin limits.latitudeMax

/-- `_check_longitude`. -/
def checkLongitude (limits : GpsLimits R) : FieldChecks R :=
  checkRange "longitude" "Longitude" .gpsLongitudeOutOfRange limits.longitudeMin limits.longitudeMax

/-- The body that `_check_speed` and `_check_altitude` have in common: a field that may be absent. -/
def checkOptional (field : String) (check : ℕ → R → List (IntegrityIssue R)) : FieldChecks R :=
  fun recordNumber record ↦
    if record.contains (Str.ofString field) then
      checkNumber recordNumber (Str.ofString field) (record.get (Str.ofString field)) (check recordNumber)
    else some []

/-- `_check_speed`. -/
def checkSpeed : FieldChecks R :=
  checkOptional "speed" fun recordNumber speed ↦
    if PyFloat.ofInt 0 ≤ speed then []
    else [{
      recordNumber := some recordNumber
      field := some (Str.ofString "speed")
      code := .gpsNegativeSpeed
      severity := .error
      message := Str.ofString "Speed " ++ FloatText.repr speed ++ Str.ofString " is negative"
      value := .float speed }]

/-- `_check_altitude`. -/
def checkAltitude : FieldChecks R := checkOptional "altitude" fun _ _ ↦ []

/-- The checks of `GpsIntegrityChecker`. -/
def gpsChecks (limits : GpsLimits R) : FieldChecks R :=
  .all [checkLatitude limits, checkLongitude limits, checkSpeed, checkAltitude]

/-! ### IMU and force/torque -/

/-- `_check_axis`, of both checkers: they differ in the adjective of the threshold, and one of them may
have no limit. -/
def checkAxis (threshold label : String) (code : IntegrityErrorCode) (limit : Option R) (field : String) :
    FieldChecks R :=
  fun recordNumber record ↦
    checkNumber recordNumber (Str.ofString field) (record.get (Str.ofString field)) fun value ↦
      limit.elim [] fun limit ↦
        if PyFloat.abs value ≤ limit then []
        else [{
          recordNumber := some recordNumber
          field := some (Str.ofString field)
          code
          severity := .warning
          message := Str.ofString (label ++ " field '" ++ field ++ "' has magnitude ") ++
            FloatText.repr (PyFloat.abs value) ++ Str.ofString (" exceeding the " ++ threshold ++ " ") ++
            FloatText.repr limit
          value := .float value }]

/-- `ImuThresholds`. -/
structure ImuThresholds (R : Type) [PyFloat R] where
  maxAbsAccelerationMps2 : R := PyFloat.ofInt 200
  maxAbsGyroRadS : R := PyFloat.ofInt 50

/-- The checks of `ImuIntegrityChecker`. -/
def imuChecks (thresholds : ImuThresholds R) : FieldChecks R :=
  .all (["accel_x", "accel_y", "accel_z"].map (checkAxis "plausibility threshold" "Acceleration"
      .imuAccelerationExtreme (some thresholds.maxAbsAccelerationMps2)) ++
    ["gyro_x", "gyro_y", "gyro_z"].map (checkAxis "plausibility threshold" "Gyro"
      .imuGyroExtreme (some thresholds.maxAbsGyroRadS)))

/-- `ForceTorqueThresholds`. -/
structure ForceTorqueThresholds (R : Type) where
  maxAbsForceN : Option R := none
  maxAbsTorqueNm : Option R := none

/-- The checks of `ForceTorqueIntegrityChecker`. -/
def forceTorqueChecks (thresholds : ForceTorqueThresholds R) : FieldChecks R :=
  .all (["force_x", "force_y", "force_z"].map (checkAxis "configured plausibility threshold" "Force"
      .forceTorqueForceExtreme thresholds.maxAbsForceN) ++
    ["torque_x", "torque_y", "torque_z"].map (checkAxis "configured plausibility threshold" "Torque"
      .forceTorqueTorqueExtreme thresholds.maxAbsTorqueNm))

end Checkers

/-! ## The loop -/

section Stream

variable {R : Type}

/-- What `check_stream` keeps from record to record. -/
structure StreamState (R : Type) where
  counts : IntegrityRecordCounts := {}
  accumulator : IntegrityIssueAccumulator R
  timestampChecker : TimestampSequenceChecker := {}

/-- The issues of a record, and the checker of timestamps after it. -/
def recordIssues (checks : FieldChecks R) (timestampChecker : TimestampSequenceChecker)
    (p : ℕ × Record R) : Except IntegrityFailure (List (IntegrityIssue R) × TimestampSequenceChecker) :=
  match checks p.1 p.2 with
  | none => .error .overflowError
  | some issues =>
    match timestampChecker.check p.1 p.2 with
    | none => .error .typeError
    | some (timestampIssues, timestampChecker) => .ok (issues ++ timestampIssues, timestampChecker)

/-- A record that has been checked, with its issues. -/
def StreamState.record (state : StreamState R) (issues : List (IntegrityIssue R))
    (timestampChecker : TimestampSequenceChecker) : StreamState R where
  counts :=
    let counted := { state.counts with
      totalRecords := state.counts.totalRecords + 1
      checkedRecords := state.counts.checkedRecords + 1 }
    if issues.any (·.severity = .error) then
      { counted with failedRecords := counted.failedRecords + 1 }
    else { counted with passedRecords := counted.passedRecords + 1 }
  accumulator := state.accumulator.addAll issues
  timestampChecker

/-- The body of the loop of `check_stream`. -/
def streamStep (checks : FieldChecks R) (state : StreamState R) (p : ℕ × Record R) :
    Except IntegrityFailure (StreamState R) := do
  let (issues, timestampChecker) ← recordIssues checks state.timestampChecker p
  return state.record issues timestampChecker

/-- `check_stream`. -/
def checkStream (checks : FieldChecks R) (records : Gen ReadError (ℕ × Record R))
    (accumulator : IntegrityIssueAccumulator R) : Except IntegrityFailure (StreamState R) := do
  let state ← records.yields.foldlM (streamStep checks) { accumulator }
  match records.raised with
  | some e => .error (.read e)
  | none => return state

/-! ## The service -/

/-- `IntegrityStatus`. -/
inductive IntegrityStatus where
  | passed
  | passedWithWarnings
  | failed
deriving DecidableEq

/-- `IntegrityReport`, as far as it depends on the file. -/
structure IntegrityReport (R : Type) where
  status : IntegrityStatus
  counts : IntegrityRecordCounts
  warningCount : ℕ
  errorCount : ℕ
  issues : List (IntegrityIssue R)
  issuesTruncated : Bool

/-- The issue of a file without records. -/
def emptyDataset : IntegrityIssue R where
  recordNumber := none
  field := none
  code := .emptyDataset
  severity := .error
  message := Str.ofString "No records found in the raw file"
  value := .none

/-- `IntegrityService.run`, from the checker of the schema and the bytes of the file on. -/
def run [FloatText R] (maxIntegrityIssues : ℤ) (checks : FieldChecks R) (type : FileType) (bytes : List Byte) :
    Except IntegrityFailure (IntegrityReport R) := do
  let state ← checkStream checks (iterRecords type bytes) { maxIssues := maxIntegrityIssues }
  let accumulator :=
    if state.counts.totalRecords = 0 then state.accumulator.add emptyDataset else state.accumulator
  return {
    status :=
      if accumulator.errorCount > 0 then .failed
      else if accumulator.warningCount > 0 then .passedWithWarnings
      else .passed
    counts := state.counts
    warningCount := accumulator.warningCount
    errorCount := accumulator.errorCount
    issues := accumulator.issues
    issuesTruncated := accumulator.issuesTruncated }

end Stream

end Integrity

end ForgeData
