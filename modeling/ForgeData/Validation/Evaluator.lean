import ForgeData.Normalization.Timestamps
import ForgeData.Normalization.Transforms
import ForgeData.Python.IntText
import ForgeData.Python.Utf8

/-!
# Checking the fields of a record

`app/validation/validators/base.py`: `RecordEvaluator` checks the fields of one record against a schema,
with CSV cells or with native values, and `ErrorAccumulator` counts what has been found and keeps the first
so many issues.
-/

namespace ForgeData

namespace Validation

open Python

/-- `ValidationErrorCode`, of the issues in a file. -/
inductive ValidationErrorCode where
  | missingRequiredField
  | invalidType
  | nullNotAllowed
  | invalidTimestamp
  | unexpectedField
  | invalidRecord
  | emptyDataset
  | metadataRequirementNotMet
deriving DecidableEq

/-- `ValidationIssue`. -/
structure ValidationIssue where
  record : Option ℕ := none
  field : Option Str := none
  code : ValidationErrorCode
  message : Str
deriving DecidableEq

/-! ## Texts of values -/

/-- Floats whose values have texts, and the texts of exceptions. -/
class ValueText (R : Type) extends FloatText R where
  /-- `repr(value)`. -/
  reprValue : Value R → Str
  /-- The text of the exception that `json.load` raises on a file with these bytes. -/
  jsonErrorText : List Byte → Str

section Texts

variable {R : Type}

/-- `f"{value}"`. -/
def textOf [ValueText R] : Value R → Str
  | .str s => s
  | value => ValueText.reprValue value

/-- `type(value).__name__`. -/
def typeName : Value R → String
  | .none => "NoneType"
  | .bool _ => "bool"
  | .int _ => "int"
  | .float _ => "float"
  | .str _ => "str"
  | .list _ => "list"
  | .dict _ => "dict"

/-- `FieldType.value`. -/
def fieldTypeText : FieldType → String
  | .string => "string"
  | .integer => "integer"
  | .float => "float"
  | .boolean => "boolean"
  | .datetime => "datetime"

end Texts

/-! ## Types of values -/

section Types

variable {R : Type}

/-- `native_value_matches_type`. -/
def nativeValueMatchesType (value : Value R) : FieldType → Bool
  | .string | .datetime => match value with
    | .str _ => true
    | _ => false
  | .integer => match value with
    | .int _ => true
    | _ => false
  | .float => match value with
    | .int _ | .float _ => true
    | _ => false
  | .boolean => match value with
    | .bool _ => true
    | _ => false

variable (R) in
/-- `csv_value_matches_type`. -/
def csvValueMatchesType [FloatText R] (value : Str) : FieldType → Bool
  | .string | .datetime => true
  | .integer => value.toInt?.isSome
  | .float => (FloatText.ofStr? value : Option R).isSome
  | .boolean =>
    value.strip.lowerAscii = Str.ofString "true" ∨ value.strip.lowerAscii = Str.ofString "false"

end Types

/-! ## The evaluator -/

/-- `RecordEvaluator`. -/
structure RecordEvaluator where
  schema : SchemaDefinition
  valuesAreStrings : Bool

namespace RecordEvaluator

variable {R : Type} (evaluator : RecordEvaluator)

/-- `check_missing_required`. -/
def checkMissingRequired (presentFields : List Str) (recordIndex : Option ℕ) : List ValidationIssue :=
  evaluator.schema.fields.items.filterMap fun (fieldName, fieldDef) ↦
    if fieldDef.required && !presentFields.contains fieldName then
      some {
        record := recordIndex
        field := some fieldName
        code := .missingRequiredField
        message := Str.ofString "Required field '" ++ fieldName ++ Str.ofString "' is missing" }
    else none

/-- `check_unexpected`. -/
def checkUnexpected (presentFields : List Str) (recordIndex : Option ℕ) : List ValidationIssue :=
  if evaluator.schema.allowExtraFields then []
  else presentFields.filterMap fun fieldName ↦
    if evaluator.schema.fields.contains fieldName then none
    else some {
        record := recordIndex
        field := some fieldName
        code := .unexpectedField
        message := Str.ofString "Unexpected field '" ++ fieldName ++
          Str.ofString "' is not defined in schema" }

/-- The value counts as null. -/
def isNullValue : Value R → Bool
  | .none => true
  | .str s => evaluator.valuesAreStrings && s.isBlank
  | _ => false

/-- Whether a value that is not null is of the type. -/
def typeOk [FloatText R] (value : Value R) (type : FieldType) : Bool :=
  match evaluator.valuesAreStrings, value with
  | true, .str s => csvValueMatchesType R s type
  | _, _ => nativeValueMatchesType value type

/-- The body of the loop of `check_values`: the issue of one field that is there. -/
def checkValue [ValueText R] (recordIndex : Option ℕ) (fieldName : Str) (fieldDef : FieldDefinition)
    (value : Value R) : Option ValidationIssue :=
  let issue (code : ValidationErrorCode) (message : Str) : ValidationIssue :=
    { record := recordIndex, field := some fieldName, code, message }
  if evaluator.isNullValue value then
    if fieldDef.nullable then none
    else some (issue .nullNotAllowed
      (Str.ofString "Field '" ++ fieldName ++ Str.ofString "' is null but nullable=false"))
  else if fieldDef.type = .datetime then
    match value with
    | .str text =>
      if isValidIso8601WithTimezone text then none
      else some (issue .invalidTimestamp
        (Str.ofString "Expected ISO-8601 datetime with timezone but received '" ++ text ++
          Str.ofString "'"))
    | value =>
      some (issue .invalidType
        (Str.ofString ("Expected datetime string but received " ++ typeName value)))
  else if evaluator.typeOk value fieldDef.type then none
  else some (issue .invalidType
    (Str.ofString ("Expected " ++ fieldTypeText fieldDef.type ++ " but received '") ++ textOf value ++
      Str.ofString "'"))

/-- `check_values`. -/
def checkValues [ValueText R] (recordIndex : Option ℕ) (record : Record R) : List ValidationIssue :=
  evaluator.schema.fields.items.filterMap fun (fieldName, fieldDef) ↦
    (record.get? fieldName).bind (evaluator.checkValue recordIndex fieldName fieldDef)

end RecordEvaluator

/-! ## The accumulator -/

/-- `ErrorAccumulator`. -/
structure ErrorAccumulator where
  maxErrors : ℤ
  errors : List ValidationIssue := []
  warnings : List ValidationIssue := []
  errorCount : ℕ := 0
  warningCount : ℕ := 0
  errorsTruncated : Bool := false

namespace ErrorAccumulator

variable (accumulator : ErrorAccumulator)

/-- `add_error`. -/
def addError (issue : ValidationIssue) : ErrorAccumulator :=
  if (accumulator.errors.length : ℤ) < accumulator.maxErrors then
    { accumulator with
      errorCount := accumulator.errorCount + 1
      errors := accumulator.errors ++ [issue] }
  else
    { accumulator with
      errorCount := accumulator.errorCount + 1
      errorsTruncated := true }

/-- `add_errors`. -/
def addErrors (issues : List ValidationIssue) : ErrorAccumulator :=
  issues.foldl addError accumulator

end ErrorAccumulator

/-- `RecordCounts`. -/
structure RecordCounts where
  recordsChecked : ℕ := 0
  validRecords : ℕ := 0
  invalidRecords : ℕ := 0
deriving DecidableEq

end Validation

end ForgeData
