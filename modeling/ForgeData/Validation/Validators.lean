import ForgeData.Integrity.Records
import ForgeData.Validation.Evaluator

/-!
# Validators and the validation service

The validators of CSV, JSON and JSONL files, and what `ValidationService.validate` makes of them. Reading
a file may raise; then there is no report.
-/

namespace ForgeData

namespace Validation

open Python

/-! ## Counting records -/

/-- What a validator keeps while it goes through a file. -/
structure Progress where
  counts : RecordCounts := {}
  accumulator : ErrorAccumulator

/-- A record has been checked, and these are its issues. -/
def Progress.record (progress : Progress) (issues : List ValidationIssue) : Progress :=
  if issues = [] then
    { progress with counts := { progress.counts with
        recordsChecked := progress.counts.recordsChecked + 1
        validRecords := progress.counts.validRecords + 1 } }
  else
    { counts := { progress.counts with
        recordsChecked := progress.counts.recordsChecked + 1
        invalidRecords := progress.counts.invalidRecords + 1 }
      accumulator := progress.accumulator.addErrors issues }

/-- The end of a validator: a file without records has an issue of its own. -/
def Progress.finish (progress : Progress) : Progress :=
  if progress.counts.recordsChecked = 0 then
    { progress with accumulator := progress.accumulator.addError {
        code := .emptyDataset
        message := Str.ofString "No records found in the uploaded file" } }
  else progress

/-- An issue with a record, or with the file, as a whole. -/
def invalidRecord (record : Option ℕ) (message : Str) : ValidationIssue :=
  { record, code := .invalidRecord, message }

section Validators

variable {R : Type} [ValueText R]

/-! ## CSV -/

/-- The issues of a row of a CSV file. -/
def rowIssues (evaluator : RecordEvaluator) (index : ℕ) (row : DictRow R) : List ValidationIssue :=
  (if row.rest ≠ [] then
    [invalidRecord (some index) (Str.ofString "Row has more columns than the header")] else []) ++
  evaluator.checkValues (some index) row.record

/-- The body of the loop of `CsvValidator.validate`. -/
def csvStep (evaluator : RecordEvaluator) (progress : Progress) (row : DictRow R) : Progress :=
  progress.record (rowIssues evaluator (progress.counts.recordsChecked + 1) row)

variable (R) in
/-- `CsvValidator.validate`. -/
def csvValidate (schema : SchemaDefinition) (bytes : List Byte) (accumulator : ErrorAccumulator) :
    Except ReadError Progress :=
  match Utf8.decode bytes with
  | none => .error .unicodeDecodeError
  | some text =>
    let evaluator : RecordEvaluator := ⟨schema, true⟩
    let reader : Option (List Str) × Gen ReadError (DictRow R) := dictReader text
    let headerFields := reader.1.getD []
    let accumulator := (accumulator.addErrors (evaluator.checkMissingRequired headerFields none)).addErrors
      (evaluator.checkUnexpected headerFields none)
    match reader.2.raised with
    | some e => .error e
    | none => .ok (reader.2.yields.foldl (csvStep evaluator) { accumulator }).finish

/-! ## JSON and JSONL -/

/-- The issues of a value that is to be a record. -/
def valueIssues (evaluator : RecordEvaluator) (index : ℕ) (message : String) (value : Value R) :
    List ValidationIssue :=
  match Integrity.asRecord? value with
  | none => [invalidRecord (some index) (Str.ofString message)]
  | some record =>
    evaluator.checkMissingRequired record.keys (some index) ++ evaluator.checkValues (some index) record ++
      evaluator.checkUnexpected record.keys (some index)

/-- `JsonValidator.validate`. -/
def jsonValidate (R : Type) [ValueText R] (schema : SchemaDefinition) (bytes : List Byte)
    (accumulator : ErrorAccumulator) : Except ReadError Progress :=
  let evaluator : RecordEvaluator := ⟨schema, false⟩
  let malformed : Progress := { accumulator := accumulator.addError (invalidRecord none
    (Str.ofString "Malformed JSON: " ++ ValueText.jsonErrorText R bytes)) }
  let validateAll (records : List (Value R)) : Progress :=
    ((Integrity.enumerate 1 records).foldl (fun (progress : Progress) p ↦
      progress.record (valueIssues evaluator p.1 "Record is not a JSON object" p.2)) { accumulator }).finish
  match Utf8.decode bytes with
  | none => .ok malformed
  | some text =>
    match (loads text.universalNewlines : Except JsonError (Value R)) with
    | .error .decodeError => .ok malformed
    | .error .tooManyDigits => .error .tooManyDigits
    | .ok (.dict fields) => .ok (validateAll [.dict fields])
    | .ok (.list records) => .ok (validateAll records)
    | .ok _ => .ok { accumulator := accumulator.addError (invalidRecord none
        (Str.ofString "Top-level JSON must be an object or an array of objects")) }

variable (R) in
/-- The loop of `JsonlValidator.validate`, over the lines from number `lineNumber` on. -/
def jsonlLines (evaluator : RecordEvaluator) : ℕ → List Str → Progress → Except ReadError Progress
  | _, [], progress => .ok progress
  | lineNumber, rawLine :: lines, progress =>
    let line := rawLine.strip
    if line = [] then jsonlLines evaluator (lineNumber + 1) lines progress
    else match (loads line : Except JsonError (Value R)) with
      | .error .tooManyDigits => .error .tooManyDigits
      | .error .decodeError =>
        jsonlLines evaluator (lineNumber + 1) lines (progress.record
          [invalidRecord (some lineNumber) (Str.ofString "Malformed JSON on this line")])
      | .ok value =>
        jsonlLines evaluator (lineNumber + 1) lines (progress.record
          (valueIssues evaluator lineNumber "Line is not a JSON object" value))

/-- `JsonlValidator.validate`. -/
def jsonlValidate (R : Type) [ValueText R] (schema : SchemaDefinition) (bytes : List Byte)
    (accumulator : ErrorAccumulator) : Except ReadError Progress :=
  match Utf8.decode bytes with
  | none => .error .unicodeDecodeError
  | some text => do
    let progress ← jsonlLines R ⟨schema, false⟩ 1 (Str.linesOf text.universalNewlines) { accumulator }
    return progress.finish

/-- `ValidatorRegistry.get(extension).validate`. -/
def validateFile (R : Type) [ValueText R] (type : FileType) (schema : SchemaDefinition)
    (bytes : List Byte) (accumulator : ErrorAccumulator) : Except ReadError Progress :=
  match type with
  | .csv => csvValidate R schema bytes accumulator
  | .json => jsonValidate R schema bytes accumulator
  | .jsonl => jsonlValidate R schema bytes accumulator

end Validators

/-! ## The service -/

/-- A schema with what it requires of the manifest: `SchemaDefinition.metadata_requirements`. -/
structure RegisteredSchema extends SchemaDefinition where
  metadataRequirements : Dict Str Str

/-- `_METADATA_KEY_TO_MANIFEST_FIELD.get(key, key)`. -/
def manifestFieldOf (key : Str) : Str :=
  if key = Str.ofString "sensor_type" then Str.ofString "source_type" else key

/-- `ValidationStatus`. -/
inductive ValidationStatus where
  | passed
  | failed
deriving DecidableEq

/-- `ValidationSummary`. -/
structure ValidationSummary where
  recordsChecked : ℕ
  validRecords : ℕ
  invalidRecords : ℕ
  errorCount : ℕ
  warningCount : ℕ

/-- `ValidationReport`, as far as it depends on the file. -/
structure ValidationReport where
  status : ValidationStatus
  summary : ValidationSummary
  errors : List ValidationIssue
  warnings : List ValidationIssue
  errorsTruncated : Bool

section Service

variable {R : Type} [ValueText R]

/-- The issue of one requirement that the manifest does not meet. -/
def metadataIssue (manifest : Record R) (key expectedValue : Str) : Option ValidationIssue :=
  let manifestField := manifestFieldOf key
  let actualValue := manifest.get manifestField
  let issue : ValidationIssue :=
    { code := .metadataRequirementNotMet
      message := Str.ofString "Expected metadata '" ++ key ++ Str.ofString "'='" ++ expectedValue ++
        Str.ofString "' but ingestion has '" ++ manifestField ++ Str.ofString "'='" ++
        textOf actualValue ++ Str.ofString "'" }
  match actualValue with
  | .none => none
  | .str actual => if actual = expectedValue then none else some issue
  | _ => some issue

/-- `_check_metadata_requirements`. -/
def checkMetadataRequirements (schema : RegisteredSchema) (manifest : Record R)
    (accumulator : ErrorAccumulator) : ErrorAccumulator :=
  schema.metadataRequirements.items.foldl (fun accumulator p ↦
    (metadataIssue manifest p.1 p.2).elim accumulator accumulator.addError) accumulator

/-- `ValidationService.validate`, from the manifest, the schema and the bytes of the file on. -/
def validate (maxValidationErrors : ℤ) (schema : RegisteredSchema) (manifest : Record R)
    (type : FileType) (bytes : List Byte) : Except ReadError ValidationReport := do
  let accumulator := checkMetadataRequirements schema manifest { maxErrors := maxValidationErrors }
  let progress ← validateFile R type schema.toSchemaDefinition bytes accumulator
  let accumulator := progress.accumulator
  return {
    status := if accumulator.errorCount > 0 then .failed else .passed
    summary := {
      recordsChecked := progress.counts.recordsChecked
      validRecords := progress.counts.validRecords
      invalidRecords := progress.counts.invalidRecords
      errorCount := accumulator.errorCount
      warningCount := accumulator.warningCount }
    errors := accumulator.errors
    warnings := accumulator.warnings
    errorsTruncated := accumulator.errorsTruncated }

end Service

end Validation

end ForgeData
