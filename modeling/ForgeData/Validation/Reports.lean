import ForgeData.Validation.Validators

/-!
# Reports are exact

A validator goes through a file record by record, counts and keeps only so many issues. What it reports is
nevertheless a function of all the issues of the file: here they are collected in a list first, and the
report is read off that list.
-/

namespace ForgeData

namespace Validation

open Python

/-! ## Accumulated issues -/

/-- The accumulator that has seen exactly these issues. -/
def collected (maxErrors : ℤ) (issues : List ValidationIssue) : ErrorAccumulator where
  maxErrors := maxErrors
  errors := issues.take maxErrors.toNat
  errorCount := issues.length
  errorsTruncated := maxErrors.toNat < issues.length

theorem addError_collected (maxErrors : ℤ) (issues : List ValidationIssue) (issue : ValidationIssue) :
    (collected maxErrors issues).addError issue = collected maxErrors (issues ++ [issue]) := by
  have hlength : (collected maxErrors issues).errors.length = min maxErrors.toNat issues.length :=
    List.length_take
  have hroom : ((collected maxErrors issues).errors.length : ℤ) < (collected maxErrors issues).maxErrors ↔
      issues.length < maxErrors.toNat := by
    rw [hlength]
    change ((min maxErrors.toNat issues.length : ℕ) : ℤ) < maxErrors ↔ _
    omega
  have hlonger : (issues ++ [issue]).length = issues.length + 1 := by
    rw [List.length_append, List.length_singleton]
  rw [ErrorAccumulator.addError]
  by_cases hlt : issues.length < maxErrors.toNat
  · -- everything has been kept so far
    rw [if_pos (hroom.mpr hlt), collected, collected, List.take_of_length_le hlt.le,
      List.take_of_length_le (hlonger.le.trans hlt), hlonger, decide_eq_false hlt.not_gt,
      decide_eq_false (Nat.not_lt.mpr hlt)]
  · rw [if_neg (mt hroom.mp hlt), collected, collected, List.take_append_of_le_length (not_lt.mp hlt),
      hlonger, decide_eq_true (Nat.lt_succ_of_le (not_lt.mp hlt))]

theorem addErrors_collected (maxErrors : ℤ) (before issues : List ValidationIssue) :
    (collected maxErrors before).addErrors issues = collected maxErrors (before ++ issues) := by
  rw [ErrorAccumulator.addErrors]
  induction issues generalizing before with
  | nil => rw [List.foldl_nil, List.append_nil]
  | cons issue issues ih =>
    rw [List.foldl_cons, addError_collected, ih, List.append_assoc, List.singleton_append]

/-! ## Progress -/

/-- How far a validator is that has found these issues before the records, and these in each record. -/
def progressOf (maxErrors : ℤ) (before : List ValidationIssue) (records : List (List ValidationIssue)) :
    Progress where
  counts :=
    { recordsChecked := records.length
      validRecords := records.countP (· = [])
      invalidRecords := records.countP (· ≠ []) }
  accumulator := collected maxErrors (before ++ records.flatten)

theorem record_progressOf (maxErrors : ℤ) (before : List ValidationIssue)
    (records : List (List ValidationIssue)) (issues : List ValidationIssue) :
    (progressOf maxErrors before records).record issues =
      progressOf maxErrors before (records ++ [issues]) := by
  have haccumulator : collected maxErrors (before ++ (records ++ [issues]).flatten) =
      (collected maxErrors (before ++ records.flatten)).addErrors issues := by
    rw [addErrors_collected, List.flatten_append, List.flatten_singleton, List.append_assoc]
  rw [Progress.record]
  split
  · next hnil =>
    rw [hnil] at haccumulator ⊢
    rw [progressOf, progressOf, haccumulator]
    simp [List.countP_append, ErrorAccumulator.addErrors]
  · next hne =>
    rw [progressOf, progressOf, haccumulator]
    simp [List.countP_append, hne]

theorem foldl_record_progressOf {α : Type} (f : α → List ValidationIssue) (maxErrors : ℤ)
    (before : List ValidationIssue) (l : List α) (records : List (List ValidationIssue)) :
    l.foldl (fun progress a ↦ progress.record (f a)) (progressOf maxErrors before records) =
      progressOf maxErrors before (records ++ l.map f) := by
  induction l generalizing records with
  | nil => rw [List.foldl_nil, List.map_nil, List.append_nil]
  | cons a l ih =>
    rw [List.foldl_cons, record_progressOf, ih, List.map_cons, List.append_assoc, List.singleton_append]

/-! ## All issues of a file -/

/-- All issues of a file: those found before its records, those of each record, and those found after
them. -/
structure Findings where
  before : List ValidationIssue
  records : List (List ValidationIssue)
  after : List ValidationIssue

namespace Findings

/-- The issues in the order in which they are found. -/
def all (findings : Findings) : List ValidationIssue :=
  findings.before ++ findings.records.flatten ++ findings.after

/-- The issue of a file without records. -/
def emptyDataset : ValidationIssue where
  code := .emptyDataset
  message := Str.ofString "No records found in the uploaded file"

/-- The findings of a file that has been gone through to its end. -/
def ofRecords (before : List ValidationIssue) (records : List (List ValidationIssue)) : Findings :=
  ⟨before, records, if records = [] then [emptyDataset] else []⟩

/-- The findings of a file that is not gone through. -/
def ofIssue (issue : ValidationIssue) : Findings := ⟨[issue], [], []⟩

/-- How far a validator is at the end that has found this much, and the given issues before the file. -/
def progress (findings : Findings) (maxErrors : ℤ) (earlier : List ValidationIssue) : Progress where
  counts :=
    { recordsChecked := findings.records.length
      validRecords := findings.records.countP (· = [])
      invalidRecords := findings.records.countP (· ≠ []) }
  accumulator := collected maxErrors (earlier ++ findings.all)

theorem finish_progressOf (maxErrors : ℤ) (earlier before : List ValidationIssue)
    (records : List (List ValidationIssue)) :
    (progressOf maxErrors (earlier ++ before) records).finish =
      (ofRecords before records).progress maxErrors earlier := by
  rw [Progress.finish, progress, all, ofRecords]
  by_cases hnil : records = []
  · subst hnil
    rw [if_pos (by rfl), if_pos rfl, progressOf, addError_collected]
    simp [emptyDataset]
  · rw [if_neg (by simpa [progressOf] using hnil), if_neg hnil, progressOf]
    simp

end Findings

section Files

variable {R : Type} [ValueText R]

variable (R) in
/-- The findings of a CSV file. -/
def csvFindings (schema : SchemaDefinition) (bytes : List Byte) : Except ReadError Findings :=
  match Utf8.decode bytes with
  | none => .error .unicodeDecodeError
  | some text =>
    let evaluator : RecordEvaluator := ⟨schema, true⟩
    let reader : Option (List Str) × Gen ReadError (DictRow R) := dictReader text
    match reader.2.raised with
    | some e => .error e
    | none => .ok (.ofRecords (evaluator.checkMissingRequired (reader.1.getD []) none ++
        evaluator.checkUnexpected (reader.1.getD []) none)
        ((Integrity.enumerate 1 reader.2.yields).map fun p ↦ rowIssues evaluator p.1 p.2))

variable (R) in
/-- The findings of a JSON file. -/
def jsonFindings (schema : SchemaDefinition) (bytes : List Byte) : Except ReadError Findings :=
  let malformed : Findings := .ofIssue (invalidRecord none
    (Str.ofString "Malformed JSON: " ++ ValueText.jsonErrorText R bytes))
  let ofValues (records : List (Value R)) : Findings :=
    .ofRecords [] ((Integrity.enumerate 1 records).map fun p ↦
      valueIssues ⟨schema, false⟩ p.1 "Record is not a JSON object" p.2)
  match Utf8.decode bytes with
  | none => .ok malformed
  | some text =>
    match (loads text.universalNewlines : Except JsonError (Value R)) with
    | .error .decodeError => .ok malformed
    | .error .tooManyDigits => .error .tooManyDigits
    | .ok (.dict fields) => .ok (ofValues [.dict fields])
    | .ok (.list records) => .ok (ofValues records)
    | .ok _ => .ok (.ofIssue (invalidRecord none
        (Str.ofString "Top-level JSON must be an object or an array of objects")))

variable (R) in
/-- The issues of each line that is not blank. -/
def lineFindings (evaluator : RecordEvaluator) :
    ℕ → List Str → Except ReadError (List (List ValidationIssue))
  | _, [] => .ok []
  | lineNumber, rawLine :: lines =>
    if rawLine.strip = [] then lineFindings evaluator (lineNumber + 1) lines
    else match (loads rawLine.strip : Except JsonError (Value R)) with
      | .error .tooManyDigits => .error .tooManyDigits
      | .error .decodeError => do
        return [invalidRecord (some lineNumber) (Str.ofString "Malformed JSON on this line")] ::
          (← lineFindings evaluator (lineNumber + 1) lines)
      | .ok value => do
        return valueIssues evaluator lineNumber "Line is not a JSON object" value ::
          (← lineFindings evaluator (lineNumber + 1) lines)

variable (R) in
/-- The findings of a JSONL file. -/
def jsonlFindings (schema : SchemaDefinition) (bytes : List Byte) : Except ReadError Findings :=
  match Utf8.decode bytes with
  | none => .error .unicodeDecodeError
  | some text =>
    (lineFindings R ⟨schema, false⟩ 1 (Str.linesOf text.universalNewlines)).map (.ofRecords [])

variable (R) in
/-- The findings of a file. -/
def fileFindings (type : FileType) (schema : SchemaDefinition) (bytes : List Byte) :
    Except ReadError Findings :=
  match type with
  | .csv => csvFindings R schema bytes
  | .json => jsonFindings R schema bytes
  | .jsonl => jsonlFindings R schema bytes

/-! ## The validators find all issues -/

theorem foldl_csvStep (evaluator : RecordEvaluator) (maxErrors : ℤ) (before : List ValidationIssue)
    (rows : List (DictRow R)) (records : List (List ValidationIssue)) :
    rows.foldl (csvStep evaluator) (progressOf maxErrors before records) =
      progressOf maxErrors before (records ++
        (Integrity.enumerate (records.length + 1) rows).map fun p ↦ rowIssues evaluator p.1 p.2) := by
  induction rows generalizing records with
  | nil =>
    rw [Integrity.enumerate, List.map_nil, List.append_nil]
    rfl
  | cons row rows ih =>
    have hcount : (progressOf maxErrors before records).counts.recordsChecked = records.length := rfl
    rw [List.foldl_cons, csvStep, record_progressOf, hcount, ih, List.length_append, List.length_singleton,
      Integrity.enumerate, List.map_cons, List.append_assoc, List.singleton_append]

theorem start_eq_progressOf (maxErrors : ℤ) (before : List ValidationIssue) :
    ({ accumulator := collected maxErrors before } : Progress) = progressOf maxErrors before [] := by
  rw [progressOf, List.flatten_nil, List.append_nil]
  rfl

theorem csvValidate_eq (maxErrors : ℤ) (earlier : List ValidationIssue) (schema : SchemaDefinition)
    (bytes : List Byte) :
    csvValidate R schema bytes (collected maxErrors earlier) =
      (csvFindings R schema bytes).map fun findings ↦ findings.progress maxErrors earlier := by
  rw [csvValidate, csvFindings]
  rcases Utf8.decode bytes with _ | text
  · rfl
  dsimp only
  rcases (dictReader text : Option (List Str) × Gen ReadError (DictRow R)).2.raised with _ | e
  · dsimp only
    rw [addErrors_collected, addErrors_collected, List.append_assoc, start_eq_progressOf, foldl_csvStep,
      Findings.finish_progressOf]
    rfl
  · rfl

theorem addError_collected_progress (maxErrors : ℤ) (earlier : List ValidationIssue)
    (issue : ValidationIssue) :
    ({ accumulator := (collected maxErrors earlier).addError issue } : Progress) =
      (Findings.ofIssue issue).progress maxErrors earlier := by
  rw [addError_collected]
  simp [Findings.progress, Findings.ofIssue, Findings.all]

theorem jsonValidate_eq (maxErrors : ℤ) (earlier : List ValidationIssue) (schema : SchemaDefinition)
    (bytes : List Byte) :
    jsonValidate R schema bytes (collected maxErrors earlier) =
      (jsonFindings R schema bytes).map fun findings ↦ findings.progress maxErrors earlier := by
  have hall (records : List (Value R)) :
      ((Integrity.enumerate 1 records).foldl (fun (progress : Progress) p ↦
        progress.record (valueIssues ⟨schema, false⟩ p.1 "Record is not a JSON object" p.2))
        { accumulator := collected maxErrors earlier }).finish =
      (Findings.ofRecords [] ((Integrity.enumerate 1 records).map fun p ↦
        valueIssues ⟨schema, false⟩ p.1 "Record is not a JSON object" p.2)).progress maxErrors earlier := by
    rw [start_eq_progressOf, foldl_record_progressOf, List.nil_append, ← Findings.finish_progressOf,
      List.append_nil]
  rw [jsonValidate, jsonFindings]
  dsimp only
  rcases Utf8.decode bytes with _ | text
  · exact congrArg Except.ok (addError_collected_progress ..)
  dsimp only
  rcases (loads text.universalNewlines : Except JsonError (Value R)) with (_ | _) | payload
  · exact congrArg Except.ok (addError_collected_progress ..)
  · rfl
  · cases payload with
    | dict fields => exact congrArg Except.ok (hall _)
    | list records => exact congrArg Except.ok (hall _)
    | _ => exact congrArg Except.ok (addError_collected_progress ..)

theorem jsonlLines_eq (evaluator : RecordEvaluator) (maxErrors : ℤ) (before : List ValidationIssue)
    (lineNumber : ℕ) (lines : List Str) (records : List (List ValidationIssue)) :
    jsonlLines R evaluator lineNumber lines (progressOf maxErrors before records) =
      (lineFindings R evaluator lineNumber lines).map fun rest ↦
        progressOf maxErrors before (records ++ rest) := by
  induction lines generalizing lineNumber records with
  | nil =>
    rw [jsonlLines, lineFindings]
    exact congrArg (fun l ↦ Except.ok (progressOf maxErrors before l)) (List.append_nil records).symm
  | cons rawLine lines ih =>
    have hmap (issues : List ValidationIssue) :
        (lineFindings R evaluator (lineNumber + 1) lines).map
          (fun rest ↦ progressOf maxErrors before (records ++ [issues] ++ rest)) =
        ((do return issues :: (← lineFindings R evaluator (lineNumber + 1) lines)) :
          Except ReadError (List (List ValidationIssue))).map fun rest ↦
            progressOf maxErrors before (records ++ rest) := by
      rcases lineFindings R evaluator (lineNumber + 1) lines with e | rest
      · rfl
      · exact congrArg (fun l ↦ Except.ok (progressOf maxErrors before l)) (List.append_assoc ..)
    rw [jsonlLines, lineFindings]
    split
    · exact ih ..
    · rcases (loads rawLine.strip : Except JsonError (Value R)) with (_ | _) | value
      · dsimp only
        rw [record_progressOf, ih, hmap]
      · rfl
      · dsimp only
        rw [record_progressOf, ih, hmap]

theorem jsonlValidate_eq (maxErrors : ℤ) (earlier : List ValidationIssue) (schema : SchemaDefinition)
    (bytes : List Byte) :
    jsonlValidate R schema bytes (collected maxErrors earlier) =
      (jsonlFindings R schema bytes).map fun findings ↦ findings.progress maxErrors earlier := by
  rw [jsonlValidate, jsonlFindings]
  rcases Utf8.decode bytes with _ | text
  · rfl
  · dsimp only
    rw [start_eq_progressOf, jsonlLines_eq]
    rcases lineFindings R ⟨schema, false⟩ 1 (Str.linesOf text.universalNewlines) with e | records
    · rfl
    · refine congrArg Except.ok ?_
      dsimp only
      rw [List.nil_append, ← Findings.finish_progressOf, List.append_nil]

/-- **A validator finds all issues of a file**, and counts its records. -/
theorem validateFile_eq (maxErrors : ℤ) (earlier : List ValidationIssue) (type : FileType)
    (schema : SchemaDefinition) (bytes : List Byte) :
    validateFile R type schema bytes (collected maxErrors earlier) =
      (fileFindings R type schema bytes).map fun findings ↦ findings.progress maxErrors earlier := by
  cases type with
  | csv => exact csvValidate_eq ..
  | json => exact jsonValidate_eq ..
  | jsonl => exact jsonlValidate_eq ..

/-! ## The report -/

/-- The requirements that the manifest does not meet. -/
def metadataIssues (schema : RegisteredSchema) (manifest : Record R) : List ValidationIssue :=
  schema.metadataRequirements.items.filterMap fun p ↦ metadataIssue manifest p.1 p.2

theorem checkMetadataRequirements_eq (maxErrors : ℤ) (schema : RegisteredSchema) (manifest : Record R) :
    checkMetadataRequirements schema manifest { maxErrors } =
      collected maxErrors (metadataIssues schema manifest) := by
  have hstart : ({ maxErrors } : ErrorAccumulator) = collected maxErrors [] := by
    rw [collected, List.take_nil]
    rfl
  rw [checkMetadataRequirements, hstart, metadataIssues]
  suffices h : ∀ (l : List (Str × Str)) (before : List ValidationIssue),
      l.foldl (fun accumulator p ↦ (metadataIssue manifest p.1 p.2).elim accumulator accumulator.addError)
        (collected maxErrors before) =
      collected maxErrors (before ++ l.filterMap fun p ↦ metadataIssue manifest p.1 p.2) from h _ []
  intro l
  induction l with
  | nil =>
    intro before
    rw [List.filterMap_nil, List.append_nil, List.foldl_nil]
  | cons p l ih =>
    intro before
    rw [List.foldl_cons, List.filterMap_cons]
    rcases metadataIssue manifest p.1 p.2 with _ | issue
    · exact ih before
    · rw [Option.elim_some, addError_collected, ih, List.append_assoc, List.singleton_append]

/-- The report about these issues. -/
def reportOf (maxErrors : ℤ) (metadata : List ValidationIssue) (findings : Findings) :
    ValidationReport where
  status := if metadata ++ findings.all = [] then .passed else .failed
  summary :=
    { recordsChecked := findings.records.length
      validRecords := findings.records.countP (· = [])
      invalidRecords := findings.records.countP (· ≠ [])
      errorCount := (metadata ++ findings.all).length
      warningCount := 0 }
  errors := (metadata ++ findings.all).take maxErrors.toNat
  warnings := []
  errorsTruncated := maxErrors.toNat < (metadata ++ findings.all).length

theorem validate_of_fileFindings {maxErrors : ℤ} {schema : RegisteredSchema} {manifest : Record R}
    {type : FileType} {bytes : List Byte} {findings : Findings}
    (h : fileFindings R type schema.toSchemaDefinition bytes = .ok findings) :
    validate maxErrors schema manifest type bytes =
      .ok (reportOf maxErrors (metadataIssues schema manifest) findings) := by
  rw [validate, checkMetadataRequirements_eq, validateFile_eq, h]
  refine congrArg Except.ok ?_
  have hpos : (metadataIssues schema manifest ++ findings.all).length > 0 ↔
      ¬metadataIssues schema manifest ++ findings.all = [] := List.length_pos_iff
  rw [reportOf]
  simp only [Findings.progress, collected, hpos, ite_not]

theorem validate_of_error {maxErrors : ℤ} {schema : RegisteredSchema} {manifest : Record R}
    {type : FileType} {bytes : List Byte} {e : ReadError}
    (h : fileFindings R type schema.toSchemaDefinition bytes = .error e) :
    validate maxErrors schema manifest type bytes = .error e := by
  rw [validate, checkMetadataRequirements_eq, validateFile_eq, h]
  rfl

/-- **A report is exact**: whatever the cap, it counts all issues of the file and all its records, keeps the
first issues in order, and says whether some are missing. It fails if there is any issue. -/
theorem validate_eq (maxErrors : ℤ) (schema : RegisteredSchema) (manifest : Record R) (type : FileType)
    (bytes : List Byte) :
    validate maxErrors schema manifest type bytes =
      (fileFindings R type schema.toSchemaDefinition bytes).map
        (reportOf maxErrors (metadataIssues schema manifest)) := by
  rcases hfindings : fileFindings R type schema.toSchemaDefinition bytes with e | findings
  · exact validate_of_error hfindings
  · exact validate_of_fileFindings hfindings

end Files

end Validation

end ForgeData
