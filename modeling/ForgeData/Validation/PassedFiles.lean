import ForgeData.Validation.Reports

/-!
# Which files pass

A record conforms to a schema if the required fields are there, no other fields are unless the schema
allows them, and every value is one that its field accepts. A file is strict if everything in it is a
record. The files that pass validation are the strict ones with at least one record, all of whose records
conform, provided that the manifest meets the requirements of the schema. The readers of the later stages
pass over what is not a record; of a strict file they read everything.
-/

namespace ForgeData

namespace Validation

open Python

variable {R : Type}

/-! ## Records that conform -/

/-- The evaluator of a validator. -/
def evaluatorOf (schema : SchemaDefinition) (type : FileType) : RecordEvaluator := ⟨schema, type = .csv⟩

section ConformsTo

variable [FloatText R] (evaluator : RecordEvaluator)

/-- The field accepts the value. -/
def AcceptsValue (fieldDef : FieldDefinition) (value : Value R) : Prop :=
  if evaluator.isNullValue value then fieldDef.nullable = true
  else if fieldDef.type = .datetime then
    ∃ text, value = .str text ∧ isValidIso8601WithTimezone text = true
  else evaluator.typeOk value fieldDef.type = true

/-- The record conforms to the schema. -/
structure ConformsTo (record : Record R) : Prop where
  required : ∀ p ∈ evaluator.schema.fields.items, p.2.required = true → p.1 ∈ record.keys
  defined : evaluator.schema.allowExtraFields = true ∨
    ∀ name ∈ record.keys, name ∈ evaluator.schema.fields.keys
  accepted : ∀ p ∈ evaluator.schema.fields.items, ∀ value,
    record.get? p.1 = some value → AcceptsValue evaluator p.2 value

end ConformsTo

section Issues

variable [ValueText R] {evaluator : RecordEvaluator}

theorem checkMissingRequired_eq_nil_iff {presentFields : List Str} {recordIndex : Option ℕ} :
    evaluator.checkMissingRequired presentFields recordIndex = [] ↔
      ∀ p ∈ evaluator.schema.fields.items, p.2.required = true → p.1 ∈ presentFields := by
  rw [RecordEvaluator.checkMissingRequired, List.filterMap_eq_nil_iff]
  refine forall₂_congr fun p _ ↦ ?_
  rw [ite_eq_right_iff, Bool.and_eq_true, Bool.not_eq_true', ← Bool.not_eq_true, List.contains_iff_mem]
  constructor
  · intro h hrequired
    by_contra hp
    exact Option.some_ne_none _ (h ⟨hrequired, hp⟩)
  · intro h hp
    exact absurd (h hp.1) hp.2

theorem checkUnexpected_eq_nil_iff {presentFields : List Str} {recordIndex : Option ℕ} :
    evaluator.checkUnexpected presentFields recordIndex = [] ↔
      evaluator.schema.allowExtraFields = true ∨
        ∀ name ∈ presentFields, name ∈ evaluator.schema.fields.keys := by
  rw [RecordEvaluator.checkUnexpected]
  by_cases hextra : evaluator.schema.allowExtraFields = true
  · rw [if_pos hextra]
    exact iff_of_true rfl (.inl hextra)
  · rw [if_neg hextra, or_iff_right hextra, List.filterMap_eq_nil_iff]
    refine forall₂_congr fun name _ ↦ ?_
    rw [ite_eq_left_iff, Dict.contains, Option.isSome_iff_exists, ← Dict.mem_keys_iff]
    constructor
    · intro h
      by_contra hname
      exact Option.some_ne_none _ (h hname)
    · intro h hname
      exact absurd h hname

theorem checkValue_eq_none_iff {recordIndex : Option ℕ} {fieldName : Str} {fieldDef : FieldDefinition}
    {value : Value R} :
    evaluator.checkValue recordIndex fieldName fieldDef value = none ↔
      AcceptsValue evaluator fieldDef value := by
  rw [RecordEvaluator.checkValue.eq_def, AcceptsValue]
  dsimp only
  by_cases hnull : evaluator.isNullValue value = true
  · rw [if_pos hnull, if_pos hnull]
    by_cases hnullable : fieldDef.nullable = true
    · rw [if_pos hnullable]
      exact iff_of_true rfl hnullable
    · rw [if_neg hnullable]
      exact iff_of_false (Option.some_ne_none _) hnullable
  rw [if_neg hnull, if_neg hnull]
  by_cases htype : fieldDef.type = .datetime
  · rw [if_pos htype, if_pos htype]
    split
    · next text =>
      by_cases htext : isValidIso8601WithTimezone text = true
      · rw [if_pos htext]
        exact iff_of_true rfl ⟨text, rfl, htext⟩
      · rw [if_neg htext]
        refine iff_of_false (Option.some_ne_none _) ?_
        rintro ⟨_, htext', hvalid⟩
        rw [← Value.str.inj htext'] at hvalid
        exact htext hvalid
    · next hstr =>
      refine iff_of_false (Option.some_ne_none _) ?_
      rintro ⟨text, rfl, -⟩
      exact hstr text rfl
  · rw [if_neg htype, if_neg htype]
    by_cases hok : evaluator.typeOk value fieldDef.type = true
    · rw [if_pos hok]
      exact iff_of_true rfl hok
    · rw [if_neg hok]
      exact iff_of_false (Option.some_ne_none _) hok

theorem checkValues_eq_nil_iff {recordIndex : Option ℕ} {record : Record R} :
    evaluator.checkValues recordIndex record = [] ↔
      ∀ p ∈ evaluator.schema.fields.items, ∀ value,
        record.get? p.1 = some value → AcceptsValue evaluator p.2 value := by
  rw [RecordEvaluator.checkValues, List.filterMap_eq_nil_iff]
  refine forall₂_congr fun p _ ↦ ?_
  rw [Option.bind_eq_none_iff]
  exact forall₂_congr fun value _ ↦ checkValue_eq_none_iff

/-- All issues of a record of a JSON or JSONL file. -/
def recordIssues (evaluator : RecordEvaluator) (index : ℕ) (record : Record R) : List ValidationIssue :=
  evaluator.checkMissingRequired record.keys (some index) ++ evaluator.checkValues (some index) record ++
    evaluator.checkUnexpected record.keys (some index)

theorem recordIssues_eq_nil_iff {index : ℕ} {record : Record R} :
    recordIssues evaluator index record = [] ↔ ConformsTo evaluator record := by
  rw [recordIssues, List.append_eq_nil_iff, List.append_eq_nil_iff, checkMissingRequired_eq_nil_iff,
    checkValues_eq_nil_iff, checkUnexpected_eq_nil_iff]
  exact ⟨fun h ↦ ⟨h.1.1, h.2, h.1.2⟩, fun h ↦ ⟨⟨h.required, h.accepted⟩, h.defined⟩⟩

theorem valueIssues_of_asRecord? {index : ℕ} {message : String} {value : Value R} {record : Record R}
    (h : Integrity.asRecord? value = some record) :
    valueIssues evaluator index message value = recordIssues evaluator index record := by
  rw [valueIssues, h, recordIssues]

theorem exists_record_of_valueIssues_eq_nil {index : ℕ} {message : String} {value : Value R}
    (h : valueIssues evaluator index message value = []) :
    ∃ record, Integrity.asRecord? value = some record ∧ ConformsTo evaluator record := by
  rcases hrecord : Integrity.asRecord? value with _ | record
  · rw [valueIssues, hrecord] at h
    exact absurd h (List.cons_ne_nil _ _)
  · rw [valueIssues_of_asRecord? hrecord] at h
    exact ⟨record, rfl, recordIssues_eq_nil_iff.mp h⟩

end Issues

/-! ## Strict files -/

/-- Numbered values all of which are records. -/
def strictValues : List (ℕ × Value R) → Option (List (ℕ × Record R))
  | [] => some []
  | p :: l =>
    match Integrity.asRecord? p.2, strictValues l with
    | some record, some records => some ((p.1, record) :: records)
    | _, _ => none

theorem filterMap_of_strictValues {l : List (ℕ × Value R)} {records : List (ℕ × Record R)}
    (h : strictValues l = some records) :
    (l.filterMap fun p ↦ (Integrity.asRecord? p.2).map (p.1, ·)) = records := by
  induction l generalizing records with
  | nil => exact Option.some.inj h
  | cons p l ih =>
    rw [strictValues] at h
    split at h
    · next record rest hrecord hrest =>
      rw [List.filterMap_cons, hrecord, Option.map_some, ih hrest, ← Option.some.inj h]
    · cases h

theorem map_fst_of_strictValues {l : List (ℕ × Value R)} {records : List (ℕ × Record R)}
    (h : strictValues l = some records) : records.map Prod.fst = l.map Prod.fst := by
  induction l generalizing records with
  | nil =>
    rw [← Option.some.inj h]
    rfl
  | cons p l ih =>
    rw [strictValues] at h
    split at h
    · next record rest hrecord hrest =>
      rw [← Option.some.inj h, List.map_cons, List.map_cons, ih hrest]
    · cases h

section Strict

variable [FloatText R]

/-- The records of a CSV file whose rows have no cells beyond the header. -/
def strictCsv (bytes : List Byte) : Option (List (ℕ × Record R)) :=
  match Utf8.decode bytes with
  | none => none
  | some text =>
    let rows : Gen ReadError (DictRow R) := (dictReader text).2
    if rows.raised.isNone ∧ ∀ row ∈ rows.yields, row.rest = [] then
      some (Integrity.enumerate 1 (rows.yields.map DictRow.record))
    else none

/-- The records of a JSON file that is an object or an array of objects. -/
def strictJson (bytes : List Byte) : Option (List (ℕ × Record R)) :=
  match Utf8.decode bytes with
  | none => none
  | some text =>
    match (loads text.universalNewlines : Except JsonError (Value R)) with
    | .ok (.dict fields) => strictValues [(1, .dict fields)]
    | .ok (.list l) => strictValues (Integrity.enumerate 1 l)
    | _ => none

/-- The records of lines all of which are blank or objects, from number `lineNumber` on. -/
def strictLines : ℕ → List Str → Option (List (ℕ × Record R))
  | _, [] => some []
  | lineNumber, rawLine :: lines =>
    if rawLine.strip = [] then strictLines (lineNumber + 1) lines
    else match (loads rawLine.strip : Except JsonError (Value R)) with
      | .error _ => none
      | .ok value =>
        match Integrity.asRecord? value, strictLines (lineNumber + 1) lines with
        | some record, some records => some ((lineNumber, record) :: records)
        | _, _ => none

/-- The records of a JSONL file all of whose lines are blank or objects. -/
def strictJsonl (bytes : List Byte) : Option (List (ℕ × Record R)) :=
  match Utf8.decode bytes with
  | none => none
  | some text => strictLines 1 (Str.linesOf text.universalNewlines)

/-- The numbered records of a file in which everything is a record. -/
def strictRecords (type : FileType) (bytes : List Byte) : Option (List (ℕ × Record R)) :=
  match type with
  | .csv => strictCsv bytes
  | .json => strictJson bytes
  | .jsonl => strictJsonl bytes

/-! ## The readers of the later stages -/

omit [FloatText R] in
theorem iterCsvRecords_of_strictCsv {bytes : List Byte} {records : List (ℕ × Record R)}
    (h : strictCsv bytes = some records) : Integrity.iterCsvRecords bytes = ⟨records, none⟩ := by
  rw [strictCsv] at h
  rw [Integrity.iterCsvRecords]
  rcases hdecode : Utf8.decode bytes with _ | text
  · rw [hdecode] at h
    cases h
  rw [hdecode] at h
  dsimp only at h ⊢
  split at h
  · next hrows =>
    rw [Option.isNone_iff_eq_none.mp hrows.1, Option.some.inj h]
  · cases h

theorem iterJsonRecords_of_strictJson {bytes : List Byte} {records : List (ℕ × Record R)}
    (h : strictJson bytes = some records) : Integrity.iterJsonRecords bytes = ⟨records, none⟩ := by
  rw [strictJson] at h
  rw [Integrity.iterJsonRecords]
  rcases hdecode : Utf8.decode bytes with _ | text
  · rw [hdecode] at h
    cases h
  rw [hdecode] at h
  dsimp only at h ⊢
  rcases hloads : (loads text.universalNewlines : Except JsonError (Value R)) with _ | payload
  · rw [hloads] at h
    cases h
  rw [hloads] at h
  cases payload with
  | dict fields =>
    dsimp only at h ⊢
    rw [← filterMap_of_strictValues h]
    rfl
  | list l =>
    dsimp only at h ⊢
    rw [← filterMap_of_strictValues h]
    rfl
  | _ => cases h

theorem iterJsonLines_of_strictLines {lineNumber : ℕ} {lines : List Str} {records : List (ℕ × Record R)}
    (h : strictLines lineNumber lines = some records) :
    Integrity.iterJsonLines lineNumber lines = ⟨records, none⟩ := by
  induction lines generalizing lineNumber records with
  | nil =>
    rw [← Option.some.inj h]
    rfl
  | cons rawLine lines ih =>
    rw [strictLines] at h
    rw [Integrity.iterJsonLines]
    by_cases hblank : rawLine.strip = []
    · rw [if_pos hblank] at h ⊢
      exact ih h
    rw [if_neg hblank] at h ⊢
    rcases hloads : (loads rawLine.strip : Except JsonError (Value R)) with _ | value
    · rw [hloads] at h
      cases h
    rw [hloads] at h
    dsimp only at h ⊢
    split at h
    · next record rest hrecord hrest =>
      rw [hrecord, ← Option.some.inj h, ih hrest]
      rfl
    · cases h

/-- **Of a strict file the later stages read everything**, under the numbers of validation. -/
theorem iterRecords_of_strictRecords {type : FileType} {bytes : List Byte}
    {records : List (ℕ × Record R)} (h : strictRecords type bytes = some records) :
    Integrity.iterRecords type bytes = ⟨records, none⟩ := by
  cases type with
  | csv => exact iterCsvRecords_of_strictCsv h
  | json => exact iterJsonRecords_of_strictJson h
  | jsonl =>
    rw [strictRecords, strictJsonl] at h
    rw [Integrity.iterRecords, Integrity.iterJsonlRecords]
    rcases hdecode : Utf8.decode bytes with _ | text
    · rw [hdecode] at h
      cases h
    · rw [hdecode] at h
      exact iterJsonLines_of_strictLines h

end Strict

/-! ## What passes -/

section Accepted

variable [ValueText R] {schema : SchemaDefinition} {evaluator : RecordEvaluator}

theorem Findings.all_ofRecords_eq_nil_iff {before : List ValidationIssue}
    {records : List (List ValidationIssue)} :
    (Findings.ofRecords before records).all = [] ↔
      before = [] ∧ records ≠ [] ∧ ∀ issues ∈ records, issues = [] := by
  rw [Findings.all, Findings.ofRecords, List.append_eq_nil_iff, List.append_eq_nil_iff,
    List.flatten_eq_nil_iff, and_assoc, and_comm (b := _ = [])]
  refine and_congr_right fun _ ↦ and_congr_left fun _ ↦ ?_
  rw [ite_eq_right_iff]
  exact imp_congr_right fun _ ↦ iff_of_false (List.cons_ne_nil _ _) id

/-! ### Rows -/

omit [ValueText R] in
theorem mem_keys_ofCells {fieldnames row : List Str} {name : Str} :
    name ∈ (DictRow.ofCells fieldnames row : DictRow R).record.keys ↔ name ∈ fieldnames := by
  rw [DictRow.ofCells, Dict.mem_keys_ofPairs, List.map_fst_zip]
  rw [List.length_append, List.length_map, List.length_replicate]
  omega

omit [ValueText R] in
theorem mem_keys_of_mem_dictReader {text : Str} {row : DictRow R}
    (h : row ∈ (dictReader text : Option (List Str) × Gen ReadError (DictRow R)).2.yields) {name : Str} :
    name ∈ row.record.keys ↔
      name ∈ (dictReader text : Option (List Str) × Gen ReadError (DictRow R)).1.getD [] := by
  rw [dictReader] at h ⊢
  split at h
  · exact absurd h List.not_mem_nil
  · obtain ⟨cells, -, rfl⟩ := List.mem_map.mp h
    exact mem_keys_ofCells

theorem rowIssues_eq_nil_iff {index : ℕ} {row : DictRow R} :
    rowIssues evaluator index row = [] ↔ row.rest = [] ∧
      ∀ p ∈ evaluator.schema.fields.items, ∀ value,
        row.record.get? p.1 = some value → AcceptsValue evaluator p.2 value := by
  rw [rowIssues, List.append_eq_nil_iff, checkValues_eq_nil_iff]
  refine and_congr_left fun _ ↦ ?_
  rw [ite_eq_right_iff]
  constructor
  · intro h
    by_contra hrest
    exact List.cons_ne_nil _ _ (h hrest)
  · intro h hrest
    exact absurd h hrest

/-! ### Files -/

theorem length_enumerate {α : Type} (first : ℕ) (l : List α) :
    (Integrity.enumerate first l).length = l.length := by
  induction l generalizing first with
  | nil => rfl
  | cons a l ih => rw [Integrity.enumerate, List.length_cons, List.length_cons, ih]

theorem forall_mem_enumerate {α : Type} {P : α → Prop} (first : ℕ) {l : List α} :
    (∀ p ∈ Integrity.enumerate first l, P p.2) ↔ ∀ a ∈ l, P a := by
  induction l generalizing first with
  | nil => exact iff_of_true (by simp [Integrity.enumerate]) (by simp)
  | cons a l ih => rw [Integrity.enumerate, List.forall_mem_cons, List.forall_mem_cons, ih]

/-- A file of findings without an issue, of `n` records. -/
def NoIssues (n : ℕ) (found : Except ReadError Findings) : Prop :=
  ∃ findings, found = .ok findings ∧ findings.all = [] ∧ findings.records.length = n

/-- Records of a strict file that conform, at least one and in all `n`. -/
def AllConform (evaluator : RecordEvaluator) (n : ℕ) (strict : Option (List (ℕ × Record R))) : Prop :=
  ∃ records, strict = some records ∧ records ≠ [] ∧ (∀ p ∈ records, ConformsTo evaluator p.2) ∧
    records.length = n

theorem not_allConform_none {n : ℕ} : ¬AllConform (R := R) evaluator n none := by
  rintro ⟨records, h, -⟩
  cases h

theorem noIssues_ok_iff {n : ℕ} {before : List ValidationIssue} {records : List (List ValidationIssue)} :
    NoIssues n (.ok (.ofRecords before records)) ↔
      before = [] ∧ records ≠ [] ∧ (∀ issues ∈ records, issues = []) ∧ records.length = n := by
  constructor
  · rintro ⟨findings, hok, hall, hlength⟩
    rw [← Except.ok.inj hok] at hall hlength
    obtain ⟨hbefore, hne, hrecords⟩ := Findings.all_ofRecords_eq_nil_iff.mp hall
    exact ⟨hbefore, hne, hrecords, hlength⟩
  · rintro ⟨hbefore, hne, hrecords, hlength⟩
    exact ⟨_, rfl, Findings.all_ofRecords_eq_nil_iff.mpr ⟨hbefore, hne, hrecords⟩, hlength⟩

theorem not_noIssues_error {n : ℕ} {e : ReadError} : ¬NoIssues n (.error e) := by
  rintro ⟨findings, h, -⟩
  cases h

theorem not_noIssues_ofIssue {n : ℕ} {issue : ValidationIssue} : ¬NoIssues n (.ok (.ofIssue issue)) := by
  rintro ⟨findings, h, hall, -⟩
  rw [← Except.ok.inj h, Findings.all, Findings.ofIssue] at hall
  exact List.cons_ne_nil _ _ hall

theorem noIssues_csv_iff {n : ℕ} {bytes : List Byte} :
    NoIssues n (csvFindings R schema bytes) ↔
      AllConform (R := R) ⟨schema, true⟩ n (strictCsv bytes) := by
  rw [csvFindings, strictCsv]
  rcases Utf8.decode bytes with _ | text
  · exact iff_of_false not_noIssues_error not_allConform_none
  dsimp only
  have hkeys {row : DictRow R} := @mem_keys_of_mem_dictReader R text row
  generalize (dictReader text : Option (List Str) × Gen ReadError (DictRow R)) = reader at hkeys ⊢
  obtain ⟨fieldnames, ⟨rows, raised⟩⟩ := reader
  dsimp only at hkeys ⊢
  rcases raised with _ | e
  · rw [noIssues_ok_iff, List.append_eq_nil_iff, checkMissingRequired_eq_nil_iff,
      checkUnexpected_eq_nil_iff, List.forall_mem_map, List.length_map, length_enumerate, ne_eq,
      List.map_eq_nil_iff, ← List.length_eq_zero_iff, length_enumerate]
    constructor
    · rintro ⟨⟨hrequired, hdefined⟩, hne, hrows, hlength⟩
      have hrows : ∀ row ∈ rows, rowIssues ⟨schema, true⟩ 1 row = [] := by
        refine (forall_mem_enumerate 1).mp fun p hp ↦ ?_
        exact rowIssues_eq_nil_iff.mpr (rowIssues_eq_nil_iff.mp (hrows p hp))
      refine ⟨_, if_pos ⟨rfl, fun row hrow ↦ (rowIssues_eq_nil_iff.mp (hrows row hrow)).1⟩, ?_, ?_, ?_⟩
      · rwa [ne_eq, ← List.length_eq_zero_iff, length_enumerate, List.length_map]
      · refine (forall_mem_enumerate 1).mpr (List.forall_mem_map.mpr fun row hrow ↦ ?_)
        refine ⟨fun p hp h ↦ (hkeys hrow).mpr (hrequired p hp h), ?_,
          (rowIssues_eq_nil_iff.mp (hrows row hrow)).2⟩
        exact hdefined.imp_right fun h name hname ↦ h name ((hkeys hrow).mp hname)
      · rwa [length_enumerate, List.length_map]
    · rintro ⟨records, hstrict, hne, hconform, hlength⟩
      split at hstrict
      · next hrest =>
        rw [← Option.some.inj hstrict] at hne hconform hlength
        rw [length_enumerate, List.length_map] at hlength
        rw [ne_eq, ← List.length_eq_zero_iff, length_enumerate, List.length_map] at hne
        have hconform := List.forall_mem_map.mp ((forall_mem_enumerate 1).mp hconform)
        -- the header is checked once, and there is a row that has its names
        obtain ⟨row, hrow⟩ := List.exists_mem_of_length_pos (Nat.pos_of_ne_zero hne)
        refine ⟨⟨fun p hp h ↦ (hkeys hrow).mp ((hconform row hrow).required p hp h), ?_⟩, hne, ?_,
          hlength⟩
        · exact (hconform row hrow).defined.imp_right fun h name hname ↦ h name ((hkeys hrow).mpr hname)
        · intro p hp
          have hmem : p.2 ∈ rows := (forall_mem_enumerate 1).mpr (fun _ ↦ id) p hp
          exact rowIssues_eq_nil_iff.mpr ⟨hrest.2 p.2 hmem, (hconform p.2 hmem).accepted⟩
      · cases hstrict
  · rw [if_neg (by simp)]
    exact iff_of_false not_noIssues_error not_allConform_none

theorem valueIssues_all_nil_iff {message : String} {l : List (ℕ × Value R)} :
    (∀ p ∈ l, valueIssues evaluator p.1 message p.2 = []) ↔
      ∃ records, strictValues l = some records ∧ (∀ p ∈ records, ConformsTo evaluator p.2) ∧
        records.length = l.length := by
  induction l with
  | nil => exact iff_of_true (by simp) ⟨[], rfl, by simp, rfl⟩
  | cons p l ih =>
    rw [List.forall_mem_cons, ih, strictValues]
    constructor
    · rintro ⟨hp, records, hrecords, hconform, hlength⟩
      obtain ⟨record, hrecord, hrecordConforms⟩ := exists_record_of_valueIssues_eq_nil hp
      refine ⟨(p.1, record) :: records, by rw [hrecord, hrecords], ?_, ?_⟩
      · exact List.forall_mem_cons.mpr ⟨hrecordConforms, hconform⟩
      · rw [List.length_cons, List.length_cons, hlength]
    · rintro ⟨records, hrecords, hconform, hlength⟩
      split at hrecords
      · next record rest hrecord hrest =>
        rw [← Option.some.inj hrecords] at hconform hlength
        have hconform := List.forall_mem_cons.mp hconform
        refine ⟨?_, rest, hrest, hconform.2, Nat.succ.inj hlength⟩
        rw [valueIssues_of_asRecord? hrecord]
        exact recordIssues_eq_nil_iff.mpr hconform.1
      · cases hrecords

theorem noIssues_values_iff {n : ℕ} {message : String} {l : List (ℕ × Value R)} :
    NoIssues n (.ok (.ofRecords [] (l.map fun p ↦ valueIssues evaluator p.1 message p.2))) ↔
      AllConform evaluator n (strictValues l) := by
  rw [noIssues_ok_iff, List.forall_mem_map, valueIssues_all_nil_iff, List.length_map, ne_eq,
    List.map_eq_nil_iff]
  constructor
  · rintro ⟨-, hne, ⟨records, hrecords, hconform, hlength⟩, hn⟩
    refine ⟨records, hrecords, ?_, hconform, hlength.trans hn⟩
    exact List.ne_nil_of_length_pos (hlength ▸ List.length_pos_of_ne_nil hne)
  · rintro ⟨records, hrecords, hne, hconform, hn⟩
    have hlength : records.length = l.length := by
      rw [← List.length_map Prod.fst, map_fst_of_strictValues hrecords, List.length_map]
    refine ⟨rfl, ?_, ⟨records, hrecords, hconform, hlength⟩, hlength.symm.trans hn⟩
    exact List.ne_nil_of_length_pos (hlength ▸ List.length_pos_of_ne_nil hne)

theorem noIssues_json_iff {n : ℕ} {bytes : List Byte} :
    NoIssues n (jsonFindings R schema bytes) ↔
      AllConform (R := R) ⟨schema, false⟩ n (strictJson bytes) := by
  rw [jsonFindings, strictJson]
  rcases Utf8.decode bytes with _ | text
  · exact iff_of_false not_noIssues_ofIssue not_allConform_none
  dsimp only
  rcases (loads text.universalNewlines : Except JsonError (Value R)) with (_ | _) | payload
  · exact iff_of_false not_noIssues_ofIssue not_allConform_none
  · exact iff_of_false not_noIssues_error not_allConform_none
  · cases payload with
    | dict fields => exact noIssues_values_iff
    | list l => exact noIssues_values_iff
    | _ => exact iff_of_false not_noIssues_ofIssue not_allConform_none

/-- Lines of findings without an issue, `n` of which are not blank. -/
def NoLineIssues (n : ℕ) (found : Except ReadError (List (List ValidationIssue))) : Prop :=
  ∃ findings, found = .ok findings ∧ (∀ issues ∈ findings, issues = []) ∧ findings.length = n

theorem noLineIssues_cons_iff {n : ℕ} {issues : List ValidationIssue}
    {found : Except ReadError (List (List ValidationIssue))} :
    NoLineIssues n (do return issues :: (← found)) ↔
      issues = [] ∧ ∃ m, n = m + 1 ∧ NoLineIssues m found := by
  rcases found with e | findings
  · refine iff_of_false ?_ ?_
    · rintro ⟨_, h, -⟩
      cases h
    · rintro ⟨-, m, -, _, h, -⟩
      cases h
  · constructor
    · rintro ⟨_, h, hnil, hlength⟩
      rw [← Except.ok.inj h] at hnil hlength
      have hnil := List.forall_mem_cons.mp hnil
      exact ⟨hnil.1, findings.length, hlength.symm, findings, rfl, hnil.2, rfl⟩
    · rintro ⟨hissues, m, rfl, _, h, hnil, hlength⟩
      rw [← Except.ok.inj h] at hnil hlength
      exact ⟨_, rfl, List.forall_mem_cons.mpr ⟨hissues, hnil⟩, congrArg Nat.succ hlength⟩

theorem noLineIssues_iff {n lineNumber : ℕ} {lines : List Str} :
    NoLineIssues n (lineFindings R evaluator lineNumber lines) ↔
    ∃ records : List (ℕ × Record R), strictLines lineNumber lines = some records ∧
      (∀ p ∈ records, ConformsTo evaluator p.2) ∧ records.length = n := by
  induction lines generalizing lineNumber n with
  | nil =>
    rw [lineFindings, strictLines]
    constructor
    · rintro ⟨findings, h, -, hlength⟩
      rw [← Except.ok.inj h] at hlength
      exact ⟨[], rfl, by simp, hlength⟩
    · rintro ⟨records, h, -, hlength⟩
      rw [← Option.some.inj h] at hlength
      exact ⟨[], rfl, by simp, hlength⟩
  | cons rawLine lines ih =>
    rw [lineFindings, strictLines]
    -- blank lines are skipped on both sides; an error of the decoder is an issue, or raises
    by_cases hblank : rawLine.strip = []
    · rw [if_pos hblank, if_pos hblank]
      exact ih
    rw [if_neg hblank, if_neg hblank]
    rcases (loads rawLine.strip : Except JsonError (Value R)) with (_ | _) | value
    · refine iff_of_false (fun h ↦ List.cons_ne_nil _ _ (noLineIssues_cons_iff.mp h).1) ?_
      rintro ⟨records, h, -⟩
      cases h
    · refine iff_of_false ?_ ?_
      · rintro ⟨findings, h, -⟩
        cases h
      · rintro ⟨records, h, -⟩
        cases h
    · refine noLineIssues_cons_iff.trans ?_
      constructor
      · rintro ⟨hissues, m, rfl, hrest⟩
        obtain ⟨record, hrecord, hrecordConforms⟩ := exists_record_of_valueIssues_eq_nil hissues
        obtain ⟨records, hrecords, hconform, hlength⟩ := ih.mp hrest
        refine ⟨(lineNumber, record) :: records, ?_, ?_, congrArg Nat.succ hlength⟩
        · dsimp only
          rw [hrecord, hrecords]
        · exact List.forall_mem_cons.mpr ⟨hrecordConforms, hconform⟩
      · rintro ⟨records, hrecords, hconform, hlength⟩
        dsimp only at hrecords
        split at hrecords
        · next record rest hrecord hrest =>
          rw [← Option.some.inj hrecords] at hconform hlength
          have hconform := List.forall_mem_cons.mp hconform
          refine ⟨?_, rest.length, hlength.symm, ih.mpr ⟨rest, hrest, hconform.2, rfl⟩⟩
          rw [valueIssues_of_asRecord? hrecord]
          exact recordIssues_eq_nil_iff.mpr hconform.1
        · cases hrecords

theorem noIssues_jsonl_iff {n : ℕ} {bytes : List Byte} :
    NoIssues n (jsonlFindings R schema bytes) ↔
      AllConform (R := R) ⟨schema, false⟩ n (strictJsonl bytes) := by
  rw [jsonlFindings, strictJsonl]
  rcases Utf8.decode bytes with _ | text
  · exact iff_of_false not_noIssues_error not_allConform_none
  dsimp only
  have hlines : NoLineIssues n (lineFindings R ⟨schema, false⟩ 1 (Str.linesOf text.universalNewlines)) ↔ _ :=
    noLineIssues_iff
  generalize lineFindings R ⟨schema, false⟩ 1 (Str.linesOf text.universalNewlines) = found at hlines ⊢
  rcases found with e | findings
  · refine iff_of_false not_noIssues_error ?_
    rintro ⟨records, hrecords, -, hconform, hlength⟩
    obtain ⟨_, h, -⟩ := hlines.mpr ⟨records, hrecords, hconform, hlength⟩
    cases h
  · refine noIssues_ok_iff.trans ?_
    constructor
    · rintro ⟨-, hne, hnil, hlength⟩
      obtain ⟨records, hrecords, hconform, hcount⟩ := hlines.mp ⟨findings, rfl, hnil, hlength⟩
      refine ⟨records, hrecords, ?_, hconform, hcount⟩
      exact List.ne_nil_of_length_pos (hcount.trans hlength.symm ▸ List.length_pos_of_ne_nil hne)
    · rintro ⟨records, hrecords, hne, hconform, hcount⟩
      obtain ⟨_, h, hnil, hlength⟩ := hlines.mpr ⟨records, hrecords, hconform, hcount⟩
      rw [← Except.ok.inj h] at hnil hlength
      refine ⟨rfl, ?_, hnil, hlength⟩
      exact List.ne_nil_of_length_pos (hlength.trans hcount.symm ▸ List.length_pos_of_ne_nil hne)

theorem noIssues_iff {n : ℕ} {type : FileType} {bytes : List Byte} :
    NoIssues n (fileFindings R type schema bytes) ↔
      AllConform (R := R) (evaluatorOf schema type) n (strictRecords type bytes) := by
  cases type with
  | csv => exact noIssues_csv_iff
  | json => exact noIssues_json_iff
  | jsonl => exact noIssues_jsonl_iff

/-- The manifest has what the schema requires of it, or says nothing about it. -/
def MeetsRequirements (schema : RegisteredSchema) (manifest : Record R) : Prop :=
  ∀ key expected, schema.metadataRequirements.get? key = some expected →
    manifest.get (manifestFieldOf key) = .none ∨ manifest.get (manifestFieldOf key) = .str expected

theorem metadataIssue_eq_none_iff {manifest : Record R} {key expected : Str} :
    metadataIssue manifest key expected = none ↔
      manifest.get (manifestFieldOf key) = .none ∨
        manifest.get (manifestFieldOf key) = .str expected := by
  rw [metadataIssue]
  rcases manifest.get (manifestFieldOf key) with _ | _ | _ | _ | actual | _ | _
  case str =>
    dsimp only
    rw [ite_eq_left_iff]
    simp
  all_goals simp

theorem metadataIssues_eq_nil_iff {schema : RegisteredSchema} {manifest : Record R} :
    metadataIssues schema manifest = [] ↔ MeetsRequirements schema manifest := by
  rw [metadataIssues, List.filterMap_eq_nil_iff]
  constructor
  · intro h key expected hkey
    exact metadataIssue_eq_none_iff.mp (h (key, expected) (Dict.get?_eq_some_iff.mp hkey))
  · intro h p hp
    exact metadataIssue_eq_none_iff.mpr (h p.1 p.2 (Dict.get?_eq_some_iff.mpr hp))

/-- The file passes validation, with `n` records. -/
def Passes (maxErrors : ℤ) (schema : RegisteredSchema) (manifest : Record R) (type : FileType)
    (bytes : List Byte) (n : ℕ) : Prop :=
  ∃ report, validate maxErrors schema manifest type bytes = .ok report ∧ report.status = .passed ∧
    report.summary.recordsChecked = n

theorem status_reportOf {maxErrors : ℤ} {metadata : List ValidationIssue} {findings : Findings} :
    (reportOf maxErrors metadata findings).status = .passed ↔ metadata = [] ∧ findings.all = [] := by
  rw [← List.append_eq_nil_iff, reportOf]
  dsimp only
  rw [ite_eq_left_iff]
  simp

theorem passes_iff_noIssues {maxErrors : ℤ} {schema : RegisteredSchema} {manifest : Record R}
    {type : FileType} {bytes : List Byte} {n : ℕ} :
    Passes maxErrors schema manifest type bytes n ↔
      metadataIssues schema manifest = [] ∧
        NoIssues n (fileFindings R type schema.toSchemaDefinition bytes) := by
  rcases hfindings : fileFindings R type schema.toSchemaDefinition bytes with e | findings
  · rw [Passes, validate_of_error hfindings]
    refine iff_of_false ?_ (fun h ↦ not_noIssues_error h.2)
    rintro ⟨report, h, -⟩
    cases h
  · rw [Passes, validate_of_fileFindings hfindings]
    constructor
    · rintro ⟨report, h, hpassed, hn⟩
      rw [← Except.ok.inj h] at hpassed hn
      obtain ⟨hmetadata, hall⟩ := status_reportOf.mp hpassed
      exact ⟨hmetadata, findings, rfl, hall, hn⟩
    · rintro ⟨hmetadata, _, h, hall, hn⟩
      rw [← Except.ok.inj h] at hall hn
      exact ⟨_, rfl, status_reportOf.mpr ⟨hmetadata, hall⟩, hn⟩

/-- **Which files pass**: with a manifest that meets the requirements of the schema, exactly those in which
everything is a record, all records conform, and there is at least one. The cap on the issues that a report
keeps has no part in it. -/
theorem passes_iff (maxErrors : ℤ) (schema : RegisteredSchema) (manifest : Record R) (type : FileType)
    (bytes : List Byte) (n : ℕ) :
    Passes maxErrors schema manifest type bytes n ↔
      MeetsRequirements schema manifest ∧ ∃ records : List (ℕ × Record R),
        strictRecords type bytes = some records ∧ records ≠ [] ∧
        (∀ p ∈ records, ConformsTo (evaluatorOf schema.toSchemaDefinition type) p.2) ∧
        records.length = n := by
  rw [passes_iff_noIssues, metadataIssues_eq_nil_iff, noIssues_iff]
  rfl

end Accepted

end Validation

end ForgeData
