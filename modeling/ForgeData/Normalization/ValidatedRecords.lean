import ForgeData.Integrity.ValidatedFiles
import ForgeData.Normalization.NormalForm

/-!
# Normalization after validation and integrity

The normalizer refuses a record for many reasons. For the sensors of the repository the gates before it leave
one: the instant of the timestamp has no `datetime` in UTC. The aliases of a profile do not matter any more,
since a field that is not one of the schema does not pass validation.
-/

namespace ForgeData

namespace Normalization

open Python
open Integrity (FieldChecks IsTimestampField NoFieldError)
open Validation (AcceptsValue ConformsTo ValueText evaluatorOf)

variable {R : Type}

/-! ## Timestamps are not blank -/

theorem head_isDigit_of_fromisoformat {s : Str} {parsed : ZonedDatetime}
    (h : fromisoformat s = some parsed) : ∃ c t, s = c :: t ∧ c.isDigit = true := by
  have hhead : (Str.sanitize s).head? = s.head? := by
    rw [Str.sanitize]
    split
    · next i hi =>
      have hmem := List.mem_of_find?_eq_some hi
      obtain ⟨i, rfl⟩ : ∃ j, i = j + 1 := ⟨i - 1, by
        simp only [List.mem_cons, List.not_mem_nil, or_false] at hmem
        omega⟩
      rcases s with _ | ⟨c, s⟩
      · rfl
      · rfl
    · rfl
  simp only [fromisoformat] at h
  split at h
  · cases h
  -- the year comes first
  obtain ⟨⟨year, month, day⟩, hdate, -⟩ := Option.bind_eq_some_iff.mp h
  simp only [Str.parseIsoformatDate] at hdate
  obtain ⟨⟨value, rest⟩, hyear, -⟩ := Option.bind_eq_some_iff.mp hdate
  rcases hs : Str.sanitize s with _ | ⟨c, t⟩
  · rw [hs] at hyear
    cases hyear
  · rw [hs, Str.parseDigits] at hyear
    rw [hs] at hhead
    split at hyear
    · next hdigit =>
      rcases s with _ | ⟨d, s⟩
      · cases hhead
      · obtain rfl := Option.some.inj hhead
        exact ⟨c, s, rfl, hdigit⟩
    · cases hyear

theorem isSpace_of_isDigit {c : CodePoint} (h : c.isDigit = true) : c.isSpace = false := by
  simp only [CodePoint.isDigit, Bool.and_eq_true, decide_eq_true_eq] at h
  simp only [CodePoint.isSpace, Bool.or_eq_false_iff, Bool.and_eq_false_iff, beq_eq_false_iff_ne,
    decide_eq_false_iff_not]
  omega

theorem isBlank_cons {c : CodePoint} {s : Str} (h : c.isSpace = false) : Str.isBlank (c :: s) = false := by
  rw [Str.isBlank, decide_eq_false_iff_not, Str.strip,
    List.dropWhile_cons_of_neg (by rw [h]; exact Bool.false_ne_true), List.reverse_eq_nil_iff,
    List.dropWhile_eq_nil_iff]
  intro hspace
  have hc := hspace c (List.mem_reverse.mpr List.mem_cons_self)
  rw [h] at hc
  cases hc

theorem isNull_of_instant? {text : Str} {e : ℤ} (h : instant? text = some e) :
    isNull (.str text : Value R) = false := by
  obtain ⟨parsed, -, hparsed, -⟩ := instant?_eq_some_iff.mp h
  obtain ⟨c, s, rfl, hdigit⟩ := head_isDigit_of_fromisoformat hparsed
  exact isBlank_cons (isSpace_of_isDigit hdigit)

/-! ## Sensors -/

/-- `float` leaves white space around a number aside. -/
class StripsText (R : Type) [FloatText R] : Prop where
  ofStr?_strip : ∀ (s : Str) (x : R), FloatText.ofStr? s = some x → FloatText.ofStr? s.strip = some x

/-- The checks find a number of the field that is too large for a float or not finite. -/
def ChecksField [FloatText R] (checks : FieldChecks R) (field : Str) : Prop :=
  ∀ p : ℕ × Record R, NoFieldError checks p →
    ∃ value, toFloat (p.2.get field) = some value ∧ ∀ x ∈ value, FloatText.isFinite x = true

/-- A field of a sensor besides its timestamp: a number that is checked, or a text that may be absent. -/
def FieldFits [FloatText R] (checks : FieldChecks R) (field : Str) (definition : FieldDefinition) : Prop :=
  (definition.type = .float ∧ (definition.required = true → definition.nullable = false) ∧
    ChecksField checks field) ∨
  (definition.type = .string ∧ definition.required = false)

/-- The schema, the profile and the checks of a sensor fit together. -/
structure SensorFits [FloatText R] (schema : SchemaDefinition) (profile : NormalizationProfile R)
    (checks : FieldChecks R) : Prop where
  timestamp : profile.timestampField = Str.ofString "timestamp"
  isTimestamp : IsTimestampField schema (Str.ofString "timestamp")
  closed : schema.allowExtraFields = false
  fields : ∀ p ∈ schema.fields.items, p.1 ≠ Str.ofString "timestamp" → FieldFits checks p.1 p.2
  aliases : ∀ field ∈ schema.fields.keys, profile.fieldAliases.get? field = none
  numeric : ∀ field ∈ profile.fieldDimensions.keys, ∀ definition,
    schema.fields.get? field = some definition → definition.type = .float
  names : ∀ field ∈ schema.fields.keys, Utf8.Encodable field

theorem SensorFits.profileFits [FloatText R] {schema : SchemaDefinition} {profile : NormalizationProfile R}
    {checks : FieldChecks R} (hfits : SensorFits schema profile checks) : ProfileFits schema profile where
  timestamp_mem := by
    rw [hfits.timestamp]
    exact Dict.mem_keys_iff.mpr ⟨_, hfits.isTimestamp⟩
  numeric field hfield definition hdefinition := .inl (hfits.numeric field hfield definition hdefinition)
  names field hfield := wellPaired_of_forall (hfits.names field hfield)

/-! ## Names and nulls -/

theorem resolveFieldNames_of_closed {aliases : Dict Str Str} {record : Record R}
    (h : ∀ name ∈ record.keys, aliases.get? name = none) :
    resolveFieldNames record aliases = some record := by
  have hnames : (record.items.map fun p ↦ aliases.getD p.1 p.1) = record.items.map Prod.fst := by
    refine List.map_congr_left fun p hp ↦ ?_
    rw [Dict.getD, h p.1 (List.mem_map_of_mem hp), Option.getD_none]
  have hnodup : (record.items.map fun p ↦ aliases.getD p.1 p.1).Nodup := by
    rw [hnames]
    exact record.nodup
  rw [resolveFieldNames]
  rw [dif_pos hnodup]
  refine congrArg some (Dict.ext ?_)
  dsimp only
  rw [hnames]
  exact (List.zip_of_prod rfl rfl).symm

theorem isNull_of_isNullValue {evaluator : Validation.RecordEvaluator} {value : Value R}
    (h : evaluator.isNullValue value = true) : isNull value = true := by
  cases value with
  | none => rfl
  | str s => exact (Bool.and_eq_true_iff.mp h).2
  | _ => cases h

section Fields

variable [FloatText R]

/-- A number that may not be null is not. -/
theorem isNull_of_accepts {evaluator : Validation.RecordEvaluator} {definition : FieldDefinition}
    {value : Value R} (htype : definition.type = .float) (hnullable : definition.nullable = false)
    (haccepts : AcceptsValue evaluator definition value) : isNull value = false := by
  rw [AcceptsValue, hnullable] at haccepts
  split at haccepts
  · cases haccepts
  next hnullValue =>
  rw [htype, if_neg FieldType.noConfusion, Validation.RecordEvaluator.typeOk.eq_def] at haccepts
  cases value with
  | none => exact absurd rfl hnullValue
  | str s =>
    split at haccepts
    · next hstrings heq =>
      rw [Validation.RecordEvaluator.isNullValue.eq_def, hstrings] at hnullValue
      exact Bool.eq_false_iff.mpr hnullValue
    · cases haccepts
  | _ => rfl

/-! ## All fields -/

section AllFields

variable [Mul R]

theorem exists_normalizeFields {normalizer : RecordNormalizer R} {recordNumber : ℕ}
    {mapped : Record R} {l : List (Str × FieldDefinition)}
    (h : ∀ p ∈ l, ∃ v, normalizer.normalizeField recordNumber mapped p.1 p.2 = .ok v) :
    ∃ fields, normalizer.normalizeFields recordNumber mapped l = .ok fields := by
  induction l with
  | nil => exact ⟨[], rfl⟩
  | cons p l ih =>
    obtain ⟨⟨v, hv⟩, hl⟩ := List.forall_mem_cons.mp h
    obtain ⟨fields, hfields⟩ := ih hl
    refine ⟨(p.1, v) :: fields, ?_⟩
    rw [RecordNormalizer.normalizeFields, hv, hfields]
    rfl

/-- If one field alone can raise, the record raises with it. -/
theorem normalizeFields_eq_error {normalizer : RecordNormalizer R} {recordNumber : ℕ}
    {mapped : Record R} {l : List (Str × FieldDefinition)} {field : Str} {e : NormalizationError}
    (hfield : field ∈ l.map Prod.fst)
    (hraise : ∀ p ∈ l, p.1 = field → normalizer.normalizeField recordNumber mapped p.1 p.2 = .error e)
    (hok : ∀ p ∈ l, p.1 ≠ field → ∃ v, normalizer.normalizeField recordNumber mapped p.1 p.2 = .ok v) :
    normalizer.normalizeFields recordNumber mapped l = .error e := by
  induction l with
  | nil => exact absurd hfield List.not_mem_nil
  | cons p l ih =>
    rw [RecordNormalizer.normalizeFields]
    by_cases hp : p.1 = field
    · rw [hraise p List.mem_cons_self hp]
      rfl
    · obtain ⟨v, hv⟩ := hok p List.mem_cons_self hp
      have hmem : field ∈ l.map Prod.fst :=
        (List.mem_cons.mp hfield).resolve_left fun heq ↦ hp heq.symm
      rw [hv, ih hmem (fun q hq ↦ hraise q (List.mem_cons_of_mem _ hq))
        (fun q hq ↦ hok q (List.mem_cons_of_mem _ hq))]
      rfl

theorem normalizeRecord_of_mapped {normalizer : RecordNormalizer R} (recordNumber : ℕ)
    {raw : Record R} (hmapped : resolveFieldNames raw normalizer.profile.fieldAliases = some raw) :
    (∀ fields, normalizer.normalizeFields recordNumber raw normalizer.schema.fields.items = .ok fields →
      ∃ record, normalizer.normalizeRecord recordNumber raw = .ok record) ∧
    ∀ e, normalizer.normalizeFields recordNumber raw normalizer.schema.fields.items = .error e →
      normalizer.normalizeRecord recordNumber raw = .error e := by
  rw [RecordNormalizer.normalizeRecord, hmapped]
  dsimp only
  constructor
  · intro fields hfields
    split
    · next e he =>
      rw [hfields] at he
      cases he
    · exact ⟨_, rfl⟩
  · intro e he
    split
    · next e' he' =>
      rw [he] at he'
      rw [Except.error.inj he']
    · next fields hfields =>
      rw [he] at hfields
      cases hfields

end AllFields

/-! ## One field -/

variable {schema : SchemaDefinition} {profile : NormalizationProfile R} {checks : FieldChecks R}
  {type : FileType}

theorem resolveFieldNames_of_conforms [Mul R] {normalizer : RecordNormalizer R}
    (hprofile : normalizer.profile = profile) (hfits : SensorFits schema profile checks) {raw : Record R}
    (hconforms : ConformsTo (evaluatorOf schema type) raw) :
    resolveFieldNames raw normalizer.profile.fieldAliases = some raw := by
  rw [hprofile]
  refine resolveFieldNames_of_closed fun name hname ↦ hfits.aliases name ?_
  refine (hconforms.defined.resolve_left ?_) name hname
  rw [evaluatorOf, hfits.closed]
  exact Bool.false_ne_true

/-- The timestamp of a record with an instant. -/
theorem normalizeField_timestamp [Mul R] {normalizer : RecordNormalizer R}
    (hprofile : normalizer.profile = profile) (hfits : SensorFits schema profile checks) {raw : Record R}
    {text : Str} {e : ℤ} (htext : raw.get (Str.ofString "timestamp") = .str text)
    (hinstant : instant? text = some e) (recordNumber : ℕ) (definition : FieldDefinition) :
    normalizer.normalizeField recordNumber raw (Str.ofString "timestamp") definition =
      (Datetime.ofEpochUs? e).elim (.error (.overflowError recordNumber (Str.ofString "timestamp")))
        fun t ↦ .ok (.str (canonicalText t)) := by
  obtain ⟨parsed, offset, hparsed, htz, rfl⟩ := instant?_eq_some_iff.mp hinstant
  rw [RecordNormalizer.normalizeField, htext]
  rw [if_neg (by rw [isNull_of_instant? hinstant]; exact Bool.false_ne_true), hprofile, hfits.timestamp,
    if_pos rfl, RecordNormalizer.normalizeTimestampField, normalizeTimestamp, hparsed]
  dsimp only
  rw [htz]
  dsimp only
  rcases Datetime.ofEpochUs? (parsed.instant offset) with _ | t
  · rfl
  · rfl

/-- A string in a normalized record is a canonical timestamp, or it was there before. -/
theorem normalizeField_eq_str [Mul R] {normalizer : RecordNormalizer R} {recordNumber : ℕ}
    {raw : Record R} {p : Str × FieldDefinition} {s : Str}
    (h : normalizer.normalizeField recordNumber raw p.1 p.2 = .ok (.str s)) :
    (∃ t, s = canonicalText t) ∨ raw.get p.1 = .str s := by
  rw [RecordNormalizer.normalizeField] at h
  split at h
  · split at h
    · cases h
    · cases h
  split at h
  · rw [RecordNormalizer.normalizeTimestampField.eq_def] at h
    split at h
    · split at h
      · next text htext =>
        obtain ⟨t, -, rfl⟩ := normalizeTimestamp_eq_ok_iff.mp htext
        exact .inl ⟨t, (Value.str.inj (Except.ok.inj h)).symm⟩
      · cases h
      · cases h
    · cases h
  split at h
  · obtain ⟨x, -, hx⟩ := bind_eq_ok_iff.mp h
    cases hx
  rw [RecordNormalizer.castPlainValue.eq_def] at h
  split at h
  · obtain ⟨x, -, hx⟩ := bind_eq_ok_iff.mp h
    cases hx
  · split at h
    · cases h
    · cases h
    · split at h
      · cases h
      · cases h
  · split at h
    · cases h
    · cases h
  · exact .inr (Except.ok.inj h)
  · exact .inr (Except.ok.inj h)

/-- A text besides the timestamp stays as it is, or is null. -/
theorem normalizeField_of_text [Mul R] {normalizer : RecordNormalizer R} {recordNumber : ℕ} {raw : Record R}
    {field : Str} {definition : FieldDefinition} {v : Value R}
    (hne : field ≠ normalizer.profile.timestampField)
    (hfactor : normalizer.factorByField.get? field = none)
    (htype : definition.type = .string ∨ definition.type = .datetime)
    (h : normalizer.normalizeField recordNumber raw field definition = .ok v) :
    v = .none ∨ v = raw.get field := by
  rw [RecordNormalizer.normalizeField, if_neg hne, hfactor] at h
  split at h
  · split at h
    · cases h
    · exact .inl (Except.ok.inj h).symm
  · rcases htype with htype | htype
    · rw [RecordNormalizer.castPlainValue.eq_def, htype] at h
      exact .inr (Except.ok.inj h).symm
    · rw [RecordNormalizer.castPlainValue.eq_def, htype] at h
      exact .inr (Except.ok.inj h).symm

variable [StripsText R]

/-- A number that is accepted is read as one. -/
theorem exists_toFloat_of_typeOk {evaluator : Validation.RecordEvaluator} {value : Value R}
    {converted : Option R} (hok : evaluator.typeOk value .float = true) (hnull : isNull value = false)
    (hconverted : toFloat value = some converted) : ∃ x, converted = some x := by
  rw [Validation.RecordEvaluator.typeOk.eq_def] at hok
  cases value with
  | str s =>
    split at hok
    · next s heq =>
      obtain rfl := Value.str.inj heq
      obtain ⟨x, hx⟩ := Option.isSome_iff_exists.mp hok
      rw [toFloat, if_neg (of_decide_eq_false hnull), StripsText.ofStr?_strip _ x hx] at hconverted
      exact ⟨x, (Option.some.inj hconverted).symm⟩
    · cases hok
  | int n =>
    obtain ⟨x, -, hx⟩ := Option.map_eq_some_iff.mp hconverted
    exact ⟨x, hx.symm⟩
  | float x => exact ⟨x, (Option.some.inj hconverted).symm⟩
  | _ =>
    split at hok
    · next heq => cases heq
    · cases hok

theorem finiteNumber_of_accepts {evaluator : Validation.RecordEvaluator} {definition : FieldDefinition}
    {value : Value R} (htype : definition.type = .float) (haccepts : AcceptsValue evaluator definition value)
    (hnull : isNull value = false) {converted : Option R} (hconverted : toFloat value = some converted)
    (hfinite : ∀ x ∈ converted, FloatText.isFinite x = true) (recordNumber : ℕ) (field : Str) :
    ∃ x, RecordNormalizer.finiteNumber recordNumber field value = .ok x := by
  have hnullValue : ¬evaluator.isNullValue value = true := by
    intro h
    rw [isNull_of_isNullValue h] at hnull
    cases hnull
  have hdatetime : ¬definition.type = .datetime := by
    rw [htype]
    exact FieldType.noConfusion
  rw [AcceptsValue, if_neg hnullValue, if_neg hdatetime, htype] at haccepts
  obtain ⟨x, rfl⟩ := exists_toFloat_of_typeOk haccepts hnull hconverted
  refine ⟨x, ?_⟩
  rw [RecordNormalizer.finiteNumber, hconverted]
  exact if_pos (hfinite x rfl)

/-- **A field besides the timestamp is always normalized.** -/
theorem exists_normalizeField [Mul R] {normalizer : RecordNormalizer R} (hfits : SensorFits schema profile checks)
    (hfactors : normalizer.factorByField.keys = profile.fieldDimensions.keys)
    (hprofile : normalizer.profile = profile) {record : Record R}
    (hconforms : ConformsTo (evaluatorOf schema type) record) {recordNumber : ℕ}
    (hchecked : NoFieldError checks (recordNumber, record)) {p : Str × FieldDefinition}
    (hp : p ∈ schema.fields.items) (hne : p.1 ≠ Str.ofString "timestamp") :
    ∃ v, normalizer.normalizeField recordNumber record p.1 p.2 = .ok v := by
  have hlookup : schema.fields.get? p.1 = some p.2 := Dict.get?_eq_some_iff.mpr hp
  have hfield : p.1 ≠ normalizer.profile.timestampField := by rwa [hprofile, hfits.timestamp]
  rw [RecordNormalizer.normalizeField]
  by_cases hnull : isNull (record.get p.1) = true
  · rw [if_pos hnull]
    rcases hfits.fields p hp hne with ⟨htype, hnullable, -⟩ | ⟨-, hrequired⟩
    · -- a required number is there, and a null in its place has not passed
      by_cases hrequired : p.2.required = true
      · exfalso
        obtain ⟨value, hvalue⟩ := Dict.mem_keys_iff.mp (hconforms.required p hp hrequired)
        have haccepts := hconforms.accepted p hp value hvalue
        rw [Record.get_of_mem (Dict.get?_eq_some_iff.mp hvalue)] at hnull
        rw [isNull_of_accepts htype (hnullable hrequired) haccepts] at hnull
        cases hnull
      · exact ⟨.none, if_neg hrequired⟩
    · exact ⟨.none, if_neg (by rw [hrequired]; exact Bool.false_ne_true)⟩
  have hnull : isNull (record.get p.1) = false := Bool.eq_false_iff.mpr hnull
  rw [if_neg (by rw [hnull]; exact Bool.false_ne_true), if_neg hfield]
  have hnumber (hfloat : p.2.type = .float) (hcheck : ChecksField checks p.1) :
      ∃ x, RecordNormalizer.finiteNumber recordNumber p.1 (record.get p.1) = .ok x := by
    obtain ⟨converted, hconverted, hfinite⟩ := hcheck _ hchecked
    rcases hget : record.get? p.1 with _ | value
    · rw [Record.get, Dict.getD, hget] at hnull
      cases hnull
    · have heq : record.get p.1 = value := Record.get_of_mem (Dict.get?_eq_some_iff.mp hget)
      rw [heq] at hnull hconverted ⊢
      exact finiteNumber_of_accepts hfloat (hconforms.accepted p hp value hget) hnull hconverted hfinite ..
  rcases hfits.fields p hp hne with ⟨htype, -, hcheck⟩ | ⟨htype, -⟩
  · obtain ⟨x, hx⟩ := hnumber htype hcheck
    rcases normalizer.factorByField.get? p.1 with _ | factor
    · refine ⟨.float x, ?_⟩
      rw [RecordNormalizer.castPlainValue.eq_def, htype]
      dsimp only
      rw [hx]
      rfl
    · refine ⟨.float (x * factor), ?_⟩
      dsimp only
      rw [RecordNormalizer.convertNumeric, hx]
      rfl
  · -- the units of a text are not converted
    rcases hfactor : normalizer.factorByField.get? p.1 with _ | factor
    · refine ⟨record.get p.1, ?_⟩
      rw [RecordNormalizer.castPlainValue.eq_def, htype]
    · exfalso
      have hmem : p.1 ∈ profile.fieldDimensions.keys :=
        hfactors ▸ Dict.mem_keys_iff.mpr ⟨factor, hfactor⟩
      rw [hfits.numeric p.1 hmem p.2 hlookup] at htype
      cases htype

/-! ## One record -/

/-- **One way to fail is left**: a record that has passed the gates is normalized if its instant has a
`datetime` in UTC, and raises `OverflowError` at its timestamp if not. -/
theorem normalizeRecord_of_gates [Mul R] {sourceUnits : Dict Str Str} {normalizer : RecordNormalizer R}
    (hinit : RecordNormalizer.init schema profile sourceUnits = .ok normalizer)
    (hfits : SensorFits schema profile checks) {recordNumber : ℕ} {raw : Record R}
    (hconforms : ConformsTo (evaluatorOf schema type) raw) (hchecked : NoFieldError checks (recordNumber, raw))
    {e : ℤ} (he : Integrity.instantOf raw = some e) :
    (Datetime.ofEpochUs? e ≠ none → ∃ record, normalizer.normalizeRecord recordNumber raw = .ok record) ∧
      (Datetime.ofEpochUs? e = none → normalizer.normalizeRecord recordNumber raw =
        .error (.overflowError recordNumber (Str.ofString "timestamp"))) := by
  obtain ⟨hschema, hprofile, hfactors⟩ := RecordNormalizer.init_eq_ok hinit
  have hother : ∀ p ∈ schema.fields.items, p.1 ≠ Str.ofString "timestamp" →
      ∃ v, normalizer.normalizeField recordNumber raw p.1 p.2 = .ok v :=
    fun p hp hne ↦ exists_normalizeField hfits hfactors hprofile hconforms hchecked hp hne
  obtain ⟨text, htext, hinstant⟩ := Integrity.instantOf_eq_some_iff.mp he
  have htimestamp := normalizeField_timestamp hprofile hfits htext hinstant recordNumber
  obtain ⟨hok, herror⟩ := normalizeRecord_of_mapped recordNumber
    (resolveFieldNames_of_conforms hprofile hfits hconforms)
  rw [hschema] at hok herror
  constructor
  · intro hrange
    obtain ⟨t, ht⟩ := Option.ne_none_iff_exists'.mp hrange
    refine (exists_normalizeFields fun p hp ↦ ?_).elim hok
    by_cases hp' : p.1 = Str.ofString "timestamp"
    · exact ⟨.str (canonicalText t), by rw [hp', htimestamp, ht, Option.elim_some]⟩
    · exact hother p hp hp'
  · intro hrange
    refine herror _ (normalizeFields_eq_error ?_ (fun p _ hp ↦ ?_) hother)
    · exact List.mem_map_of_mem (f := Prod.fst) (Dict.get?_eq_some_iff.mp hfits.isTimestamp)
    · rw [hp, htimestamp, hrange, Option.elim_none]

/-- A record that has passed the gates and whose instant has a `datetime` becomes a normalized record. -/
theorem exists_normalizedRecord [Mul R] {sourceUnits : Dict Str Str} {normalizer : RecordNormalizer R}
    (hinit : RecordNormalizer.init schema profile sourceUnits = .ok normalizer)
    (hfits : SensorFits schema profile checks) {p : ℕ × Record R}
    (hconforms : ConformsTo (evaluatorOf schema type) p.2) (hchecked : NoFieldError checks p)
    (hstorable : ∀ q ∈ p.2.items, q.2.Storable) {t : Datetime}
    (ht : Integrity.instantOf p.2 = some t.epochUs) :
    ∃ r : NormalizedRecord normalizer, r.recordNumber = p.1 ∧ r.raw = p.2 ∧ r.mapped = p.2 ∧ r.time = t := by
  obtain ⟨hschema, hprofile, -⟩ := RecordNormalizer.init_eq_ok hinit
  have hmapped := resolveFieldNames_of_conforms hprofile hfits hconforms
  have hrange : Datetime.ofEpochUs? t.epochUs ≠ none := by
    rw [Datetime.ofEpochUs?_epochUs]
    exact Option.some_ne_none t
  obtain ⟨record, hrecord⟩ := (normalizeRecord_of_gates hinit hfits hconforms hchecked ht).1 hrange
  obtain ⟨text, htext, hinstant⟩ := Integrity.instantOf_eq_some_iff.mp ht
  have hfield : normalizer.profile.timestampField = Str.ofString "timestamp" := by
    rw [hprofile, hfits.timestamp]
  refine ⟨⟨p.1, p.2, p.2, record, text, t, hstorable, hmapped, hrecord, ?_, hinstant, ?_⟩, rfl, rfl, rfl, rfl⟩
  · rw [hfield, htext]
  · -- the timestamp is a field of the schema, and its value is a text
    obtain ⟨hkeys, hvalues⟩ := RecordNormalizer.normalizeRecord_eq_ok hmapped hrecord
    have hmem : Str.ofString "timestamp" ∈ record.keys := by
      rw [hkeys, hschema]
      exact Dict.mem_keys_iff.mpr ⟨_, hfits.isTimestamp⟩
    obtain ⟨v, hv⟩ := Dict.mem_keys_iff.mp hmem
    obtain ⟨definition, -, heq⟩ := hvalues _ (Dict.get?_eq_some_iff.mp hv)
    rw [normalizeField_timestamp hprofile hfits htext hinstant, Datetime.ofEpochUs?_epochUs,
      Option.elim_some] at heq
    rw [hfield, Record.get_of_mem (Dict.get?_eq_some_iff.mp hv), ← Except.ok.inj heq]
    intro heq
    cases heq

end Fields

end Normalization

end ForgeData
