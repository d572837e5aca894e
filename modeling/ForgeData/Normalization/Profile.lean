import ForgeData.Normalization.Timestamps
import ForgeData.Normalization.Transforms

/-!
# Normalization profiles and the record normalizer

A profile names the aliases of fields and the dimensions of the fields whose units are converted.
`RecordNormalizer` looks up the conversion factors once, and makes of each raw record one with exactly
the fields of the schema, in the order of the schema.
-/

namespace ForgeData

namespace Normalization

open Python

variable {R : Type}

/-- `UnitDimension`: the factor of each source unit. -/
structure UnitDimension (R : Type) where
  name : Str
  canonicalUnit : Str
  factors : Dict Str R

/-- `NormalizationProfile`. -/
structure NormalizationProfile (R : Type) where
  fieldAliases : Dict Str Str
  fieldDimensions : Dict Str Str
  dimensions : Dict Str (UnitDimension R)
  timestampField : Str := Str.ofString "timestamp"

/-- The exceptions of normalization. -/
inductive NormalizationError where
  /-- `MissingUnitMetadataError`. -/
  | missingUnitMetadata (dimension field : Str)
  /-- `UnsupportedSourceUnitError`. -/
  | unsupportedSourceUnit (unit dimension : Str)
  /-- The `KeyError` of a dimension that the profile does not define. -/
  | unknownDimension (dimension : Str)
  /-- `AmbiguousFieldMappingError`. -/
  | ambiguousFieldMapping (recordNumber : ℕ)
  /-- `NormalizationConversionError`: the field is missing or null. -/
  | missingRequired (recordNumber : ℕ) (field : Str)
  /-- `NormalizationConversionError`: the value of the field cannot be converted. -/
  | conversion (recordNumber : ℕ) (field : Str)
  /-- `OverflowError`, of an integer or of a timestamp. -/
  | overflowError (recordNumber : ℕ) (field : Str)
deriving DecidableEq

/-- `RecordNormalizer`: the schema, the profile and the factors of the fields that are converted. -/
structure RecordNormalizer (R : Type) where
  schema : SchemaDefinition
  profile : NormalizationProfile R
  factorByField : Dict Str R

/-- The factor of a field that has a dimension. -/
def factorOf (profile : NormalizationProfile R) (sourceUnits : Dict Str Str) (field dimension : Str) :
    Except NormalizationError R :=
  match profile.dimensions.get? dimension with
  | none => .error (.unknownDimension dimension)
  | some unitDimension =>
    match sourceUnits.get? dimension with
    | none => .error (.missingUnitMetadata dimension field)
    | some unit =>
      match unitDimension.factors.get? unit with
      | none => .error (.unsupportedSourceUnit unit dimension)
      | some factor => .ok factor

/-- The factors of all fields that have a dimension. -/
def factorsOf (profile : NormalizationProfile R) (sourceUnits : Dict Str Str) :
    List (Str × Str) → Except NormalizationError (List (Str × R))
  | [] => .ok []
  | (field, dimension) :: l => do
    let factor ← factorOf profile sourceUnits field dimension
    return (field, factor) :: (← factorsOf profile sourceUnits l)

/-- `RecordNormalizer.__init__`. -/
def RecordNormalizer.init (schema : SchemaDefinition) (profile : NormalizationProfile R)
    (sourceUnits : Dict Str Str) : Except NormalizationError (RecordNormalizer R) := do
  let factors ← factorsOf profile sourceUnits profile.fieldDimensions.items
  return ⟨schema, profile, Dict.ofPairs factors⟩

namespace RecordNormalizer

/-- `_normalize_timestamp_field`. -/
def normalizeTimestampField (recordNumber : ℕ) (field : Str) :
    Value R → Except NormalizationError (Value R)
  | .str rawValue =>
    match normalizeTimestamp rawValue with
    | .ok text => .ok (.str text)
    | .error .overflowError => .error (.overflowError recordNumber field)
    | .error _ => .error (.conversion recordNumber field)
  | _ => .error (.conversion recordNumber field)

variable [FloatText R] [Mul R]

/-- A finite number. -/
def finiteNumber (recordNumber : ℕ) (field : Str) (rawValue : Value R) : Except NormalizationError R :=
  match toFloat rawValue with
  | none => .error (.overflowError recordNumber field)
  | some none => .error (.conversion recordNumber field)
  | some (some x) => if FloatText.isFinite x then .ok x else .error (.conversion recordNumber field)

/-- `_convert_numeric`. -/
def convertNumeric (recordNumber : ℕ) (field : Str) (rawValue : Value R) (factor : R) :
    Except NormalizationError (Value R) := do
  return .float ((← finiteNumber recordNumber field rawValue) * factor)

/-- `_cast_plain_value`. -/
def castPlainValue (recordNumber : ℕ) (type : FieldType) (field : Str) (rawValue : Value R) :
    Except NormalizationError (Value R) :=
  match type with
  | .float => do return .float (← finiteNumber recordNumber field rawValue)
  | .integer =>
    match toFloat rawValue with
    | none => .error (.overflowError recordNumber field)
    | some none => .error (.conversion recordNumber field)
    | some (some x) =>
      match FloatText.integer? x with
      | some n => .ok (.int n)
      | none => .error (.conversion recordNumber field)
  | .boolean =>
    match toBool rawValue with
    | some b => .ok (.bool b)
    | none => .error (.conversion recordNumber field)
  | .string | .datetime => .ok rawValue

/-- The value of one field of the schema in the normalized record. -/
def normalizeField (normalizer : RecordNormalizer R) (recordNumber : ℕ) (mapped : Record R)
    (field : Str) (definition : FieldDefinition) : Except NormalizationError (Value R) :=
  let rawValue := mapped.get field
  if isNull rawValue then
    if definition.required then .error (.missingRequired recordNumber field) else .ok .none
  else if field = normalizer.profile.timestampField then
    normalizeTimestampField recordNumber field rawValue
  else
    match normalizer.factorByField.get? field with
    | some factor => convertNumeric recordNumber field rawValue factor
    | none => castPlainValue recordNumber definition.type field rawValue

/-- The fields of the normalized record, in the order of the schema. -/
def normalizeFields (normalizer : RecordNormalizer R) (recordNumber : ℕ) (mapped : Record R) :
    List (Str × FieldDefinition) → Except NormalizationError (List (Str × Value R))
  | [] => .ok []
  | (field, definition) :: l => do
    let value ← normalizer.normalizeField recordNumber mapped field definition
    return (field, value) :: (← normalizer.normalizeFields recordNumber mapped l)

theorem map_fst_normalizeFields {normalizer : RecordNormalizer R} {recordNumber : ℕ}
    {mapped : Record R} {l : List (Str × FieldDefinition)} {fields : List (Str × Value R)}
    (h : normalizer.normalizeFields recordNumber mapped l = .ok fields) :
    fields.map Prod.fst = l.map Prod.fst := by
  induction l generalizing fields with
  | nil =>
    obtain rfl := Except.ok.inj h
    rfl
  | cons p l ih =>
    obtain ⟨field, definition⟩ := p
    simp only [normalizeFields, bind, Except.bind] at h
    split at h
    · exact absurd h nofun
    split at h
    · exact absurd h nofun
    · next hl =>
      obtain rfl := Except.ok.inj h
      rw [List.map_cons, List.map_cons, ih hl]

/-- `normalize_record`. -/
def normalizeRecord (normalizer : RecordNormalizer R) (recordNumber : ℕ) (rawRecord : Record R) :
    Except NormalizationError (Record R) :=
  match resolveFieldNames rawRecord normalizer.profile.fieldAliases with
  | none => .error (.ambiguousFieldMapping recordNumber)
  | some mapped =>
    match h : normalizer.normalizeFields recordNumber mapped normalizer.schema.fields.items with
    | .error e => .error e
    | .ok fields => .ok ⟨fields, by
        rw [map_fst_normalizeFields h]
        exact normalizer.schema.fields.nodup⟩

end RecordNormalizer

end Normalization

end ForgeData
