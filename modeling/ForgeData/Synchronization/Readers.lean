import ForgeData.Normalization.Records
import ForgeData.Normalization.Timestamps
import ForgeData.Normalization.Transforms

/-!
# Reading a normalized artifact

`iter_typed_records` reads the records of an artifact again, takes their timestamps as epochs, casts
the other fields to the types of the schema, and raises at the first timestamp that goes backward.
-/

namespace ForgeData

namespace Synchronization

open Python Normalization

variable {R : Type} [FloatText R]

/-- The exceptions of the reader. -/
inductive StreamError where
  /-- An exception of reading the file. -/
  | read (e : ReadError)
  /-- `InvalidTimestampError`, or the `OverflowError` of a timestamp. -/
  | timestamp (e : TimestampError)
  /-- The `OverflowError` of an integer that no float is near. -/
  | overflowError (field : Str)
  /-- `NonMonotonicStreamError`: the record, its epoch and the epoch before it. -/
  | nonMonotonicStream (recordNumber : ℕ) (epochUs previousEpochUs : ℤ)
deriving DecidableEq

/-- `_cast_field`; `none` is `OverflowError`. -/
def castField (value : Value R) (type : Option FieldType) : Option (Value R) :=
  if isNull value then some .none
  else match type with
    | some .float | some .integer => (toFloat value).map fun x ↦ match x with
      | some x => .float x
      | none => .none
    | some .boolean => some (match toBool value with
      | some b => .bool b
      | none => .none)
    | some .string | some .datetime | none => some value

/-- The fields of a typed record: all but the timestamp. -/
def typedFields (schema : SchemaDefinition) (timestampField : Str) :
    List (Str × Value R) → Except StreamError (List (Str × Value R))
  | [] => .ok []
  | (name, value) :: l =>
    if name = timestampField then typedFields schema timestampField l
    else match castField value ((schema.fields.get? name).map FieldDefinition.type) with
      | none => .error (.overflowError name)
      | some typed => do return (name, typed) :: (← typedFields schema timestampField l)

/-- A record of the typed stream: its number, its epoch and its fields. -/
structure TypedRecord (R : Type) where
  recordNumber : ℕ
  epochUs : ℤ
  fields : List (Str × Value R)

/-- One turn of the loop of `iter_typed_records`, with the epoch of the record before. -/
def typedStep (schema : SchemaDefinition) (timestampField : Str) (previous : Option ℤ)
    (numbered : ℕ × Record R) : Except StreamError (Option ℤ × List (TypedRecord R)) :=
  match parseCanonicalTimestampUs (numbered.2.get timestampField) with
  | .error e => .error (.timestamp e)
  | .ok epochUs =>
    match previous with
    | some previousEpochUs =>
      if epochUs < previousEpochUs then
        .error (.nonMonotonicStream numbered.1 epochUs previousEpochUs)
      else do
        let fields ← typedFields schema timestampField numbered.2.items
        return (some epochUs, [⟨numbered.1, epochUs, fields⟩])
    | none => do
      let fields ← typedFields schema timestampField numbered.2.items
      return (some epochUs, [⟨numbered.1, epochUs, fields⟩])

/-- What follows when the file has been read: the exception of reading, if there was one. -/
def Gen.andRaise {ε δ α : Type} (g : Gen ε α) (raised : Option δ) (wrap : δ → ε) : Gen ε α :=
  match g.raised with
  | some e => ⟨g.yields, some e⟩
  | none => ⟨g.yields, raised.map wrap⟩

/-- `iter_typed_records`. -/
def iterTypedRecords (type : FileType) (schema : SchemaDefinition) (timestampField : Str)
    (bytes : List Byte) : Gen StreamError (TypedRecord R) :=
  let records : Gen ReadError (ℕ × Record R) := Integrity.iterRecords type bytes
  Gen.andRaise (Gen.loop (typedStep schema timestampField) (fun _ ↦ []) none records.yields)
    records.raised .read

end Synchronization

end ForgeData
