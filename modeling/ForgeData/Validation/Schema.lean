import ForgeData.Python.Value

/-!
# Schemas

The schema definition: the fields of a record with their types, and whether a field is required and
may be null.
-/

namespace ForgeData

open Python

/-- `FieldType`. -/
inductive FieldType where
  | string
  | integer
  | float
  | boolean
  | datetime
deriving DecidableEq

/-- `FieldDefinition`. -/
structure FieldDefinition where
  type : FieldType
  required : Bool := false
  nullable : Bool := true
deriving DecidableEq

/-- `SchemaDefinition`. -/
structure SchemaDefinition where
  schemaName : Str
  schemaVersion : Str
  fields : Dict Str FieldDefinition
  allowExtraFields : Bool := false

end ForgeData
