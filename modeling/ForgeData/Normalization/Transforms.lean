import ForgeData.Python.FloatText
import ForgeData.Python.Lines
import ForgeData.Validation.Schema

/-!
# Values, numbers and booleans

`to_float` and `to_bool` bridge the strings of CSV cells and the native values of JSON;
`resolve_field_names` replaces aliases by canonical names.
-/

namespace ForgeData

open Python

variable {R : Type}

/-- `value is None or (isinstance(value, str) and value.strip() == "")`. -/
def isNull : Value R → Bool
  | .none => true
  | .str s => s.isBlank
  | _ => false

section Float

variable [FloatText R]

/-- `to_float`: `some none` for what is not numeric; `none` is the `OverflowError` of an integer that
no float is near. -/
def toFloat : Value R → Option (Option R)
  | .none | .bool _ | .list _ | .dict _ => some none
  | .int n => (FloatText.ofInt? n).map some
  | .float x => some (some x)
  | .str s => if s.strip = [] then some none else some (FloatText.ofStr? s.strip)

end Float

/-- `to_bool`. -/
def toBool : Value R → Option Bool
  | .bool b => some b
  | .str s =>
    let lowered := s.strip.lowerAscii
    if lowered = Str.ofString "true" then some true
    else if lowered = Str.ofString "false" then some false
    else none
  | _ => none

namespace Normalization

/-- `resolve_field_names`; `none` is `AmbiguousFieldMappingError`. -/
def resolveFieldNames (record : Record R) (aliases : Dict Str Str) : Option (Record R) :=
  let names := record.items.map fun p ↦ aliases.getD p.1 p.1
  if h : names.Nodup then
    some ⟨names.zip (record.items.map Prod.snd), by
      rwa [List.map_fst_zip (by simp [names])]⟩
  else none

end Normalization

end ForgeData
