import ForgeData.Integrity.Records
import ForgeData.Python.JsonEncoder

/-!
# Writing normalized records

The writers of normalized artifacts: CSV with the fields of the schema as header, JSONL with one
object a line, JSON with an indented array. What the writer makes of a list or a dictionary in a CSV
cell is a parameter, the `str` of the value.
-/

namespace ForgeData

namespace Normalization

open Python

variable {R : Type} [FloatText R] (strOf : Value R → Str)

/-- `_csv_cell`. -/
def csvCell : Value R → Str
  | .none => []
  | .bool b => if b then Str.ofString "true" else Str.ofString "false"
  | .float x => FloatText.repr x
  | .int n => encodeInt n
  | .str s => s
  | .list l => strOf (.list l)
  | .dict fields => strOf (.dict fields)

/-- The rows of a CSV artifact. -/
def csvRows (fieldnames : List Str) (records : List (Record R)) : List (List Str) :=
  fieldnames :: records.map fun record ↦ fieldnames.map fun name ↦ csvCell strOf (record.get name)

/-- `_write_csv_records`; `none` is `UnicodeEncodeError`. -/
def writeCsvRecords (fieldnames : List Str) (records : List (Record R)) : Option (List Byte) :=
  Utf8.encode ((csvRows strOf fieldnames records).flatMap Csv.writeRow)

/-- The line of a record in a JSONL artifact. -/
def jsonLine (record : Record R) : Str := dumps .default (.dict record.items) ++ [CodePoint.ofChar '\n']

/-- `_write_jsonl_records`. -/
def writeJsonlRecords (records : List (Record R)) : Option (List Byte) :=
  Utf8.encode (records.flatMap jsonLine)

/-- `json.dumps(v, indent=2)`. -/
def indented : JsonStyle := ⟨true, 0, 1, some 2, false⟩

/-- `_write_json_records`. -/
def writeJsonRecords (records : List (Record R)) : Option (List Byte) :=
  Utf8.encode (dumps indented (.list (records.map fun record ↦ .dict record.items)))

/-- `write_records`. -/
def writeRecords (type : FileType) (fieldnames : List Str) (records : List (Record R)) :
    Option (List Byte) :=
  match type with
  | .csv => writeCsvRecords strOf fieldnames records
  | .jsonl => writeJsonlRecords records
  | .json => writeJsonRecords records

end Normalization

end ForgeData
