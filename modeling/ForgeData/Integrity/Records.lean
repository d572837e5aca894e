import ForgeData.Python.Csv
import ForgeData.Python.JsonDecoder
import ForgeData.Python.Lines
import ForgeData.Python.Utf8

/-!
# Records of a file

The readers that integrity, normalization and synchronization share: numbered records of a CSV, a
JSONL or a JSON file. A line or a file that is not JSON is passed over, and so is everything that is
not an object; bytes that are not UTF-8, a malformed CSV row and an integer with too many digits
raise. The bytes are decoded before the first record is read.
-/

namespace ForgeData

open Python

/-- The exceptions of reading a file of records. -/
inductive ReadError where
  /-- `UnicodeDecodeError`. -/
  | unicodeDecodeError
  /-- `csv.Error`. -/
  | csvError
  /-- The `ValueError` of an integer with more digits than `int` reads. -/
  | tooManyDigits
deriving DecidableEq

/-- The extensions that have readers and writers. -/
inductive FileType where
  | csv
  | json
  | jsonl
deriving DecidableEq

variable {R : Type} [FloatText R]

/-! ## CSV -/

/-- A row of `csv.DictReader`: the record, and the cells beyond the header, under the key `None`. -/
structure DictRow (R : Type) where
  record : Record R
  rest : List Str

/-- The row as a dictionary; fields that the row has no cells for are `None`. -/
def DictRow.ofCells (fieldnames row : List Str) : DictRow R where
  record := Dict.ofPairs (fieldnames.zip
    (row.map .str ++ List.replicate (fieldnames.length - row.length) .none))
  rest := row.drop fieldnames.length

/-- `csv.DictReader`: the names of the fields, if there is a first row, and the rows after it that are
not empty. -/
def dictReader (text : Str) : Option (List Str) × Gen ReadError (DictRow R) :=
  let rows := Csv.reader text
  let raised := rows.raised.map fun _ ↦ ReadError.csvError
  match rows.yields with
  | [] => (none, ⟨[], raised⟩)
  | fieldnames :: rows =>
    (some fieldnames, ⟨(rows.filter (· ≠ [])).map (DictRow.ofCells fieldnames), raised⟩)

namespace Integrity

/-- Values with their numbers, from `first` on. -/
def enumerate {α : Type} : ℕ → List α → List (ℕ × α)
  | _, [] => []
  | first, a :: l => (first, a) :: enumerate (first + 1) l

/-- `_iter_csv_records`. -/
def iterCsvRecords (bytes : List Byte) : Gen ReadError (ℕ × Record R) :=
  match Utf8.decode bytes with
  | none => ⟨[], some .unicodeDecodeError⟩
  | some text =>
    let rows : Gen ReadError (DictRow R) := (dictReader text).2
    ⟨enumerate 1 (rows.yields.map DictRow.record), rows.raised⟩

/-! ## JSON -/

/-- The object of a parsed record. -/
def asRecord? : Value R → Option (Record R)
  | .dict fields => some (Dict.ofPairs fields)
  | _ => none

/-- `_iter_jsonl_records`, of the lines from number `lineNumber` on. -/
def iterJsonLines : ℕ → List Str → Gen ReadError (ℕ × Record R)
  | _, [] => ⟨[], none⟩
  | lineNumber, rawLine :: lines =>
    let line := rawLine.strip
    if line = [] then iterJsonLines (lineNumber + 1) lines
    else match loads line with
      | .error .decodeError => iterJsonLines (lineNumber + 1) lines
      | .error .tooManyDigits => ⟨[], some .tooManyDigits⟩
      | .ok v =>
        match asRecord? v with
        | some record => (iterJsonLines (lineNumber + 1) lines).prepend [(lineNumber, record)]
        | none => iterJsonLines (lineNumber + 1) lines

/-- `_iter_jsonl_records`. -/
def iterJsonlRecords (bytes : List Byte) : Gen ReadError (ℕ × Record R) :=
  match Utf8.decode bytes with
  | none => ⟨[], some .unicodeDecodeError⟩
  | some text => iterJsonLines 1 (Str.linesOf (Str.universalNewlines text))

/-- The records of a parsed file: the object itself, or the items of the array. -/
def payloadRecords : Value R → List (Value R)
  | .dict fields => [.dict fields]
  | .list l => l
  | _ => []

/-- `_iter_json_records`. -/
def iterJsonRecords (bytes : List Byte) : Gen ReadError (ℕ × Record R) :=
  match Utf8.decode bytes with
  | none => ⟨[], none⟩
  | some text =>
    match loads (Str.universalNewlines text) with
    | .error .decodeError => ⟨[], none⟩
    | .error .tooManyDigits => ⟨[], some .tooManyDigits⟩
    | .ok payload =>
      ⟨(enumerate 1 (payloadRecords payload)).filterMap fun p ↦ (asRecord? p.2).map (p.1, ·), none⟩

/-- `iter_records`. -/
def iterRecords (type : FileType) (bytes : List Byte) : Gen ReadError (ℕ × Record R) :=
  match type with
  | .csv => iterCsvRecords bytes
  | .json => iterJsonRecords bytes
  | .jsonl => iterJsonlRecords bytes

end Integrity

end ForgeData
