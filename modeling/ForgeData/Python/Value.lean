import ForgeData.Python.CodePoints
import ForgeData.Python.Dict

/-!
# Values of records

The Python values that a record read from a file can hold: what `json.loads` returns, and the
strings of a CSV row. Floats are any type `R`.
-/

namespace Python

/-- A value of a record. -/
inductive Value (R : Type) where
  | none
  | bool (b : Bool)
  | int (n : ℤ)
  | float (x : R)
  | str (s : Str)
  | list (l : List (Value R))
  | dict (fields : List (Str × Value R))

/-- A record: the values under the names of its fields. -/
abbrev Record (R : Type) := Dict Str (Value R)

variable {R : Type}

/-- `record.get(name)`. -/
def Record.get (record : Record R) (name : Str) : Value R := record.getD name .none

theorem Record.get_of_mem {record : Record R} {p : Str × Value R} (h : p ∈ record.items) :
    record.get p.1 = p.2 := by
  rw [Record.get, Dict.getD, Dict.get?_eq_some_iff.mpr h]
  rfl

end Python
