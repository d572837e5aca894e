import ForgeData.Python.FloatText
import ForgeData.Python.Lines
import ForgeData.Python.Text

/-!
# Integers and their texts

`int(text)`: white space around the number, a sign, and decimal digits of any script with single
underscores between them. The information separators count as white space for `str.strip`, but not here.
-/

namespace Python

namespace Str

open CodePoint

/-- The value of a digit of any script. -/
def digitValueOf? (c : CodePoint) : Option ℕ :=
  (digitZeros.find? fun z ↦ z ≤ c.val && c.val ≤ z + 9).map (c.val - ·)

/-- The digits of a number with single underscores between them. -/
def intDigits? : Str → Option (List ℕ)
  | [] => none
  | [c] => (digitValueOf? c).map ([·])
  | c :: d :: s =>
    match digitValueOf? c, (if d = ofChar '_' then intDigits? s else intDigits? (d :: s)) with
    | some digit, some digits => some (digit :: digits)
    | _, _ => none

/-- The sign of a number, and what comes after it. -/
def intSign : Str → ℤ × Str
  | [] => (1, [])
  | c :: s => if c = ofChar '-' then (-1, s) else if c = ofChar '+' then (1, s) else (1, c :: s)

/-- White space around a number. -/
def isNumberSpace (c : CodePoint) : Bool := c.isSpace && !(28 ≤ c.val && c.val ≤ 31)

/-- The text without the white space around it. -/
def stripNumber (s : Str) : Str :=
  ((s.dropWhile isNumberSpace).reverse.dropWhile isNumberSpace).reverse

/-- `int(text)`; `none` is `ValueError`, also that of a number with too many digits. -/
def toInt? (s : Str) : Option ℤ :=
  let (sign, rest) := intSign s.stripNumber
  match intDigits? rest with
  | some digits => if digits.length ≤ maxStrDigits then some (sign * ofDigits digits) else none
  | none => none

end Str

example : (Str.ofString " -1_000\n").toInt? = some (-1000) ∧ (Str.ofString "1__0").toInt? = none := by
  decide +kernel

end Python
