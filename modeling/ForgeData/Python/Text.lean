import Mathlib.Data.List.Basic
import Mathlib.Data.String.Basic
import Mathlib.Tactic.Common

/-!
# Characters of Python strings

The two classes of characters that the code relies on: white space, which `str.strip` removes, and
the decimal digits of all scripts, which `\d` matches and `int` reads.
-/

namespace Python

/-- `str.isspace`, of one character. -/
def isSpace (c : Char) : Bool :=
  let n := c.toNat
  (9 ≤ n && n ≤ 13) || (28 ≤ n && n ≤ 32) || n == 0x85 || n == 0xA0 || n == 0x1680
    || (0x2000 ≤ n && n ≤ 0x200A) || n == 0x2028 || n == 0x2029 || n == 0x202F || n == 0x205F
    || n == 0x3000

/-- `s.strip()`. -/
def strip (s : String) : String :=
  String.ofList ((s.toList.dropWhile isSpace).reverse.dropWhile isSpace).reverse

/-- The zeros of the scripts that have decimal digits; the other nine follow each of them. -/
def digitZeros : List ℕ :=
  [0x30, 0x660, 0x6F0, 0x7C0, 0x966, 0x9E6, 0xA66, 0xAE6, 0xB66, 0xBE6, 0xC66, 0xCE6, 0xD66, 0xDE6,
    0xE50, 0xED0, 0xF20, 0x1040, 0x1090, 0x17E0, 0x1810, 0x1946, 0x19D0, 0x1A80, 0x1A90, 0x1B50,
    0x1BB0, 0x1C40, 0x1C50, 0xA620, 0xA8D0, 0xA900, 0xA9D0, 0xA9F0, 0xAA50, 0xABF0, 0xFF10, 0x104A0,
    0x10D30, 0x11066, 0x110F0, 0x11136, 0x111D0, 0x112F0, 0x11450, 0x114D0, 0x11650, 0x116C0,
    0x11730, 0x118E0, 0x11950, 0x11C50, 0x11D50, 0x11DA0, 0x11F50, 0x16A60, 0x16AC0, 0x16B50,
    0x1D7CE, 0x1D7D8, 0x1D7E2, 0x1D7EC, 0x1D7F6, 0x1E140, 0x1E2F0, 0x1E4F0, 0x1E950, 0x1FBF0]

/-- The value of a character that `\d` matches. -/
def digitValue? (c : Char) : Option ℕ :=
  (digitZeros.find? fun z ↦ z ≤ c.toNat && c.toNat ≤ z + 9).map (c.toNat - ·)

/-- The digits of a text that `\d+` matches as a whole. -/
def digits? (text : List Char) : Option (List ℕ) :=
  if text = [] then none else text.mapM digitValue?

/-- The number that the digits denote. -/
def ofDigits (digits : List ℕ) : ℕ := digits.foldl (fun value digit ↦ 10 * value + digit) 0

/-- The text that a pattern ending in `$` has to match: a line break at the end may be left over. -/
def dropNewline (text : List Char) : List Char :=
  if text.getLast? = some '\n' then text.dropLast else text

end Python
