import ForgeData.Python.JsonEncoder

/-!
# `json.loads`

The JSON decoder. A text in quotes is read into units first, and an escaped high surrogate with an
escaped low one right after it is then one code point. A repeated key keeps the place of its first
occurrence and the value of its last.

The scanner of values spends one unit of fuel for each value, item and field; every one of them
takes a character of the text, so the length of the text is fuel enough.
-/

namespace Python

open Str CodePoint

/-- The exceptions of the decoder, but for the `RecursionError` of values that are nested deeper than
the interpreter's stack. -/
inductive JsonError where
  /-- `json.JSONDecodeError`. -/
  | decodeError
  /-- `ValueError`: an integer of more digits than `int` converts. -/
  | tooManyDigits
deriving DecidableEq

/-! ## Strings -/

/-- The value of a hexadecimal digit. -/
def hexValue? (c : CodePoint) : Option ℕ :=
  if 48 ≤ c.val ∧ c.val ≤ 57 then some (c.val - 48)
  else if 97 ≤ c.val ∧ c.val ≤ 102 then some (c.val - 87)
  else if 65 ≤ c.val ∧ c.val ≤ 70 then some (c.val - 55)
  else none

/-- A unit of a string: a code point as it stands, or an escaped code unit. -/
inductive StrUnit where
  | raw (c : CodePoint)
  | escaped (u : ℕ)
deriving DecidableEq

/-- The escape after a backslash. -/
def scanEscape : Str → Option (StrUnit × Str)
  | [] => none
  | e :: s =>
    if e = ofChar 'u' then
      match s with
      | a :: b :: c :: d :: s => do
        let u := (((← hexValue? a) * 16 + (← hexValue? b)) * 16 + (← hexValue? c)) * 16
          + (← hexValue? d)
        some (.escaped u, s)
      | _ => none
    else if e = ofChar '"' ∨ e = ofChar '\\' ∨ e = ofChar '/' then some (.raw e, s)
    else if e = ofChar 'n' then some (.raw (ofChar '\n'), s)
    else if e = ofChar 'r' then some (.raw (ofChar '\r'), s)
    else if e = ofChar 't' then some (.raw (ofChar '\t'), s)
    else if e = ofChar 'f' then some (.raw 12, s)
    else if e = ofChar 'b' then some (.raw 8, s)
    else none

/-- The units up to the closing quote; a control character is refused. -/
def scanUnits : ℕ → Str → Option (List StrUnit × Str)
  | 0, _ | _, [] => none
  | n + 1, c :: s =>
    if c = ofChar '"' then some ([], s)
    else if c = ofChar '\\' then do
      let (unit, s) ← scanEscape s
      let (units, s) ← scanUnits n s
      some (unit :: units, s)
    else if c.val < 32 then none
    else do
      let (units, s) ← scanUnits n s
      some (.raw c :: units, s)

/-- The code point of two surrogates. -/
def joinSurrogates (hi lo : ℕ) : CodePoint :=
  Fin.ofNat _ (0x10000 + (hi - 0xD800) * 1024 + (lo - 0xDC00))

def isHighSurrogate (u : ℕ) : Bool := 0xD800 ≤ u && u ≤ 0xDBFF

def isLowSurrogate (u : ℕ) : Bool := 0xDC00 ≤ u && u ≤ 0xDFFF

/-- The string of the units: escaped surrogates that are a pair become one code point. -/
def joinUnits : List StrUnit → Str
  | [] => []
  | .raw c :: units => c :: joinUnits units
  | .escaped hi :: .escaped lo :: units =>
    if isHighSurrogate hi && isLowSurrogate lo then joinSurrogates hi lo :: joinUnits units
    else Fin.ofNat _ hi :: joinUnits (.escaped lo :: units)
  | .escaped u :: units => Fin.ofNat _ u :: joinUnits units

/-- A string after its opening quote. -/
def scanString (s : Str) : Option (Str × Str) := do
  let (units, s) ← scanUnits s.length s
  some (joinUnits units, s)

/-! ## Numbers -/

/-- A text split after its leading digits. -/
def spanDigits (s : Str) : Str × Str := (s.takeWhile isDigit, s.dropWhile isDigit)

/-- The fraction at the front of a text; a point without digits is none. -/
def scanFraction (s : Str) : Str × Str :=
  match s with
  | c :: s' =>
    let (ds, rest) := spanDigits s'
    if c = ofChar '.' ∧ ds ≠ [] then (c :: ds, rest) else ([], s)
  | [] => ([], s)

/-- The sign of an exponent. -/
def scanSign : Str → Str × Str
  | c :: s => if c = ofChar '+' ∨ c = ofChar '-' then ([c], s) else ([], c :: s)
  | [] => ([], [])

/-- The exponent at the front of a text. -/
def scanExponent (s : Str) : Str × Str :=
  match s with
  | c :: s' =>
    let (sign, s') := scanSign s'
    let (ds, rest) := spanDigits s'
    if (c = ofChar 'e' ∨ c = ofChar 'E') ∧ ds ≠ [] then (c :: (sign ++ ds), rest) else ([], s)
  | [] => ([], s)

/-- The integer part at the front of a text: a zero, or digits that begin with another one. -/
def scanIntPart (s : Str) : Str × Str :=
  match s with
  | c :: s' => if c = ofChar '0' then ([c], s') else spanDigits s
  | [] => ([], [])

/-- The number that digits denote. -/
def digitsValue (ds : Str) : ℕ := ds.foldl (fun n c ↦ 10 * n + (c.val - 48)) 0

section Decode

variable {R : Type} [FloatText R]

/-- A number: with a fraction or an exponent it is a float. -/
def scanNumber (s : Str) : Except JsonError (Value R × Str) :=
  let (sign, s) := match s with
    | c :: s' => if c = ofChar '-' then ([c], s') else ([], s)
    | [] => ([], s)
  let (int, s) := scanIntPart s
  if int = [] then .error .decodeError
  else
    let (frac, s) := scanFraction s
    let (exp, s) := scanExponent s
    if frac = [] ∧ exp = [] then
      if int.length > maxStrDigits then .error .tooManyDigits
      else .ok (.int (if sign = [] then digitsValue int else -digitsValue int), s)
    else
      match FloatText.ofStr? (sign ++ (int ++ (frac ++ exp))) with
      | some x => .ok (.float x, s)
      | none => .error .decodeError

/-! ## Values -/

/-- JSON white space. -/
def isJsonSpace (c : CodePoint) : Bool :=
  c = ofChar ' ' ∨ c = ofChar '\t' ∨ c = ofChar '\n' ∨ c = ofChar '\r'

/-- The text after white space. -/
def skipSpace (s : Str) : Str := s.dropWhile isJsonSpace

/-- A word at the front of a text. -/
def scanWord (word : String) (v : Value R) (s : Str) : Except JsonError (Value R × Str) :=
  if ofString word <+: s then .ok (v, s.drop (ofString word).length) else .error .decodeError

/-- Decoding fails where there is none. -/
def orDecodeError {α : Type} : Option α → Except JsonError α
  | some a => .ok a
  | none => .error .decodeError

mutual

/-- `scan_once`: the value at the front of a text, and the text after it. -/
def scanOnce : ℕ → Str → Except JsonError (Value R × Str)
  | 0, _ | _, [] => .error .decodeError
  | n + 1, c :: s =>
    if c = ofChar '"' then do
      let (text, s) ← orDecodeError (scanString s)
      return (.str text, s)
    else if c = ofChar '{' then
      match skipSpace s with
      | [] => .error .decodeError
      | c' :: s' =>
        if c' = ofChar '}' then .ok (.dict [], s')
        else do
          let (fields, s) ← scanFields n (c' :: s')
          return (.dict (Dict.ofPairs fields).items, s)
    else if c = ofChar '[' then
      match skipSpace s with
      | [] => .error .decodeError
      | c' :: s' =>
        if c' = ofChar ']' then .ok (.list [], s')
        else do
          let (items, s) ← scanItems n (c' :: s')
          return (.list items, s)
    else if c = ofChar 'n' then scanWord "null" .none (c :: s)
    else if c = ofChar 't' then scanWord "true" (.bool true) (c :: s)
    else if c = ofChar 'f' then scanWord "false" (.bool false) (c :: s)
    else if c = ofChar 'N' then scanWord "NaN" (.float FloatText.nan) (c :: s)
    else if c = ofChar 'I' then scanWord "Infinity" (.float FloatText.inf) (c :: s)
    else if ofString "-Infinity" <+: c :: s then
      scanWord "-Infinity" (.float FloatText.negInf) (c :: s)
    else scanNumber (c :: s)

/-- The items of an array from its first one on, up to the closing bracket. -/
def scanItems : ℕ → Str → Except JsonError (List (Value R) × Str)
  | 0, _ => .error .decodeError
  | n + 1, s => do
    let (v, s) ← scanOnce n s
    match skipSpace s with
    | [] => .error .decodeError
    | c :: s =>
      if c = ofChar ']' then return ([v], s)
      else if c = ofChar ',' then do
        let (items, s) ← scanItems n (skipSpace s)
        return (v :: items, s)
      else .error .decodeError

/-- The fields of an object from its first one on, up to the closing brace. -/
def scanFields : ℕ → Str → Except JsonError (List (Str × Value R) × Str)
  | 0, _ | _, [] => .error .decodeError
  | n + 1, c :: s =>
    if c ≠ ofChar '"' then .error .decodeError
    else do
      let (key, s) ← orDecodeError (scanString s)
      match skipSpace s with
      | [] => .error .decodeError
      | c :: s =>
        if c ≠ ofChar ':' then .error .decodeError
        else do
          let (v, s) ← scanOnce n (skipSpace s)
          match skipSpace s with
          | [] => .error .decodeError
          | c :: s =>
            if c = ofChar '}' then return ([(key, v)], s)
            else if c = ofChar ',' then do
              let (fields, s) ← scanFields n (skipSpace s)
              return ((key, v) :: fields, s)
            else .error .decodeError

end

/-- `json.loads(s)`. -/
def loads (s : Str) : Except JsonError (Value R) :=
  if s.head? = some 0xFEFF then .error .decodeError
  else do
    let (v, rest) ← scanOnce (s.length + 1) (skipSpace s)
    if skipSpace rest = [] then return v else .error .decodeError

end Decode

end Python
