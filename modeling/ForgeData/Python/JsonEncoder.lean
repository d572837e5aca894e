import ForgeData.Python.FloatText
import ForgeData.Python.Value
import Mathlib.Data.List.Lex
import Mathlib.Data.List.Sort
import Mathlib.Order.Fin.Basic

/-!
# `json.dumps`

The text that the JSON encoder writes for a value, with the options that the stages use:
`ensure_ascii`, the blanks after the separators, `indent` and `sort_keys`.
-/

namespace Python

open Str CodePoint

/-- The options of `json.dumps`. -/
structure JsonStyle where
  ensureAscii : Bool
  /-- The blanks after a comma. -/
  itemGap : ℕ
  /-- The blanks after a colon. -/
  keyGap : ℕ
  indent : Option ℕ
  sortKeys : Bool

/-- `json.dumps(v)`. -/
def JsonStyle.default : JsonStyle := ⟨true, 1, 1, none, false⟩

/-! ## Strings -/

/-- A hexadecimal digit, lower case. -/
def hexDigit (d : ℕ) : CodePoint := Fin.ofNat _ (if d % 16 < 10 then 48 + d % 16 else 87 + d % 16)

/-- The escape `\uXXXX` of a code unit. -/
def escapeUnit (u : ℕ) : Str :=
  [ofChar '\\', ofChar 'u', hexDigit (u / 4096), hexDigit (u / 256), hexDigit (u / 16), hexDigit u]

/-- The escapes of one letter. -/
def shortEscape (c : CodePoint) : Option CodePoint :=
  if c = ofChar '"' then some (ofChar '"')
  else if c = ofChar '\\' then some (ofChar '\\')
  else if c = ofChar '\n' then some (ofChar 'n')
  else if c = ofChar '\r' then some (ofChar 'r')
  else if c = ofChar '\t' then some (ofChar 't')
  else if c.val = 12 then some (ofChar 'f')
  else if c.val = 8 then some (ofChar 'b')
  else none

/-- A code point within a string: with `ensure_ascii` everything but printable ASCII is escaped, and
a code point above `0xFFFF` as two surrogates; without it only the control characters are. -/
def escape (ensureAscii : Bool) (c : CodePoint) : Str :=
  match shortEscape c with
  | some e => [ofChar '\\', e]
  | none =>
    if c.val < 32 then escapeUnit c.val
    else if ensureAscii && c.val > 126 then
      if c.val < 0x10000 then escapeUnit c.val
      else
        escapeUnit (0xD800 + (c.val - 0x10000) / 1024) ++
          escapeUnit (0xDC00 + (c.val - 0x10000) % 1024)
    else [c]

/-- A string in quotes. -/
def encodeStr (ensureAscii : Bool) (s : Str) : Str :=
  ofChar '"' :: (s.flatMap (escape ensureAscii) ++ [ofChar '"'])

/-! ## Values -/

section Encode

variable {R : Type} [FloatText R]

/-- A float; NaN and the infinities have names. -/
def encodeFloat (x : R) : Str :=
  match FloatText.kind x with
  | .finite => FloatText.repr x
  | .nan => ofString "NaN"
  | .inf => ofString "Infinity"
  | .negInf => ofString "-Infinity"

/-- The line break before an item, where the text is indented. -/
def JsonStyle.newline (style : JsonStyle) (level : ℕ) : Str :=
  match style.indent with
  | none => []
  | some n => ofChar '\n' :: List.replicate (n * level) (ofChar ' ')

/-- The separator of items. -/
def JsonStyle.itemSep (style : JsonStyle) (level : ℕ) : Str :=
  ofChar ',' :: (List.replicate style.itemGap (ofChar ' ') ++ style.newline level)

/-- The separator of a key and its value. -/
def JsonStyle.keySep (style : JsonStyle) : Str :=
  ofChar ':' :: List.replicate style.keyGap (ofChar ' ')

mutual

/-- The text of a value, at a level of nesting. -/
def encode (style : JsonStyle) (level : ℕ) : Value R → Str
  | .none => ofString "null"
  | .bool b => if b then ofString "true" else ofString "false"
  | .int n => encodeInt n
  | .float x => encodeFloat x
  | .str s => encodeStr style.ensureAscii s
  | .list [] => ofString "[]"
  | .list (v :: l) =>
    ofChar '[' :: (style.newline (level + 1) ++ (encode style (level + 1) v ++
      (encodeItems style (level + 1) l ++ (style.newline level ++ [ofChar ']']))))
  | .dict [] => ofString "{}"
  | .dict ((k, v) :: fields) =>
    ofChar '{' :: (style.newline (level + 1) ++ (encodeStr style.ensureAscii k ++ (style.keySep ++
      (encode style (level + 1) v ++ (encodeFields style (level + 1) fields ++
        (style.newline level ++ [ofChar '}']))))))

/-- The items after the first, each with the separator before it. -/
def encodeItems (style : JsonStyle) (level : ℕ) : List (Value R) → Str
  | [] => []
  | v :: l => style.itemSep level ++ (encode style level v ++ encodeItems style level l)

/-- The fields after the first, each with the separator before it. -/
def encodeFields (style : JsonStyle) (level : ℕ) : List (Str × Value R) → Str
  | [] => []
  | (k, v) :: fields =>
    style.itemSep level ++ (encodeStr style.ensureAscii k ++ (style.keySep ++
      (encode style level v ++ encodeFields style level fields)))

end

mutual

/-- The value with the fields of every object in the order of their keys. -/
def sortKeys : Value R → Value R
  | .list l => .list (sortKeysItems l)
  | .dict fields => .dict ((sortKeysFields fields).insertionSort fun p q ↦ p.1 ≤ q.1)
  | v => v

def sortKeysItems : List (Value R) → List (Value R)
  | [] => []
  | v :: l => sortKeys v :: sortKeysItems l

def sortKeysFields : List (Str × Value R) → List (Str × Value R)
  | [] => []
  | (k, v) :: fields => (k, sortKeys v) :: sortKeysFields fields

end

/-- `json.dumps(v, ...)`. -/
def dumps (style : JsonStyle) (v : Value R) : Str :=
  encode style 0 (if style.sortKeys then sortKeys v else v)

end Encode

end Python
