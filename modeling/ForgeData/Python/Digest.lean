import Mathlib.Algebra.Ring.Nat
import Mathlib.Data.List.Basic
import Mathlib.Tactic.Common

/-!
# Hexadecimal digests

`hashlib.sha256(..).hexdigest()` is a string of 64 hexadecimal digits. The code only ever cuts it
short, prints it, or reads a leading piece back as a number; which digits it consists of is nowhere
relied on. The hash is therefore an arbitrary function into digit strings, and theorems about the
code hold for colliding hashes too.
-/

namespace Python

/-- A string of hexadecimal digits. -/
abbrev HexDigits := List (Fin 16)

instance neZeroHexDigits : NeZero 16 := ⟨by decide⟩

namespace HexDigits

/-- The character of one hexadecimal digit, lower case. -/
def char (d : Fin 16) : Char := "0123456789abcdef".toList.getD d.val '0'

/-- The digits as text. -/
def text (ds : HexDigits) : String := String.ofList (ds.map char)

/-- `int(text, 16)`. -/
def value (ds : HexDigits) : ℕ := ds.foldl (fun acc d ↦ 16 * acc + d.val) 0

theorem char_injective : Function.Injective char := by
  have h : ∀ d d' : Fin 16, char d = char d' → d = d' := by decide
  exact fun d d' ↦ h d d'

theorem text_injective : Function.Injective text := by
  intro ds ds' h
  exact List.map_injective_iff.mpr char_injective (String.ofList_injective h)

end HexDigits

/-- The hexadecimal digest of a SHA-256 hash: 64 digits. -/
abbrev Sha256Digest := { ds : HexDigits // ds.length = 64 }

/-- The digest that consists of zeros. -/
def zeroDigest : Sha256Digest := ⟨List.replicate 64 0, rfl⟩

/-- A hexadecimal digest that is written out; zeros if it is not one. -/
def digestOfHex (s : String) : Sha256Digest :=
  let ds : HexDigits := s.toList.map fun c ↦ Fin.ofNat 16 ("0123456789abcdef".toList.idxOf c)
  if h : ds.length = 64 then ⟨ds, h⟩ else zeroDigest

/-- `digest[:n]` as text. -/
def Sha256Digest.take (digest : Sha256Digest) (n : ℕ) : String := HexDigits.text (digest.1.take n)

/-- `int(digest[:n], 16)`. -/
def Sha256Digest.leading (digest : Sha256Digest) (n : ℕ) : ℕ :=
  HexDigits.value (digest.1.take n)

end Python
