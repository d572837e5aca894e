import ForgeData.Python.CodePoints

/-!
# UTF-8

`str.encode("utf-8")` and `bytes.decode("utf-8")` with strict errors: a surrogate has no encoding,
and bytes that are not the encoding of some code point are refused. Decoding is inverse to encoding.
-/

namespace Python

open CodePoint

/-- A byte. -/
abbrev Byte := Fin 256

instance neZeroBytes : NeZero 256 := ⟨by decide⟩

namespace Utf8

/-- The encoding of a code point; `none` is `UnicodeEncodeError`. -/
def encodeOne (c : CodePoint) : Option (List Byte) :=
  let n := c.val
  let tail (k : ℕ) : Byte := Fin.ofNat _ (0x80 + n / 64 ^ k % 64)
  if c.isSurrogate then none
  else if n < 0x80 then some [Fin.ofNat _ n]
  else if n < 0x800 then some [Fin.ofNat _ (0xC0 + n / 64), tail 0]
  else if n < 0x10000 then some [Fin.ofNat _ (0xE0 + n / 4096), tail 1, tail 0]
  else some [Fin.ofNat _ (0xF0 + n / 262144), tail 2, tail 1, tail 0]

/-- `s.encode("utf-8")`. -/
def encode : Str → Option (List Byte)
  | [] => some []
  | c :: s => do return (← encodeOne c) ++ (← encode s)

/-- The six bits of a continuation byte. -/
def tailBits? (b : Byte) : Option ℕ := if 0x80 ≤ b.val ∧ b.val < 0xC0 then some (b.val - 0x80) else none

/-- The code point of a number that an encoding of its length denotes: not one that a shorter
encoding has, not a surrogate, and not above the last code point. -/
def ofBits? (least n : ℕ) : Option CodePoint :=
  if h : n < 0x110000 then
    if least ≤ n ∧ isSurrogate ⟨n, h⟩ = false then some ⟨n, h⟩ else none
  else none

/-- The code point at the front of some bytes. -/
def decodeOne : List Byte → Option (CodePoint × List Byte)
  | [] => none
  | a :: s =>
    if a.val < 0x80 then do return (← ofBits? 0 a.val, s)
    else if 0xC0 ≤ a.val ∧ a.val < 0xE0 then
      match s with
      | b :: s => do return (← ofBits? 0x80 ((a.val - 0xC0) * 64 + (← tailBits? b)), s)
      | _ => none
    else if 0xE0 ≤ a.val ∧ a.val < 0xF0 then
      match s with
      | b :: c :: s => do
        return (← ofBits? 0x800 (((a.val - 0xE0) * 64 + (← tailBits? b)) * 64 + (← tailBits? c)), s)
      | _ => none
    else if 0xF0 ≤ a.val ∧ a.val < 0xF8 then
      match s with
      | b :: c :: d :: s => do
        return (← ofBits? 0x10000 ((((a.val - 0xF0) * 64 + (← tailBits? b)) * 64 + (← tailBits? c)) * 64
          + (← tailBits? d)), s)
      | _ => none
    else none

/-- Decoding with a bound on the number of code points. -/
def decodeUpTo : ℕ → List Byte → Option Str
  | _, [] => some []
  | 0, _ :: _ => none
  | k + 1, b :: s => do
    let (c, s) ← decodeOne (b :: s)
    return c :: (← decodeUpTo k s)

/-- `b.decode("utf-8")`; `none` is `UnicodeDecodeError`. -/
def decode (bytes : List Byte) : Option Str := decodeUpTo bytes.length bytes

/-! ## Encoding -/

/-- The strings that have an encoding. -/
def Encodable (s : Str) : Prop := ∀ c ∈ s, c.isSurrogate = false

instance (s : Str) : Decidable (Encodable s) := inferInstanceAs (Decidable (∀ c ∈ s, _))

theorem encodable_ofString (s : String) : Encodable (Str.ofString s) := by
  intro c hc
  obtain ⟨a, -, rfl⟩ := List.mem_map.mp hc
  exact isSurrogate_ofChar a

theorem encodeOne_eq_none_iff (c : CodePoint) : encodeOne c = none ↔ c.isSurrogate = true := by
  simp only [encodeOne]
  split
  · next h => simp [h]
  · next h =>
    split
    · simp [h]
    split
    · simp [h]
    split <;> simp [h]

theorem isSome_encode_iff (s : Str) : (encode s).isSome = true ↔ Encodable s := by
  induction s with
  | nil => simp [encode, Encodable]
  | cons c s ih =>
    have hc : (encodeOne c).isSome = true ↔ c.isSurrogate = false := by
      rw [← Bool.not_eq_true, ← encodeOne_eq_none_iff, Option.isSome_iff_ne_none]
    rw [Encodable, List.forall_mem_cons, ← hc]
    change _ ↔ _ ∧ Encodable s
    rw [← ih, encode]
    cases encodeOne c <;> cases encode s <;> simp

theorem encode_append (s t : Str) :
    encode (s ++ t) = (encode s).bind fun a ↦ (encode t).map (a ++ ·) := by
  induction s with
  | nil => cases h : encode t <;> simp [encode, h]
  | cons c s ih =>
    rw [List.cons_append, encode, encode, ih]
    cases encodeOne c with
    | none => rfl
    | some front =>
      cases encode s with
      | none => rfl
      | some a =>
        cases encode t with
        | none => rfl
        | some b => exact congrArg some (List.append_assoc front a b).symm

/-! ## Decoding is inverse -/

theorem tailBits?_ofNat {m : ℕ} (h : m < 64) : tailBits? (Fin.ofNat _ (0x80 + m)) = some m := by
  have hval : (0x80 + m) % 256 = 0x80 + m := Nat.mod_eq_of_lt (by omega)
  rw [tailBits?, Fin.val_ofNat, hval, if_pos (by omega), Nat.add_sub_cancel_left]

theorem ofBits?_val {c : CodePoint} {least : ℕ} (hleast : least ≤ c.val)
    (hc : c.isSurrogate = false) : ofBits? least c.val = some c := by
  rw [ofBits?, dif_pos c.isLt, if_pos ⟨hleast, hc⟩]

/-- The bytes of a code point are read as that code point. -/
theorem decodeOne_encodeOne {c : CodePoint} {bytes : List Byte} (h : encodeOne c = some bytes)
    (rest : List Byte) : decodeOne (bytes ++ rest) = some (c, rest) := by
  have hlt := c.isLt
  have htail : ∀ m, tailBits? (Fin.ofNat _ (0x80 + m % 64)) = some (m % 64) := fun m ↦
    tailBits?_ofNat (Nat.mod_lt m (by decide))
  -- one to four bytes: the first names the length, each other carries six bits
  simp only [encodeOne, Nat.pow_zero, Nat.div_one, Nat.pow_one, Nat.reducePow] at h
  split at h
  · exact absurd h nofun
  next hc =>
  have hc : c.isSurrogate = false := Bool.eq_false_iff.mpr hc
  split at h
  · next h₁ =>
    obtain rfl := Option.some.inj h
    have hval : c.val % 256 = c.val := Nat.mod_eq_of_lt (by omega)
    rw [List.singleton_append, decodeOne.eq_def]
    simp only [Fin.val_ofNat, hval]
    rw [if_pos h₁, ofBits?_val (Nat.zero_le _) hc]
    rfl
  split at h
  · next h₁ h₂ =>
    obtain rfl := Option.some.inj h
    have hval : (0xC0 + c.val / 64) % 256 = 0xC0 + c.val / 64 := Nat.mod_eq_of_lt (by omega)
    have hbits : (0xC0 + c.val / 64 - 0xC0) * 64 + c.val % 64 = c.val := by omega
    simp only [List.cons_append, List.nil_append, decodeOne, Fin.val_ofNat, hval, htail,
      Option.bind_eq_bind, Option.bind_some, hbits]
    rw [if_neg (by omega), if_pos (by omega), ofBits?_val (by omega) hc]
    rfl
  split at h
  · next h₁ h₂ h₃ =>
    obtain rfl := Option.some.inj h
    have hval : (0xE0 + c.val / 4096) % 256 = 0xE0 + c.val / 4096 := Nat.mod_eq_of_lt (by omega)
    have hbits : ((0xE0 + c.val / 4096 - 0xE0) * 64 + c.val / 64 % 64) * 64 + c.val % 64 = c.val := by
      omega
    simp only [List.cons_append, List.nil_append, decodeOne, Fin.val_ofNat, hval, htail,
      Option.bind_eq_bind, Option.bind_some, hbits]
    rw [if_neg (by omega), if_neg (by omega), if_pos (by omega), ofBits?_val (by omega) hc]
    rfl
  · next h₁ h₂ h₃ =>
    obtain rfl := Option.some.inj h
    have hval : (0xF0 + c.val / 262144) % 256 = 0xF0 + c.val / 262144 := Nat.mod_eq_of_lt (by omega)
    have hbits : (((0xF0 + c.val / 262144 - 0xF0) * 64 + c.val / 4096 % 64) * 64
        + c.val / 64 % 64) * 64 + c.val % 64 = c.val := by
      omega
    simp only [List.cons_append, List.nil_append, decodeOne, Fin.val_ofNat, hval, htail,
      Option.bind_eq_bind, Option.bind_some, hbits]
    rw [if_neg (by omega), if_neg (by omega), if_neg (by omega), if_pos (by omega),
      ofBits?_val (by omega) hc]
    rfl

theorem encodeOne_ne_nil {c : CodePoint} {bytes : List Byte} (h : encodeOne c = some bytes) :
    bytes ≠ [] := by
  rintro rfl
  have := decodeOne_encodeOne h []
  exact absurd this nofun

theorem decodeUpTo_encode {s : Str} {bytes : List Byte} (h : encode s = some bytes) {k : ℕ}
    (hk : bytes.length ≤ k) : decodeUpTo k bytes = some s := by
  induction s generalizing bytes k with
  | nil =>
    obtain rfl := Option.some.inj h
    cases k <;> rfl
  | cons c s ih =>
    simp only [encode, Option.bind_eq_bind, Option.bind_eq_some_iff] at h
    obtain ⟨front, hfront, rest, hrest, heq⟩ := h
    obtain rfl := Option.some.inj heq
    have hpos := List.length_pos_iff.mpr (encodeOne_ne_nil hfront)
    rw [List.length_append] at hk
    obtain ⟨k, rfl⟩ : ∃ k', k = k' + 1 := ⟨k - 1, by omega⟩
    obtain ⟨b, tail, hcons⟩ := List.exists_cons_of_ne_nil
      (List.append_ne_nil_of_left_ne_nil (encodeOne_ne_nil hfront) rest)
    have hone := decodeOne_encodeOne hfront rest
    rw [hcons] at hone ⊢
    have hrest' : decodeUpTo k rest = some s := ih hrest (by omega)
    rw [decodeUpTo, hone]
    simp only [Option.bind_eq_bind, Option.bind_some, hrest']
    rfl

/-- **Decoding is inverse to encoding.** -/
theorem decode_encode {s : Str} {bytes : List Byte} (h : encode s = some bytes) :
    decode bytes = some s :=
  decodeUpTo_encode h le_rfl

end Utf8

end Python
