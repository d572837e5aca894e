import ForgeData.Python.JsonDecoder
import Mathlib.Data.List.Chain

/-!
# JSON strings, written and read

Every string is read back as it was written, with one exception: with `ensure_ascii` a lone high
surrogate right before a lone low one is written as the two escapes of the code point that they are
the surrogates of. Such a string is not `WellPaired`; none is ever read from a text that has no
surrogates itself.
-/

namespace Python

open Str CodePoint

/-- No high surrogate stands right before a low one. -/
def WellPaired (s : Str) : Prop :=
  s.IsChain fun a b ↦ ¬(isHighSurrogate a.val = true ∧ isLowSurrogate b.val = true)

theorem wellPaired_of_forall {s : Str} (h : ∀ c ∈ s, c.isSurrogate = false) : WellPaired s := by
  refine List.Pairwise.isChain (List.pairwise_of_forall_mem_list fun a ha b _ hab ↦ ?_)
  have hsurrogate := h a ha
  simp only [isSurrogate, Bool.and_eq_false_iff, decide_eq_false_iff_not] at hsurrogate
  simp only [isHighSurrogate, Bool.and_eq_true, decide_eq_true_eq] at hab
  omega

/-! ## Escapes -/

theorem hexDigit_val (d : ℕ) :
    (hexDigit d).val = if d % 16 < 10 then 48 + d % 16 else 87 + d % 16 := by
  rw [hexDigit, Fin.val_ofNat]
  split <;> omega

theorem hexValue?_hexDigit (d : ℕ) : hexValue? (hexDigit d) = some (d % 16) := by
  rw [hexValue?, hexDigit_val]
  by_cases h : d % 16 < 10
  · rw [if_pos h, if_pos (by omega)]
    congr 1
    omega
  · rw [if_neg h, if_neg (by omega), if_pos (by omega)]
    congr 1
    omega

theorem scanEscape_escapeUnit {u : ℕ} (h : u < 0x10000) (rest : Str) :
    scanEscape ((escapeUnit u).tail ++ rest) = some (.escaped u, rest) := by
  simp only [escapeUnit, List.tail_cons, List.cons_append, List.nil_append, scanEscape, if_true,
    hexValue?_hexDigit, Option.bind_eq_bind, Option.bind_some, Option.some.injEq, Prod.mk.injEq,
    and_true, StrUnit.escaped.injEq]
  omega

/-- The code points that have an escape of one letter. -/
theorem shortEscape_cases {c e : CodePoint} (h : shortEscape c = some e) (rest : Str) :
    scanEscape (e :: rest) = some (.raw c, rest) := by
  simp only [shortEscape] at h
  split at h
  · next hc => obtain rfl := hc; obtain rfl := Option.some.inj h; rfl
  split at h
  · next hc => obtain rfl := hc; obtain rfl := Option.some.inj h; rfl
  split at h
  · next hc => obtain rfl := hc; obtain rfl := Option.some.inj h; rfl
  split at h
  · next hc => obtain rfl := hc; obtain rfl := Option.some.inj h; rfl
  split at h
  · next hc => obtain rfl := hc; obtain rfl := Option.some.inj h; rfl
  split at h
  · next hc =>
    obtain rfl : c = 12 := Fin.ext hc
    obtain rfl := Option.some.inj h
    rfl
  split at h
  · next hc =>
    obtain rfl : c = 8 := Fin.ext hc
    obtain rfl := Option.some.inj h
    rfl
  · exact absurd h nofun

theorem shortEscape_eq_none {c : CodePoint} (h : shortEscape c = none) :
    c ≠ ofChar '"' ∧ c ≠ ofChar '\\' := by
  constructor
  · rintro rfl
    exact absurd h (by decide)
  · rintro rfl
    exact absurd h (by decide)

/-! ## Units -/

/-- The units that the text of a code point is read as. -/
def unitsOf (ensureAscii : Bool) (c : CodePoint) : List StrUnit :=
  match shortEscape c with
  | some _ => [.raw c]
  | none =>
    if c.val < 32 then [.escaped c.val]
    else if ensureAscii && c.val > 126 then
      if c.val < 0x10000 then [.escaped c.val]
      else [.escaped (0xD800 + (c.val - 0x10000) / 1024), .escaped (0xDC00 + (c.val - 0x10000) % 1024)]
    else [.raw c]

theorem scanUnits_escapeUnit {u : ℕ} (h : u < 0x10000) (n : ℕ) (rest : Str) :
    scanUnits (n + 1) (escapeUnit u ++ rest) =
      (scanUnits n rest).map fun p ↦ (.escaped u :: p.1, p.2) := by
  have hcons : escapeUnit u ++ rest = ofChar '\\' :: ((escapeUnit u).tail ++ rest) := rfl
  rw [hcons, scanUnits, if_neg (by decide), if_pos rfl, scanEscape_escapeUnit h]
  simp only [Option.bind_eq_bind, Option.bind_some]
  cases scanUnits n rest <;> rfl

/-- Reading the text of a code point. -/
theorem scanUnits_escape (ensureAscii : Bool) (c : CodePoint) (n : ℕ) (rest : Str) :
    scanUnits (n + (unitsOf ensureAscii c).length) (escape ensureAscii c ++ rest) =
      (scanUnits n rest).map fun p ↦ (unitsOf ensureAscii c ++ p.1, p.2) := by
  have hlt := c.isLt
  cases hshort : shortEscape c with
  | some e =>
    simp only [unitsOf, escape, hshort, List.length_singleton, List.cons_append, List.nil_append]
    rw [scanUnits, if_neg (by decide), if_pos rfl, shortEscape_cases hshort]
    simp only [Option.bind_eq_bind, Option.bind_some]
    cases scanUnits n rest <;> rfl
  | none =>
    simp only [unitsOf, escape, hshort]
    split
    · next hctl => exact scanUnits_escapeUnit (by omega) n rest
    split
    · split
      · next h => exact scanUnits_escapeUnit h n rest
      · rw [List.append_assoc, show n + List.length _ = n + 1 + 1 from rfl,
          scanUnits_escapeUnit (by omega), scanUnits_escapeUnit (by omega)]
        cases scanUnits n rest <;> rfl
    · next hctl _ =>
      obtain ⟨hquote, hback⟩ := shortEscape_eq_none hshort
      rw [List.singleton_append, List.length_singleton, scanUnits, if_neg hquote, if_neg hback,
        if_neg hctl]
      simp only [Option.bind_eq_bind]
      cases scanUnits n rest <;> rfl

theorem scanUnits_flatMap (ensureAscii : Bool) (s rest : Str) {n : ℕ}
    (hn : (s.flatMap (unitsOf ensureAscii)).length < n) :
    scanUnits n (s.flatMap (escape ensureAscii) ++ ofChar '"' :: rest) =
      some (s.flatMap (unitsOf ensureAscii), rest) := by
  induction s generalizing n with
  | nil =>
    obtain ⟨n, rfl⟩ : ∃ n', n = n' + 1 := ⟨n - 1, by simp at hn; omega⟩
    rw [List.flatMap_nil, List.nil_append, scanUnits, if_pos rfl]
    rfl
  | cons c s ih =>
    rw [List.flatMap_cons, List.length_append] at hn
    obtain ⟨m, rfl⟩ : ∃ m, n = m + (unitsOf ensureAscii c).length :=
      ⟨n - (unitsOf ensureAscii c).length, by omega⟩
    rw [List.flatMap_cons, List.append_assoc, scanUnits_escape, ih (by omega), List.flatMap_cons]
    rfl

/-! ## Joining -/

theorem joinUnits_escaped {u : ℕ} {units : List StrUnit}
    (h : ∀ lo ∈ units.head?.bind fun | .escaped lo => some lo | .raw _ => none,
      ¬(isHighSurrogate u = true ∧ isLowSurrogate lo = true)) :
    joinUnits (.escaped u :: units) = Fin.ofNat _ u :: joinUnits units := by
  cases units with
  | nil => rfl
  | cons unit units =>
    cases unit with
    | raw c => rfl
    | escaped lo =>
      have hne := h lo rfl
      rw [joinUnits, if_neg (by rwa [Bool.and_eq_true])]

/-- What the first unit of a string can be: the first code point itself if it is escaped as one unit,
otherwise a high surrogate. -/
theorem head_unitsOf {ensureAscii : Bool} {c : CodePoint} {units : List StrUnit} {lo : ℕ}
    (h : (unitsOf ensureAscii c ++ units).head? = some (.escaped lo))
    (hlow : isLowSurrogate lo = true) : c.val = lo := by
  have hlt := c.isLt
  rw [unitsOf] at h
  split at h
  · exact absurd h nofun
  split at h
  · exact StrUnit.escaped.inj (Option.some.inj h)
  split at h
  · split at h
    · exact StrUnit.escaped.inj (Option.some.inj h)
    · have hhi := StrUnit.escaped.inj (Option.some.inj h)
      simp only [isLowSurrogate, Bool.and_eq_true, decide_eq_true_eq] at hlow
      omega
  · exact absurd h nofun

theorem joinUnits_pair {c : CodePoint} (h : ¬c.val < 0x10000) (units : List StrUnit) :
    joinUnits ([.escaped (0xD800 + (c.val - 0x10000) / 1024),
      .escaped (0xDC00 + (c.val - 0x10000) % 1024)] ++ units) = c :: joinUnits units := by
  have hlt := c.isLt
  generalize hhi : 0xD800 + (c.val - 0x10000) / 1024 = hi
  generalize hlo : 0xDC00 + (c.val - 0x10000) % 1024 = lo
  have hpair : (isHighSurrogate hi && isLowSurrogate lo) = true := by
    simp only [isHighSurrogate, isLowSurrogate, Bool.and_eq_true, decide_eq_true_eq]
    omega
  have hjoin : joinSurrogates hi lo = c := by
    ext
    rw [joinSurrogates, Fin.val_ofNat]
    omega
  rw [List.cons_append, List.singleton_append, joinUnits, if_pos hpair, hjoin]

theorem ofNat_val (c : CodePoint) : Fin.ofNat 0x110000 c.val = c := by
  ext
  rw [Fin.val_ofNat, Nat.mod_eq_of_lt c.isLt]

/-- **The units of a string join to the string.** -/
theorem joinUnits_flatMap (ensureAscii : Bool) {s : Str} (h : WellPaired s) :
    joinUnits (s.flatMap (unitsOf ensureAscii)) = s := by
  induction s with
  | nil => rfl
  | cons c s ih =>
    have hlt := c.isLt
    obtain ⟨hhead, htail⟩ := List.isChain_cons.mp h
    have hone : joinUnits (.escaped c.val :: s.flatMap (unitsOf ensureAscii)) = c :: s := by
      rw [joinUnits_escaped, ih htail, ofNat_val]
      rintro lo hlo ⟨hhigh, hlow⟩
      cases s with
      | nil => exact absurd hlo nofun
      | cons d s =>
        rw [List.flatMap_cons] at hlo
        cases hunits : (unitsOf ensureAscii d ++ s.flatMap (unitsOf ensureAscii)).head? with
        | none =>
          rw [hunits] at hlo
          exact absurd hlo nofun
        | some unit =>
          cases unit with
          | raw _ =>
            rw [hunits] at hlo
            exact absurd hlo nofun
          | escaped lo' =>
            rw [hunits] at hlo
            obtain rfl : lo' = lo := Option.some.inj hlo
            exact hhead d rfl ⟨hhigh, by rwa [head_unitsOf hunits hlow]⟩
    rw [List.flatMap_cons, unitsOf]
    split
    · rw [List.singleton_append, joinUnits, ih htail]
    split
    · exact hone
    split
    · split
      · exact hone
      · next hbig => exact (joinUnits_pair hbig _).trans (by rw [ih htail])
    · rw [List.singleton_append, joinUnits, ih htail]

theorem length_unitsOf_le (ensureAscii : Bool) (c : CodePoint) :
    (unitsOf ensureAscii c).length ≤ (escape ensureAscii c).length := by
  cases hshort : shortEscape c with
  | some e => simp [unitsOf, escape, hshort]
  | none =>
    simp only [unitsOf, escape, hshort]
    split
    · simp [escapeUnit]
    split
    · split <;> simp [escapeUnit]
    · simp

/-- **A string is read back as it was written.** -/
theorem scanString_encodeStr (ensureAscii : Bool) {s : Str} (h : WellPaired s) (rest : Str) :
    scanString (s.flatMap (escape ensureAscii) ++ ofChar '"' :: rest) = some (s, rest) := by
  have hlength : (s.flatMap (unitsOf ensureAscii)).length ≤ (s.flatMap (escape ensureAscii)).length := by
    induction s with
    | nil => exact Nat.le_refl 0
    | cons c s ih =>
      have hc := length_unitsOf_le ensureAscii c
      have hs := ih (List.isChain_cons.mp h).2
      simp only [List.flatMap_cons, List.length_append]
      omega
  rw [scanString, scanUnits_flatMap ensureAscii s rest (by
    rw [List.length_append, List.length_cons]
    omega)]
  simp only [Option.bind_eq_bind, Option.bind_some, joinUnits_flatMap ensureAscii h]

end Python
