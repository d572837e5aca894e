import ForgeData.Python.JsonDecoder

/-!
# JSON numbers, written and read

Integers and the literals of finite floats are read up to their ends, and as the numbers that they
were written from.
-/

namespace Python

open Str CodePoint

/-! ## Digits -/

/-- The text does not go on with a digit. -/
def NoDigit (s : Str) : Prop := ∀ c ∈ s.head?, c.isDigit = false

/-- The text does not go on as a number would. -/
def NumberEnd (s : Str) : Prop :=
  ∀ c ∈ s.head?, c.isDigit = false ∧ c ≠ ofChar '.' ∧ c ≠ ofChar 'e' ∧ c ≠ ofChar 'E'

theorem NumberEnd.noDigit {s : Str} (h : NumberEnd s) : NoDigit s := fun c hc ↦ (h c hc).1

theorem numberEnd_nil : NumberEnd [] := nofun

theorem numberEnd_cons {c : CodePoint} (h : c.isDigit = false) (hpoint : c ≠ ofChar '.')
    (he : c ≠ ofChar 'e') (hE : c ≠ ofChar 'E') (s : Str) : NumberEnd (c :: s) := by
  rintro d ⟨⟩
  exact ⟨h, hpoint, he, hE⟩

theorem noDigit_cons {c : CodePoint} (h : c.isDigit = false) (s : Str) : NoDigit (c :: s) := by
  rintro d ⟨⟩
  exact h

theorem spanDigits_append {ds rest : Str} (hds : ∀ c ∈ ds, c.isDigit = true) (hrest : NoDigit rest) :
    spanDigits (ds ++ rest) = (ds, rest) := by
  have hstop : rest.takeWhile isDigit = [] ∧ rest.dropWhile isDigit = rest := by
    cases rest with
    | nil => exact ⟨rfl, rfl⟩
    | cons c s =>
      have hc : ¬c.isDigit = true := by rw [hrest c rfl]; decide
      exact ⟨List.takeWhile_cons_of_neg hc, List.dropWhile_cons_of_neg hc⟩
  rw [spanDigits, List.takeWhile_append_of_pos hds, List.dropWhile_append_of_pos hds, hstop.1, hstop.2,
    List.append_nil]

theorem isDigit_of_mem_decimal {n : ℕ} {c : CodePoint} (h : c ∈ decimal n) : c.isDigit = true := by
  induction n using decimal.induct with
  | case1 n hn =>
    rw [decimal, if_pos hn, List.mem_singleton] at h
    rw [h]
    exact isDigit_digit n
  | case2 n hn ih =>
    rw [decimal, if_neg hn, List.mem_append, List.mem_singleton] at h
    rcases h with h | rfl
    · exact ih h
    · exact isDigit_digit n

theorem decimal_ne_nil (n : ℕ) : decimal n ≠ [] := by
  rw [decimal]
  split <;> simp

theorem digitsValue_decimal (n : ℕ) : digitsValue (decimal n) = n := by
  induction n using decimal.induct with
  | case1 n hn =>
    rw [decimal, if_pos hn, digitsValue, List.foldl_cons, List.foldl_nil, digit_val]
    omega
  | case2 n hn ih =>
    rw [digitsValue] at ih
    rw [decimal, if_neg hn, digitsValue, List.foldl_append, ih, List.foldl_cons, List.foldl_nil,
      digit_val]
    omega

/-- A number has no zero in front. -/
theorem isIntPart_decimal (n : ℕ) : IsIntPart (decimal n) := by
  refine ⟨⟨decimal_ne_nil n, fun c ↦ isDigit_of_mem_decimal⟩, ?_⟩
  induction n using decimal.induct with
  | case1 n hn =>
    rw [decimal, if_pos hn]
    intro h
    rw [List.head?_cons, Option.some.injEq] at h
    rw [h]
  | case2 n hn ih =>
    rw [decimal, if_neg hn]
    intro h
    have hhead : (decimal (n / 10)).head? = some (ofChar '0') := by
      rwa [List.head?_append_of_ne_nil _ (decimal_ne_nil _)] at h
    have hzero := digitsValue_decimal (n / 10)
    rw [ih hhead] at hzero
    have : digitsValue [ofChar '0'] = 0 := rfl
    omega

/-! ## The parts of a literal -/

theorem scanIntPart_append {int rest : Str} (hint : IsIntPart int) (hrest : NoDigit rest) :
    scanIntPart (int ++ rest) = (int, rest) := by
  obtain ⟨⟨hne, hdigits⟩, hzero⟩ := hint
  cases int with
  | nil => exact absurd rfl hne
  | cons c s =>
    rw [List.cons_append, scanIntPart]
    split
    · next hc =>
      have hs := hzero (by rw [hc]; rfl)
      rw [hc, List.cons.injEq] at hs
      rw [hs.2]
      rfl
    · exact spanDigits_append hdigits hrest

theorem scanFraction_append {frac rest : Str} (hfrac : IsFraction frac) (hrest : NoDigit rest)
    (hpoint : frac = [] → ∀ c ∈ rest.head?, c ≠ ofChar '.') :
    scanFraction (frac ++ rest) = (frac, rest) := by
  rcases hfrac with rfl | ⟨ds, hds, rfl⟩
  · rw [List.nil_append]
    cases rest with
    | nil => rfl
    | cons c s => simp only [scanFraction, hpoint rfl c rfl, false_and, if_false]
  · rw [List.cons_append]
    simp only [scanFraction, spanDigits_append hds.2 hrest, ne_eq, hds.1, not_false_eq_true, and_self,
      if_true]

theorem scanSign_append {sign ds rest : Str} (hds : IsDigits ds)
    (hsign : sign = [] ∨ sign = [ofChar '+'] ∨ sign = [ofChar '-']) :
    scanSign (sign ++ (ds ++ rest)) = (sign, ds ++ rest) := by
  rcases hsign with rfl | rfl | rfl
  · cases ds with
    | nil => exact absurd rfl hds.1
    | cons d s =>
      have hd := hds.2 d List.mem_cons_self
      have hplus : d ≠ ofChar '+' := by rintro rfl; exact absurd hd (by decide)
      have hminus : d ≠ ofChar '-' := by rintro rfl; exact absurd hd (by decide)
      simp only [List.nil_append, List.cons_append, scanSign, hplus, hminus, or_self, if_false]
  · rfl
  · rfl

theorem scanExponent_append {exp rest : Str} (hexp : IsExponent exp) (hrest : NumberEnd rest) :
    scanExponent (exp ++ rest) = (exp, rest) := by
  rcases hexp with rfl | ⟨sign, ds, hsign, hds, rfl⟩
  · rw [List.nil_append]
    cases rest with
    | nil => rfl
    | cons c s =>
      obtain ⟨-, -, he, hE⟩ := hrest c rfl
      simp only [scanExponent, he, hE, or_self, false_and, if_false]
  · rw [List.cons_append, List.append_assoc]
    simp only [scanExponent, scanSign_append hds hsign, spanDigits_append hds.2 hrest.noDigit, ne_eq,
      hds.1, not_false_eq_true, true_or, and_self, if_true]

section Number

variable {R : Type} [FloatText R]

/-- **A number is read up to its end.** -/
theorem scanNumber_parts {sign int frac exp rest : Str} (hsign : sign = [] ∨ sign = [ofChar '-'])
    (hint : IsIntPart int) (hfrac : IsFraction frac) (hexp : IsExponent exp) (hrest : NumberEnd rest) :
    scanNumber (R := R) (sign ++ (int ++ (frac ++ (exp ++ rest)))) =
      if frac = [] ∧ exp = [] then
        if int.length > maxStrDigits then .error .tooManyDigits
        else .ok (.int (if sign = [] then digitsValue int else -digitsValue int), rest)
      else match FloatText.ofStr? (sign ++ (int ++ (frac ++ exp))) with
        | some x => .ok (.float x, rest)
        | none => .error .decodeError := by
  have hexpEnd : NoDigit (exp ++ rest) ∧ ∀ c ∈ (exp ++ rest).head?, c ≠ ofChar '.' := by
    rcases hexp with rfl | ⟨s, ds, -, -, rfl⟩
    · exact ⟨hrest.noDigit, fun c hc ↦ (hrest c hc).2.1⟩
    · refine ⟨noDigit_cons (by decide) _, ?_⟩
      rintro c ⟨⟩
      decide
  have hfracEnd : NoDigit (frac ++ (exp ++ rest)) := by
    rcases hfrac with rfl | ⟨ds, -, rfl⟩
    · exact hexpEnd.1
    · exact noDigit_cons (by decide) _
  have hscan : scanIntPart (int ++ (frac ++ (exp ++ rest))) = (int, frac ++ (exp ++ rest)) :=
    scanIntPart_append hint hfracEnd
  have hscanFrac := scanFraction_append hfrac hexpEnd.1 fun _ ↦ hexpEnd.2
  have hscanExp := scanExponent_append hexp hrest
  rcases hsign with rfl | rfl
  · obtain ⟨d, s, rfl⟩ : ∃ d s, int = d :: s := List.exists_cons_of_ne_nil hint.1.1
    have hd := hint.1.2 d List.mem_cons_self
    have hminus : d ≠ ofChar '-' := by rintro rfl; exact absurd hd (by decide)
    rw [List.nil_append]
    rw [List.cons_append] at hscan ⊢
    cases hfloat : (FloatText.ofStr? (d :: s ++ (frac ++ exp)) : Option R) <;>
      simp only [scanNumber, hminus, if_false, hscan, hscanFrac, hscanExp, hint.1.1, if_true,
        List.nil_append, hfloat]
  · rw [List.singleton_append]
    cases hfloat : (FloatText.ofStr? (ofChar '-' :: (int ++ (frac ++ exp))) : Option R) <;>
      simp only [scanNumber, if_true, hscan, hscanFrac, hscanExp, hint.1.1, if_false,
        List.cons_ne_nil, List.singleton_append, hfloat]

/-- **An integer is read back.** -/
theorem scanNumber_encodeInt {n : ℤ} (h : (decimal n.natAbs).length ≤ maxStrDigits) {rest : Str}
    (hrest : NumberEnd rest) :
    scanNumber (R := R) (encodeInt n ++ rest) = .ok (.int n, rest) := by
  have hread : ∀ sign : Str, (sign = [] ∨ sign = [ofChar '-']) →
      scanNumber (R := R) (sign ++ (decimal n.natAbs ++ rest)) =
        .ok (.int (if sign = [] then (n.natAbs : ℤ) else -(n.natAbs : ℤ)), rest) := by
    intro sign hsign
    have hparts := scanNumber_parts (R := R) hsign (isIntPart_decimal n.natAbs) (.inl rfl) (.inl rfl)
      hrest
    rw [if_pos (And.intro rfl rfl), if_neg (Nat.not_lt.mpr h), digitsValue_decimal] at hparts
    exact hparts
  rw [encodeInt, List.append_assoc]
  split
  · next hneg =>
    rw [hread _ (.inr rfl), if_neg (by decide)]
    congr 3
    omega
  · next hpos =>
    rw [hread _ (.inl rfl), if_pos rfl]
    congr 3
    omega

variable [LawfulFloatText R]

/-- **A finite float is read back.** -/
theorem scanNumber_repr {x : R} (h : FloatText.kind x = .finite) {rest : Str}
    (hrest : NumberEnd rest) :
    scanNumber (R := R) (FloatText.repr x ++ rest) = .ok (.float x, rest) := by
  obtain ⟨sign, int, frac, exp, hsign, hint, hfrac, hexp, hne, hrepr⟩ :=
    (LawfulFloatText.repr_literal x h).exists_parts
  have hparts := scanNumber_parts (R := R) hsign hint hfrac hexp hrest
  have hread : FloatText.ofStr? (sign ++ (int ++ (frac ++ exp))) = some x := by
    rw [← hrepr, LawfulFloatText.ofStr?_repr]
  rw [if_neg (by tauto), hread] at hparts
  rw [hrepr, List.append_assoc, List.append_assoc, List.append_assoc, hparts]

end Number

/-! ## How a number begins -/

/-- The text begins with a digit, or with a minus sign and a digit. -/
def NumberStart (s : Str) : Prop :=
  ∃ c t, c.isDigit = true ∧ (s = c :: t ∨ s = ofChar '-' :: c :: t)

theorem numberStart_append {sign int : Str} (hsign : sign = [] ∨ sign = [ofChar '-'])
    (hint : IsIntPart int) (rest : Str) : NumberStart (sign ++ (int ++ rest)) := by
  obtain ⟨d, s, rfl⟩ : ∃ d s, int = d :: s := List.exists_cons_of_ne_nil hint.1.1
  refine ⟨d, s ++ rest, hint.1.2 d List.mem_cons_self, ?_⟩
  rcases hsign with rfl | rfl
  · exact .inl rfl
  · exact .inr rfl

theorem numberStart_encodeInt (n : ℤ) (rest : Str) : NumberStart (encodeInt n ++ rest) := by
  rw [encodeInt, List.append_assoc]
  exact numberStart_append (by split <;> simp) (isIntPart_decimal _) rest

theorem numberStart_repr {R : Type} [FloatText R] [LawfulFloatText R] {x : R}
    (h : FloatText.kind x = .finite) (rest : Str) : NumberStart (FloatText.repr x ++ rest) := by
  obtain ⟨sign, int, frac, exp, hsign, hint, -, -, -, hrepr⟩ :=
    (LawfulFloatText.repr_literal x h).exists_parts
  rw [hrepr, List.append_assoc, List.append_assoc]
  exact numberStart_append hsign hint _

end Python
