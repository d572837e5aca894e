import ForgeData.Python.Datetime

/-!
# Timestamps in the extended format

A UTC timestamp `YYYY-MM-DDTHH:MM:SS[.ffffff]Z`, and that `fromisoformat` reads it as the
`datetime` it was written from.
-/

namespace Python

open Str CodePoint

namespace Datetime

/-- The fraction of a timestamp: there is one only if there are microseconds. -/
def isoFraction (t : Datetime) : Str :=
  if t.microsecond = 0 then [] else ofChar '.' :: zeroPad 6 t.microsecond

/-- The time of a timestamp, without its offset. -/
def isoTime (t : Datetime) : Str :=
  zeroPad 2 t.hour ++ ofChar ':' :: (zeroPad 2 t.minute ++ ofChar ':' ::
    (zeroPad 2 t.second ++ t.isoFraction))

/-- The timestamp `YYYY-MM-DDTHH:MM:SS[.ffffff]Z`. -/
def isoformatZ (t : Datetime) : Str :=
  zeroPad 4 t.year ++ ofChar '-' :: (zeroPad 2 t.month ++ ofChar '-' ::
    (zeroPad 2 t.day ++ ofChar 'T' :: (t.isoTime ++ [ofChar 'Z'])))

end Datetime

namespace Str

/-! ## What the characters of a timestamp are not -/

theorem startsOffset_of_isDigit {c : CodePoint} (h : c.isDigit = true) : startsOffset c = false := by
  have hne : ∀ b : CodePoint, b.isDigit = false → c ≠ b := by
    rintro b hb rfl
    rw [h] at hb
    exact Bool.noConfusion hb
  simp only [startsOffset, hne (ofChar '+') (by decide), hne (ofChar '-') (by decide),
    hne (ofChar 'Z') (by decide), or_self, decide_false]

/-- The characters of a time: digits, and what separates them. -/
theorem mem_isoTime {t : Datetime} {c : CodePoint} (h : c ∈ t.isoTime) :
    c.isDigit = true ∨ c = ofChar ':' ∨ c = ofChar '.' := by
  have hdigit : ∀ {k n}, c ∈ zeroPad k n → c.isDigit = true := isDigit_of_mem_zeroPad
  simp only [Datetime.isoTime, Datetime.isoFraction, List.mem_append, List.mem_cons] at h
  split at h
  · rcases h with h | h | h | h | h | h
    · exact .inl (hdigit h)
    · exact .inr (.inl h)
    · exact .inl (hdigit h)
    · exact .inr (.inl h)
    · exact .inl (hdigit h)
    · exact absurd h List.not_mem_nil
  · rcases h with h | h | h | h | h | h
    · exact .inl (hdigit h)
    · exact .inr (.inl h)
    · exact .inl (hdigit h)
    · exact .inr (.inl h)
    · exact .inl (hdigit h)
    · rcases List.mem_cons.mp h with h | h
      · exact .inr (.inr h)
      · exact .inl (hdigit h)

theorem startsOffset_of_mem_isoTime {t : Datetime} {c : CodePoint} (h : c ∈ t.isoTime) :
    startsOffset c = false := by
  rcases mem_isoTime h with h | rfl | rfl
  · exact startsOffset_of_isDigit h
  · decide
  · decide

theorem isSurrogate_of_mem_isoTime {t : Datetime} {c : CodePoint} (h : c ∈ t.isoTime) :
    c.isSurrogate = false := by
  rcases mem_isoTime h with h | rfl | rfl
  · exact isSurrogate_of_isDigit h
  · decide
  · decide

theorem sanitize_eq_self {s : Str} (h : ∀ c ∈ s, c.isSurrogate = false) : sanitize s = s := by
  have hget : ∀ i, (s.getD i 0).isSurrogate = false := by
    intro i
    rw [List.getD_eq_getElem?_getD]
    cases hi : s[i]? with
    | none => rfl
    | some c => exact h c (List.mem_of_getElem? hi)
  rw [sanitize, List.find?_eq_none.mpr fun i _ ↦ by rw [hget]; decide]

/-! ## The date -/

theorem parseIsoformatDate_dashed {year month day : ℕ} (hyear : year < 10 ^ 4) (hmonth : month < 10 ^ 2)
    (hday : day < 10 ^ 2) (rest : Str) :
    parseIsoformatDate (zeroPad 4 year ++ ofChar '-' :: (zeroPad 2 month ++ ofChar '-' ::
      (zeroPad 2 day ++ rest))) 10 = some (year, month, day) := by
  have hW : peek (zeroPad 2 month ++ ofChar '-' :: (zeroPad 2 day ++ rest)) 0 ≠ ofChar 'W' :=
    digit_ne (by decide) _
  rw [parseIsoformatDate, parseDigits_zeroPad hyear]
  simp only [Option.bind_eq_bind, Option.bind_some, peek, List.headD_cons, beq_self_eq_true, if_true,
    List.drop_succ_cons, List.drop_zero] at hW ⊢
  rw [if_neg hW, parseDigits_zeroPad hmonth]
  simp only [Option.bind_some, List.headD_cons, bne_self_eq_false, Bool.and_false, Bool.false_eq_true,
    if_false, List.drop_succ_cons, List.drop_zero]
  rw [parseDigits_zeroPad hday]
  simp

theorem findSeparator_dashed {year month : ℕ} (rest : Str) :
    findSeparator (zeroPad 4 year ++ ofChar '-' :: (zeroPad 2 month ++ ofChar '-' :: rest)) = 10 := by
  have hW : (zeroPad 4 year ++ ofChar '-' :: (zeroPad 2 month ++ ofChar '-' :: rest)).getD 5 0
      ≠ ofChar 'W' := digit_ne (by decide) _
  have hdash : (zeroPad 4 year ++ ofChar '-' :: (zeroPad 2 month ++ ofChar '-' :: rest)).getD 4 0
      = ofChar '-' := rfl
  have hlength : (zeroPad 4 year ++ ofChar '-' :: (zeroPad 2 month ++ ofChar '-' :: rest)).length
      ≠ 7 := by
    simp only [List.length_append, length_zeroPad, List.length_cons]
    omega
  rw [findSeparator, if_neg hlength, if_pos hdash, if_neg hW]

/-! ## The time -/

theorem parseFraction_zeroPad {us : ℕ} (h : us < 10 ^ 6) (stop : CodePoint) (hstop : stop ≠ 0) :
    parseFraction stop (zeroPad 6 us) = some (us, true) := by
  have hread := parseDigits_zeroPad h 0 []
  rw [List.append_nil, Nat.zero_mul, Nat.zero_add] at hread
  rw [parseFraction, length_zeroPad]
  simp only [Nat.min_self, hread, Option.bind_eq_bind, Option.bind_some, Nat.sub_self, Nat.pow_zero,
    Nat.mul_one, List.dropWhile_nil, peek, List.headD_nil]
  simp [hstop]

/-- A time in the extended format is read as it was written. -/
theorem parseHhMmSsFf_isoTime (t : Datetime) (stop : CodePoint) (hstop : stop ≠ 0) :
    parseHhMmSsFf stop t.isoTime
      = some ((t.hour, t.minute, t.second, t.microsecond), true) := by
  have hhour : t.hour < 10 ^ 2 := lt_trans t.hour_lt (by decide)
  have hminute : t.minute < 10 ^ 2 := lt_trans t.minute_lt (by decide)
  have hsecond : t.second < 10 ^ 2 := lt_trans t.second_lt (by decide)
  have hcons : ∀ n rest, ∃ c l, zeroPad 2 n ++ rest = c :: l := fun n rest ↦ ⟨_, _, rfl⟩
  have hpair : ∀ {i n rest}, i ≠ 2 →
      afterPair stop i true (ofChar ':' :: (zeroPad 2 n ++ rest)) = .pair (zeroPad 2 n ++ rest) := by
    intro i n rest hi
    obtain ⟨c, l, hl⟩ := hcons n rest
    rw [hl]
    simp [afterPair, hi]
  rw [parseHhMmSsFf, Datetime.isoTime, parseDigits_zeroPad hhour]
  simp only [Option.bind_eq_bind, Option.bind_some, peek, List.headD_cons, beq_self_eq_true]
  rw [hpair (by decide)]
  simp only
  rw [parseDigits_zeroPad hminute]
  simp only [Option.bind_some]
  rw [hpair (by decide)]
  simp only
  rw [parseDigits_zeroPad hsecond, Datetime.isoFraction]
  simp only [Option.bind_some, Nat.zero_mul, Nat.zero_add]
  by_cases hus : t.microsecond = 0
  · simp [afterPair, hstop, hus]
  · rw [if_neg hus]
    have hfraction : afterPair stop 2 true (ofChar '.' :: zeroPad 6 t.microsecond)
        = .fraction (zeroPad 6 t.microsecond) := rfl
    rw [hfraction]
    simp only
    rw [parseFraction_zeroPad t.microsecond_lt stop hstop]
    rfl

/-- A time and `Z` after it. -/
theorem parseIsoformatTime_isoTime (t : Datetime) :
    parseIsoformatTime (t.isoTime ++ [ofChar 'Z'])
      = some ((t.hour, t.minute, t.second, t.microsecond), some .utc) := by
  have hnot : ∀ c ∈ t.isoTime, (!startsOffset c) = true := by
    intro c hc
    rw [startsOffset_of_mem_isoTime hc]
    rfl
  have htake : (t.isoTime ++ [ofChar 'Z']).takeWhile (!startsOffset ·) = t.isoTime := by
    rw [List.takeWhile_append_of_pos hnot, List.takeWhile_cons_of_neg (by decide), List.append_nil]
  have hdrop : (t.isoTime ++ [ofChar 'Z']).dropWhile (!startsOffset ·) = [ofChar 'Z'] := by
    rw [List.dropWhile_append_of_pos hnot, List.dropWhile_cons_of_neg (by decide)]
  have hoffset : parseOffset (ofChar 'Z') [] = some .utc := rfl
  rw [parseIsoformatTime, htake, hdrop]
  simp only [Option.bind_eq_bind]
  rw [parseHhMmSsFf_isoTime t _ (by decide)]
  simp only [Option.bind_some, hoffset]

end Str

/-- **Reading a timestamp back.** -/
theorem fromisoformat_isoformatZ (t : Datetime) :
    fromisoformat t.isoformatZ = some ⟨t, some .utc⟩ := by
  have hdigit : ∀ {k n c}, c ∈ zeroPad k n → c.isSurrogate = false := fun h ↦
    isSurrogate_of_isDigit (isDigit_of_mem_zeroPad h)
  have hclean : ∀ c ∈ t.isoformatZ, c.isSurrogate = false := by
    intro c hc
    simp only [Datetime.isoformatZ, List.mem_append, List.mem_cons, List.not_mem_nil, or_false] at hc
    rcases hc with h | rfl | h | rfl | h | rfl | h | rfl
    · exact hdigit h
    · decide
    · exact hdigit h
    · decide
    · exact hdigit h
    · decide
    · exact isSurrogate_of_mem_isoTime h
    · decide
  have hany : t.isoformatZ.any isSurrogate = false := by
    rw [List.any_eq_false]
    intro c hc
    rw [hclean c hc]
    decide
  have hyear : t.year < 10 ^ 4 := Nat.lt_of_le_of_lt t.year_le (by decide)
  have hmonth : t.month < 10 ^ 2 := Nat.lt_of_le_of_lt t.day_valid.2.1 (by decide)
  have hday : t.day < 10 ^ 2 := Nat.lt_of_le_of_lt (day_le t.day_valid) (by decide)
  have hlength : ¬(t.isoformatZ.length < 7 ∨ t.isoformatZ.any isSurrogate = true) := by
    rw [hany]
    simp only [Datetime.isoformatZ, List.length_append, length_zeroPad, List.length_cons,
      Bool.false_eq_true, or_false]
    omega
  have hdate : parseIsoformatDate t.isoformatZ 10 = some (t.year, t.month, t.day) :=
    parseIsoformatDate_dashed hyear hmonth hday _
  have hfind : findSeparator t.isoformatZ = 10 := findSeparator_dashed _
  have hdrop : t.isoformatZ.drop 10 = ofChar 'T' :: (t.isoTime ++ [ofChar 'Z']) := rfl
  rw [fromisoformat, sanitize_eq_self hclean]
  simp only [hlength, if_false, hfind, hdate, hdrop, Option.bind_eq_bind, Option.bind_some,
    parseIsoformatTime_isoTime, Datetime.mk?_self]
  rfl

/-- A year of fewer than four digits is not read. -/
theorem fromisoformat_short_year {j : ℕ} (hj : j < 4) {year rest : Str} (hyear : year.length = j) :
    fromisoformat (year ++ ofChar '-' :: rest) = none := by
  have hsan : ∃ rest', sanitize (year ++ ofChar '-' :: rest) = year ++ ofChar '-' :: rest' := by
    rw [sanitize]
    split
    · next i hi =>
      have hmem := List.mem_of_find?_eq_some hi
      have hlt : j + 1 ≤ i := by
        simp only [List.mem_cons, List.not_mem_nil, or_false] at hmem
        omega
      obtain ⟨i, rfl⟩ : ∃ i', i = j + (i' + 1) := ⟨i - j - 1, by omega⟩
      refine ⟨rest.set i (ofChar 'T'), ?_⟩
      rw [List.set_append_right _ _ (by omega), hyear, Nat.add_sub_cancel_left, List.set_cons_succ]
    · exact ⟨rest, rfl⟩
  obtain ⟨rest', hrest'⟩ := hsan
  have hdate : ∀ length, parseIsoformatDate (year ++ ofChar '-' :: rest') length = none := by
    intro length
    rw [parseIsoformatDate, parseDigits_eq_none hyear hj (by decide)]
    rfl
  rw [fromisoformat, hrest']
  simp only [hdate]
  split <;> rfl

end Python
