import ForgeData.Python.IsoFormat

/-!
# The order of ISO texts

`datetime.isoformat` leaves the fraction out when there are no microseconds, so the texts of timestamps
differ in length. In UTC they still sort as the instants do: all components have a fixed number of
digits, and where one text has a fraction and the other has not, the point is compared with the plus
sign of the offset, which comes before it.
-/

namespace Python

open CodePoint Str

/-! ## Texts side by side -/

namespace Str

theorem append_lt_append {a b : Str} (hlength : a.length = b.length) (h : a < b) (x y : Str) :
    a ++ x < b ++ y := by
  induction a generalizing b with
  | nil =>
    rw [List.length_eq_zero_iff.mp hlength.symm] at h
    exact absurd h (List.lt_irrefl _)
  | cons c a ih =>
    cases b with
    | nil => exact absurd hlength (Nat.succ_ne_zero _)
    | cons d b =>
      rw [List.cons_append, List.cons_append, List.cons_lt_cons_iff]
      rcases List.cons_lt_cons_iff.mp h with hlt | ⟨heq, hlt⟩
      · exact .inl hlt
      · exact .inr ⟨heq, ih (Nat.succ_inj.mp hlength) hlt⟩

/-- Numbers with the same number of digits sort as they are. -/
theorem zeroPad_lt_zeroPad {k m n : ℕ} (hn : n < 10 ^ k) (h : m < n) :
    zeroPad k m < zeroPad k n := by
  induction k generalizing m n with
  | zero => omega
  | succ k ih =>
    rw [zeroPad, zeroPad]
    have hdiv : n / 10 < 10 ^ k := by
      rw [Nat.pow_succ] at hn
      omega
    rcases Nat.lt_or_ge (m / 10) (n / 10) with hlt | hge
    · exact append_lt_append (by simp) (ih hdiv hlt) _ _
    · have heq : m / 10 = n / 10 := by omega
      rw [heq]
      refine List.append_left_lt (List.cons_lt_cons_iff.mpr (.inl ?_))
      rw [Fin.lt_def, digit_val, digit_val]
      omega

theorem zeroPad_append_lt {k m n : ℕ} (hn : n < 10 ^ k) {x y : Str} (h : m < n ∨ m = n ∧ x < y) :
    zeroPad k m ++ x < zeroPad k n ++ y := by
  rcases h with h | ⟨rfl, h⟩
  · exact append_lt_append (by simp) (zeroPad_lt_zeroPad hn h) _ _
  · exact List.append_left_lt h

theorem cons_lt_cons_self {c : CodePoint} {x y : Str} (h : x < y) : c :: x < c :: y :=
  List.cons_lt_cons_iff.mpr (.inr ⟨rfl, h⟩)

end Str

/-! ## Dates and times -/

theorem daysBeforeMonth_mono (leap : Bool) {month month' : ℕ} (hpos : 1 ≤ month) (h : month < month')
    (hle : month' ≤ 12) :
    daysBeforeMonth leap month + daysInMonth leap month ≤ daysBeforeMonth leap month' := by
  have hall : ∀ leap, ∀ month' ≤ 12, ∀ month < month', 1 ≤ month →
      daysBeforeMonth leap month + daysInMonth leap month ≤ daysBeforeMonth leap month' := by decide
  exact hall leap month' hle month h hpos

/-- The date with the smaller ordinal has the smaller first component that differs. -/
theorem lt_of_ymdToOrd_lt {year month day year' month' day' : ℕ} (hyear' : 1 ≤ year')
    (hvalid : ValidDay (isLeap year) month day) (hvalid' : ValidDay (isLeap year') month' day')
    (h : ymdToOrd year month day < ymdToOrd year' month' day') :
    year < year' ∨ year = year' ∧ (month < month' ∨ month = month' ∧ day < day') := by
  rw [ymdToOrd, ymdToOrd] at h
  rcases Nat.lt_trichotomy year year' with hlt | rfl | hgt
  · exact .inl hlt
  · refine .inr ⟨rfl, ?_⟩
    rcases Nat.lt_trichotomy month month' with hlt | rfl | hgt
    · exact .inl hlt
    · exact .inr ⟨rfl, by omega⟩
    · have hmonth := daysBeforeMonth_mono (isLeap year) hvalid'.1 hgt hvalid.2.1
      have hday' := hvalid'.2.2.2
      omega
  · have hmono := daysBeforeYear_mono (by omega) (Nat.succ_le_of_lt hgt)
    rw [Nat.succ_eq_add_one, daysBeforeYear_succ hyear', daysInYear] at hmono
    have hle := (monthDay_daysBeforeMonth hvalid').2
    omega

namespace Datetime

variable (t t' : Datetime)

theorem lt_of_timeUs_lt (h : t.timeUs < t'.timeUs) :
    t.hour < t'.hour ∨ t.hour = t'.hour ∧ (t.minute < t'.minute ∨ t.minute = t'.minute ∧
      (t.second < t'.second ∨ t.second = t'.second ∧ t.microsecond < t'.microsecond)) := by
  have hmicrosecond := t'.microsecond_lt
  have hsecond := t'.second_lt
  have hminute := t'.minute_lt
  rw [timeUs, timeUs] at h
  omega

theorem lt_of_epochUs_lt (h : t.epochUs < t'.epochUs) :
    t.ordinal < t'.ordinal ∨ t.ordinal = t'.ordinal ∧ t.timeUs < t'.timeUs := by
  have htime := t'.timeUs_lt
  rw [dayUs] at htime
  rw [epochUs, epochUs, dayUs] at h
  omega

/-! ## The text -/

/-- `isoformat()` of a `datetime` in UTC. -/
def isoformatUtc : Str :=
  zeroPad 4 t.year ++ ofChar '-' :: (zeroPad 2 t.month ++ ofChar '-' ::
    (zeroPad 2 t.day ++ ofChar 'T' :: (t.isoTime ++ Str.ofString "+00:00")))

variable {t t'}

theorem isoFraction_lt (h : t.microsecond < t'.microsecond) :
    t.isoFraction ++ Str.ofString "+00:00" < t'.isoFraction ++ Str.ofString "+00:00" := by
  have hpos : t'.microsecond ≠ 0 := by omega
  rw [isoFraction, isoFraction, if_neg hpos]
  split
  · exact List.cons_lt_cons_iff.mpr (.inl (by decide))
  · exact cons_lt_cons_self (append_lt_append (by simp) (zeroPad_lt_zeroPad t'.microsecond_lt h) _ _)

theorem isoTime_lt (h : t.timeUs < t'.timeUs) :
    t.isoTime ++ Str.ofString "+00:00" < t'.isoTime ++ Str.ofString "+00:00" := by
  have hhour : t'.hour < 10 ^ 2 := Nat.lt_trans t'.hour_lt (by decide)
  have hminute : t'.minute < 10 ^ 2 := Nat.lt_trans t'.minute_lt (by decide)
  have hsecond : t'.second < 10 ^ 2 := Nat.lt_trans t'.second_lt (by decide)
  simp only [isoTime, List.append_assoc, List.cons_append]
  refine zeroPad_append_lt hhour ((lt_of_timeUs_lt t t' h).imp_right (And.imp_right fun h ↦ ?_))
  refine cons_lt_cons_self (zeroPad_append_lt hminute (h.imp_right (And.imp_right fun h ↦ ?_)))
  refine cons_lt_cons_self (zeroPad_append_lt hsecond (h.imp_right (And.imp_right fun h ↦ ?_)))
  exact isoFraction_lt h

/-- The earlier instant has the smaller text. -/
theorem isoformatUtc_lt_of_epochUs_lt (h : t.epochUs < t'.epochUs) :
    t.isoformatUtc < t'.isoformatUtc := by
  have hyear : t'.year < 10 ^ 4 := Nat.lt_of_le_of_lt t'.year_le (by decide)
  have hmonth : t'.month < 10 ^ 2 := Nat.lt_of_le_of_lt t'.day_valid.2.1 (by decide)
  have hday : t'.day < 10 ^ 2 := Nat.lt_of_le_of_lt (day_le t'.day_valid) (by decide)
  have hlex : t.year < t'.year ∨ t.year = t'.year ∧ (t.month < t'.month ∨ t.month = t'.month ∧
      (t.day < t'.day ∨ t.day = t'.day ∧ t.timeUs < t'.timeUs)) := by
    rcases lt_of_epochUs_lt t t' h with hlt | ⟨heq, hlt⟩
    · rcases lt_of_ymdToOrd_lt t'.year_pos t.day_valid t'.day_valid hlt with
        hlt | ⟨heq, hlt | ⟨heq', hlt⟩⟩
      · exact .inl hlt
      · exact .inr ⟨heq, .inl hlt⟩
      · exact .inr ⟨heq, .inr ⟨heq', .inl hlt⟩⟩
    · have hymd := ordToYmd_ymdToOrd t.year_pos t.day_valid
      rw [← ordinal, heq, ordinal, ordToYmd_ymdToOrd t'.year_pos t'.day_valid, Prod.mk.injEq,
        Prod.mk.injEq] at hymd
      exact .inr ⟨hymd.1.symm, .inr ⟨hymd.2.1.symm, .inr ⟨hymd.2.2.symm, hlt⟩⟩⟩
  rw [isoformatUtc, isoformatUtc]
  refine zeroPad_append_lt hyear (hlex.imp_right (And.imp_right fun h ↦ ?_))
  refine cons_lt_cons_self (zeroPad_append_lt hmonth (h.imp_right (And.imp_right fun h ↦ ?_)))
  refine cons_lt_cons_self (zeroPad_append_lt hday (h.imp_right (And.imp_right fun h ↦ ?_)))
  exact cons_lt_cons_self (isoTime_lt h)

theorem eq_of_epochUs_eq (h : t.epochUs = t'.epochUs) : t = t' := by
  have ht := ofEpochUs?_epochUs t
  rw [h, ofEpochUs?_epochUs t'] at ht
  exact (Option.some.inj ht).symm

/-! ## Stored texts -/

/-- The text as it is stored. -/
def isoText (t : Datetime) : String := String.ofList (t.isoformatUtc.map fun c ↦ Char.ofNat c.val)

theorem lt_of_mem_isoformatUtc {c : CodePoint} (h : c ∈ t.isoformatUtc) : c.val < 128 := by
  have hdigit : c.isDigit = true → c.val < 128 := by
    intro hc
    have hle := of_decide_eq_true (Bool.and_eq_true_iff.mp hc).2
    omega
  have hpad : ∀ {k n}, c ∈ zeroPad k n → c.val < 128 := fun hc ↦ hdigit (isDigit_of_mem_zeroPad hc)
  simp only [isoformatUtc, List.mem_append, List.mem_cons] at h
  rcases h with h | rfl | h | rfl | h | rfl | h | h
  · exact hpad h
  · decide
  · exact hpad h
  · decide
  · exact hpad h
  · decide
  · rcases mem_isoTime h with h | rfl | rfl
    · exact hdigit h
    · decide
    · decide
  · have hall : ∀ d ∈ "+00:00".toList, d.toNat < 128 := by simp
    obtain ⟨d, hd, rfl⟩ := List.mem_map.mp h
    exact hall d hd

theorem char_lt {m n : ℕ} (hm : m < 128) (hn : n < 128) (h : m < n) : Char.ofNat m < Char.ofNat n := by
  have hval : ∀ {k}, k < 128 → (Char.ofNat k).toNat = k := by
    intro k hk
    rw [Char.ofNat, dif_pos (.inl (Nat.lt_trans hk (by decide)))]
    rfl
  rw [Char.lt_def, UInt32.lt_iff_toNat_lt]
  exact (hval hm).trans_lt (h.trans_eq (hval hn).symm)

theorem map_char_lt {a b : Str} (ha : ∀ c ∈ a, c.val < 128) (hb : ∀ c ∈ b, c.val < 128) (h : a < b) :
    (a.map fun c ↦ Char.ofNat c.val) < b.map fun c ↦ Char.ofNat c.val := by
  induction a generalizing b with
  | nil =>
    cases b with
    | nil => exact absurd h (List.lt_irrefl _)
    | cons d b => exact List.nil_lt_cons _ _
  | cons c a ih =>
    cases b with
    | nil => exact absurd h (List.not_lt_nil _)
    | cons d b =>
      rw [List.map_cons, List.map_cons, List.cons_lt_cons_iff]
      rcases List.cons_lt_cons_iff.mp h with hlt | ⟨rfl, hlt⟩
      · have hc := ha c List.mem_cons_self
        have hd := hb d List.mem_cons_self
        exact .inl (char_lt hc hd hlt)
      · exact .inr ⟨rfl, ih (fun x hx ↦ ha x (List.mem_cons_of_mem _ hx))
          (fun x hx ↦ hb x (List.mem_cons_of_mem _ hx)) hlt⟩

theorem isoText_lt_of_epochUs_lt (h : t.epochUs < t'.epochUs) : t.isoText < t'.isoText := by
  show (isoText t).toList < (isoText t').toList
  rw [isoText, isoText, String.toList_ofList, String.toList_ofList]
  exact map_char_lt (fun _ ↦ lt_of_mem_isoformatUtc) (fun _ ↦ lt_of_mem_isoformatUtc)
    (isoformatUtc_lt_of_epochUs_lt h)

/-- **Stored texts sort as their instants do**, with or without fractions. -/
theorem isoText_lt_iff : t.isoText < t'.isoText ↔ t.epochUs < t'.epochUs := by
  refine ⟨fun h ↦ ?_, isoText_lt_of_epochUs_lt⟩
  rcases lt_trichotomy t.epochUs t'.epochUs with hlt | heq | hgt
  · exact hlt
  · rw [eq_of_epochUs_eq heq] at h
    exact absurd h (List.lt_irrefl _)
  · exact absurd (isoText_lt_of_epochUs_lt hgt) (List.lt_asymm h)

end Datetime

end Python
