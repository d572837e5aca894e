import Mathlib.Algebra.Order.Ring.Int
import Mathlib.Data.List.Basic
import Mathlib.Tactic.Common

/-!
# The proleptic Gregorian calendar

Dates and their ordinals as `datetime` counts them: 1 January of year 1 is day 1. `ordToYmd` is
the algorithm that takes an ordinal apart by the cycles of 400, 100, 4 and 1 years, and the two
directions are inverse to each other.
-/

namespace Python

/-! ## Years and months -/

/-- `calendar.isleap`. -/
def isLeap (year : ℕ) : Bool := year % 4 == 0 && (year % 100 != 0 || year % 400 == 0)

/-- The days in the years before `year`. -/
def daysBeforeYear (year : ℕ) : ℕ :=
  let y := year - 1
  y * 365 + y / 4 - y / 100 + y / 400

/-- The days of a month; month 0 has none. -/
def daysInMonth (leap : Bool) (month : ℕ) : ℕ :=
  if month = 2 && leap then 29
  else [0, 31, 28, 31, 30, 31, 30, 31, 31, 30, 31, 30, 31].getD month 0

/-- The days in the months before `month`. -/
def daysBeforeMonth (leap : Bool) (month : ℕ) : ℕ :=
  [0, 0, 31, 59, 90, 120, 151, 181, 212, 243, 273, 304, 334].getD month 0
    + if month > 2 && leap then 1 else 0

/-- The ordinal of a date. -/
def ymdToOrd (year month day : ℕ) : ℕ :=
  daysBeforeYear year + daysBeforeMonth (isLeap year) month + day

/-- The month and the day of the `n`-th day of a year, counted from 0. -/
def monthDay (leap : Bool) (n : ℕ) : ℕ × ℕ :=
  let month := (n + 50) / 32
  let preceding := daysBeforeMonth leap month
  if preceding > n then
    (month - 1, n - (preceding - daysInMonth leap (month - 1)) + 1)
  else (month, n - preceding + 1)

/-- The date of an ordinal. -/
def ordToYmd (ordinal : ℕ) : ℕ × ℕ × ℕ :=
  let n := ordinal - 1
  let n400 := n / 146097
  let n := n % 146097
  let n100 := n / 36524
  let n := n % 36524
  let n4 := n / 1461
  let n := n % 1461
  let n1 := n / 365
  let n := n % 365
  let year := n400 * 400 + 1 + n100 * 100 + n4 * 4 + n1
  if n1 = 4 || n100 = 4 then (year - 1, 12, 31)
  else
    let leapyear := n1 == 3 && (n4 != 24 || n100 == 3)
    (year, monthDay leapyear n)

/-- The days of a year. -/
def daysInYear (year : ℕ) : ℕ := 365 + if isLeap year then 1 else 0

theorem daysBeforeYear_cycles {a b c d : ℕ} (hb : b ≤ 3) (hc : c ≤ 24) (hd : d ≤ 3) :
    daysBeforeYear (400 * a + 100 * b + 4 * c + d + 1)
      = 146097 * a + 36524 * b + 1461 * c + 365 * d := by
  have h4 : (400 * a + 100 * b + 4 * c + d) / 4 = 100 * a + 25 * b + c := by omega
  have h100 : (400 * a + 100 * b + 4 * c + d) / 100 = 4 * a + b := by omega
  have h400 : (400 * a + 100 * b + 4 * c + d) / 400 = a := by omega
  rw [daysBeforeYear]
  simp only [Nat.add_sub_cancel, h4, h100, h400]
  omega

theorem isLeap_cycles {a b c d : ℕ} (hb : b ≤ 3) (hc : c ≤ 24) (hd : d ≤ 3) :
    isLeap (400 * a + 100 * b + 4 * c + d + 1) = (d == 3 && (c != 24 || b == 3)) := by
  have h4 : (400 * a + 100 * b + 4 * c + d + 1) % 4 = (d + 1) % 4 := by omega
  have h100 : (400 * a + 100 * b + 4 * c + d + 1) % 100 = (4 * c + d + 1) % 100 := by omega
  have h400 : (400 * a + 100 * b + 4 * c + d + 1) % 400 = (100 * b + 4 * c + d + 1) % 400 := by
    omega
  rw [isLeap, h4, h100, h400, Bool.eq_iff_iff]
  simp only [Bool.and_eq_true, Bool.or_eq_true, beq_iff_eq, bne_iff_ne]
  omega

theorem exists_cycles {year : ℕ} (h : 1 ≤ year) :
    ∃ a b c d, b ≤ 3 ∧ c ≤ 24 ∧ d ≤ 3 ∧ year = 400 * a + 100 * b + 4 * c + d + 1 := by
  refine ⟨(year - 1) / 400, (year - 1) % 400 / 100, (year - 1) % 100 / 4, (year - 1) % 4, ?_, ?_, ?_,
    ?_⟩ <;> omega

theorem daysBeforeYear_succ {year : ℕ} (h : 1 ≤ year) :
    daysBeforeYear (year + 1) = daysBeforeYear year + daysInYear year := by
  obtain ⟨a, b, c, d, hb, hc, hd, rfl⟩ := exists_cycles h
  have hpos : 1 ≤ 400 * a + 100 * b + 4 * c + d + 1 + 1 := by omega
  obtain ⟨a', b', c', d', hb', hc', hd', hsucc⟩ := exists_cycles hpos
  rw [daysBeforeYear_cycles hb hc hd, daysInYear, isLeap_cycles hb hc hd, hsucc,
    daysBeforeYear_cycles hb' hc' hd']
  simp only [Bool.and_eq_true, Bool.or_eq_true, beq_iff_eq, bne_iff_ne]
  split <;> omega

theorem daysBeforeYear_mono {y y' : ℕ} (hy : 1 ≤ y) (h : y ≤ y') :
    daysBeforeYear y ≤ daysBeforeYear y' := by
  induction h with
  | refl => exact Nat.le_refl _
  | step hn ih =>
    rw [Nat.succ_eq_add_one, daysBeforeYear_succ (Nat.le_trans hy hn)]
    exact Nat.le_trans ih (Nat.le_add_right _ _)

/-! ## Days of a year -/

/-- The months and days that exist. -/
def ValidDay (leap : Bool) (month day : ℕ) : Prop :=
  1 ≤ month ∧ month ≤ 12 ∧ 1 ≤ day ∧ day ≤ daysInMonth leap month

instance (leap : Bool) (month day : ℕ) : Decidable (ValidDay leap month day) :=
  inferInstanceAs (Decidable (_ ∧ _))

theorem day_le {leap : Bool} {month day : ℕ} (h : ValidDay leap month day) : day ≤ 31 := by
  have hle : ∀ leap, ∀ month ≤ 12, daysInMonth leap month ≤ 31 := by decide
  exact Nat.le_trans h.2.2.2 (hle leap month h.2.1)

theorem monthDay_spec {leap : Bool} {n : ℕ} (h : n < 365 + if leap then 1 else 0) :
    ValidDay leap (monthDay leap n).1 (monthDay leap n).2 ∧
      daysBeforeMonth leap (monthDay leap n).1 + (monthDay leap n).2 = n + 1 := by
  have hall : ∀ leap, ∀ n < 366, n < 365 + (if leap then 1 else 0) →
      ValidDay leap (monthDay leap n).1 (monthDay leap n).2 ∧
        daysBeforeMonth leap (monthDay leap n).1 + (monthDay leap n).2 = n + 1 := by
    decide +kernel
  exact hall leap n (by split at h <;> omega) h

theorem monthDay_daysBeforeMonth {leap : Bool} {month day : ℕ} (h : ValidDay leap month day) :
    monthDay leap (daysBeforeMonth leap month + day - 1) = (month, day) ∧
      daysBeforeMonth leap month + day ≤ 365 + if leap then 1 else 0 := by
  have hall : ∀ leap, ∀ month ≤ 12, ∀ day ≤ 31, ValidDay leap month day →
      monthDay leap (daysBeforeMonth leap month + day - 1) = (month, day) ∧
        daysBeforeMonth leap month + day ≤ 365 + if leap then 1 else 0 := by
    decide +kernel
  exact hall leap month h.2.1 day (day_le h) h

/-! ## Ordinals -/

/-- The year of an ordinal and the day of that year, as `ordToYmd` finds them. -/
theorem ordToYmd_spec {ordinal : ℕ} (h : 1 ≤ ordinal) :
    ∃ year n, 1 ≤ year ∧ n < daysInYear year ∧ daysBeforeYear year + n + 1 = ordinal ∧
      ordToYmd ordinal = (year, monthDay (isLeap year) n) := by
  obtain ⟨n, rfl⟩ : ∃ n, ordinal = n + 1 := ⟨ordinal - 1, by omega⟩
  simp only [ordToYmd, Nat.add_sub_cancel]
  generalize ha : n / 146097 = a
  generalize hr₁ : n % 146097 = r₁
  generalize hb : r₁ / 36524 = b
  generalize hr₂ : r₁ % 36524 = r₂
  generalize hc : r₂ / 1461 = c
  generalize hr₃ : r₂ % 1461 = r₃
  generalize hd : r₃ / 365 = d
  generalize hr₄ : r₃ % 365 = r₄
  have hc' : c ≤ 24 := by omega
  by_cases hb4 : b = 4
  · -- the last day of a cycle of 400 years
    have hyear : a * 400 + 1 + b * 100 + c * 4 + d - 1 = 400 * a + 100 * 3 + 4 * 24 + 3 + 1 := by
      omega
    have hleap : isLeap (400 * a + 100 * 3 + 4 * 24 + 3 + 1) = true :=
      isLeap_cycles (b := 3) (c := 24) (d := 3) (by decide) (by decide) (by decide)
    have hbefore := daysBeforeYear_cycles (a := a) (b := 3) (c := 24) (d := 3) (by decide)
      (by decide) (by decide)
    rw [if_pos (by simp [hb4]), hyear]
    refine ⟨400 * a + 100 * 3 + 4 * 24 + 3 + 1, 365, by omega, ?_, ?_, ?_⟩
    · rw [daysInYear, hleap]
      decide
    · rw [hbefore]
      omega
    · rw [hleap]
      rfl
  have hb' : b ≤ 3 := by omega
  by_cases hd4 : d = 4
  · -- the last day of a leap year
    have hyear : a * 400 + 1 + b * 100 + c * 4 + d - 1 = 400 * a + 100 * b + 4 * c + 3 + 1 := by
      omega
    have hc24 : c ≠ 24 := by omega
    have hleap : (3 == 3 && (c != 24 || b == 3)) = true := by simp [hc24]
    rw [if_pos (by simp [hd4]), hyear]
    refine ⟨400 * a + 100 * b + 4 * c + 3 + 1, 365, by omega, ?_, ?_, ?_⟩
    · rw [daysInYear, isLeap_cycles hb' hc' le_rfl, hleap]
      decide
    · rw [daysBeforeYear_cycles hb' hc' le_rfl]
      omega
    · rw [isLeap_cycles hb' hc' le_rfl, hleap]
      rfl
  · have hd' : d ≤ 3 := by omega
    have hyear : a * 400 + 1 + b * 100 + c * 4 + d = 400 * a + 100 * b + 4 * c + d + 1 := by omega
    rw [if_neg (by simp [hb4, hd4]), hyear]
    refine ⟨400 * a + 100 * b + 4 * c + d + 1, r₄, by omega, ?_, ?_, ?_⟩
    · rw [daysInYear]
      omega
    · rw [daysBeforeYear_cycles hb' hc' hd']
      omega
    · rw [isLeap_cycles hb' hc' hd']

/-- **An ordinal is the ordinal of its date**, which is a date of the calendar. -/
theorem ymdToOrd_ordToYmd {ordinal : ℕ} (h : 1 ≤ ordinal) :
    ymdToOrd (ordToYmd ordinal).1 (ordToYmd ordinal).2.1 (ordToYmd ordinal).2.2 = ordinal ∧
      1 ≤ (ordToYmd ordinal).1 ∧
      ValidDay (isLeap (ordToYmd ordinal).1) (ordToYmd ordinal).2.1 (ordToYmd ordinal).2.2 := by
  obtain ⟨year, n, hyear, hn, hord, hymd⟩ := ordToYmd_spec h
  obtain ⟨hvalid, hsum⟩ := monthDay_spec hn
  rw [hymd]
  refine ⟨?_, hyear, hvalid⟩
  calc ymdToOrd year (monthDay (isLeap year) n).1 (monthDay (isLeap year) n).2
      = daysBeforeYear year + (n + 1) := by rw [ymdToOrd, Nat.add_assoc, hsum]
    _ = ordinal := hord

theorem daysBeforeYear_add_inj {y y' n n' : ℕ} (hy : 1 ≤ y) (hy' : 1 ≤ y') (hn : n < daysInYear y)
    (hn' : n' < daysInYear y') (h : daysBeforeYear y + n = daysBeforeYear y' + n') :
    y = y' ∧ n = n' := by
  rcases lt_trichotomy y y' with hlt | rfl | hlt
  · have := daysBeforeYear_mono (by omega) (Nat.succ_le_of_lt hlt)
    rw [Nat.succ_eq_add_one, daysBeforeYear_succ hy] at this
    omega
  · exact ⟨rfl, by omega⟩
  · have := daysBeforeYear_mono (by omega) (Nat.succ_le_of_lt hlt)
    rw [Nat.succ_eq_add_one, daysBeforeYear_succ hy'] at this
    omega

/-- **A date is the date of its ordinal.** -/
theorem ordToYmd_ymdToOrd {year month day : ℕ} (hyear : 1 ≤ year)
    (h : ValidDay (isLeap year) month day) : ordToYmd (ymdToOrd year month day) = (year, month, day) := by
  obtain ⟨hday, hle⟩ := monthDay_daysBeforeMonth h
  have hpos : 1 ≤ daysBeforeMonth (isLeap year) month + day := Nat.le_add_left_of_le h.2.2.1
  obtain ⟨year', n, hyear', hn, hord, hymd⟩ := ordToYmd_spec
    (show 1 ≤ ymdToOrd year month day by rw [ymdToOrd]; omega)
  obtain ⟨rfl, rfl⟩ := daysBeforeYear_add_inj hyear' hyear hn
    (show daysBeforeMonth (isLeap year) month + day - 1 < daysInYear year by rw [daysInYear]; omega)
    (by rw [ymdToOrd] at hord; omega)
  rw [hymd, hday]

theorem ymdToOrd_le {year month day : ℕ} (hyear : year ≤ 9999) (hpos : 1 ≤ year)
    (h : ValidDay (isLeap year) month day) : ymdToOrd year month day ≤ 3652059 := by
  have hle := (monthDay_daysBeforeMonth h).2
  have hsucc := daysBeforeYear_succ hpos
  have hmono : daysBeforeYear (year + 1) ≤ daysBeforeYear 10000 := daysBeforeYear_mono (by omega) (by omega)
  have hlast : daysBeforeYear 10000 = 3652059 := by decide
  rw [daysInYear] at hsucc
  rw [ymdToOrd]
  omega

theorem year_le_of_ymdToOrd_le {year month day : ℕ} (h : ymdToOrd year month day ≤ 3652059)
    (hvalid : 1 ≤ day) : year ≤ 9999 := by
  by_contra hlt
  have hmono : daysBeforeYear 10000 ≤ daysBeforeYear year := daysBeforeYear_mono (by omega) (by omega)
  have hlast : daysBeforeYear 10000 = 3652059 := by decide
  rw [ymdToOrd] at h
  omega

/-! ## Weeks -/

/-- The ordinal of the Monday on which the first ISO week of a year begins. -/
def isoWeek1Monday (year : ℕ) : ℕ :=
  let firstDay := ymdToOrd year 1 1
  let firstWeekday := (firstDay + 6) % 7
  let week1Monday := firstDay - firstWeekday
  if firstWeekday > 3 then week1Monday + 7 else week1Monday

/-- The date of a day of an ISO week; `none` where there is no such week or day. -/
def isoToYmd (isoYear isoWeek isoDay : ℕ) : Option (ℕ × ℕ × ℕ) :=
  if isoYear < 1 || isoYear > 9999 then none
  else
    let firstWeekday := (ymdToOrd isoYear 1 1 + 6) % 7
    let hasWeek53 := firstWeekday = 3 || (firstWeekday = 2 && isLeap isoYear)
    if isoWeek = 0 || isoWeek > 53 || (isoWeek = 53 && !hasWeek53) then none
    else if isoDay = 0 || isoDay > 7 then none
    else some (ordToYmd (isoWeek1Monday isoYear + (isoWeek - 1) * 7 + isoDay - 1))

end Python
