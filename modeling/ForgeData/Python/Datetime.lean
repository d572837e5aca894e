import ForgeData.Python.Calendar
import ForgeData.Python.CodePoints
import Mathlib.Data.List.Basic
import Mathlib.Tactic.Common

/-!
# `datetime`

Dates with a time of day, their instants in microseconds since the Unix epoch, and the two ways
between a `datetime` and its text: `fromisoformat` as the C implementation reads it, and `strftime`
with the directives of an ISO-8601 timestamp.

`fromisoformat` follows the C code in what it accepts beyond the standard: any separator after the
date, anything after the sixth digit of a fraction up to the offset, a stray character before the
offset of a time without seconds. The end of the text reads as a null character, and a null
character within the text as its end. `strftime` is that of CPython 3.12.3 on Linux, where `%Y` is not
padded; other releases and platforms may pad it.
-/

namespace Python

/-- The microseconds of a day. -/
def dayUs : ℤ := 86400000000

/-- A `datetime` without its time zone. -/
@[ext] structure Datetime where
  year : ℕ
  month : ℕ
  day : ℕ
  hour : ℕ
  minute : ℕ
  second : ℕ
  microsecond : ℕ
  year_pos : 1 ≤ year
  year_le : year ≤ 9999
  day_valid : ValidDay (isLeap year) month day
  hour_lt : hour < 24
  minute_lt : minute < 60
  second_lt : second < 60
  microsecond_lt : microsecond < 1000000
deriving DecidableEq

namespace Datetime

/-- The constructor of `datetime` with its checks; `none` is `ValueError`. -/
def mk? (year month day hour minute second microsecond : ℕ) : Option Datetime :=
  if h : (1 ≤ year ∧ year ≤ 9999 ∧ ValidDay (isLeap year) month day) ∧
      hour < 24 ∧ minute < 60 ∧ second < 60 ∧ microsecond < 1000000 then
    some ⟨year, month, day, hour, minute, second, microsecond, h.1.1, h.1.2.1, h.1.2.2, h.2.1,
      h.2.2.1, h.2.2.2.1, h.2.2.2.2⟩
  else none

theorem mk?_self (t : Datetime) :
    mk? t.year t.month t.day t.hour t.minute t.second t.microsecond = some t := by
  rw [mk?, dif_pos ⟨⟨t.year_pos, t.year_le, t.day_valid⟩, t.hour_lt, t.minute_lt, t.second_lt,
    t.microsecond_lt⟩]

/-! ## Instants -/

/-- The microseconds since midnight. -/
def timeUs (t : Datetime) : ℕ :=
  ((t.hour * 60 + t.minute) * 60 + t.second) * 1000000 + t.microsecond

theorem timeUs_lt (t : Datetime) : (t.timeUs : ℤ) < dayUs := by
  have h₁ := t.hour_lt
  have h₂ := t.minute_lt
  have h₃ := t.second_lt
  have h₄ := t.microsecond_lt
  rw [timeUs, dayUs]
  omega

/-- The day of a `datetime`. -/
def ordinal (t : Datetime) : ℕ := ymdToOrd t.year t.month t.day

theorem ordinal_pos (t : Datetime) : 1 ≤ t.ordinal := by
  have := t.day_valid.2.2.1
  rw [ordinal, ymdToOrd]
  omega

theorem ordinal_le (t : Datetime) : t.ordinal ≤ 3652059 :=
  ymdToOrd_le t.year_le t.year_pos t.day_valid

/-- The microseconds since 1970-01-01T00:00:00, in the zone of the `datetime` itself. -/
def epochUs (t : Datetime) : ℤ := ((t.ordinal : ℤ) - 719163) * dayUs + t.timeUs

/-- The `datetime` at a distance from the epoch; `none` is `OverflowError`. -/
def ofEpochUs? (e : ℤ) : Option Datetime :=
  let ordinal := e / dayUs + 719163
  let rest := (e % dayUs).toNat
  if 1 ≤ ordinal ∧ ordinal ≤ 3652059 then
    let date := ordToYmd ordinal.toNat
    mk? date.1 date.2.1 date.2.2 (rest / 3600000000) (rest / 60000000 % 60) (rest / 1000000 % 60)
      (rest % 1000000)
  else none

/-- The first and the last instant that a `datetime` can hold. -/
def minUs : ℤ := -719162 * dayUs

/-- One microsecond after the last instant that a `datetime` can hold. -/
def endUs : ℤ := (3652059 - 719162) * dayUs

theorem epochUs_div (t : Datetime) : t.epochUs / dayUs = (t.ordinal : ℤ) - 719163 := by
  have hlt := t.timeUs_lt
  rw [dayUs] at hlt
  rw [epochUs, dayUs]
  omega

theorem epochUs_mod (t : Datetime) : t.epochUs % dayUs = t.timeUs := by
  have hlt := t.timeUs_lt
  rw [dayUs] at hlt
  rw [epochUs, dayUs]
  omega

/-- **A `datetime` is determined by its instant.** -/
theorem ofEpochUs?_epochUs (t : Datetime) : ofEpochUs? t.epochUs = some t := by
  have hpos := t.ordinal_pos
  have hle := t.ordinal_le
  have hymd : ordToYmd t.ordinal = (t.year, t.month, t.day) :=
    ordToYmd_ymdToOrd t.year_pos t.day_valid
  have htime : t.timeUs / 3600000000 = t.hour ∧ t.timeUs / 60000000 % 60 = t.minute ∧
      t.timeUs / 1000000 % 60 = t.second ∧ t.timeUs % 1000000 = t.microsecond := by
    have h₂ := t.minute_lt
    have h₃ := t.second_lt
    have h₄ := t.microsecond_lt
    rw [timeUs]
    omega
  rw [ofEpochUs?, epochUs_div, epochUs_mod, Int.sub_add_cancel, if_pos (by omega), Int.toNat_natCast,
    Int.toNat_natCast, hymd, htime.1, htime.2.1, htime.2.2.1, htime.2.2.2, mk?_self]

/-- Every instant of the range has a `datetime`. -/
theorem ofEpochUs?_spec {e : ℤ} (hmin : minUs ≤ e) (hend : e < endUs) :
    ∃ t, ofEpochUs? e = some t ∧ t.epochUs = e := by
  have hord : 1 ≤ e / dayUs + 719163 ∧ e / dayUs + 719163 ≤ 3652059 := by
    rw [minUs, dayUs] at hmin
    rw [endUs, dayUs] at hend
    rw [dayUs]
    omega
  have hrest : 0 ≤ e % dayUs ∧ e % dayUs < dayUs := by
    rw [dayUs]
    omega
  rw [dayUs] at hrest
  have hordinal : 1 ≤ (e / dayUs + 719163).toNat := by omega
  obtain ⟨hback, hyear, hvalid⟩ := ymdToOrd_ordToYmd hordinal
  have hyear' : (ordToYmd (e / dayUs + 719163).toNat).1 ≤ 9999 :=
    year_le_of_ymdToOrd_le (by rw [hback]; omega) hvalid.2.2.1
  rw [ofEpochUs?, if_pos hord]
  simp only
  rw [mk?, dif_pos ⟨⟨hyear, hyear', hvalid⟩, by rw [dayUs]; omega, by omega, by omega, by omega⟩]
  refine ⟨_, rfl, ?_⟩
  simp only [epochUs, ordinal, timeUs, hback]
  rw [dayUs] at *
  omega

theorem minUs_le (t : Datetime) : minUs ≤ t.epochUs := by
  have h := t.ordinal_pos
  rw [epochUs, minUs, dayUs]
  omega

theorem epochUs_lt (t : Datetime) : t.epochUs < endUs := by
  have h := t.ordinal_le
  have hlt := t.timeUs_lt
  rw [dayUs] at hlt
  rw [epochUs, endUs, dayUs]
  omega

theorem ofEpochUs?_eq_some_iff {e : ℤ} {t : Datetime} : ofEpochUs? e = some t ↔ t.epochUs = e := by
  constructor
  · intro h
    by_cases hrange : minUs ≤ e ∧ e < endUs
    · obtain ⟨t', ht', he⟩ := ofEpochUs?_spec hrange.1 hrange.2
      rw [h, Option.some.injEq] at ht'
      rwa [ht']
    · rw [ofEpochUs?, if_neg] at h
      · exact absurd h nofun
      · rw [minUs, endUs, dayUs] at hrange
        rw [dayUs]
        omega
  · rintro rfl
    exact ofEpochUs?_epochUs t

end Datetime

/-! ## Time zones -/

/-- The offset of a time zone from UTC in microseconds: less than a day. -/
abbrev UtcOffset := { offset : ℤ // -dayUs < offset ∧ offset < dayUs }

/-- `timezone.utc`. -/
def UtcOffset.utc : UtcOffset := ⟨0, by decide⟩

/-- A `datetime` with its `tzinfo`; a naive one has none. -/
structure ZonedDatetime where
  wall : Datetime
  tzinfo : Option UtcOffset
deriving DecidableEq

/-- The instant of a timezone-aware `datetime`. -/
def ZonedDatetime.instant (z : ZonedDatetime) (offset : UtcOffset) : ℤ :=
  z.wall.epochUs - offset.1

/-! ## Reading -/

namespace Str

open CodePoint

/-- The code point of a NUL-terminated text under a pointer. -/
def peek (s : Str) (stop : CodePoint) : CodePoint := s.headD stop

/-- `_find_isoformat_datetime_separator`. -/
def findSeparator (s : Str) : ℕ :=
  if s.length = 7 then 7
  else if s.getD 4 0 = ofChar '-' then
    if s.getD 5 0 = ofChar 'W' then
      if s.length > 8 ∧ s.getD 8 0 = ofChar '-' then
        if s.length > 10 ∧ (s.getD 10 0).isDigit then 8 else 10
      else 8
    else 10
  else if s.getD 4 0 = ofChar 'W' then
    let pos := 7 + ((s.drop 7).takeWhile isDigit).length
    if pos < 9 then pos else if pos % 2 = 0 then 7 else 8
  else 8

/-- The day of an ISO week, which a date may leave out: then it is the Monday. -/
def parseIsoDay (s : Str) (length : ℕ) (separator : Bool) : Option ℕ :=
  if length > (if separator then 8 else 7) then
    match separator, s with
    | true, c :: s => if c = ofChar '-' then (parseDigits 1 s 0).map Prod.fst else none
    | true, [] => none
    | false, s => (parseDigits 1 s 0).map Prod.fst
  else some 1

/-- `parse_isoformat_date`, of the first `length` characters. -/
def parseIsoformatDate (s : Str) (length : ℕ) : Option (ℕ × ℕ × ℕ) := do
  let (year, s) ← parseDigits 4 s 0
  let separator := peek s 0 == ofChar '-'
  let s := if separator then s.drop 1 else s
  if peek s 0 = ofChar 'W' then
    let (isoWeek, s) ← parseDigits 2 (s.drop 1) 0
    let isoDay ← parseIsoDay s length separator
    isoToYmd year isoWeek isoDay
  else
    let (month, s) ← parseDigits 2 s 0
    if separator && peek s 0 != ofChar '-' then none
    else
      let s := if separator then s.drop 1 else s
      let (day, _) ← parseDigits 2 s 0
      some (year, month, day)

/-- What follows a pair of digits of a time. -/
inductive AfterPair where
  /-- The time ends here; `more` when a character stands where it ends. -/
  | done (more : Bool)
  /-- The next pair begins. -/
  | pair (s : Str)
  /-- A fraction begins. -/
  | fraction (s : Str)
  /-- The separator is not the one before. -/
  | malformed

/-- What follows the `i`-th pair of digits of a time that ends where `stop` stands. -/
def afterPair (stop : CodePoint) (i : ℕ) (separator : Bool) : Str → AfterPair
  | [] => .done (stop != 0)
  | [c] => .done (c != 0)
  | c :: s =>
    if separator && c = ofChar ':' then if i = 2 then .malformed else .pair s
    else if c = ofChar '.' ∨ c = ofChar ',' then .fraction s
    else if !separator then if i = 2 then .fraction (c :: s) else .pair (c :: s)
    else .malformed

/-- The fraction of a second: six digits at most count, further ones are skipped. -/
def parseFraction (stop : CodePoint) (s : Str) : Option (ℕ × Bool) := do
  let toParse := min 6 s.length
  let (value, s) ← parseDigits toParse s 0
  some (value * 10 ^ (6 - toParse), peek (s.dropWhile isDigit) stop != 0)

/-- `parse_hh_mm_ss_ff`, of a time that ends where `stop` stands: the components, and whether some
character follows them. -/
def parseHhMmSsFf (stop : CodePoint) (s : Str) : Option ((ℕ × ℕ × ℕ × ℕ) × Bool) := do
  let (hour, s) ← parseDigits 2 s 0
  let separator := peek s stop == ofChar ':'
  match afterPair stop 0 separator s with
  | .done more => some ((hour, 0, 0, 0), more)
  | .malformed => none
  | .fraction s => (parseFraction stop s).map fun (us, more) ↦ ((hour, 0, 0, us), more)
  | .pair s => do
    let (minute, s) ← parseDigits 2 s 0
    match afterPair stop 1 separator s with
    | .done more => some ((hour, minute, 0, 0), more)
    | .malformed => none
    | .fraction s => (parseFraction stop s).map fun (us, more) ↦ ((hour, minute, 0, us), more)
    | .pair s => do
      let (second, s) ← parseDigits 2 s 0
      match afterPair stop 2 separator s with
      | .done more => some ((hour, minute, second, 0), more)
      | .malformed | .pair _ => none
      | .fraction s =>
        (parseFraction stop s).map fun (us, more) ↦ ((hour, minute, second, us), more)

/-- The characters with which an offset from UTC begins. -/
def startsOffset (c : CodePoint) : Bool := c = ofChar '+' ∨ c = ofChar '-' ∨ c = ofChar 'Z'

/-- The offset after a time: the sign, then a time; or `Z` at the end of the text. Outside a day it
is refused. -/
def parseOffset (sign : CodePoint) (s : Str) : Option UtcOffset :=
  if sign = ofChar 'Z' then
    if peek s 0 != 0 then none else some .utc
  else do
    let ((hour, minute, second, microsecond), more) ← parseHhMmSsFf 0 s
    let factor : ℤ := if sign = ofChar '-' then -1 else 1
    let tzoffset := factor * (hour * 3600 + minute * 60 + second : ℕ)
    let offset := tzoffset * 1000000 + factor * microsecond
    if more then none
    else if tzoffset = 0 then some .utc
    else if h : -dayUs < offset ∧ offset < dayUs then some ⟨offset, h⟩ else none

/-- `parse_isoformat_time`. -/
def parseIsoformatTime (s : Str) : Option ((ℕ × ℕ × ℕ × ℕ) × Option UtcOffset) := do
  let time := s.takeWhile (!startsOffset ·)
  match s.dropWhile (!startsOffset ·) with
  | [] => do
    let (components, more) ← parseHhMmSsFf 0 time
    if more then none else some (components, none)
  | sign :: s => do
    let (components, _) ← parseHhMmSsFf sign time
    let offset ← parseOffset sign s
    some (components, some offset)

/-- `_sanitize_isoformat_str`: a surrogate may stand where the separator can. -/
def sanitize (s : Str) : Str :=
  match [7, 8, 10].find? fun i ↦ (s.getD i 0).isSurrogate with
  | some i => s.set i (ofChar 'T')
  | none => s

end Str

open Str CodePoint in
/-- `datetime.fromisoformat`; `none` is `ValueError`. -/
def fromisoformat (dtstr : Str) : Option ZonedDatetime := do
  let s := sanitize dtstr
  if s.length < 7 ∨ s.any isSurrogate then none
  else
    let location := findSeparator s
    let (year, month, day) ← parseIsoformatDate s location
    match s.drop location with
    | [] => return ⟨← Datetime.mk? year month day 0 0 0 0, none⟩
    | _ :: time =>
      let ((hour, minute, second, microsecond), tzinfo) ← parseIsoformatTime time
      return ⟨← Datetime.mk? year month day hour minute second microsecond, tzinfo⟩

/-! ## Writing -/

open Str in
/-- `t.strftime(format)` of CPython 3.12.3 on Linux, for the directives of a timestamp. -/
def strftime : List Char → Datetime → Str
  | [], _ => []
  | '%' :: 'Y' :: format, t => decimal t.year ++ strftime format t
  | '%' :: 'm' :: format, t => zeroPad 2 t.month ++ strftime format t
  | '%' :: 'd' :: format, t => zeroPad 2 t.day ++ strftime format t
  | '%' :: 'H' :: format, t => zeroPad 2 t.hour ++ strftime format t
  | '%' :: 'M' :: format, t => zeroPad 2 t.minute ++ strftime format t
  | '%' :: 'S' :: format, t => zeroPad 2 t.second ++ strftime format t
  | '%' :: 'f' :: format, t => zeroPad 6 t.microsecond ++ strftime format t
  | c :: format, t => CodePoint.ofChar c :: strftime format t

end Python
