import ForgeData.Integrity.Checks
import Mathlib.Algebra.Order.Field.Rat

/-!
# How faithful canonical timestamps are

`strftime` does not pad the year on Linux, so the text of a year before 1000 has three digits or
fewer in front of its first dash, and `fromisoformat` refuses it. From year 1000 on the canonical
text of an instant is the timestamp `YYYY-MM-DDTHH:MM:SS[.ffffff]Z` and reads back as that instant;
before year 1000 nothing that normalization or synchronization writes can be read again.
-/

namespace ForgeData

open Python

namespace Normalization

open CodePoint Str

/-! ## The canonical text -/

/-- What follows the year in a timestamp. -/
private def afterYear (t : Datetime) : Str :=
  zeroPad 2 t.month ++ ofChar '-' :: (zeroPad 2 t.day ++ ofChar 'T' :: (t.isoTime ++ [ofChar 'Z']))

/-- The canonical text is a timestamp but for the year, which is not padded. -/
theorem canonicalText_eq_append (t : Datetime) :
    canonicalText t = decimal t.year ++ ofChar '-' :: afterYear t := by
  have hdate : strftime "%Y-%m-%dT%H:%M:%S".toList t = decimal t.year ++ ofChar '-' ::
      (zeroPad 2 t.month ++ ofChar '-' :: (zeroPad 2 t.day ++ ofChar 'T' ::
        (zeroPad 2 t.hour ++ ofChar ':' :: (zeroPad 2 t.minute ++ ofChar ':' ::
          (zeroPad 2 t.second ++ []))))) := rfl
  have hfraction : strftime "%Y-%m-%dT%H:%M:%S.%f".toList t = decimal t.year ++ ofChar '-' ::
      (zeroPad 2 t.month ++ ofChar '-' :: (zeroPad 2 t.day ++ ofChar 'T' ::
        (zeroPad 2 t.hour ++ ofChar ':' :: (zeroPad 2 t.minute ++ ofChar ':' ::
          (zeroPad 2 t.second ++ ofChar '.' :: (zeroPad 6 t.microsecond ++ [])))))) := rfl
  have hZ : ofString "Z" = [ofChar 'Z'] := rfl
  rw [canonicalText, hdate, hfraction, hZ, afterYear, Datetime.isoTime, Datetime.isoFraction]
  split
  · simp
  · next hus =>
    obtain hus : t.microsecond = 0 := not_not.mp hus
    simp [hus]

theorem canonicalText_eq {t : Datetime} (h : 1000 ≤ t.year) : canonicalText t = t.isoformatZ := by
  have hyear : decimal t.year = zeroPad 4 t.year :=
    decimal_eq_zeroPad (.inr h) (Nat.lt_of_le_of_lt t.year_le (by decide))
  rw [canonicalText_eq_append, hyear]
  rfl

/-- **What the canonical text reads as.** -/
theorem fromisoformat_canonicalText (t : Datetime) :
    fromisoformat (canonicalText t) = if 1000 ≤ t.year then some ⟨t, some .utc⟩ else none := by
  split
  · next h => rw [canonicalText_eq h, fromisoformat_isoformatZ]
  · next h =>
    obtain ⟨j, hj, hyear⟩ := exists_decimal_eq_zeroPad (k := 2) (n := t.year) (by omega)
    rw [canonicalText_eq_append, hyear,
      fromisoformat_short_year (j := j + 1) (by omega) (length_zeroPad _ _)]

theorem instant_utc (t : Datetime) : ZonedDatetime.instant ⟨t, some .utc⟩ .utc = t.epochUs := by
  show t.epochUs - 0 = t.epochUs
  omega

/-- The instant of an accepted timestamp. -/
def instant? (rawValue : Str) : Option ℤ := do
  let parsed ← fromisoformat rawValue
  let offset ← parsed.tzinfo
  return parsed.instant offset

theorem instant?_eq_some_iff {rawValue : Str} {e : ℤ} : instant? rawValue = some e ↔
    ∃ parsed offset, fromisoformat rawValue = some parsed ∧ parsed.tzinfo = some offset ∧
      parsed.instant offset = e := by
  simp [instant?, Option.bind_eq_some_iff]

theorem isValid_iff_isSome_instant? (rawValue : Str) :
    Validation.isValidIso8601WithTimezone rawValue = (instant? rawValue).isSome := by
  rw [Validation.isValidIso8601WithTimezone, instant?]
  cases fromisoformat rawValue with
  | none => rfl
  | some parsed => cases h : parsed.tzinfo <;> simp [h]

/-- The instants that have a `datetime` in UTC. -/
def Representable (e : ℤ) : Prop := Datetime.minUs ≤ e ∧ e < Datetime.endUs

/-- The UTC year of the instant has four digits. -/
def FourDigitYear (e : ℤ) : Prop := ∃ t, Datetime.ofEpochUs? e = some t ∧ 1000 ≤ t.year

instance (e : ℤ) : Decidable (FourDigitYear e) :=
  decidable_of_iff ((Datetime.ofEpochUs? e).any (1000 ≤ ·.year) = true) (by
    simp [FourDigitYear, Option.any_eq_true])

theorem normalizeTimestamp_of_instant? {rawValue : Str} {t : Datetime}
    (h : instant? rawValue = some t.epochUs) :
    normalizeTimestamp rawValue = .ok (canonicalText t) := by
  obtain ⟨parsed, offset, hparsed, htz, he⟩ := instant?_eq_some_iff.mp h
  simp only [normalizeTimestamp, hparsed, htz, he, Datetime.ofEpochUs?_epochUs]

theorem normalizeTimestamp_eq_ok_iff {rawValue text : Str} : normalizeTimestamp rawValue = .ok text ↔
    ∃ t : Datetime, instant? rawValue = some t.epochUs ∧ text = canonicalText t := by
  constructor
  · intro h
    rw [normalizeTimestamp] at h
    split at h
    · exact absurd h nofun
    next parsed hparsed =>
    split at h
    · exact absurd h nofun
    next offset htz =>
    split at h
    · exact absurd h nofun
    next t ht =>
    refine ⟨t, ?_, (Except.ok.inj h).symm⟩
    exact instant?_eq_some_iff.mpr ⟨parsed, offset, hparsed, htz,
      (Datetime.ofEpochUs?_eq_some_iff.mp ht).symm⟩
  · rintro ⟨t, ht, rfl⟩
    exact normalizeTimestamp_of_instant? ht

theorem instant?_canonicalText (t : Datetime) :
    instant? (canonicalText t) = if 1000 ≤ t.year then some t.epochUs else none := by
  rw [instant?, fromisoformat_canonicalText]
  split
  · simp [instant_utc]
  · rfl

end Normalization

namespace Synchronization

open Normalization

variable {R : Type}

/-! ## Reading and writing epochs -/

theorem parse_of_instant? {value : Str} {t : Datetime} (h : instant? value = some t.epochUs) :
    parseCanonicalTimestampUs (R := R) (.str value) = .ok t.epochUs := by
  obtain ⟨parsed, offset, hparsed, htz, he⟩ := instant?_eq_some_iff.mp h
  simp only [parseCanonicalTimestampUs, hparsed, htz, he, Datetime.ofEpochUs?_epochUs, deltaUs_eq]

theorem parse_canonicalText (t : Datetime) :
    parseCanonicalTimestampUs (R := R) (.str (canonicalText t)) =
      if 1000 ≤ t.year then .ok t.epochUs else .error .invalidTimestamp := by
  split
  · next h => exact parse_of_instant? (by rw [instant?_canonicalText, if_pos h])
  · next h => simp only [parseCanonicalTimestampUs, fromisoformat_canonicalText, if_neg h]

theorem formatEpochUs_epochUs (t : Datetime) : formatEpochUs t.epochUs = .ok (canonicalText t) := by
  simp only [formatEpochUs, Datetime.ofEpochUs?_epochUs]

theorem parse_isoformatZ (t : Datetime) :
    parseCanonicalTimestampUs (R := R) (.str t.isoformatZ) = .ok t.epochUs := by
  simp only [parseCanonicalTimestampUs, fromisoformat_isoformatZ, instant_utc,
    Datetime.ofEpochUs?_epochUs, deltaUs_eq]

theorem formatEpochUs_of_representable {e : ℤ} (h : Representable e) :
    ∃ t, t.epochUs = e ∧ formatEpochUs e = .ok (canonicalText t) := by
  obtain ⟨t, -, rfl⟩ := Datetime.ofEpochUs?_spec h.1 h.2
  exact ⟨t, rfl, formatEpochUs_epochUs t⟩

theorem fourDigitYear_epochUs (t : Datetime) : FourDigitYear t.epochUs ↔ 1000 ≤ t.year := by
  constructor
  · rintro ⟨t', ht', hyear⟩
    rw [Datetime.ofEpochUs?_epochUs, Option.some.injEq] at ht'
    rwa [ht']
  · exact fun h ↦ ⟨t, Datetime.ofEpochUs?_epochUs t, h⟩

/-! ## What canonicalisation keeps -/

/-- Normalization accepts the timestamp, its output has the same instant, and normalizing the output
changes nothing. -/
def Faithful (R : Type) (rawValue : Str) (e : ℤ) : Prop :=
  ∃ text, normalizeTimestamp rawValue = .ok text ∧
    parseCanonicalTimestampUs (R := R) (.str text) = .ok e ∧ normalizeTimestamp text = .ok text

theorem faithful_iff {rawValue : Str} {t : Datetime} (h : instant? rawValue = some t.epochUs) :
    Faithful R rawValue t.epochUs ↔ 1000 ≤ t.year := by
  rw [Faithful]
  constructor
  · rintro ⟨text, htext, hparse, -⟩
    rw [normalizeTimestamp_of_instant? h, Except.ok.injEq] at htext
    rw [← htext, parse_canonicalText] at hparse
    by_contra hyear
    rw [if_neg hyear] at hparse
    exact absurd hparse nofun
  · intro hyear
    refine ⟨canonicalText t, normalizeTimestamp_of_instant? h, ?_, ?_⟩
    · rw [parse_canonicalText, if_pos hyear]
    · exact normalizeTimestamp_of_instant? (by rw [instant?_canonicalText, if_pos hyear])

theorem format_parse_isoformatZ_iff (t : Datetime) :
    (∃ e, parseCanonicalTimestampUs (R := R) (.str t.isoformatZ) = .ok e ∧
      formatEpochUs e = .ok t.isoformatZ) ↔ 1000 ≤ t.year := by
  constructor
  · rintro ⟨e, he, hformat⟩
    rw [parse_isoformatZ, Except.ok.injEq] at he
    rw [← he, formatEpochUs_epochUs, Except.ok.injEq] at hformat
    have hread := fromisoformat_canonicalText t
    rw [hformat, fromisoformat_isoformatZ] at hread
    by_contra hyear
    rw [if_neg hyear] at hread
    exact absurd hread nofun
  · intro h
    exact ⟨t.epochUs, parse_isoformatZ t, by rw [formatEpochUs_epochUs, canonicalText_eq h]⟩

/-! ## Orders -/

/-- The order in which integrity sees two timestamps that follow each other: what its checker reports
of the second one. -/
def integrityOrder (R : Type) (rawValue next : Str) : Option Ordering := do
  let record (value : Str) : Record R := Dict.ofPairs [(Str.ofString "timestamp", .str value)]
  let (_, checker) ← Integrity.TimestampSequenceChecker.check {} 1 (record rawValue)
  let (issues, _) ← checker.check 2 (record next)
  match issues.map Integrity.IntegrityIssue.code with
  | [] => some .lt
  | [.duplicateTimestamp] => some .eq
  | [.timestampOutOfOrder] => some .gt
  | _ => none

/-- The epoch that synchronization orders a timestamp by. -/
def synchronizedEpoch (R : Type) (rawValue : Str) : Except TimestampError ℤ := do
  let text ← normalizeTimestamp rawValue
  parseCanonicalTimestampUs (R := R) (.str text)

/-- The epoch of the output row, read again. -/
def outputEpoch (R : Type) (rawValue : Str) : Except TimestampError ℤ := do
  let e ← synchronizedEpoch R rawValue
  let text ← formatEpochUs e
  parseCanonicalTimestampUs (R := R) (.str text)

/-- The three orders of two timestamps are the same. -/
def OrdersAgree (R : Type) (rawValue next : Str) : Prop :=
  ∃ e f e' f', synchronizedEpoch R rawValue = .ok e ∧ synchronizedEpoch R next = .ok f ∧
    outputEpoch R rawValue = .ok e' ∧ outputEpoch R next = .ok f' ∧
    integrityOrder R rawValue next = some (compare e f) ∧ compare e' f' = compare e f

theorem get_timestamp (value : Str) :
    Record.get (Dict.ofPairs [(Str.ofString "timestamp", (.str value : Value R))])
      (Str.ofString "timestamp") = .str value := by
  rw [Record.get, Dict.getD, Dict.ofPairs, List.foldl_cons, List.foldl_nil, Dict.get?_set_self]
  rfl

theorem integrityOrder_eq {rawValue next : Str} {e f : ℤ} (he : instant? rawValue = some e)
    (hf : instant? next = some f) : integrityOrder R rawValue next = some (compare e f) := by
  obtain ⟨parsed, offset, hparsed, htz, rfl⟩ := instant?_eq_some_iff.mp he
  obtain ⟨parsed', offset', hparsed', htz', rfl⟩ := instant?_eq_some_iff.mp hf
  have hcompare : Integrity.compareDatetimes parsed' parsed =
      some (compare (parsed'.instant offset') (parsed.instant offset)) := by
    simp only [Integrity.compareDatetimes, htz, htz']
  rw [integrityOrder]
  simp only [Integrity.TimestampSequenceChecker.check, get_timestamp, Integrity.parseTimestamp,
    hparsed, hparsed', hcompare, Option.bind_eq_bind, Option.bind_some]
  rw [Std.OrientedOrd.eq_swap (a := parsed.instant offset)]
  cases compare (parsed'.instant offset') (parsed.instant offset) <;> rfl

theorem synchronizedEpoch_eq {rawValue : Str} {t : Datetime} (h : instant? rawValue = some t.epochUs) :
    synchronizedEpoch R rawValue =
      if 1000 ≤ t.year then .ok t.epochUs else .error .invalidTimestamp := by
  rw [synchronizedEpoch, normalizeTimestamp_of_instant? h]
  exact parse_canonicalText (R := R) t

theorem outputEpoch_eq {rawValue : Str} {t : Datetime} (h : instant? rawValue = some t.epochUs)
    (hyear : 1000 ≤ t.year) : outputEpoch R rawValue = .ok t.epochUs := by
  rw [outputEpoch, synchronizedEpoch_eq h, if_pos hyear]
  show (formatEpochUs t.epochUs >>= fun text ↦ parseCanonicalTimestampUs (R := R) (.str text)) = _
  rw [formatEpochUs_epochUs]
  show parseCanonicalTimestampUs (R := R) (.str (canonicalText t)) = _
  rw [parse_canonicalText, if_pos hyear]

theorem ordersAgree_iff {rawValue next : Str} {t u : Datetime}
    (ht : instant? rawValue = some t.epochUs) (hu : instant? next = some u.epochUs) :
    OrdersAgree R rawValue next ↔ 1000 ≤ t.year ∧ 1000 ≤ u.year := by
  rw [OrdersAgree]
  constructor
  · rintro ⟨e, f, e', f', he, hf, -⟩
    rw [synchronizedEpoch_eq ht] at he
    rw [synchronizedEpoch_eq hu] at hf
    constructor
    · by_contra hyear
      rw [if_neg hyear] at he
      exact absurd he nofun
    · by_contra hyear
      rw [if_neg hyear] at hf
      exact absurd hf nofun
  · rintro ⟨hyear, hyear'⟩
    refine ⟨t.epochUs, u.epochUs, t.epochUs, u.epochUs, ?_, ?_, outputEpoch_eq ht hyear,
      outputEpoch_eq hu hyear', integrityOrder_eq ht hu, rfl⟩
    · rw [synchronizedEpoch_eq ht, if_pos hyear]
    · rw [synchronizedEpoch_eq hu, if_pos hyear']

/-- **Canonical timestamps are faithful exactly from year 1000 on.** Validation accepts the texts that
have an instant. Of those with a representable instant: normalization keeps the instant and is
idempotent, epochs and canonical strings survive each other, and the orders that integrity,
synchronization and the output rows give are the same, if and only if the years in UTC have four
digits. This is so with the unpadded `%Y` of CPython 3.12.3 on Linux. -/
theorem canonicalTimestamps_faithful_iff (R : Type) :
    (∀ rawValue, Validation.isValidIso8601WithTimezone rawValue = true ↔
      ∃ e, instant? rawValue = some e) ∧
    (∀ rawValue e, instant? rawValue = some e → Representable e →
      (Faithful R rawValue e ↔ FourDigitYear e)) ∧
    (∀ e, Representable e →
      ((∃ text, formatEpochUs e = .ok text ∧
        parseCanonicalTimestampUs (R := R) (.str text) = .ok e) ↔ FourDigitYear e)) ∧
    (∀ t : Datetime, (∃ e, parseCanonicalTimestampUs (R := R) (.str t.isoformatZ) = .ok e ∧
      formatEpochUs e = .ok t.isoformatZ) ↔ FourDigitYear t.epochUs) ∧
    (∀ rawValue next e f, instant? rawValue = some e → instant? next = some f →
      Representable e → Representable f →
      (OrdersAgree R rawValue next ↔ FourDigitYear e ∧ FourDigitYear f)) := by
  refine ⟨?_, ?_, ?_, ?_, ?_⟩
  · intro rawValue
    rw [isValid_iff_isSome_instant?, Option.isSome_iff_exists]
  · intro rawValue e he hrep
    obtain ⟨t, -, rfl⟩ := Datetime.ofEpochUs?_spec hrep.1 hrep.2
    rw [faithful_iff he, fourDigitYear_epochUs]
  · intro e hrep
    obtain ⟨t, rfl, hformat⟩ := formatEpochUs_of_representable hrep
    rw [fourDigitYear_epochUs, hformat]
    constructor
    · rintro ⟨text, htext, hparse⟩
      rw [Except.ok.injEq] at htext
      rw [← htext, parse_canonicalText] at hparse
      by_contra hyear
      rw [if_neg hyear] at hparse
      exact absurd hparse nofun
    · intro hyear
      exact ⟨_, rfl, by rw [parse_canonicalText, if_pos hyear]⟩
  · intro t
    rw [format_parse_isoformatZ_iff, fourDigitYear_epochUs]
  · intro rawValue next e f he hf hrep hrep'
    obtain ⟨t, -, rfl⟩ := Datetime.ofEpochUs?_spec hrep.1 hrep.2
    obtain ⟨u, -, rfl⟩ := Datetime.ofEpochUs?_spec hrep'.1 hrep'.2
    rw [ordersAgree_iff he hf, fourDigitYear_epochUs, fourDigitYear_epochUs]

/-- Year 1000 is kept, and year 999 is not. -/
theorem canonicalTimestamps_faithful_from_1000 :
    Faithful ℚ (Str.ofString "1000-01-01T00:00:00Z") (-30610224000000000) ∧
      ¬OrdersAgree ℚ (Str.ofString "0999-12-31T23:00:00+01:00")
        (Str.ofString "1000-01-01T00:00:00Z") := by
  have h := canonicalTimestamps_faithful_iff ℚ
  constructor
  · exact (h.2.1 _ _ (by decide +kernel) ⟨by decide, by decide⟩).mpr (by decide +kernel)
  · intro hagree
    have hyears := (h.2.2.2.2 _ _ (-30610231200000000) (-30610224000000000) (by decide +kernel)
      (by decide +kernel) ⟨by decide, by decide⟩ ⟨by decide, by decide⟩).mp hagree
    exact absurd hyears.1 (by decide +kernel)

/-- **A timestamp that validation accepts and synchronization refuses.** Normalization writes the
text `999-12-31T23:59:59Z`, which no stage can read again. -/
theorem canonicalTimestamp_year_999_lost :
    Validation.isValidIso8601WithTimezone (Str.ofString "0999-12-31T23:59:59Z") = true ∧
      Representable (-30610224001000000) ∧
      instant? (Str.ofString "0999-12-31T23:59:59Z") = some (-30610224001000000) ∧
      normalizeTimestamp (Str.ofString "0999-12-31T23:59:59Z")
        = .ok (Str.ofString "999-12-31T23:59:59Z") ∧
      parseCanonicalTimestampUs (R := ℚ) (.str (Str.ofString "999-12-31T23:59:59Z"))
        = .error .invalidTimestamp ∧
      normalizeTimestamp (Str.ofString "999-12-31T23:59:59Z") = .error .valueError := by
  have hread : fromisoformat (Str.ofString "999-12-31T23:59:59Z") = none := by decide +kernel
  refine ⟨by decide +kernel, ⟨by decide, by decide⟩, by decide +kernel, by decide +kernel, ?_, ?_⟩
  · rw [parseCanonicalTimestampUs, hread]
  · rw [normalizeTimestamp, hread]

end Synchronization

end ForgeData
