import ForgeData.Synchronization.FieldsKept

/-!
# Normalized artifacts, read again

`write_records` and `iter_typed_records` of the same records, for each of the three formats. The
reader yields the records up to the first timestamp that goes backward, and raises there. It does so
exactly if the timestamps that it reads have years of four digits; a CSV artifact also needs texts
that UTF-8 can encode, and strings in the fields of strings.
-/

namespace ForgeData

namespace Synchronization

open Python Normalization Integrity

variable {R : Type} [FloatText R] [Mul R]

/-! ## Where timestamps go backward -/

section Regression

variable {normalizer : RecordNormalizer R}

/-- The timestamps do not go backward up to a record, and that record, if there is one, is before
the one in front of it. -/
def FirstRegression (pre rest : List (NormalizedRecord normalizer)) : Prop :=
  pre.Pairwise (fun r r' ↦ r.epochUs ≤ r'.epochUs) ∧
    ∀ r ∈ rest.head?, ∃ last ∈ pre.getLast?, r.epochUs < last.epochUs

theorem FirstRegression.unique {pre rest pre' rest' : List (NormalizedRecord normalizer)}
    (h : FirstRegression pre rest) (h' : FirstRegression pre' rest') (heq : pre ++ rest = pre' ++ rest') :
    pre = pre' ∧ rest = rest' := by
  -- a first regression is not within a part without one
  have hshort {pre rest l : List (NormalizedRecord normalizer)} (h : FirstRegression pre (l ++ rest))
      (hordered : (pre ++ l).Pairwise (fun r r' ↦ r.epochUs ≤ r'.epochUs)) : l = [] := by
    cases l with
    | nil => rfl
    | cons r l =>
      obtain ⟨last, hlast, hlt⟩ := h.2 r rfl
      have hle := (List.pairwise_append.mp hordered).2.2 last (List.mem_of_getLast? hlast) r
        List.mem_cons_self
      exact absurd hlt (not_lt.mpr hle)
  rcases List.append_eq_append_iff.mp heq with ⟨l, rfl, rfl⟩ | ⟨l, rfl, rfl⟩
  · obtain rfl := hshort h h'.1
    exact ⟨(List.append_nil pre).symm, rfl⟩
  · obtain rfl := hshort h' h.1
    exact ⟨List.append_nil pre', rfl⟩

/-- Every list of records has a place of its first regression, or the end. -/
theorem exists_firstRegression (records : List (NormalizedRecord normalizer)) :
    ∃ pre rest, records = pre ++ rest ∧ FirstRegression pre rest := by
  induction records using List.reverseRecOn with
  | nil => exact ⟨[], [], rfl, .nil, nofun⟩
  | append_singleton records r ih =>
    obtain ⟨pre, rest, rfl, hpre, hrest⟩ := ih
    cases rest with
    | cons r' rest => exact ⟨pre, r' :: (rest ++ [r]), by simp, hpre, hrest⟩
    | nil =>
      rw [List.append_nil]
      by_cases hlast : ∃ last ∈ pre.getLast?, r.epochUs < last.epochUs
      · refine ⟨pre, [r], rfl, hpre, ?_⟩
        rintro r' ⟨⟩
        exact hlast
      · refine ⟨pre ++ [r], [], by rw [List.append_nil], ?_, nofun⟩
        refine List.pairwise_append.mpr ⟨hpre, List.pairwise_singleton _ _, ?_⟩
        intro r' hr' a ha
        obtain rfl := List.mem_singleton.mp ha
        obtain ⟨init, last, rfl⟩ := (List.eq_nil_or_concat' pre).resolve_left
          (List.ne_nil_of_mem hr')
        have hle : last.epochUs ≤ a.epochUs := by
          by_contra hlt
          exact hlast ⟨last, by simp, Int.lt_of_not_ge hlt⟩
        rcases List.mem_append.mp hr' with hr' | hr'
        · exact ((List.pairwise_append.mp hpre).2.2 r' hr' last (by simp)).trans hle
        · obtain rfl := List.mem_singleton.mp hr'
          exact hle

/-- The exception that the reader owes to its consumer. -/
def regressionError (pre rest : List (NormalizedRecord normalizer)) : Option StreamError :=
  match rest.head?, pre.getLast? with
  | some r, some last => some (.nonMonotonicStream (pre.length + 1) r.epochUs last.epochUs)
  | _, _ => none

end Regression

/-! ## The loop of the reader -/

section Loop

variable {normalizer : RecordNormalizer R} {schema : SchemaDefinition} {timestampField : Str}
  {rowOf : NormalizedRecord normalizer → Record R}
  {fieldsOf : NormalizedRecord normalizer → List (Str × Value R)}

/-- The rows that are read hold the timestamps and the fields of the records. -/
structure RowsRead (schema : SchemaDefinition) (timestampField : Str)
    (rowOf : NormalizedRecord normalizer → Record R)
    (fieldsOf : NormalizedRecord normalizer → List (Str × Value R)) : Prop where
  timestamp : ∀ r, (rowOf r).get timestampField = .str (canonicalText r.time)
  fields : ∀ r, typedFields schema timestampField (rowOf r).items = .ok (fieldsOf r)

theorem typedStep_short (h : RowsRead schema timestampField rowOf fieldsOf) (previous : Option ℤ)
    (n : ℕ) {r : NormalizedRecord normalizer} (hyear : ¬1000 ≤ r.time.year) :
    typedStep schema timestampField previous (n, rowOf r) =
      .error (.timestamp .invalidTimestamp) := by
  simp only [typedStep, h.timestamp, parse_canonicalText, if_neg hyear]

theorem typedStep_ok (h : RowsRead schema timestampField rowOf fieldsOf) {previous : Option ℤ}
    (n : ℕ) {r : NormalizedRecord normalizer} (hyear : 1000 ≤ r.time.year)
    (hle : ∀ e ∈ previous, e ≤ r.epochUs) :
    typedStep schema timestampField previous (n, rowOf r) =
      .ok (some r.epochUs, [⟨n, r.epochUs, fieldsOf r⟩]) := by
  simp only [typedStep, h.timestamp, parse_canonicalText, if_pos hyear, h.fields]
  cases previous with
  | none => rfl
  | some e =>
    have hnot : ¬r.time.epochUs < e := Int.not_lt.mpr (hle e rfl)
    simp only [if_neg hnot]
    rfl

theorem typedStep_regression (h : RowsRead schema timestampField rowOf fieldsOf) {e : ℤ}
    (n : ℕ) {r : NormalizedRecord normalizer} (hyear : 1000 ≤ r.time.year) (hlt : r.epochUs < e) :
    typedStep schema timestampField (some e) (n, rowOf r) =
      .error (.nonMonotonicStream n r.epochUs e) := by
  have hlt' : r.time.epochUs < e := hlt
  simp only [typedStep, h.timestamp, parse_canonicalText, if_pos hyear, if_pos hlt']
  rfl

/-- The loop over numbered rows. -/
def readRows (schema : SchemaDefinition) (timestampField : Str) (previous : Option ℤ)
    (rows : List (ℕ × Record R)) : Gen StreamError (TypedRecord R) :=
  Gen.loop (typedStep schema timestampField) (fun _ ↦ []) previous rows

/-- The epoch of the last record, if there is one. -/
def lastEpoch (previous : Option ℤ) (pre : List (NormalizedRecord normalizer)) : Option ℤ :=
  pre.foldl (fun _ r ↦ some r.epochUs) previous

theorem lastEpoch_of_getLast? {pre : List (NormalizedRecord normalizer)} {last}
    (h : last ∈ pre.getLast?) (previous : Option ℤ) :
    lastEpoch previous pre = some last.epochUs := by
  obtain ⟨init, a, rfl⟩ := (List.eq_nil_or_concat' pre).resolve_left (by rintro rfl; cases h)
  rw [List.getLast?_concat] at h
  obtain rfl := Option.some.inj h
  rw [lastEpoch, List.foldl_append]
  rfl

/-- **While the timestamps do not go backward** the reader yields record after record. -/
theorem readRows_append (h : RowsRead schema timestampField rowOf fieldsOf)
    {pre : List (NormalizedRecord normalizer)} (hyear : ∀ r ∈ pre, 1000 ≤ r.time.year)
    (hpre : pre.Pairwise fun r r' ↦ r.epochUs ≤ r'.epochUs) {previous : Option ℤ}
    (hprevious : ∀ e ∈ previous, ∀ r ∈ pre, e ≤ r.epochUs) (first : ℕ)
    (rows : List (ℕ × Record R)) :
    readRows schema timestampField previous (enumerate first (pre.map rowOf) ++ rows) =
      (readRows schema timestampField (lastEpoch previous pre) rows).prepend
        ((enumerate first pre).map fun p ↦ ⟨p.1, p.2.epochUs, fieldsOf p.2⟩) := by
  induction pre generalizing previous first with
  | nil => rfl
  | cons r pre ih =>
    obtain ⟨hr, hpre⟩ := List.pairwise_cons.mp hpre
    have hstep := typedStep_ok h first (hyear r List.mem_cons_self)
      fun e he ↦ hprevious e he r List.mem_cons_self
    have hfrom : ∀ e ∈ some r.epochUs, ∀ r' ∈ pre, e ≤ r'.epochUs := by
      rintro e ⟨⟩
      exact hr
    have hrest := ih (fun r hr ↦ hyear r (List.mem_cons_of_mem _ hr)) hpre hfrom (first + 1)
    rw [readRows, List.map_cons, enumerate, List.cons_append, Gen.loop, hstep]
    simp only
    rw [readRows] at hrest
    rw [hrest]
    rfl

/-- A year that is too short ends the stream with the wrong exception. -/
theorem raised_readRows_short (h : RowsRead schema timestampField rowOf fieldsOf)
    {pre : List (NormalizedRecord normalizer)}
    (hpre : pre.Pairwise fun r r' ↦ r.epochUs ≤ r'.epochUs) {previous : Option ℤ}
    (hprevious : ∀ e ∈ previous, ∀ r ∈ pre, e ≤ r.epochUs)
    (hshort : ∃ r ∈ pre, ¬1000 ≤ r.time.year) (first : ℕ) (rows : List (ℕ × Record R)) :
    (readRows schema timestampField previous (enumerate first (pre.map rowOf) ++ rows)).raised =
      some (.timestamp .invalidTimestamp) := by
  induction pre generalizing previous first with
  | nil =>
    obtain ⟨r, hr, -⟩ := hshort
    exact absurd hr List.not_mem_nil
  | cons r pre ih =>
    obtain ⟨hr, hpre⟩ := List.pairwise_cons.mp hpre
    rw [readRows, List.map_cons, enumerate, List.cons_append, Gen.loop]
    by_cases hyear : 1000 ≤ r.time.year
    · obtain ⟨r', hr', hshort⟩ := hshort
      have hmem : r' ∈ pre := (List.mem_cons.mp hr').resolve_left
        fun heq ↦ hshort (heq ▸ hyear)
      have hfrom : ∀ e ∈ some r.epochUs, ∀ r'' ∈ pre, e ≤ r''.epochUs := by
        rintro e ⟨⟩
        exact hr
      have hrest := ih hpre hfrom ⟨r', hmem, hshort⟩ (first + 1)
      rw [typedStep_ok h first hyear fun e he ↦ hprevious e he r List.mem_cons_self]
      exact hrest
    · rw [typedStep_short h previous first hyear]

/-- **The whole stream**, if the years have four digits up to the first regression. -/
theorem readRows_eq (h : RowsRead schema timestampField rowOf fieldsOf)
    {pre rest : List (NormalizedRecord normalizer)} (hregression : FirstRegression pre rest)
    (hyear : ∀ r ∈ pre ++ rest.head?.toList, 1000 ≤ r.time.year) :
    readRows schema timestampField none (enumerate 1 ((pre ++ rest).map rowOf)) =
      ⟨(enumerate 1 pre).map fun p ↦ ⟨p.1, p.2.epochUs, fieldsOf p.2⟩, regressionError pre rest⟩ := by
  obtain ⟨hpre, hrest⟩ := hregression
  rw [List.map_append, enumerate_append, readRows_append h
    (fun r hr ↦ hyear r (List.mem_append_left _ hr)) hpre (fun _ he ↦ absurd he (Option.not_mem_none _))]
  cases rest with
  | nil =>
    rw [List.map_nil, enumerate, readRows, Gen.loop, Gen.prepend, List.append_nil, regressionError]
    rfl
  | cons r rest =>
    obtain ⟨last, hlast, hlt⟩ := hrest r rfl
    have hr : 1000 ≤ r.time.year := hyear r (List.mem_append_right _ (List.mem_singleton_self r))
    rw [lastEpoch_of_getLast? hlast, List.map_cons, enumerate, readRows, Gen.loop,
      typedStep_regression h _ hr hlt, Gen.prepend, List.append_nil, regressionError,
      Option.mem_def.mp hlast, List.length_map, Nat.add_comm 1]
    rfl

theorem raised_readRows_ne (h : RowsRead schema timestampField rowOf fieldsOf)
    {pre rest : List (NormalizedRecord normalizer)} (hregression : FirstRegression pre rest)
    (hyear : ¬∀ r ∈ pre ++ rest.head?.toList, 1000 ≤ r.time.year) :
    (readRows schema timestampField none (enumerate 1 ((pre ++ rest).map rowOf))).raised ≠
      regressionError pre rest := by
  obtain ⟨hpre, hrest⟩ := hregression
  have hexpected : regressionError pre rest ≠ some (.timestamp .invalidTimestamp) := by
    rw [regressionError]
    split <;> exact nofun
  suffices hraised : (readRows schema timestampField none
      (enumerate 1 ((pre ++ rest).map rowOf))).raised = some (.timestamp .invalidTimestamp) by
    rw [hraised]
    exact hexpected.symm
  rw [List.map_append, enumerate_append]
  by_cases hshort : ∃ r ∈ pre, ¬1000 ≤ r.time.year
  · exact raised_readRows_short h hpre (fun _ he ↦ absurd he (Option.not_mem_none _)) hshort 1 _
  · have hlong : ∀ r ∈ pre, 1000 ≤ r.time.year := by
      intro r hr
      by_contra hnot
      exact hshort ⟨r, hr, hnot⟩
    rw [readRows_append h hlong hpre (fun _ he ↦ absurd he (Option.not_mem_none _))]
    cases rest with
    | nil => exact absurd (by simpa using hlong) hyear
    | cons r rest =>
      have hr : ¬1000 ≤ r.time.year := by
        intro hr
        refine hyear fun r' hr' ↦ ?_
        rcases List.mem_append.mp hr' with hr' | hr'
        · exact hlong r' hr'
        · obtain rfl := List.mem_singleton.mp hr'
          exact hr
      rw [List.map_cons, enumerate, readRows, Gen.loop, typedStep_short h _ _ hr]
      rfl

end Loop

end Synchronization

end ForgeData
