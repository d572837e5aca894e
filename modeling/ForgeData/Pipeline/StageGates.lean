import ForgeData.Integrity.ReadValues
import ForgeData.Normalization.Artifacts
import ForgeData.Normalization.ValidatedRecords
import ForgeData.Synchronization.ArtifactRoundTrip

/-!
# The gates between the stages are enough

Validation, integrity and normalization read one raw file each for itself; a stage runs only if the one before
has accepted the file. A file that passed validation has records only, integrity checks exactly these, and if
its report is accepted, normalization can only fail on a timestamp that UTC has no `datetime` for. Otherwise
it writes an artifact of as many records, and synchronization reads all of them in order.
-/

namespace ForgeData

namespace Pipeline

open Python Normalization
open Integrity (FieldChecks NoFieldError instantOf instantsOf iterRecords)
open Synchronization (SameRecord Survives FirstRegression RoundTrips)
open Validation (ConformsTo Passes RegisteredSchema ValueText evaluatorOf)

variable {R : Type}

/-! ## Records that have passed the gates -/

/-- The records of a file that validation and integrity have accepted. -/
structure Gated [FloatText R] (schema : SchemaDefinition) (checks : FieldChecks R) (type : FileType)
    (bytes : List Byte) (records : List (ℕ × Record R)) : Prop where
  read : iterRecords type bytes = ⟨records, none⟩
  conforms : ∀ p ∈ records, ConformsTo (evaluatorOf schema type) p.2
  checked : ∀ p ∈ records, NoFieldError checks p
  ordered : (instantsOf records).Pairwise (· ≤ ·)

theorem exists_gated [ValueText R] {maxErrors maxIssues : ℤ} {schema : RegisteredSchema}
    {manifest : Record R} {profile : NormalizationProfile R} {checks : FieldChecks R} {type : FileType}
    {bytes : List Byte} {n : ℕ} {report : Integrity.IntegrityReport R}
    (hfits : SensorFits schema.toSchemaDefinition profile checks)
    (hpasses : Passes maxErrors schema manifest type bytes n)
    (hrun : Integrity.run maxIssues checks type bytes = .ok report) (haccepted : report.Accepted) :
    ∃ records, Gated schema.toSchemaDefinition checks type bytes records ∧ records.length = n ∧
      report.counts.checkedRecords = n := by
  obtain ⟨records, hread, hlength, hconforms, houtcome⟩ :=
    Integrity.outcome_of_passes hpasses hfits.isTimestamp maxIssues checks
  rcases houtcome with ⟨hraise, -⟩ | ⟨report', hrun', hchecked, -, hclean⟩
  · rw [hrun] at hraise
    cases hraise
  · rw [hrun] at hrun'
    obtain rfl := Except.ok.inj hrun'
    obtain ⟨hordered, hfields⟩ := hclean haccepted
    exact ⟨records, ⟨hread, hconforms, hfields, hordered⟩, hlength, hchecked.trans hlength⟩

section Gated

variable [FloatText R] {schema : SchemaDefinition} {profile : NormalizationProfile R}
  {checks : FieldChecks R} {type : FileType} {bytes : List Byte} {records : List (ℕ × Record R)}

theorem Gated.exists_instant (h : Gated schema checks type bytes records)
    (hfits : SensorFits schema profile checks) {p : ℕ × Record R} (hp : p ∈ records) :
    ∃ e, instantOf p.2 = some e := by
  obtain ⟨text, e, htext, he⟩ := Integrity.exists_instant_of_conforms (h.conforms p hp) hfits.isTimestamp
  exact ⟨e, Integrity.instantOf_eq_some_iff.mpr ⟨text, htext, he⟩⟩

theorem Gated.cell (h : Gated schema checks .csv bytes records) {p : ℕ × Record R} (hp : p ∈ records)
    (field : Str) :
    p.2.get field = .none ∨ ∃ s, p.2.get field = .str s ∧ Utf8.Encodable s := by
  have hmem : p ∈ (Integrity.iterCsvRecords (R := R) bytes).yields := by
    have hread : Integrity.iterCsvRecords (R := R) bytes = ⟨records, none⟩ := h.read
    rw [hread]
    exact hp
  rw [Record.get, Dict.getD]
  rcases hvalue : p.2.get? field with _ | value
  · exact .inl rfl
  · exact (Integrity.encodableCell_of_mem_iterCsvRecords hmem _ (Dict.get?_eq_some_iff.mp hvalue)).2

variable [Mul R] {sourceUnits : Dict Str Str} {normalizer : RecordNormalizer R}

/-- A normalized record is that of a raw one, at its instant. -/
def NormalizedFrom (p : ℕ × Record R) (r : NormalizedRecord normalizer) : Prop :=
  r.recordNumber = p.1 ∧ r.raw = p.2 ∧ r.mapped = p.2 ∧ instantOf p.2 = some r.epochUs

theorem normalizeRecords_of_forall₂ {l : List (ℕ × Record R)} {normalized : List (NormalizedRecord normalizer)}
    (h : List.Forall₂ NormalizedFrom l normalized) :
    normalizeRecords normalizer l = .ok (normalized.map NormalizedRecord.record) := by
  refine normalizeRecords_eq_ok (List.forall₂_map_right_iff.mpr (h.imp fun p r hr ↦ ?_))
  rw [← hr.1, ← hr.2.1]
  exact r.record_eq

theorem instantsOf_of_forall₂ {l : List (ℕ × Record R)} {normalized : List (NormalizedRecord normalizer)}
    (h : List.Forall₂ NormalizedFrom l normalized) :
    instantsOf l = normalized.map NormalizedRecord.epochUs := by
  induction h with
  | nil => rfl
  | cons hp _ ih =>
    rw [instantsOf] at ih ⊢
    rw [List.filterMap_cons, hp.2.2.2, List.map_cons, ← ih]

theorem firstRegression_of_ordered {l : List (ℕ × Record R)} {normalized : List (NormalizedRecord normalizer)}
    (h : List.Forall₂ NormalizedFrom l normalized) (hordered : (instantsOf l).Pairwise (· ≤ ·)) :
    FirstRegression normalized [] := by
  rw [instantsOf_of_forall₂ h] at hordered
  refine ⟨List.pairwise_map.mp hordered, fun r hr ↦ ?_⟩
  cases hr

theorem exists_raw_of_mem {l : List (ℕ × Record R)} {normalized : List (NormalizedRecord normalizer)}
    (h : List.Forall₂ NormalizedFrom l normalized) {r : NormalizedRecord normalizer} (hr : r ∈ normalized) :
    ∃ p ∈ l, NormalizedFrom p r := by
  induction h with
  | nil => exact absurd hr List.not_mem_nil
  | @cons p r' l normalized hp _ ih =>
    rcases List.mem_cons.mp hr with rfl | hr
    · exact ⟨p, List.mem_cons_self, hp⟩
    · obtain ⟨q, hq, hqr⟩ := ih hr
      exact ⟨q, List.mem_cons_of_mem _ hq, hqr⟩

/-- A CSV artifact of gated records has an encoding, and its texts are texts. -/
theorem Gated.csv (h : Gated schema checks .csv bytes records)
    (hinit : RecordNormalizer.init schema profile sourceUnits = .ok normalizer)
    (hfits : SensorFits schema profile checks) {normalized : List (NormalizedRecord normalizer)}
    (hnormalized : List.Forall₂ NormalizedFrom records normalized) :
    ((∀ name ∈ schema.fields.keys, Utf8.Encodable name) ∧
      ∀ r ∈ normalized, ∀ p ∈ r.record.items, ∀ s, p.2 = .str s → Utf8.Encodable s) ∧
    ∀ r ∈ normalized, ∀ p ∈ r.record.items, p.1 ≠ profile.timestampField →
      ∀ definition, schema.fields.get? p.1 = some definition → Synchronization.IsText definition.type →
        Synchronization.IsNullOrStr p.2 := by
  obtain ⟨hschema, hprofile, hfactors⟩ := RecordNormalizer.init_eq_ok hinit
  -- what a field of a normalized record was before
  have hfield {r : NormalizedRecord normalizer} (hr : r ∈ normalized) {p : Str × Value R}
      (hp : p ∈ r.record.items) : ∃ q ∈ records, ∃ definition, schema.fields.get? p.1 = some definition ∧
        normalizer.normalizeField r.recordNumber q.2 p.1 definition = .ok p.2 := by
    obtain ⟨q, hq, hqr⟩ := exists_raw_of_mem hnormalized hr
    obtain ⟨definition, hdefinition, heq⟩ :=
      (RecordNormalizer.normalizeRecord_eq_ok r.mapped_eq r.record_eq).2 p hp
    rw [hqr.2.2.1] at heq
    exact ⟨q, hq, definition, hschema ▸ hdefinition, heq⟩
  refine ⟨⟨hfits.names, fun r hr p hp s hs ↦ ?_⟩, fun r hr p hp hne definition hdefinition htext ↦ ?_⟩
  · obtain ⟨q, hq, definition, -, heq⟩ := hfield hr hp
    rw [hs] at heq
    rcases normalizeField_eq_str (p := (p.1, definition)) heq with ⟨t, rfl⟩ | hraw
    · exact encodable_canonicalText t
    · rcases h.cell hq p.1 with hnone | ⟨s', hstr, hs'⟩
      · rw [hraw] at hnone
        cases hnone
      · rw [hraw] at hstr
        rwa [Value.str.inj hstr]
  · obtain ⟨q, hq, definition', hdefinition', heq⟩ := hfield hr hp
    rw [hdefinition] at hdefinition'
    obtain rfl := Option.some.inj hdefinition'
    have hfactor : normalizer.factorByField.get? p.1 = none := by
      rw [Dict.get?_eq_none_iff, hfactors]
      intro hmem
      have hfloat := hfits.numeric p.1 hmem definition hdefinition
      rcases htext with htext | htext
      · rw [hfloat] at htext
        cases htext
      · rw [hfloat] at htext
        cases htext
    have hne' : p.1 ≠ normalizer.profile.timestampField := by rwa [hprofile]
    rcases normalizeField_of_text hne' hfactor htext heq with hnone | hraw
    · exact .inl hnone
    · rw [hraw]
      rcases h.cell hq p.1 with hnone | ⟨s, hs, -⟩
      · exact .inl hnone
      · exact .inr ⟨s, hs⟩

variable [StripsText R]

theorem Gated.exists_normalized (h : Gated schema checks type bytes records)
    (hinit : RecordNormalizer.init schema profile sourceUnits = .ok normalizer)
    (hfits : SensorFits schema profile checks) {l : List (ℕ × Record R)} (hl : l ⊆ records)
    (hrange : ∀ p ∈ l, ∀ e ∈ instantOf p.2, Datetime.ofEpochUs? e ≠ none) :
    ∃ normalized : List (NormalizedRecord normalizer), List.Forall₂ NormalizedFrom l normalized := by
  induction l with
  | nil => exact ⟨[], .nil⟩
  | cons p l ih =>
    obtain ⟨hp, hl⟩ := List.cons_subset.mp hl
    obtain ⟨hrange, hranges⟩ := List.forall_mem_cons.mp hrange
    obtain ⟨normalized, hnormalized⟩ := ih hl hranges
    obtain ⟨e, he⟩ := h.exists_instant hfits hp
    obtain ⟨t, ht⟩ := Option.ne_none_iff_exists'.mp (hrange e he)
    obtain rfl := Datetime.ofEpochUs?_eq_some_iff.mp ht
    have hmem : p ∈ (iterRecords (R := R) type bytes).yields := by
      rw [h.read]
      exact hp
    obtain ⟨r, hnumber, hraw, hmapped, htime⟩ := exists_normalizedRecord hinit hfits (h.conforms p hp)
      (h.checked p hp) (fun q hq ↦ (Integrity.storableField_of_mem_iterRecords hmem q hq).2) he
    refine ⟨r :: normalized, .cons ⟨hnumber, hraw, hmapped, ?_⟩ hnormalized⟩
    rw [he, NormalizedRecord.epochUs, htime]

/-! ## The gates suffice -/

variable (strOf : Value R → Str)

/-- Synchronization reads an artifact back: each normalized record in order, with its instant and fields. -/
def ReadBack (type : FileType) (schema : SchemaDefinition) (timestampField : Str)
    (normalized : List (NormalizedRecord normalizer)) (artifact : List Byte) : Prop :=
  List.Forall₂ (SameRecord timestampField) (Integrity.enumerate 1 normalized)
      (Synchronization.iterTypedRecords (R := R) type schema timestampField artifact).yields ∧
    (Synchronization.iterTypedRecords (R := R) type schema timestampField artifact).raised = none

/-- The raw file becomes an artifact of all its records, and synchronization reads it back if the years of
the timestamps have four digits. -/
def Synchronizable (type : FileType) (schema : SchemaDefinition) (normalizer : RecordNormalizer R)
    (timestampField : Str) (bytes : List Byte) (n : ℕ) : Prop :=
  ∃ (normalized : List (NormalizedRecord normalizer)) (artifact : List Byte),
    List.Forall₂ NormalizedFrom (iterRecords type bytes).yields normalized ∧
    writeStagedArtifact strOf type normalizer bytes = .ok (n, artifact) ∧
    ((∀ r ∈ normalized, 1000 ≤ r.time.year) → ReadBack type schema timestampField normalized artifact)

/-- The normalization run raises at the first timestamp that UTC has no `datetime` for. -/
def Overflows (type : FileType) (normalizer : RecordNormalizer R) (bytes : List Byte) : Prop :=
  ∃ before p after, (iterRecords (R := R) type bytes).yields = before ++ p :: after ∧
    (∃ e, instantOf p.2 = some e ∧ Datetime.ofEpochUs? e = none) ∧
    writeStagedArtifact strOf type normalizer bytes =
      .error (.record (.overflowError p.1 (Str.ofString "timestamp")))

theorem Gated.synchronizable [LawfulFloatText R] (h : Gated schema checks type bytes records)
    (hinit : RecordNormalizer.init schema profile sourceUnits = .ok normalizer)
    (hfits : SensorFits schema profile checks) (hstrOf : ∀ v : Value R, Utf8.Encodable (strOf v))
    (hrange : ∀ p ∈ records, ∀ e ∈ instantOf p.2, Datetime.ofEpochUs? e ≠ none) :
    Synchronizable strOf type schema normalizer profile.timestampField bytes records.length := by
  obtain ⟨hschema, -, -⟩ := RecordNormalizer.init_eq_ok hinit
  obtain ⟨normalized, hnormalized⟩ := h.exists_normalized hinit hfits (List.Subset.refl _) hrange
  have hcsv : type = .csv → _ := fun htype ↦ (htype ▸ h).csv hinit hfits hnormalized
  have hsome := (Synchronization.isSome_writeRecords_iff strOf hinit hfits.profileFits hstrOf type
    normalized).mpr fun htype ↦ (hcsv htype).1
  obtain ⟨artifact, hartifact⟩ := Option.isSome_iff_exists.mp hsome
  refine ⟨normalized, artifact, by rw [h.read]; exact hnormalized, ?_, fun hyear ↦ ?_⟩
  · rw [writeStagedArtifact, h.read]
    dsimp only
    rw [normalizeRecords_of_forall₂ hnormalized]
    dsimp only
    rw [hschema, hartifact, List.length_map, hnormalized.length_eq]
  · have hsurvives : Survives type schema profile.timestampField normalized [] := by
      refine ⟨fun r hr ↦ hyear r ?_, fun htype ↦ ?_, fun htype ↦ (hcsv htype).2⟩
      · rwa [List.head?_nil, Option.toList_none, List.append_nil] at hr
      · rw [List.append_nil]
        exact (hcsv htype).1
    have hregression := firstRegression_of_ordered hnormalized h.ordered
    obtain ⟨artifact', hartifact', hsame, hraised⟩ := (Synchronization.roundTrips_iff strOf hinit
      hfits.profileFits hstrOf type hregression).mpr hsurvives
    rw [List.append_nil, hartifact] at hartifact'
    rw [← Option.some.inj hartifact'] at hsame hraised
    exact ⟨hsame, hraised⟩

theorem Gated.overflows (h : Gated schema checks type bytes records)
    (hinit : RecordNormalizer.init schema profile sourceUnits = .ok normalizer)
    (hfits : SensorFits schema profile checks)
    (hrange : ¬∀ p ∈ records, ∀ e ∈ instantOf p.2, Datetime.ofEpochUs? e ≠ none) :
    Overflows strOf type normalizer bytes := by
  push Not at hrange
  obtain ⟨q, hq, e', he', hnone'⟩ := hrange
  have hfound : (records.find? fun p ↦ ((instantOf p.2).bind Datetime.ofEpochUs?).isNone).isSome = true := by
    refine List.find?_isSome.mpr ⟨q, hq, ?_⟩
    rw [he', Option.bind_some, hnone']
    rfl
  obtain ⟨p, hp⟩ := Option.isSome_iff_exists.mp hfound
  obtain ⟨hnone, before, after, heq, hbefore⟩ := List.find?_eq_some_iff_append.mp hp
  have hmem : p ∈ records := by
    rw [heq]
    exact List.mem_append_right _ List.mem_cons_self
  have hgates {p : ℕ × Record R} (hp : p ∈ records) {e : ℤ} (he : instantOf p.2 = some e) :=
    normalizeRecord_of_gates hinit hfits (h.conforms p hp) (h.checked p hp) he
  obtain ⟨e, he⟩ := h.exists_instant hfits hmem
  rw [he, Option.bind_some, Option.isNone_iff_eq_none] at hnone
  refine ⟨before, p, after, by rw [h.read]; exact heq, ⟨e, he, hnone⟩, ?_⟩
  have hraise : normalizeRecords normalizer records =
      .error (.overflowError p.1 (Str.ofString "timestamp")) := by
    rw [heq]
    refine normalizeRecords_eq_error (fun q hq ↦ ?_) ((hgates hmem he).2 hnone)
    have hqmem : q ∈ records := by
      rw [heq]
      exact List.mem_append_left _ hq
    obtain ⟨e, he⟩ := h.exists_instant hfits hqmem
    refine (hgates hqmem he).1 fun hnone ↦ ?_
    have hsome := hbefore q hq
    rw [he, Option.bind_some, hnone] at hsome
    cases hsome
  rw [writeStagedArtifact, h.read]
  dsimp only
  rw [hraise]

end Gated

section Gates

variable [ValueText R] [LawfulFloatText R] [StripsText R] [Mul R]

/-- **The gates between the stages are enough.** If a file passed validation with `n` records, integrity made
a report of it that the later stages accept, and the units of the profile are known, then normalization
writes an artifact of `n` records that synchronization reads in order (up to the years of fewer than four
digits), or it raises `OverflowError` at the first timestamp that UTC has no `datetime` for. -/
theorem gates_suffice {maxErrors maxIssues : ℤ} {schema : RegisteredSchema} {manifest : Record R}
    {profile : NormalizationProfile R} {checks : FieldChecks R} {type : FileType} {bytes : List Byte} {n : ℕ}
    {report : Integrity.IntegrityReport R} {sourceUnits : Dict Str Str} {normalizer : RecordNormalizer R}
    (strOf : Value R → Str) (hstrOf : ∀ v : Value R, Utf8.Encodable (strOf v))
    (hfits : SensorFits schema.toSchemaDefinition profile checks)
    (hpasses : Passes maxErrors schema manifest type bytes n)
    (hrun : Integrity.run maxIssues checks type bytes = .ok report) (haccepted : report.Accepted)
    (hinit : RecordNormalizer.init schema.toSchemaDefinition profile sourceUnits = .ok normalizer) :
    report.counts.checkedRecords = n ∧
      (Synchronizable strOf type schema.toSchemaDefinition normalizer profile.timestampField bytes n ∨
        Overflows strOf type normalizer bytes) := by
  obtain ⟨records, hgated, hlength, hchecked⟩ := exists_gated hfits hpasses hrun haccepted
  refine ⟨hchecked, ?_⟩
  by_cases hrange : ∀ p ∈ records, ∀ e ∈ instantOf p.2, Datetime.ofEpochUs? e ≠ none
  · rw [← hlength]
    exact .inl (hgated.synchronizable strOf hinit hfits hstrOf hrange)
  · exact .inr (hgated.overflows strOf hinit hfits hrange)

end Gates

end Pipeline

end ForgeData
