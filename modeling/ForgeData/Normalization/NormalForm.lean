import ForgeData.Normalization.Profile
import ForgeData.Normalization.WrittenRecords
import ForgeData.Synchronization.CanonicalTimestamps

/-!
# What the normalizer produces

A normalized record has the fields of the schema in their order. A field that is null is `None`; the
timestamp is a canonical text; a number, an integer and a boolean have their native types, and a
string is passed through. The schema and the profile have to fit: the fields whose units are
converted are numeric.
-/

namespace ForgeData

namespace Normalization

open Python

variable {R : Type}

/-- A value of a normalized record, for a type of the schema. -/
inductive NormalForm [FloatText R] : FieldType → Value R → Prop where
  | null {type : FieldType} : NormalForm type .none
  | number {type : FieldType} (h : type = .float ∨ type = .integer) (x : R) : NormalForm type (.float x)
  | integer {x : R} {n : ℤ} (h : FloatText.integer? x = some n) : NormalForm .integer (.int n)
  | boolean (b : Bool) : NormalForm .boolean (.bool b)
  | passed {type : FieldType} (h : type = .string ∨ type = .datetime) {v : Value R}
      (hnull : isNull v = false) (hstorable : v.Storable) : NormalForm type v

/-- The schema and the profile fit. -/
structure ProfileFits (schema : SchemaDefinition) (profile : NormalizationProfile R) : Prop where
  /-- The timestamp is a field of the schema. -/
  timestamp_mem : profile.timestampField ∈ schema.fields.keys
  /-- The fields whose units are converted are numeric. -/
  numeric : ∀ field ∈ profile.fieldDimensions.keys, ∀ definition,
    schema.fields.get? field = some definition → definition.type = .float ∨ definition.type = .integer
  /-- The names of the fields are ordinary text. -/
  names : ∀ field ∈ schema.fields.keys, WellPaired field

namespace RecordNormalizer

theorem keys_factorsOf {profile : NormalizationProfile R} {sourceUnits : Dict Str Str}
    {l : List (Str × Str)} {factors : List (Str × R)}
    (h : factorsOf profile sourceUnits l = .ok factors) : factors.map Prod.fst = l.map Prod.fst := by
  induction l generalizing factors with
  | nil =>
    obtain rfl := Except.ok.inj h
    rfl
  | cons p l ih =>
    obtain ⟨field, dimension⟩ := p
    simp only [factorsOf, bind, Except.bind] at h
    split at h
    · exact absurd h nofun
    split at h
    · exact absurd h nofun
    · next hl =>
      obtain rfl := Except.ok.inj h
      rw [List.map_cons, List.map_cons, ih hl]

/-- What `__init__` sets up. -/
theorem init_eq_ok {schema : SchemaDefinition} {profile : NormalizationProfile R}
    {sourceUnits : Dict Str Str} {normalizer : RecordNormalizer R}
    (h : init schema profile sourceUnits = .ok normalizer) :
    normalizer.schema = schema ∧ normalizer.profile = profile ∧
      normalizer.factorByField.keys = profile.fieldDimensions.keys := by
  simp only [init, bind, Except.bind] at h
  split at h
  · exact absurd h nofun
  · next factors hfactors =>
    obtain rfl := Except.ok.inj h
    have hkeys := keys_factorsOf hfactors
    have hnodup : (factors.map Prod.fst).Nodup := by
      rw [hkeys]
      exact profile.fieldDimensions.nodup
    refine ⟨rfl, rfl, ?_⟩
    rw [Dict.keys, Dict.items_ofPairs hnodup, hkeys]
    rfl

variable [FloatText R] [Mul R]

/-- **What a field becomes**: null, the canonical text of its timestamp, or its normal form. -/
theorem normalizeField_eq_ok {normalizer : RecordNormalizer R} {recordNumber : ℕ} {mapped : Record R}
    {field : Str} {definition : FieldDefinition} {v : Value R}
    (hnumeric : field ∈ normalizer.factorByField.keys →
      definition.type = .float ∨ definition.type = .integer)
    (hstorable : (mapped.get field).Storable)
    (h : normalizer.normalizeField recordNumber mapped field definition = .ok v) :
    v = .none ∨
      (field = normalizer.profile.timestampField ∧ ∃ rawValue t, mapped.get field = .str rawValue ∧
        instant? rawValue = some t.epochUs ∧ v = .str (canonicalText t)) ∨
      (field ≠ normalizer.profile.timestampField ∧ NormalForm definition.type v) := by
  -- the branches of the source in their order: null, timestamp, unit conversion, plain cast
  simp only [normalizeField] at h
  split at h
  · split at h
    · exact absurd h nofun
    · exact .inl (Except.ok.inj h).symm
  next hnull =>
  have hnull : isNull (mapped.get field) = false := Bool.eq_false_iff.mpr hnull
  right
  split at h
  · next hfield =>
    refine .inl ⟨hfield, ?_⟩
    rw [normalizeTimestampField.eq_def] at h
    split at h
    · next rawValue hraw =>
      split at h
      · next text htext =>
        obtain ⟨t, ht, rfl⟩ := normalizeTimestamp_eq_ok_iff.mp htext
        exact ⟨rawValue, t, hraw, ht, (Except.ok.inj h).symm⟩
      · exact absurd h nofun
      · exact absurd h nofun
    · exact absurd h nofun
  next hfield =>
  refine .inr ⟨hfield, ?_⟩
  split at h
  · next factor hfactor =>
    have hmem : field ∈ normalizer.factorByField.keys := Dict.mem_keys_iff.mpr ⟨factor, hfactor⟩
    simp only [convertNumeric, bind, Except.bind] at h
    split at h
    · exact absurd h nofun
    · obtain rfl := Except.ok.inj h
      exact .number (hnumeric hmem) _
  -- without a conversion factor the declared type decides
  rw [castPlainValue.eq_def] at h
  split at h
  · next htype =>
    simp only [bind, Except.bind] at h
    split at h
    · exact absurd h nofun
    · obtain rfl := Except.ok.inj h
      exact .number (.inl htype) _
  · next htype =>
    rw [htype]
    split at h
    · exact absurd h nofun
    · exact absurd h nofun
    split at h
    · next hn =>
      obtain rfl := Except.ok.inj h
      exact .integer hn
    · exact absurd h nofun
  · next htype =>
    rw [htype]
    split at h
    · next b _ =>
      obtain rfl := Except.ok.inj h
      exact .boolean b
    · exact absurd h nofun
  · next htype =>
    obtain rfl := Except.ok.inj h
    exact .passed (.inl htype) hnull hstorable
  · next htype =>
    obtain rfl := Except.ok.inj h
    exact .passed (.inr htype) hnull hstorable

/-- Every field of the normalized record is what its field of the schema becomes. -/
theorem normalizeFields_eq_ok {normalizer : RecordNormalizer R} {recordNumber : ℕ}
    {mapped : Record R} {l : List (Str × FieldDefinition)} {fields : List (Str × Value R)}
    (h : normalizer.normalizeFields recordNumber mapped l = .ok fields) {q : Str × Value R}
    (hq : q ∈ fields) : ∃ definition, (q.1, definition) ∈ l ∧
      normalizer.normalizeField recordNumber mapped q.1 definition = .ok q.2 := by
  induction l generalizing fields with
  | nil =>
    obtain rfl := Except.ok.inj h
    exact absurd hq List.not_mem_nil
  | cons p l ih =>
    obtain ⟨field, definition⟩ := p
    simp only [normalizeFields, bind, Except.bind] at h
    split at h
    · cases h
    next v hv =>
    split at h
    · cases h
    · next hl =>
      obtain rfl := Except.ok.inj h
      rcases List.mem_cons.mp hq with rfl | hq
      · exact ⟨definition, List.mem_cons_self, hv⟩
      · obtain ⟨definition, hmem, heq⟩ := ih hl hq
        exact ⟨definition, List.mem_cons_of_mem _ hmem, heq⟩

theorem normalizeRecord_eq_ok {normalizer : RecordNormalizer R} {recordNumber : ℕ}
    {raw mapped record : Record R}
    (hmapped : resolveFieldNames raw normalizer.profile.fieldAliases = some mapped)
    (h : normalizer.normalizeRecord recordNumber raw = .ok record) :
    record.keys = normalizer.schema.fields.keys ∧ ∀ q ∈ record.items, ∃ definition,
      normalizer.schema.fields.get? q.1 = some definition ∧
        normalizer.normalizeField recordNumber mapped q.1 definition = .ok q.2 := by
  simp only [normalizeRecord, hmapped] at h
  split at h
  · cases h
  · next fields hfields =>
    obtain rfl := Except.ok.inj h
    refine ⟨map_fst_normalizeFields hfields, fun q hq ↦ ?_⟩
    obtain ⟨definition, hmem, heq⟩ := normalizeFields_eq_ok hfields hq
    exact ⟨definition, Dict.get?_eq_some_iff.mpr hmem, heq⟩

end RecordNormalizer

theorem encodable_strftime (format : List Char) (t : Datetime) :
    Utf8.Encodable (strftime format t) := by
  have hdigits : ∀ {s rest : Str}, (∀ c ∈ s, c.isDigit = true) → Utf8.Encodable rest →
      Utf8.Encodable (s ++ rest) := by
    intro s rest hs hrest c hc
    rcases List.mem_append.mp hc with hc | hc
    · exact CodePoint.isSurrogate_of_isDigit (hs c hc)
    · exact hrest c hc
  induction format, t using strftime.induct with
  | case1 t => exact nofun
  | case2 format t ih => exact hdigits (fun _ ↦ isDigit_of_mem_decimal) ih
  | case9 c format t _ _ _ _ _ _ _ ih =>
    intro d hd
    rw [strftime] at hd
    · rcases List.mem_cons.mp hd with rfl | hd
      · exact CodePoint.isSurrogate_ofChar c
      · exact ih d hd
    all_goals assumption
  | _ format t ih => exact hdigits (fun _ ↦ Str.isDigit_of_mem_zeroPad) ih

theorem encodable_canonicalText (t : Datetime) : Utf8.Encodable (canonicalText t) := by
  rw [canonicalText]
  split
  all_goals
    intro c hc
    rcases List.mem_append.mp hc with hc | hc
    · exact encodable_strftime _ _ c hc
    · exact Utf8.encodable_ofString _ c hc

theorem NormalForm.storable [FloatText R] [LawfulFloatText R] {type : FieldType} {v : Value R}
    (h : NormalForm type v) : v.Storable := by
  cases h with
  | null | number | boolean => trivial
  | integer hn => exact LawfulFloatText.length_integer_le _ _ hn
  | passed _ _ hstorable => exact hstorable

theorem storableFields_of_forall {fields : List (Str × Value R)}
    (h : ∀ p ∈ fields, WellPaired p.1 ∧ p.2.Storable) : StorableFields fields := by
  induction fields with
  | nil => trivial
  | cons p fields ih =>
    obtain ⟨k, v⟩ := p
    obtain ⟨hk, hv⟩ := h (k, v) List.mem_cons_self
    exact ⟨hk, hv, ih fun p hp ↦ h p (List.mem_cons_of_mem _ hp)⟩

/-! ## Normalized records -/

theorem get_resolveFieldNames {raw mapped : Record R} {aliases : Dict Str Str}
    (h : resolveFieldNames raw aliases = some mapped) {P : Value R → Prop} (hnone : P .none)
    (hraw : ∀ p ∈ raw.items, P p.2) (field : Str) : P (mapped.get field) := by
  rw [Record.get, Dict.getD]
  cases hget : mapped.get? field with
  | none => exact hnone
  | some v =>
    have hmem := Dict.get?_eq_some_iff.mp hget
    simp only [resolveFieldNames] at h
    split at h
    · obtain rfl := Option.some.inj h
      obtain ⟨p, hp, rfl⟩ := List.mem_map.mp (List.of_mem_zip hmem).2
      exact hraw p hp
    · cases h

variable [FloatText R] [Mul R]

/-- A record that the normalizer made of a raw record whose values a file can hold, with the instant
of its timestamp. -/
structure NormalizedRecord (normalizer : RecordNormalizer R) where
  recordNumber : ℕ
  raw : Record R
  mapped : Record R
  record : Record R
  rawTimestamp : Str
  /-- The instant of the timestamp, in UTC. -/
  time : Datetime
  storable : ∀ p ∈ raw.items, p.2.Storable
  mapped_eq : resolveFieldNames raw normalizer.profile.fieldAliases = some mapped
  record_eq : normalizer.normalizeRecord recordNumber raw = .ok record
  rawTimestamp_eq : mapped.get normalizer.profile.timestampField = .str rawTimestamp
  instant_eq : instant? rawTimestamp = some time.epochUs
  timestamp_ne : record.get normalizer.profile.timestampField ≠ .none

/-- The epoch of the timestamp. -/
def NormalizedRecord.epochUs {normalizer : RecordNormalizer R} (r : NormalizedRecord normalizer) : ℤ :=
  r.time.epochUs

namespace NormalizedRecord

variable {schema : SchemaDefinition} {profile : NormalizationProfile R} {sourceUnits : Dict Str Str}
  {normalizer : RecordNormalizer R}

theorem keys_eq (r : NormalizedRecord normalizer) : r.record.keys = normalizer.schema.fields.keys :=
  (RecordNormalizer.normalizeRecord_eq_ok r.mapped_eq r.record_eq).1

section Fits

variable (hinit : RecordNormalizer.init schema profile sourceUnits = .ok normalizer)
  (hfits : ProfileFits schema profile)

include hinit hfits

theorem field_cases (r : NormalizedRecord normalizer) {p : Str × Value R}
    (hp : p ∈ r.record.items) : ∃ definition, schema.fields.get? p.1 = some definition ∧
      (p.2 = .none ∨
        (p.1 = profile.timestampField ∧ ∃ rawValue t, r.mapped.get p.1 = .str rawValue ∧
          instant? rawValue = some t.epochUs ∧ p.2 = .str (canonicalText t)) ∨
        (p.1 ≠ profile.timestampField ∧ NormalForm definition.type p.2)) := by
  obtain ⟨rfl, rfl, hkeys⟩ := RecordNormalizer.init_eq_ok hinit
  obtain ⟨definition, hdefinition, heq⟩ :=
    (RecordNormalizer.normalizeRecord_eq_ok r.mapped_eq r.record_eq).2 p hp
  refine ⟨definition, hdefinition, RecordNormalizer.normalizeField_eq_ok ?_ ?_ heq⟩
  · intro hmem
    exact hfits.numeric p.1 (hkeys ▸ hmem) definition hdefinition
  · exact get_resolveFieldNames r.mapped_eq trivial r.storable p.1

theorem normalForm (r : NormalizedRecord normalizer) {p : Str × Value R} (hp : p ∈ r.record.items)
    (hfield : p.1 ≠ profile.timestampField) :
    ∃ definition, schema.fields.get? p.1 = some definition ∧ NormalForm definition.type p.2 := by
  obtain ⟨definition, hdefinition, hcases⟩ := r.field_cases hinit hfits hp
  refine ⟨definition, hdefinition, ?_⟩
  rcases hcases with hnone | ⟨htimestamp, -⟩ | ⟨-, hform⟩
  · rw [hnone]
    exact .null
  · exact absurd htimestamp hfield
  · exact hform

/-- The timestamp is the canonical text of its instant. -/
theorem timestamp_eq (r : NormalizedRecord normalizer) :
    r.record.get profile.timestampField = .str (canonicalText r.time) := by
  obtain ⟨hschema, hprofile, -⟩ := RecordNormalizer.init_eq_ok hinit
  have hmem : profile.timestampField ∈ r.record.keys := by
    rw [r.keys_eq, hschema]
    exact hfits.timestamp_mem
  obtain ⟨v, hv⟩ := Dict.mem_keys_iff.mp hmem
  have hget : r.record.get profile.timestampField = v :=
    Record.get_of_mem (Dict.get?_eq_some_iff.mp hv)
  have hraw := r.rawTimestamp_eq
  have hne := r.timestamp_ne
  rw [hprofile] at hraw hne
  rw [hget] at hne ⊢
  obtain ⟨definition, -, hcases⟩ := r.field_cases hinit hfits (Dict.get?_eq_some_iff.mp hv)
  rcases hcases with hnone | ⟨-, rawValue, t, hrawValue, ht, heq⟩ | ⟨hfield, -⟩
  · exact absurd hnone hne
  · rw [hraw, Value.str.injEq] at hrawValue
    rw [← hrawValue, r.instant_eq, Option.some.injEq] at ht
    have htime := Datetime.ofEpochUs?_epochUs r.time
    rw [ht, Datetime.ofEpochUs?_epochUs, Option.some.injEq] at htime
    rw [← htime]
    exact heq
  · exact absurd rfl hfield

theorem storable_recordValue [LawfulFloatText R] (r : NormalizedRecord normalizer) :
    (recordValue r.record).Storable := by
  obtain ⟨hschema, hprofile, -⟩ := RecordNormalizer.init_eq_ok hinit
  refine ⟨r.record.nodup, storableFields_of_forall fun p hp ↦ ⟨?_, ?_⟩⟩
  · refine hfits.names p.1 ?_
    rw [← hschema, ← r.keys_eq]
    exact List.mem_map_of_mem hp
  · obtain ⟨definition, -, hnone | ⟨-, rawValue, t, -, -, heq⟩ | ⟨-, hform⟩⟩ :=
      r.field_cases hinit hfits hp
    · rw [hnone]
      trivial
    · rw [heq]
      exact wellPaired_of_forall (encodable_canonicalText t)
    · exact hform.storable

end Fits

end NormalizedRecord

end Normalization

end ForgeData
