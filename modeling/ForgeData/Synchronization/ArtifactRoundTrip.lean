import ForgeData.Synchronization.RoundTrip

/-!
# The round trip of normalized artifacts

The rows of the three formats put into the loop of the reader, and when the records come back as
they were written.
-/

namespace ForgeData

namespace Synchronization

open Python Normalization Integrity

variable {R : Type} [FloatText R] (strOf : Value R → Str)

/-! ## Rows of a format -/

/-- A field as the reader of the format sees it. -/
def readField (type : FileType) (v : Value R) : Value R :=
  match type with
  | .csv => .str (csvCell strOf v)
  | .json | .jsonl => v

/-- A record as the reader of the format sees it. -/
def readRecord (type : FileType) (fieldnames : List Str) (record : Record R) : Record R :=
  match type with
  | .csv => rowRecord strOf fieldnames record
  | .json | .jsonl => record

/-- What `_cast_field` makes of a field. -/
def readValue (type : FileType) (schema : SchemaDefinition) (p : Str × Value R) : Value R :=
  (castField (readField strOf type p.2)
    ((schema.fields.get? p.1).map FieldDefinition.type)).getD .none

theorem items_readRecord (type : FileType) (record : Record R) :
    (readRecord strOf type record.keys record).items =
      record.items.map fun p ↦ (p.1, readField strOf type p.2) := by
  cases type with
  | csv =>
    have hkeys : (record.keys.map fun name ↦ (name, (.str (csvCell strOf (record.get name)) : Value R)))
        = record.items.map fun p ↦ (p.1, readField strOf .csv p.2) := by
      rw [Dict.keys, List.map_map]
      refine List.map_congr_left fun p hp ↦ ?_
      rw [Function.comp_apply, Record.get_of_mem hp]
      rfl
    rw [readRecord, rowRecord, hkeys, Dict.items_ofPairs]
    rw [List.map_map]
    exact record.nodup
  | json => exact (List.map_id _).symm
  | jsonl => exact (List.map_id _).symm

theorem get_readRecord (type : FileType) (record : Record R) {name : Str}
    (hname : name ∈ record.keys) :
    (readRecord strOf type record.keys record).get name =
      readField strOf type (record.get name) := by
  obtain ⟨v, hv⟩ := Dict.mem_keys_iff.mp hname
  have hmem := Dict.get?_eq_some_iff.mp hv
  have hread : (name, readField strOf type v) ∈
      (readRecord strOf type record.keys record).items := by
    rw [items_readRecord]
    exact List.mem_map_of_mem (f := fun p : Str × Value R ↦ (p.1, readField strOf type p.2)) hmem
  rw [Record.get_of_mem hmem, Record.get_of_mem hread]

theorem typedFields_map {type : FileType} {schema : SchemaDefinition} {timestampField : Str}
    {l : List (Str × Value R)}
    (h : ∀ p ∈ l, p.1 ≠ timestampField → ∃ w, castField (readField strOf type p.2)
      ((schema.fields.get? p.1).map FieldDefinition.type) = some w) :
    typedFields schema timestampField (l.map fun p ↦ (p.1, readField strOf type p.2)) =
      .ok ((l.filter (·.1 ≠ timestampField)).map fun p ↦ (p.1, readValue strOf type schema p)) := by
  induction l with
  | nil => rfl
  | cons p l ih =>
    have hl := ih fun q hq ↦ h q (List.mem_cons_of_mem _ hq)
    rw [List.map_cons, typedFields]
    by_cases hp : p.1 = timestampField
    · rw [if_pos hp, hl, List.filter_cons_of_neg (by simpa using hp)]
    · obtain ⟨w, hw⟩ := h p List.mem_cons_self hp
      rw [if_neg hp, hl, hw, List.filter_cons_of_pos (by simpa using hp), List.map_cons, readValue, hw]
      rfl

/-! ## The round trip -/

variable [Mul R] {normalizer : RecordNormalizer R}

/-- A record and the typed record that is read for it: the same number, the epoch of its timestamp,
and the other fields in order with the same values. -/
structure SameRecord (timestampField : Str) (numbered : ℕ × NormalizedRecord normalizer)
    (t : TypedRecord R) : Prop where
  recordNumber : t.recordNumber = numbered.1
  epochUs : t.epochUs = numbered.2.epochUs
  fields : List.Forall₂ (fun p q ↦ p.1 = q.1 ∧ SameValue p.2 q.2)
    (numbered.2.record.items.filter (·.1 ≠ timestampField)) t.fields

/-- The records are written, the reader yields those before the first regression, and it raises
exactly there. -/
def RoundTrips (type : FileType) (schema : SchemaDefinition) (timestampField : Str)
    (pre rest : List (NormalizedRecord normalizer)) : Prop :=
  ∃ bytes, writeRecords strOf type schema.fields.keys
      ((pre ++ rest).map NormalizedRecord.record) = some bytes ∧
    List.Forall₂ (SameRecord timestampField) (enumerate 1 pre)
      (iterTypedRecords (R := R) type schema timestampField bytes).yields ∧
    (iterTypedRecords (R := R) type schema timestampField bytes).raised = regressionError pre rest

/-- What the records need to survive a format. -/
structure Survives (type : FileType) (schema : SchemaDefinition) (timestampField : Str)
    (pre rest : List (NormalizedRecord normalizer)) : Prop where
  /-- The timestamps that are read have years of four digits. -/
  year : ∀ r ∈ pre ++ rest.head?.toList, 1000 ≤ r.time.year
  /-- UTF-8 can encode what a CSV artifact holds. -/
  encodable : type = .csv → (∀ name ∈ schema.fields.keys, Utf8.Encodable name) ∧
    ∀ r ∈ pre ++ rest, ∀ p ∈ r.record.items, ∀ s, p.2 = .str s → Utf8.Encodable s
  /-- The fields of strings hold strings in a CSV artifact. -/
  text : type = .csv → ∀ r ∈ pre, ∀ p ∈ r.record.items, p.1 ≠ timestampField →
    ∀ definition, schema.fields.get? p.1 = some definition → IsText definition.type →
      IsNullOrStr p.2

theorem mem_snd_enumerate {α : Type} {a : α} {l : List α} (first : ℕ) :
    a ∈ l ↔ ∃ n, (n, a) ∈ enumerate first l := by
  induction l generalizing first with
  | nil => simp [enumerate]
  | cons b l ih => simp [enumerate, ih (first + 1), exists_or]

/-- The records that are yielded are the same, field by field. -/
theorem forall₂_sameRecord_iff (timestampField : Str)
    (valueOf : Str × Value R → Value R) (pre : List (NormalizedRecord normalizer)) :
    List.Forall₂ (SameRecord timestampField) (enumerate 1 pre) ((enumerate 1 pre).map fun p ↦
        ⟨p.1, p.2.epochUs, (p.2.record.items.filter (·.1 ≠ timestampField)).map
          fun q ↦ (q.1, valueOf q)⟩) ↔
      ∀ r ∈ pre, ∀ p ∈ r.record.items, p.1 ≠ timestampField → SameValue p.2 (valueOf p) := by
  rw [List.forall₂_map_right_iff, List.forall₂_same]
  constructor
  · intro h r hr p hp hfield
    obtain ⟨n, hn⟩ := (mem_snd_enumerate 1).mp hr
    have hfields := (h (n, r) hn).fields
    rw [List.forall₂_map_right_iff, List.forall₂_same] at hfields
    exact (hfields p (List.mem_filter.mpr ⟨hp, by simpa using hfield⟩)).2
  · rintro h ⟨n, r⟩ hn
    refine ⟨rfl, rfl, ?_⟩
    rw [List.forall₂_map_right_iff, List.forall₂_same]
    intro p hp
    obtain ⟨hp, hfield⟩ := List.mem_filter.mp hp
    exact ⟨rfl, h r ((mem_snd_enumerate 1).mpr ⟨n, hn⟩) p hp (by simpa using hfield)⟩

variable [LawfulFloatText R] {schema : SchemaDefinition} {profile : NormalizationProfile R}
  {sourceUnits : Dict Str Str}

section Fits

variable (hinit : RecordNormalizer.init schema profile sourceUnits = .ok normalizer)
  (hfits : ProfileFits schema profile)

include hinit hfits

/-- How a field of a record is read. -/
theorem readValue_spec (type : FileType) (r : NormalizedRecord normalizer) {p : Str × Value R}
    (hp : p ∈ r.record.items) (hfield : p.1 ≠ profile.timestampField) :
    (∃ w, castField (readField strOf type p.2)
        ((schema.fields.get? p.1).map FieldDefinition.type) = some w) ∧
      (SameValue p.2 (readValue strOf type schema p) ↔ (type = .csv → ∀ definition,
        schema.fields.get? p.1 = some definition → IsText definition.type → IsNullOrStr p.2)) := by
  obtain ⟨definition, hdefinition, hform⟩ := r.normalForm hinit hfits hp hfield
  rw [readValue, hdefinition, Option.map_some]
  have hjson := castField_json hform
  cases type with
  | csv =>
    obtain ⟨w, hw, hsame⟩ := castField_csv strOf hform
    rw [readField, hw, Option.getD_some, hsame]
    refine ⟨⟨w, rfl⟩, fun h _ definition' heq ↦ ?_, fun h ↦ h rfl definition rfl⟩
    obtain rfl := Option.some.inj heq
    exact h
  | json | jsonl =>
    obtain ⟨w, hw, hsame⟩ := hjson
    rw [readField, hw, Option.getD_some]
    exact ⟨⟨w, rfl⟩, fun _ h ↦ FileType.noConfusion h, fun _ ↦ hsame⟩

/-- The rows of a format hold the timestamps and the fields of the records. -/
theorem rowsRead (type : FileType) :
    RowsRead schema profile.timestampField
      (fun r : NormalizedRecord normalizer ↦ readRecord strOf type schema.fields.keys r.record)
      (fun r ↦ (r.record.items.filter (·.1 ≠ profile.timestampField)).map
        fun p ↦ (p.1, readValue strOf type schema p)) where
  timestamp r := by
    obtain ⟨hschema, -⟩ := RecordNormalizer.init_eq_ok hinit
    have hkeys : r.record.keys = schema.fields.keys := by rw [r.keys_eq, hschema]
    rw [← hkeys, get_readRecord strOf type r.record (hkeys ▸ hfits.timestamp_mem),
      r.timestamp_eq hinit hfits]
    cases type <;> rfl
  fields r := by
    obtain ⟨hschema, -⟩ := RecordNormalizer.init_eq_ok hinit
    have hkeys : r.record.keys = schema.fields.keys := by rw [r.keys_eq, hschema]
    rw [← hkeys, items_readRecord, typedFields_map]
    exact fun p hp hfield ↦ (readValue_spec strOf hinit hfits type r hp hfield).1

/-- What was written is read as the rows of the format. -/
theorem iterRecords_written {type : FileType} {records : List (NormalizedRecord normalizer)}
    {bytes : List Byte} (h : writeRecords strOf type schema.fields.keys
      (records.map NormalizedRecord.record) = some bytes) :
    iterRecords type bytes = (⟨enumerate 1 (records.map fun r ↦
      readRecord strOf type schema.fields.keys r.record), none⟩ : Gen ReadError (ℕ × Record R)) := by
  have hstorable : ∀ record ∈ records.map NormalizedRecord.record,
      (recordValue record).Storable := by
    rw [List.forall_mem_map]
    exact fun r _ ↦ r.storable_recordValue hinit hfits
  cases type with
  | csv =>
    have hne : schema.fields.keys ≠ [] := List.ne_nil_of_mem hfits.timestamp_mem
    rw [iterRecords, iterCsvRecords_written strOf hne h, List.map_map]
    rfl
  | json =>
    obtain ⟨bytes', hbytes, hiter⟩ := iterJsonRecords_written hstorable
    obtain rfl := Option.some.inj (hbytes.symm.trans h)
    exact hiter
  | jsonl =>
    obtain ⟨bytes', hbytes, hiter⟩ := iterJsonlRecords_written hstorable
    obtain rfl := Option.some.inj (hbytes.symm.trans h)
    exact hiter

/-- **When there is an artifact**: always as JSON; as CSV if UTF-8 can encode its strings. -/
theorem isSome_writeRecords_iff
    (hstrOf : ∀ v : Value R, Utf8.Encodable (strOf v)) (type : FileType)
    (records : List (NormalizedRecord normalizer)) :
    (writeRecords strOf type schema.fields.keys
      (records.map NormalizedRecord.record)).isSome = true ↔
        (type = .csv → (∀ name ∈ schema.fields.keys, Utf8.Encodable name) ∧
          ∀ r ∈ records, ∀ p ∈ r.record.items, ∀ s, p.2 = .str s → Utf8.Encodable s) := by
  have hstorable : ∀ record ∈ records.map NormalizedRecord.record,
      (recordValue record).Storable := by
    rw [List.forall_mem_map]
    exact fun r _ ↦ r.storable_recordValue hinit hfits
  cases type with
  | json =>
    obtain ⟨bytes, hbytes, -⟩ := iterJsonRecords_written hstorable
    rw [writeRecords, hbytes]
    exact ⟨fun _ h ↦ FileType.noConfusion h, fun _ ↦ rfl⟩
  | jsonl =>
    obtain ⟨bytes, hbytes, -⟩ := iterJsonlRecords_written hstorable
    rw [writeRecords, hbytes]
    exact ⟨fun _ h ↦ FileType.noConfusion h, fun _ ↦ rfl⟩
  | csv =>
    obtain ⟨hschema, -⟩ := RecordNormalizer.init_eq_ok hinit
    -- every cell but that of a string is printable ASCII
    have hcell : ∀ v : Value R, Utf8.Encodable (csvCell strOf v) ↔
        ∀ s, v = .str s → Utf8.Encodable s := by
      have hprintable : ∀ {s : Str}, (∀ c ∈ s, IsPrintable c) → Utf8.Encodable s :=
        fun h c hc ↦ isSurrogate_of_isPrintable (h c hc)
      intro v
      cases v with
      | str s => exact ⟨fun h t ht ↦ Value.str.inj ht ▸ h, fun h ↦ h s rfl⟩
      | none => exact ⟨nofun, fun _ ↦ nofun⟩
      | bool b => exact ⟨nofun, fun _ ↦ by cases b <;> exact Utf8.encodable_ofString _⟩
      | float x =>
        refine ⟨nofun, fun _ ↦ hprintable fun c hc ↦ ?_⟩
        have := LawfulFloatText.repr_ascii x c hc
        exact ⟨by omega, this.2⟩
      | int n => exact ⟨nofun, fun _ ↦ hprintable fun c ↦ isPrintable_of_mem_encodeInt⟩
      | list l => exact ⟨nofun, fun _ ↦ hstrOf _⟩
      | dict fields => exact ⟨nofun, fun _ ↦ hstrOf _⟩
    rw [writeRecords, isSome_writeCsvRecords_iff, List.forall_mem_map]
    refine Iff.trans (and_congr_right' (forall₂_congr fun r _ ↦ ?_))
      ⟨fun h _ ↦ h, fun h ↦ h rfl⟩
    have hkeys : r.record.keys = schema.fields.keys := by rw [r.keys_eq, hschema]
    rw [← hkeys, Dict.keys, List.forall_mem_map]
    refine forall₂_congr fun p hp ↦ ?_
    rw [Record.get_of_mem hp, hcell]

theorem iterTypedRecords_written {type : FileType} {records : List (NormalizedRecord normalizer)}
    {bytes : List Byte} (h : writeRecords strOf type schema.fields.keys
      (records.map NormalizedRecord.record) = some bytes) :
    iterTypedRecords (R := R) type schema profile.timestampField bytes =
      readRows schema profile.timestampField none (enumerate 1 (records.map fun r ↦
        readRecord strOf type schema.fields.keys r.record)) := by
  simp only [iterTypedRecords, iterRecords_written strOf hinit hfits h, Gen.andRaise]
  rw [readRows]
  split
  · next e he => rw [← he]
  · next he => rw [Option.map_none, ← he]

end Fits

/-- The round trip up to a regression that is given. -/
theorem roundTrips_iff (hinit : RecordNormalizer.init schema profile sourceUnits = .ok normalizer)
    (hfits : ProfileFits schema profile) (hstrOf : ∀ v : Value R, Utf8.Encodable (strOf v))
    (type : FileType) {pre rest : List (NormalizedRecord normalizer)}
    (hregression : FirstRegression pre rest) :
    RoundTrips strOf type schema profile.timestampField pre rest ↔
      Survives type schema profile.timestampField pre rest := by
  have hrows := rowsRead strOf hinit hfits type
  have hvalue := fun (r : NormalizedRecord normalizer) {p : Str × Value R} hp hfield ↦
    (readValue_spec strOf hinit hfits type r (p := p) hp hfield).2
  have hsome := isSome_writeRecords_iff strOf hinit hfits hstrOf type (pre ++ rest)
  constructor
  · rintro ⟨bytes, hbytes, hsame, hraised⟩
    rw [iterTypedRecords_written strOf hinit hfits hbytes] at hsame hraised
    have hyear : ∀ r ∈ pre ++ rest.head?.toList, 1000 ≤ r.time.year := by
      by_contra hyear
      exact raised_readRows_ne hrows hregression hyear hraised
    rw [readRows_eq hrows hregression hyear, forall₂_sameRecord_iff] at hsame
    refine ⟨hyear, hsome.mp (by rw [hbytes]; rfl), fun htype r hr p hp hfield ↦ ?_⟩
    exact (hvalue r hp hfield).mp (hsame r hr p hp hfield) htype
  · rintro ⟨hyear, hencodable, htext⟩
    obtain ⟨bytes, hbytes⟩ := Option.isSome_iff_exists.mp (hsome.mpr hencodable)
    refine ⟨bytes, hbytes, ?_⟩
    rw [iterTypedRecords_written strOf hinit hfits hbytes, readRows_eq hrows hregression hyear,
      forall₂_sameRecord_iff]
    refine ⟨fun r hr p hp hfield ↦ ?_, rfl⟩
    exact (hvalue r hp hfield).mpr fun htype ↦ htext htype r hr p hp hfield

/-- **Normalized artifacts round-trip** exactly if the years of the timestamps that are read have four
digits, and in a CSV artifact UTF-8 can encode all strings and the fields of strings hold nothing
else. The records come back in order up to the first timestamp that goes backward, and the reader
raises there. -/
theorem normalizedArtifacts_roundTrip_iff
    (hinit : RecordNormalizer.init schema profile sourceUnits = .ok normalizer)
    (hfits : ProfileFits schema profile) (hstrOf : ∀ v : Value R, Utf8.Encodable (strOf v))
    (type : FileType) (records : List (NormalizedRecord normalizer)) :
    ∃ pre rest, records = pre ++ rest ∧ FirstRegression pre rest ∧
      (RoundTrips strOf type schema profile.timestampField pre rest ↔
        Survives type schema profile.timestampField pre rest) := by
  obtain ⟨pre, rest, heq, hregression⟩ := exists_firstRegression records
  exact ⟨pre, rest, heq, hregression, roundTrips_iff strOf hinit hfits hstrOf type hregression⟩

/-! ## A schema with a timestamp and a flag -/

/-- A timestamp and a flag. -/
def flagSchema : SchemaDefinition where
  schemaName := Str.ofString "flag"
  schemaVersion := Str.ofString "1.0.0"
  fields := Dict.ofPairs [(Str.ofString "timestamp", ⟨.datetime, true, false⟩),
    (Str.ofString "flag", ⟨.boolean, false, true⟩)]

/-- The normalizer of the schema, without aliases and units. -/
def flagNormalizer : RecordNormalizer BitFloat where
  schema := flagSchema
  profile := ⟨Dict.empty, Dict.empty, Dict.empty, Str.ofString "timestamp"⟩
  factorByField := Dict.empty

theorem init_flagNormalizer :
    RecordNormalizer.init flagSchema flagNormalizer.profile Dict.empty = .ok flagNormalizer := rfl

theorem profileFits_flag : ProfileFits flagSchema flagNormalizer.profile where
  timestamp_mem := by decide +kernel
  numeric := fun _ h ↦ absurd h List.not_mem_nil
  names := by
    have hkeys : flagSchema.fields.keys = [Str.ofString "timestamp", Str.ofString "flag"] := by
      decide +kernel
    rw [hkeys]
    simp only [List.forall_mem_cons, List.not_mem_nil, false_implies, implies_true, and_true]
    exact ⟨wellPaired_of_forall (Utf8.encodable_ofString _),
      wellPaired_of_forall (Utf8.encodable_ofString _)⟩

/-- A raw record of the schema. -/
def rawFlag (rawTimestamp : String) : Record BitFloat :=
  ⟨[(Str.ofString "timestamp", .str (Str.ofString rawTimestamp)), (Str.ofString "flag", .bool true)],
    (by decide : [Str.ofString "timestamp", Str.ofString "flag"].Nodup)⟩

/-- The normalized record. -/
def flagRecord (rawTimestamp : String) : Record BitFloat :=
  (flagNormalizer.normalizeRecord 1 (rawFlag rawTimestamp)).toOption.getD Dict.empty

/-- The normalized record of a timestamp whose instant is known. -/
def flagAt (rawTimestamp : String) (time : Datetime)
    (hok : (flagNormalizer.normalizeRecord 1 (rawFlag rawTimestamp)).toOption.isSome = true)
    (hinstant : instant? (Str.ofString rawTimestamp) = some time.epochUs)
    (hstr : isNull ((flagRecord rawTimestamp).get (Str.ofString "timestamp")) = false) :
    NormalizedRecord flagNormalizer where
  recordNumber := 1
  raw := rawFlag rawTimestamp
  mapped := rawFlag rawTimestamp
  record := flagRecord rawTimestamp
  rawTimestamp := Str.ofString rawTimestamp
  time := time
  storable := by
    simp only [rawFlag, List.forall_mem_cons, List.not_mem_nil, false_implies, implies_true, and_true]
    exact ⟨wellPaired_of_forall (Utf8.encodable_ofString _), trivial⟩
  mapped_eq := rfl
  record_eq := by
    rw [flagRecord]
    cases h : flagNormalizer.normalizeRecord 1 (rawFlag rawTimestamp) with
    | ok record => rfl
    | error e =>
      rw [h] at hok
      exact absurd hok nofun
  rawTimestamp_eq := rfl
  instant_eq := hinstant
  timestamp_ne := fun h ↦ by
    have h' : (flagRecord rawTimestamp).get (Str.ofString "timestamp") = .none := h
    rw [h'] at hstr
    exact absurd hstr nofun

/-- The first second of year 1000. -/
def year1000 : NormalizedRecord flagNormalizer :=
  flagAt "1000-01-01T01:00:00+01:00" ((Datetime.mk? 1000 1 1 0 0 0 0).get (by decide))
    (by decide +kernel) (by decide +kernel) (by decide +kernel)

/-- The last second of year 999. -/
def year999 : NormalizedRecord flagNormalizer :=
  flagAt "0999-12-31T23:59:59Z" ((Datetime.mk? 999 12 31 23 59 59 0).get (by decide))
    (by decide +kernel) (by decide +kernel) (by decide +kernel)

/-- One second later. -/
def second1000 : NormalizedRecord flagNormalizer :=
  flagAt "1000-01-01T00:00:01Z" ((Datetime.mk? 1000 1 1 0 0 1 0).get (by decide))
    (by decide +kernel) (by decide +kernel) (by decide +kernel)

/-- The value of a flag. -/
def isFlag : Value BitFloat → Bool
  | .bool _ => true
  | _ => false

/-- The third timestamp goes backward, so that the fourth is not read. -/
def backwardRecords : List (NormalizedRecord flagNormalizer) := [year1000, second1000, year1000, year999]

theorem encodable_of_mem_backwardRecords {r : NormalizedRecord flagNormalizer} (hr : r ∈ backwardRecords)
    {p : Str × Value BitFloat} (hp : p ∈ r.record.items) {s : Str} (hs : p.2 = .str s) :
    Utf8.Encodable s := by
  have hnames : ∀ r ∈ backwardRecords, ∀ p ∈ r.record.items,
      p.1 = Str.ofString "timestamp" ∨ p.1 = Str.ofString "flag" := by decide +kernel
  have hflags : ∀ r ∈ backwardRecords, isFlag (r.record.get (Str.ofString "flag")) = true := by decide +kernel
  have hget := Record.get_of_mem hp
  rcases hnames r hr p hp with hname | hname
  · have htimestamp := r.timestamp_eq init_flagNormalizer profileFits_flag
    rw [hname, hs] at hget
    rw [Value.str.inj (hget.symm.trans htimestamp)]
    exact encodable_canonicalText r.time
  · have hflag := hflags r hr
    rw [← hname, hget, hs] at hflag
    exact absurd hflag Bool.false_ne_true

theorem survives_backwardRecords (type : FileType) :
    Survives type flagSchema (Str.ofString "timestamp") [year1000, second1000] [year1000, year999] := by
  have hnames : ∀ r ∈ backwardRecords, ∀ p ∈ r.record.items,
      p.1 = Str.ofString "timestamp" ∨ p.1 = Str.ofString "flag" := by decide +kernel
  have hboolean : flagSchema.fields.get? (Str.ofString "flag") = some ⟨.boolean, false, true⟩ := by
    decide +kernel
  have hkeys : flagSchema.fields.keys = [Str.ofString "timestamp", Str.ofString "flag"] := by decide +kernel
  refine ⟨by decide +kernel, fun _ ↦ ⟨?_, fun r hr p hp s ↦ encodable_of_mem_backwardRecords hr hp⟩,
    fun _ r hr p hp hne definition hget htext ↦ ?_⟩
  · rw [hkeys, List.forall_mem_cons, List.forall_mem_singleton]
    exact ⟨Utf8.encodable_ofString _, Utf8.encodable_ofString _⟩
  rw [(hnames r (List.mem_append_left _ hr) p hp).resolve_left hne, hboolean] at hget
  obtain rfl := Option.some.inj hget
  rcases htext with htext | htext <;> cases htext

/-- The first two records come back in every format, and then the reader raises. -/
theorem normalizedArtifacts_roundTrip_backward :
    FirstRegression [year1000, second1000] [year1000, year999] ∧ ∀ type : FileType,
      RoundTrips (fun _ ↦ []) type flagSchema (Str.ofString "timestamp") [year1000, second1000]
        [year1000, year999] := by
  have hfirst : FirstRegression [year1000, second1000] [year1000, year999] := by
    refine ⟨by decide +kernel, ?_⟩
    rintro r ⟨⟩
    exact ⟨second1000, rfl, by decide +kernel⟩
  refine ⟨hfirst, fun type ↦ ?_⟩
  obtain ⟨pre, rest, heq, hregression, hiff⟩ := normalizedArtifacts_roundTrip_iff (fun _ ↦ [])
    init_flagNormalizer profileFits_flag (fun _ ↦ nofun) type backwardRecords
  obtain ⟨rfl, rfl⟩ := hfirst.unique hregression heq
  exact hiff.mpr (survives_backwardRecords type)

/-- **A normalized record that synchronization cannot read.** It is the whole artifact, so there is no
regression, and the reader raises at it in every format. -/
theorem normalizedArtifact_year_999_unreadable :
    FirstRegression [year999] [] ∧ ∀ type : FileType,
      ¬RoundTrips (fun _ ↦ []) type flagSchema (Str.ofString "timestamp") [year999] [] := by
  have hregression : FirstRegression [year999] [] := ⟨List.pairwise_singleton _ _, nofun⟩
  refine ⟨hregression, fun type h ↦ ?_⟩
  have hyear := ((roundTrips_iff (fun _ ↦ []) init_flagNormalizer profileFits_flag (fun _ ↦ nofun)
    type hregression).mp h).year year999 List.mem_cons_self
  exact absurd hyear (by decide)

end Synchronization

end ForgeData
