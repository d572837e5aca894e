import ForgeData.Python.Loop
import ForgeData.Synchronization.Strategies

/-!
# Loaded streams

A stream of a request, as it is read from its artifact. The reader refuses a timestamp that goes
backward and casts every field to the type of the schema, so the records of a stream that it has read
to the end are in order and their numeric fields are floats or null.
-/

namespace ForgeData

namespace Synchronization

open Python

/-- A record whose numeric fields are floats or null. -/
def IsTyped {R : Type} (schema : SchemaDefinition) (record : Fields R) : Prop :=
  ∀ p ∈ record, ∀ field, schema.fields.get? p.1 = some field → FieldType.isNumeric field.type = true →
    p.2 = .none ∨ ∃ x, p.2 = .float x

/-- A stream of a request, loaded. -/
structure LoadedStream (R : Type) where
  schema : SchemaDefinition
  recordsWritten : ℕ
  /-- What `iter_typed_records` yields. -/
  records : List (TypedRecord R)
  /-- The reader refuses a timestamp that goes backward. -/
  nondecreasing : Nondecreasing records
  /-- The reader casts the fields to the types of the schema. -/
  typed : ∀ record ∈ records, IsTyped schema record.fields

section Reading

variable {R : Type} [FloatText R]

theorem castField_of_isNumeric {type : FieldType} (htype : FieldType.isNumeric type = true)
    {value typed : Value R} (h : castField value (some type) = some typed) :
    typed = .none ∨ ∃ x, typed = .float x := by
  have hcases : type = .float ∨ type = .integer := of_decide_eq_true htype
  unfold castField at h
  split at h
  · exact .inl (Option.some.inj h).symm
  · rcases hcases with rfl | rfl
    all_goals
      obtain ⟨x, -, rfl⟩ := Option.map_eq_some_iff.mp h
      cases x with
      | none => exact .inl rfl
      | some x => exact .inr ⟨x, rfl⟩

theorem isTyped_typedFields {schema : SchemaDefinition} {timestampField : Str}
    {l fields : List (Str × Value R)} (h : typedFields schema timestampField l = .ok fields) :
    IsTyped schema fields := by
  induction l generalizing fields with
  | nil =>
    rw [← Except.ok.inj h]
    exact fun p hp ↦ absurd hp List.not_mem_nil
  | cons q l ih =>
    obtain ⟨name, value⟩ := q
    rw [typedFields] at h
    split at h
    · exact ih h
    split at h
    · exact absurd h nofun
    · next typed hcast =>
      obtain ⟨rest, hrest, hfields⟩ := bind_eq_ok_iff.mp h
      rw [← Except.ok.inj hfields]
      intro p hp field hfield hnumeric
      rcases List.mem_cons.mp hp with rfl | hp
      · rw [hfield] at hcast
        exact castField_of_isNumeric hnumeric hcast
      · exact ih hrest p hp field hfield hnumeric

/-- A step of the reader: the record is typed and not earlier than the one before. -/
theorem typedStep_eq_ok {schema : SchemaDefinition} {timestampField : Str} {previous s : Option ℤ}
    {numbered : ℕ × Record R} {out : List (TypedRecord R)}
    (h : typedStep schema timestampField previous numbered = .ok (s, out)) :
    ∃ record, out = [record] ∧ s = some record.epochUs ∧ IsTyped schema record.fields ∧
      ∀ e ∈ previous, e ≤ record.epochUs := by
  rw [typedStep] at h
  split at h
  · exact absurd h nofun
  next epochUs _ =>
  have hrecord : ∀ {fields : List (Str × Value R)},
      typedFields schema timestampField numbered.2.items = .ok fields →
        IsTyped schema (TypedRecord.mk numbered.1 epochUs fields).fields := isTyped_typedFields
  split at h
  · next previousEpochUs =>
    split at h
    · exact absurd h nofun
    · next hlt =>
      obtain ⟨fields, hfields, hout⟩ := bind_eq_ok_iff.mp h
      obtain ⟨rfl, rfl⟩ := Prod.mk.inj (Except.ok.inj hout)
      refine ⟨_, rfl, rfl, hrecord hfields, fun e he ↦ ?_⟩
      obtain rfl := Option.some.inj he
      exact not_lt.mp hlt
  · obtain ⟨fields, hfields, hout⟩ := bind_eq_ok_iff.mp h
    obtain ⟨rfl, rfl⟩ := Prod.mk.inj (Except.ok.inj hout)
    exact ⟨_, rfl, rfl, hrecord hfields, nofun⟩

theorem yields_andRaise {ε δ α : Type} (g : Gen ε α) (raised : Option δ) (wrap : δ → ε) :
    (Gen.andRaise g raised wrap).yields = g.yields := by
  rw [Gen.andRaise]
  cases g.raised <;> rfl

/-- **What the reader yields** is in order, and typed. -/
theorem iterTypedRecords_yields (type : FileType) (schema : SchemaDefinition) (timestampField : Str)
    (bytes : List Byte) :
    Nondecreasing (iterTypedRecords (R := R) type schema timestampField bytes).yields ∧
      ∀ record ∈ (iterTypedRecords (R := R) type schema timestampField bytes).yields,
        IsTyped schema record.fields := by
  rw [iterTypedRecords, yields_andRaise]
  have hcases := @Gen.loop_cases _ _ _ _ (typedStep (R := R) schema timestampField) (fun _ ↦ [])
    (fun _ s ys ↦ (Nondecreasing ys ∧ ∀ record ∈ ys, IsTyped schema record.fields) ∧
      ∀ record ∈ ys, ∃ e ∈ s, record.epochUs ≤ e) ?_ none
    ⟨⟨List.Pairwise.nil, fun _ h ↦ absurd h List.not_mem_nil⟩, fun _ h ↦ absurd h List.not_mem_nil⟩
    (Integrity.iterRecords type bytes).yields
  · rcases hcases with ⟨s, ys, hI, heq⟩ | ⟨pre, a, rest, s, ys, e, -, hI, -, heq⟩
    · rw [heq, List.append_nil]
      exact hI.1
    · rw [heq]
      exact hI.1
  · intro pre s ys numbered s' out hI hstep
    obtain ⟨record, rfl, rfl, htyped, hle⟩ := typedStep_eq_ok hstep
    obtain ⟨⟨hsorted, hall⟩, hbefore⟩ := hI
    refine ⟨⟨List.pairwise_append.mpr ⟨hsorted, List.pairwise_singleton _ _, ?_⟩, ?_⟩, ?_⟩
    · intro r hr r' hr'
      obtain rfl := List.mem_singleton.mp hr'
      obtain ⟨e, he, hre⟩ := hbefore r hr
      exact hre.trans (hle e he)
    · intro r hr
      rcases List.mem_append.mp hr with hr | hr
      · exact hall r hr
      · obtain rfl := List.mem_singleton.mp hr
        exact htyped
    · intro r hr
      refine ⟨record.epochUs, rfl, ?_⟩
      rcases List.mem_append.mp hr with hr | hr
      · obtain ⟨e, he, hre⟩ := hbefore r hr
        exact hre.trans (hle e he)
      · obtain rfl := List.mem_singleton.mp hr
        exact le_refl _

/-- The stream of an artifact that is read to its end. -/
def loadStream (type : FileType) (schema : SchemaDefinition) (recordsWritten : ℕ) (bytes : List Byte) :
    Except StreamError (LoadedStream R) :=
  let g : Gen StreamError (TypedRecord R) :=
    iterTypedRecords type schema (Str.ofString "timestamp") bytes
  match g.raised with
  | some e => .error e
  | none => .ok {
      schema := schema
      recordsWritten := recordsWritten
      records := g.yields
      nondecreasing := (iterTypedRecords_yields type schema _ bytes).1
      typed := (iterTypedRecords_yields type schema _ bytes).2 }

end Reading

end Synchronization

end ForgeData
