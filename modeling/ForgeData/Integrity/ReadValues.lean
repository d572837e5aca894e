import ForgeData.Integrity.Records
import ForgeData.Python.ParsedJson
import ForgeData.Python.ParsedTexts

/-!
# The values of records that were read

Whatever the bytes of a file are, the records that are read from it can be written as JSON and are read again
as they are. In a CSV file all names and cells also have an encoding in UTF-8.
-/

namespace ForgeData

namespace Integrity

open Python

variable {R : Type}

/-- A field that can be written and read again. -/
def StorableField (p : Str × Value R) : Prop := WellPaired p.1 ∧ p.2.Storable

/-- A cell of a CSV file, with its name. -/
def EncodableCell (p : Str × Value R) : Prop :=
  Utf8.Encodable p.1 ∧ (p.2 = .none ∨ ∃ s, p.2 = .str s ∧ Utf8.Encodable s)

theorem EncodableCell.storable {p : Str × Value R} (h : EncodableCell p) : StorableField p := by
  refine ⟨wellPaired_of_forall h.1, ?_⟩
  rcases h.2 with hnone | ⟨s, hstr, hs⟩
  · rw [hnone, Value.Storable]
    trivial
  · rw [hstr, Value.Storable]
    exact wellPaired_of_forall hs

theorem forall_mem_items_ofPairs {κ ν : Type} [DecidableEq κ] {P : κ × ν → Prop} {l : List (κ × ν)}
    (h : ∀ p ∈ l, P p) : ∀ p ∈ (Dict.ofPairs l).items, P p :=
  fun p hp ↦ h p (Dict.mem_of_get?_ofPairs (Dict.get?_eq_some_iff.mpr hp))

/-! ## CSV -/

theorem encodableCell_ofCells {fieldnames row : List Str} (hnames : ∀ name ∈ fieldnames, Utf8.Encodable name)
    (hrow : ∀ cell ∈ row, Utf8.Encodable cell) :
    ∀ p ∈ (DictRow.ofCells fieldnames row : DictRow R).record.items, EncodableCell p := by
  refine forall_mem_items_ofPairs fun p hp ↦ ?_
  obtain ⟨hname, hvalue⟩ := List.of_mem_zip hp
  refine ⟨hnames p.1 hname, ?_⟩
  rcases List.mem_append.mp hvalue with hcell | hnone
  · obtain ⟨cell, hcell, heq⟩ := List.mem_map.mp hcell
    exact .inr ⟨cell, heq.symm, hrow cell hcell⟩
  · exact .inl (List.eq_of_mem_replicate hnone)

theorem encodableCell_of_mem_dictReader {text : Str} (htext : Utf8.Encodable text) {row : DictRow R}
    (h : row ∈ (dictReader text : Option (List Str) × Gen ReadError (DictRow R)).2.yields) :
    ∀ p ∈ row.record.items, EncodableCell p := by
  have hcells := Csv.forall_mem_reader htext
  rw [dictReader] at h
  split at h
  · exact absurd h List.not_mem_nil
  · next fieldnames rows heq =>
    rw [heq] at hcells
    obtain ⟨hnames, hrows⟩ := List.forall_mem_cons.mp hcells
    obtain ⟨cells, hmem, rfl⟩ := List.mem_map.mp h
    exact encodableCell_ofCells hnames (hrows cells (List.mem_filter.mp hmem).1)

theorem exists_mem_of_mem_enumerate {α : Type} {first : ℕ} {l : List α} {p : ℕ × α}
    (h : p ∈ enumerate first l) : p.2 ∈ l := by
  induction l generalizing first with
  | nil => exact absurd h List.not_mem_nil
  | cons a l ih =>
    rcases List.mem_cons.mp h with rfl | h
    · exact List.mem_cons_self
    · exact List.mem_cons_of_mem _ (ih h)

theorem encodableCell_of_mem_iterCsvRecords {bytes : List Byte} {p : ℕ × Record R}
    (h : p ∈ (iterCsvRecords bytes).yields) : ∀ q ∈ p.2.items, EncodableCell q := by
  rw [iterCsvRecords] at h
  split at h
  · exact absurd h List.not_mem_nil
  · next text hdecode =>
    obtain ⟨row, hrow, heq⟩ := List.mem_map.mp (exists_mem_of_mem_enumerate h)
    rw [← heq]
    exact encodableCell_of_mem_dictReader (Utf8.encodable_of_decode hdecode) hrow

/-! ## JSON -/

theorem storableField_of_asRecord? {v : Value R} {record : Record R} (hv : v.Storable)
    (h : asRecord? v = some record) : ∀ p ∈ record.items, StorableField p := by
  cases v with
  | dict fields =>
    rw [Value.Storable] at hv
    rw [← Option.some.inj h]
    exact forall_mem_items_ofPairs (storableFields_iff.mp hv.2)
  | _ => cases h

theorem storable_of_mem_payloadRecords {payload v : Value R} (hpayload : payload.Storable)
    (h : v ∈ payloadRecords payload) : v.Storable := by
  cases payload with
  | dict fields =>
    rw [List.mem_singleton.mp h]
    exact hpayload
  | list l =>
    rw [Value.Storable] at hpayload
    rw [payloadRecords] at h
    induction l with
    | nil => exact absurd h List.not_mem_nil
    | cons w l ih =>
      rcases List.mem_cons.mp h with rfl | h
      · exact hpayload.1
      · exact ih hpayload.2 h
  | _ => exact absurd h List.not_mem_nil

section Readers

variable [FloatText R]

theorem storableField_of_mem_iterJsonLines {lines : List Str}
    (hlines : ∀ line ∈ lines, Utf8.Encodable line) {lineNumber : ℕ} {p : ℕ × Record R}
    (h : p ∈ (iterJsonLines lineNumber lines).yields) : ∀ q ∈ p.2.items, StorableField q := by
  induction lines generalizing lineNumber with
  | nil => exact absurd h List.not_mem_nil
  | cons rawLine lines ih =>
    obtain ⟨hline, hlines⟩ := List.forall_mem_cons.mp hlines
    have hstrip : Utf8.Encodable rawLine.strip := fun c hc ↦ hline c (Str.mem_of_mem_strip hc)
    rw [iterJsonLines] at h
    split at h
    · exact ih hlines h
    split at h
    · exact ih hlines h
    · exact absurd h List.not_mem_nil
    next v hv =>
    split at h
    · next record hrecord =>
      rcases List.mem_cons.mp h with rfl | h
      · exact storableField_of_asRecord? (storable_of_loads hstrip hv) hrecord
      · exact ih hlines h
    · exact ih hlines h

theorem storableField_of_mem_iterJsonlRecords {bytes : List Byte} {p : ℕ × Record R}
    (h : p ∈ (iterJsonlRecords bytes).yields) : ∀ q ∈ p.2.items, StorableField q := by
  rw [iterJsonlRecords] at h
  split at h
  · exact absurd h List.not_mem_nil
  · next text hdecode =>
    have htext := Utf8.encodable_of_decode hdecode
    exact storableField_of_mem_iterJsonLines
      (Str.forall_mem_linesOf (Str.forall_mem_universalNewlines (by decide) htext)) h

theorem storableField_of_mem_iterJsonRecords {bytes : List Byte} {p : ℕ × Record R}
    (h : p ∈ (iterJsonRecords bytes).yields) : ∀ q ∈ p.2.items, StorableField q := by
  rw [iterJsonRecords] at h
  split at h
  · exact absurd h List.not_mem_nil
  next text hdecode =>
  have htext := Str.forall_mem_universalNewlines (by decide) (Utf8.encodable_of_decode hdecode)
  split at h
  · exact absurd h List.not_mem_nil
  · exact absurd h List.not_mem_nil
  next payload hpayload =>
  obtain ⟨q, hq, heq⟩ := List.mem_filterMap.mp h
  obtain ⟨record, hrecord, rfl⟩ := Option.map_eq_some_iff.mp heq
  refine storableField_of_asRecord? (storable_of_mem_payloadRecords (storable_of_loads htext hpayload) ?_)
    hrecord
  exact exists_mem_of_mem_enumerate hq

/-- **Every record that is read can be written**, whatever the bytes of the file are. -/
theorem storableField_of_mem_iterRecords {type : FileType} {bytes : List Byte} {p : ℕ × Record R}
    (h : p ∈ (iterRecords type bytes).yields) : ∀ q ∈ p.2.items, StorableField q := by
  cases type with
  | csv => exact fun q hq ↦ (encodableCell_of_mem_iterCsvRecords h q hq).storable
  | json => exact storableField_of_mem_iterJsonRecords h
  | jsonl => exact storableField_of_mem_iterJsonlRecords h

end Readers

end Integrity

end ForgeData
