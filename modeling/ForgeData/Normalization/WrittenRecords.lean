import ForgeData.Normalization.Records
import ForgeData.Python.JsonLines

/-!
# Written records, read as rows

What the shared readers make of the output of `write_records`, before any value is cast. A JSON and a
JSONL artifact give the records back; a CSV artifact gives the cells of every record, as strings,
and there is one only if every cell and every name has a UTF-8 encoding.
-/

namespace ForgeData

namespace Normalization

open Python CodePoint Integrity

variable {R : Type}

/-- The record as a value of the JSON encoder. -/
abbrev recordValue (record : Record R) : Value R := .dict record.items

theorem ofPairs_items (record : Record R) : Dict.ofPairs record.items = record :=
  Dict.ext (Dict.items_ofPairs record.nodup)

theorem asRecord?_recordValue (record : Record R) : asRecord? (recordValue record) = some record := by
  rw [recordValue, asRecord?, ofPairs_items]

theorem enumerate_append {α : Type} (first : ℕ) (l l' : List α) :
    enumerate first (l ++ l') = enumerate first l ++ enumerate (first + l.length) l' := by
  induction l generalizing first with
  | nil => rfl
  | cons a l ih =>
    rw [List.cons_append, enumerate, enumerate, ih, List.length_cons, List.cons_append,
      Nat.add_right_comm, Nat.add_assoc]

theorem storableItems_map {records : List (Record R)}
    (h : ∀ record ∈ records, (recordValue record).Storable) :
    StorableItems (records.map recordValue) := by
  induction records with
  | nil => trivial
  | cons record records ih =>
    exact ⟨h record List.mem_cons_self, ih fun record hrecord ↦
      h record (List.mem_cons_of_mem _ hrecord)⟩

theorem filterMap_enumerate_recordValue (first : ℕ) (records : List (Record R)) :
    ((enumerate first (records.map recordValue)).filterMap fun p ↦ (asRecord? p.2).map (p.1, ·)) =
      enumerate first records := by
  induction records generalizing first with
  | nil => rfl
  | cons record records ih =>
    rw [List.map_cons, enumerate, List.filterMap_cons, asRecord?_recordValue, ih]
    rfl

variable [FloatText R]

/-! ## JSON -/

section Json

theorem strip_jsonLine (record : Record R) : (jsonLine record).strip = encode .default 0
    (recordValue record) :=
  strip_line .default record.items

variable [LawfulFloatText R]

theorem iterJsonLines_map_jsonLine {records : List (Record R)}
    (h : ∀ record ∈ records, (recordValue record).Storable) (first : ℕ) :
    iterJsonLines first (records.map jsonLine) = ⟨enumerate first records, none⟩ := by
  induction records generalizing first with
  | nil => rfl
  | cons record records ih =>
    have hload : loads (encode .default 0 (recordValue record)) = .ok (recordValue record) :=
      loads_encode .default (h record List.mem_cons_self)
    obtain ⟨s, hs⟩ := exists_encode_dict .default record.items
    rw [List.map_cons, iterJsonLines]
    simp only [strip_jsonLine]
    rw [if_neg (by rw [hs]; exact List.cons_ne_nil _ _), hload]
    simp only [asRecord?_recordValue]
    rw [ih fun record hrecord ↦ h record (List.mem_cons_of_mem _ hrecord), enumerate]
    rfl

/-- The lines of a JSONL artifact are the lines that were written. -/
theorem exists_lines_writeJsonlRecords (records : List (Record R)) :
    ∃ bytes text, writeJsonlRecords records = some bytes ∧ Utf8.decode bytes = some text ∧
      Str.linesOf (Str.universalNewlines text) = records.map jsonLine := by
  have hflat : records.flatMap jsonLine = (records.map recordValue).flatMap JsonStyle.default.line := by
    rw [List.flatMap_map]
    rfl
  have hencodable : Utf8.Encodable (records.flatMap jsonLine) := by
    rw [Utf8.Encodable, List.forall_mem_flatMap]
    intro record _
    rw [jsonLine, List.forall_mem_append, List.forall_mem_singleton]
    exact ⟨encodable_encode_ascii rfl _ _, by decide⟩
  obtain ⟨bytes, hbytes⟩ := Option.isSome_iff_exists.mp ((Utf8.isSome_encode_iff _).mpr hencodable)
  rw [hflat] at hbytes
  obtain ⟨text, htext, hlines⟩ := linesOf_of_encode rfl hbytes
  refine ⟨bytes, text, ?_, htext, ?_⟩
  · rw [writeJsonlRecords, hflat, hbytes]
  · rw [hlines, List.map_map]
    rfl

/-- **A JSONL artifact is read record by record.** -/
theorem iterJsonlRecords_written {records : List (Record R)}
    (h : ∀ record ∈ records, (recordValue record).Storable) :
    ∃ bytes, writeJsonlRecords records = some bytes ∧
      iterJsonlRecords bytes = ⟨enumerate 1 records, none⟩ := by
  obtain ⟨bytes, text, hbytes, htext, hlines⟩ := exists_lines_writeJsonlRecords records
  refine ⟨bytes, hbytes, ?_⟩
  rw [iterJsonlRecords, htext]
  simp only [hlines, iterJsonLines_map_jsonLine h]

/-- **A JSON artifact is read item by item.** -/
theorem iterJsonRecords_written {records : List (Record R)}
    (h : ∀ record ∈ records, (recordValue record).Storable) :
    ∃ bytes, writeJsonRecords records = some bytes ∧
      iterJsonRecords bytes = ⟨enumerate 1 records, none⟩ := by
  have hload : loads (encode indented 0 (.list (records.map recordValue))) =
      .ok (.list (records.map recordValue)) := loads_encode indented (storableItems_map h)
  have hreturn : ofChar '\r' ∉ encode indented 0 (.list (records.map recordValue)) :=
    notMem_encode_ascii rfl (by decide) (.inr (by decide))
  have hencodable : Utf8.Encodable (encode indented 0 (.list (records.map recordValue))) :=
    encodable_encode_ascii rfl 0 _
  obtain ⟨bytes, hbytes⟩ := Option.isSome_iff_exists.mp ((Utf8.isSome_encode_iff _).mpr hencodable)
  refine ⟨bytes, hbytes, ?_⟩
  rw [iterJsonRecords, Utf8.decode_encode hbytes]
  simp only [Str.universalNewlines_eq_self hreturn, hload, payloadRecords,
    filterMap_enumerate_recordValue]

end Json

/-! ## CSV -/

section Csv

variable (strOf : Value R → Str)

/-- What a CSV artifact has of a record: a string under every name. -/
def rowRecord (fieldnames : List Str) (record : Record R) : Record R :=
  Dict.ofPairs (fieldnames.map fun name ↦ (name, .str (csvCell strOf (record.get name))))

theorem isSome_writeCsvRecords_iff (fieldnames : List Str) (records : List (Record R)) :
    (writeCsvRecords strOf fieldnames records).isSome = true ↔
      (∀ name ∈ fieldnames, Utf8.Encodable name) ∧ ∀ record ∈ records, ∀ name ∈ fieldnames,
        Utf8.Encodable (csvCell strOf (record.get name)) := by
  rw [writeCsvRecords, Utf8.isSome_encode_iff, Utf8.Encodable, List.forall_mem_flatMap, csvRows,
    List.forall_mem_cons, List.forall_mem_map,
    Csv.forall_mem_writeRow (by decide) (by decide) (by decide)]
  refine and_congr_right' (forall₂_congr fun record _ ↦ ?_)
  rw [Csv.forall_mem_writeRow (by decide) (by decide) (by decide), List.forall_mem_map]
  rfl

theorem record_ofCells (fieldnames : List Str) (record : Record R) :
    (DictRow.ofCells fieldnames
      (fieldnames.map fun name ↦ csvCell strOf (record.get name))).record =
        rowRecord strOf fieldnames record := by
  let cell (name : Str) : Value R := .str (csvCell strOf (record.get name))
  have hzip : fieldnames.zip (fieldnames.map cell) = fieldnames.map fun name ↦ (name, cell name) := by
    have hmap := List.zip_map' (l := fieldnames) (f := id) (g := cell)
    rwa [List.map_id] at hmap
  rw [DictRow.ofCells, rowRecord, List.length_map, Nat.sub_self, List.replicate_zero,
    List.append_nil, List.map_map]
  exact congrArg Dict.ofPairs hzip

/-- **A CSV artifact is read row by row.** -/
theorem iterCsvRecords_written {fieldnames : List Str} (hne : fieldnames ≠ [])
    {records : List (Record R)} {bytes : List Byte}
    (h : writeCsvRecords strOf fieldnames records = some bytes) :
    iterCsvRecords bytes = ⟨enumerate 1 (records.map (rowRecord strOf fieldnames)), none⟩ := by
  have hrow : ∀ row ∈ csvRows strOf fieldnames records, row ≠ [] := by
    rw [csvRows, List.forall_mem_cons, List.forall_mem_map]
    exact ⟨hne, fun record _ hmap ↦ hne (List.map_eq_nil_iff.mp hmap)⟩
  have hreader := Csv.reader_flatMap_writeRow hrow
  rw [csvRows] at hrow hreader
  have hfilter : (records.map fun record ↦ fieldnames.map fun name ↦
      csvCell strOf (record.get name)).filter (· ≠ []) =
        records.map fun record ↦ fieldnames.map fun name ↦ csvCell strOf (record.get name) := by
    refine List.filter_eq_self.mpr fun row hmem ↦ ?_
    exact decide_eq_true (hrow row (List.mem_cons_of_mem _ hmem))
  rw [iterCsvRecords, Utf8.decode_encode h]
  simp only [dictReader, csvRows, hreader, hfilter, List.map_map, Option.map_none]
  congr 2
  exact List.map_congr_left fun record _ ↦ record_ofCells strOf fieldnames record

end Csv

end Normalization

end ForgeData
