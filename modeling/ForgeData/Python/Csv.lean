import ForgeData.Python.CodePoints
import ForgeData.Python.Generator

/-!
# The `csv` module

The reader and the writer of the excel dialect, the writer with line breaks of one character. The
reader is the machine of the C implementation: it sees the characters of a line and then the end of
the line, and a record ends where a line ends outside quotes. The reader is the one without
`field_size_limit`, by which a field of more than 131072 characters raises `csv.Error` too. What the
writer wrote the reader reads back.
-/

namespace Python

namespace Csv

open CodePoint

/-! ## Reading -/

/-- `csv.Error`: a character after a carriage return outside quotes, in the same line. -/
inductive CsvError where
  | newlineInUnquotedField
deriving DecidableEq

/-- The states of the reader. -/
inductive State where
  | startRecord
  | startField
  | inField
  | inQuotedField
  | quoteInQuotedField
  | eatCrnl
deriving DecidableEq

/-- The reader: its state, the field it is in and the fields before it. -/
@[ext] structure Reader where
  state : State
  field : Str
  fields : List Str

/-- The reader at the beginning of a record. -/
def Reader.start : Reader := ⟨.startRecord, [], []⟩

/-- `parse_save_field`, and the state after it. -/
def Reader.save (r : Reader) (state : State) : Reader := ⟨state, [], r.fields ++ [r.field]⟩

/-- `parse_add_char`, and the state after it. -/
def Reader.add (r : Reader) (c : CodePoint) (state : State) : Reader :=
  ⟨state, r.field ++ [c], r.fields⟩

/-- A line break character. -/
def isNewline (c : CodePoint) : Bool := c = ofChar '\n' ∨ c = ofChar '\r'

/-- The beginning of a field. -/
def startField (r : Reader) (c : CodePoint) : Reader :=
  if isNewline c then r.save .eatCrnl
  else if c = ofChar '"' then { r with state := .inQuotedField }
  else if c = ofChar ',' then r.save .startField
  else r.add c .inField

/-- `parse_process_char`. -/
def processChar (r : Reader) (c : CodePoint) : Except CsvError Reader :=
  match r.state with
  | .startRecord =>
    if isNewline c then .ok { r with state := .eatCrnl } else .ok (startField r c)
  | .startField => .ok (startField r c)
  | .inField =>
    if isNewline c then .ok (r.save .eatCrnl)
    else if c = ofChar ',' then .ok (r.save .startField)
    else .ok (r.add c .inField)
  | .inQuotedField =>
    if c = ofChar '"' then .ok { r with state := .quoteInQuotedField }
    else .ok (r.add c .inQuotedField)
  | .quoteInQuotedField =>
    if c = ofChar '"' then .ok (r.add c .inQuotedField)
    else if c = ofChar ',' then .ok (r.save .startField)
    else if isNewline c then .ok (r.save .eatCrnl)
    else .ok (r.add c .inField)
  | .eatCrnl => if isNewline c then .ok r else .error .newlineInUnquotedField

/-- `parse_process_char` at the end of a line. -/
def processEol (r : Reader) : Reader :=
  match r.state with
  | .startRecord | .inQuotedField => r
  | .startField | .inField | .quoteInQuotedField => r.save .startRecord
  | .eatCrnl => { r with state := .startRecord }

/-- Whether a line of the text ends after its first character: lines end with `\n`, `\r` or `\r\n`. -/
def endsLine (c : CodePoint) (s : Str) : Bool :=
  c = ofChar '\n' ∨ (c = ofChar '\r' ∧ s.head? ≠ some (ofChar '\n')) ∨ s = []

/-- `csv.reader`, from a state of the reader on: the records in order. A quoted field that the text
does not close ends with the text. -/
def readFrom : Reader → Str → Gen CsvError (List Str)
  | r, [] => if r.state = .inQuotedField then ⟨[r.fields ++ [r.field]], none⟩ else ⟨[], none⟩
  | r, c :: s =>
    match processChar r c with
    | .error e => ⟨[], some e⟩
    | .ok r =>
      if endsLine c s then
        let r := processEol r
        if r.state = .startRecord then (readFrom .start s).prepend [r.fields] else readFrom r s
      else readFrom r s

/-- `csv.reader`. -/
def reader (text : Str) : Gen CsvError (List Str) := readFrom .start text

/-! ## Writing -/

/-- The characters that make the writer quote a field. -/
def isSpecial (c : CodePoint) : Bool := c = ofChar ',' ∨ c = ofChar '"' ∨ isNewline c

/-- The text of a field; a quote within quotes is doubled. -/
def writeField (s : Str) : Str :=
  if s.any isSpecial then
    ofChar '"' :: (s.flatMap (fun c ↦ if c = ofChar '"' then [c, c] else [c]) ++ [ofChar '"'])
  else s

/-- The fields of a record with commas between them. -/
def writeFields : List Str → Str
  | [] => []
  | [s] => writeField s
  | s :: fields => writeField s ++ ofChar ',' :: writeFields fields

/-- `writer.writerow`: a single empty field is quoted. -/
def writeRow (fields : List Str) : Str :=
  (if fields = [[]] then [ofChar '"', ofChar '"'] else writeFields fields) ++ [ofChar '\n']

/-! ## What is written is read back -/

theorem endsLine_of_not_newline {c : CodePoint} (h : isNewline c = false) (d : CodePoint) (s : Str) :
    endsLine c (d :: s) = false := by
  simp only [isNewline, decide_eq_false_iff_not, not_or] at h
  simp [endsLine, h.1, h.2]

theorem readFrom_cons {r r' : Reader} {c : CodePoint} (hprocess : processChar r c = .ok r')
    (h : isNewline c = false) (d : CodePoint) (s : Str) :
    readFrom r (c :: d :: s) = readFrom r' (d :: s) := by
  rw [readFrom, hprocess]
  simp only [endsLine_of_not_newline h d s, Bool.false_eq_true, if_false]

theorem readFrom_cons_quoted {r r' : Reader} {c : CodePoint} (hprocess : processChar r c = .ok r')
    (hstate : r'.state = .inQuotedField) (s : Str) : readFrom r (c :: s) = readFrom r' s := by
  have heol : processEol r' = r' := by simp only [processEol, hstate]
  rw [readFrom, hprocess]
  simp only [heol, hstate, reduceCtorEq, if_false, ite_self]

theorem readFrom_newline {r r' : Reader} (hprocess : processChar r (ofChar '\n') = .ok r')
    (hstate : r'.state = .eatCrnl) (s : Str) :
    readFrom r (ofChar '\n' :: s) = (readFrom .start s).prepend [r'.fields] := by
  have hends : endsLine (ofChar '\n') s = true := by simp [endsLine]
  rw [readFrom, hprocess]
  simp only [hends, if_true, processEol, hstate]

/-- The rest of a field without quotes. -/
theorem readFrom_inField {r : Reader} (hstate : r.state = .inField) {s : Str}
    (hs : ∀ c ∈ s, isSpecial c = false) (d : CodePoint) (t : Str) :
    readFrom r (s ++ d :: t) = readFrom ⟨.inField, r.field ++ s, r.fields⟩ (d :: t) := by
  induction s generalizing r with
  | nil =>
    rw [List.nil_append, List.append_nil]
    congr 1
    ext1
    · exact hstate
    · rfl
    · rfl
  | cons c s ih =>
    have hc := hs c List.mem_cons_self
    simp only [isSpecial, decide_eq_false_iff_not, not_or, Bool.not_eq_true] at hc
    have hprocess : processChar r c = .ok (r.add c .inField) := by
      simp only [processChar, hstate, hc.2.2, Bool.false_eq_true, if_false, hc.1]
    obtain ⟨e, u, heq⟩ := List.exists_cons_of_ne_nil (List.append_ne_nil_of_right_ne_nil s
      (List.cons_ne_nil d t))
    rw [List.cons_append, heq, readFrom_cons hprocess hc.2.2, ← heq,
      ih rfl fun c hc ↦ hs c (List.mem_cons_of_mem _ hc)]
    simp only [Reader.add, List.append_assoc, List.singleton_append]

/-- The rest of a field in quotes, up to the closing quote. -/
theorem readFrom_inQuotedField {r : Reader} (hstate : r.state = .inQuotedField) (s t : Str) :
    readFrom r (s.flatMap (fun c ↦ if c = ofChar '"' then [c, c] else [c]) ++ ofChar '"' :: t) =
      readFrom ⟨.inQuotedField, r.field ++ s, r.fields⟩ (ofChar '"' :: t) := by
  induction s generalizing r with
  | nil =>
    rw [List.flatMap_nil, List.nil_append, List.append_nil]
    congr 1
    ext1
    · exact hstate
    · rfl
    · rfl
  | cons c s ih =>
    rw [List.flatMap_cons, List.append_assoc]
    by_cases hc : c = ofChar '"'
    · subst hc
      have hfirst : processChar r (ofChar '"') = .ok { r with state := .quoteInQuotedField } := by
        simp only [processChar, hstate, if_true]
      have hsecond : processChar { r with state := .quoteInQuotedField } (ofChar '"') =
          .ok (r.add (ofChar '"') .inQuotedField) := rfl
      rw [if_pos rfl, List.cons_append, List.singleton_append, readFrom_cons hfirst (by decide),
        readFrom_cons_quoted hsecond rfl, ih rfl]
      simp only [Reader.add, List.append_assoc, List.singleton_append]
    · have hprocess : processChar r c = .ok (r.add c .inQuotedField) := by
        simp only [processChar, hstate, if_neg hc]
      rw [if_neg hc, List.singleton_append, readFrom_cons_quoted hprocess rfl, ih rfl]
      simp only [Reader.add, List.append_assoc, List.singleton_append]

/-- **Reading a field**, at the beginning of a record or after a comma. An empty field at the
beginning of a record must be quoted or have a comma after it. -/
theorem readFrom_writeField {state : State} (hstate : state = .startRecord ∨ state = .startField)
    (fields : List Str) (s : Str) {d : CodePoint} (hd : d = ofChar ',' ∨ d = ofChar '\n') (t : Str)
    (hne : state = .startRecord → d = ofChar '\n' → s ≠ []) :
    ∃ r, readFrom ⟨state, [], fields⟩ (writeField s ++ d :: t) = readFrom r (d :: t) ∧
      (d = ofChar ',' → processChar r d = .ok ⟨.startField, [], fields ++ [s]⟩) ∧
      (d = ofChar '\n' → processChar r d = .ok ⟨.eatCrnl, [], fields ++ [s]⟩) := by
  have hstart : ∀ c, isNewline c = false →
      processChar ⟨state, [], fields⟩ c = .ok (startField ⟨state, [], fields⟩ c) := by
    intro c hc
    rcases hstate with rfl | rfl
    · simp only [processChar, hc, Bool.false_eq_true, if_false]
    · rfl
  rw [writeField]
  split
  -- a quoted field: opened, read with doubled quotes undone, and closed
  · refine ⟨⟨.quoteInQuotedField, s, fields⟩, ?_, ?_, ?_⟩
    · have hopen : processChar ⟨state, [], fields⟩ (ofChar '"') =
          .ok ⟨.inQuotedField, [], fields⟩ := hstart _ (by decide)
      have hclose : processChar ⟨.inQuotedField, s, fields⟩ (ofChar '"') =
          .ok ⟨.quoteInQuotedField, s, fields⟩ := rfl
      rw [List.cons_append, readFrom_cons_quoted hopen rfl, List.append_assoc, List.singleton_append,
        readFrom_inQuotedField rfl, List.nil_append, readFrom_cons hclose (by decide)]
    · rintro rfl
      rfl
    · rintro rfl
      rfl
  · next hspecial =>
    -- a field that is not quoted has no character that matters to the reader
    have hplain : ∀ c ∈ s, isSpecial c = false := by
      intro c hc
      by_contra h
      exact hspecial (List.any_eq_true.mpr ⟨c, hc, by simpa using h⟩)
    cases s with
    | nil =>
      refine ⟨_, rfl, ?_, ?_⟩
      · rintro rfl
        exact hstart _ (by decide)
      · rintro rfl
        rcases hstate with rfl | rfl
        · exact absurd rfl (hne rfl rfl)
        · rfl
    -- the first character decides the state, and the others are added one by one
    | cons c s =>
      have hc := hplain c List.mem_cons_self
      simp only [isSpecial, decide_eq_false_iff_not, not_or, Bool.not_eq_true] at hc
      have hfirst : processChar ⟨state, [], fields⟩ c = .ok ⟨.inField, [c], fields⟩ := by
        rw [hstart c hc.2.2]
        simp only [startField, hc.1, hc.2.1, hc.2.2, Bool.false_eq_true, if_false, Reader.add,
          List.nil_append]
      obtain ⟨e, u, heq⟩ := List.exists_cons_of_ne_nil (List.append_ne_nil_of_right_ne_nil s
        (List.cons_ne_nil d t))
      refine ⟨⟨.inField, c :: s, fields⟩, ?_, ?_, ?_⟩
      · rw [List.cons_append, heq, readFrom_cons hfirst hc.2.2, ← heq,
          readFrom_inField rfl fun c hc ↦ hplain c (List.mem_cons_of_mem _ hc)]
        rfl
      · rintro rfl
        rfl
      · rintro rfl
        rfl

/-- The fields of a record from some field on. -/
theorem readFrom_writeFields {state : State} (hstate : state = .startRecord ∨ state = .startField)
    (fields done : List Str) (hne : fields ≠ []) (hsingle : state = .startRecord → fields ≠ [[]])
    (t : Str) :
    readFrom ⟨state, [], done⟩ (writeFields fields ++ ofChar '\n' :: t) =
      (readFrom .start t).prepend [done ++ fields] := by
  induction fields generalizing state done with
  | nil => exact absurd rfl hne
  | cons s fields ih =>
    cases fields with
    | nil =>
      obtain ⟨r, hread, -, hend⟩ := readFrom_writeField hstate done s (.inr rfl) t
        fun h _ hs ↦ hsingle h (by rw [hs])
      rw [writeFields, hread, readFrom_newline (hend rfl) rfl]
    | cons s' fields =>
      obtain ⟨r, hread, hend, -⟩ := readFrom_writeField hstate done s (.inl rfl)
        (writeFields (s' :: fields) ++ ofChar '\n' :: t) fun _ h ↦ absurd h (by decide)
      have hcons : writeFields (s :: s' :: fields) =
          writeField s ++ ofChar ',' :: writeFields (s' :: fields) := rfl
      obtain ⟨e, u, heq⟩ := List.exists_cons_of_ne_nil (List.append_ne_nil_of_right_ne_nil
        (writeFields (s' :: fields)) (List.cons_ne_nil (ofChar '\n') t))
      rw [hcons, List.append_assoc, List.cons_append, hread, heq, readFrom_cons (hend rfl) (by decide),
        ← heq, ih (.inr rfl) (done ++ [s]) (List.cons_ne_nil _ _) (fun h ↦ absurd h nofun),
        List.append_assoc, List.singleton_append]

/-- **Reading a record.** -/
theorem readFrom_writeRow {fields : List Str} (hne : fields ≠ []) (t : Str) :
    readFrom .start (writeRow fields ++ t) = (readFrom .start t).prepend [fields] := by
  rw [writeRow, List.append_assoc, List.singleton_append]
  split
  · next h =>
    have hopen : processChar .start (ofChar '"') = .ok ⟨.inQuotedField, [], []⟩ := rfl
    have hclose : processChar ⟨.inQuotedField, [], []⟩ (ofChar '"') =
        .ok ⟨.quoteInQuotedField, [], []⟩ := rfl
    have hend : processChar ⟨.quoteInQuotedField, [], []⟩ (ofChar '\n') =
        .ok ⟨.eatCrnl, [], [[]]⟩ := rfl
    rw [h, List.cons_append, List.singleton_append, readFrom_cons_quoted hopen rfl,
      readFrom_cons hclose (by decide), readFrom_newline hend rfl]
  · next h => exact readFrom_writeFields (.inl rfl) fields [] hne (fun _ ↦ h) t

/-- **The reader reads back what the writer wrote.** -/
theorem reader_flatMap_writeRow {rows : List (List Str)} (h : ∀ row ∈ rows, row ≠ []) :
    reader (rows.flatMap writeRow) = ⟨rows, none⟩ := by
  rw [reader]
  induction rows with
  | nil => rfl
  | cons row rows ih =>
    rw [List.flatMap_cons, readFrom_writeRow (h row List.mem_cons_self),
      ih fun row hrow ↦ h row (List.mem_cons_of_mem _ hrow)]
    rfl

/-! ## The characters of a row -/

section Characters

variable {P : CodePoint → Prop}

theorem forall_mem_writeField (hquote : P (ofChar '"')) (s : Str) :
    (∀ c ∈ writeField s, P c) ↔ ∀ c ∈ s, P c := by
  rw [writeField]
  split
  · simp only [List.forall_mem_cons, List.forall_mem_append, List.not_mem_nil, false_implies,
      implies_true, and_true, hquote, true_and, List.forall_mem_flatMap]
    refine forall₂_congr fun c _ ↦ ?_
    split <;> simp
  · exact Iff.rfl

theorem forall_mem_writeFields (hquote : P (ofChar '"')) (hcomma : P (ofChar ','))
    (fields : List Str) :
    (∀ c ∈ writeFields fields, P c) ↔ ∀ s ∈ fields, ∀ c ∈ s, P c := by
  induction fields with
  | nil => simp [writeFields]
  | cons s fields ih =>
    cases fields with
    | nil => rw [writeFields, List.forall_mem_singleton, forall_mem_writeField hquote]
    | cons s' fields =>
      rw [writeFields, List.forall_mem_append, List.forall_mem_cons, ih,
        forall_mem_writeField hquote, List.forall_mem_cons (a := s), and_iff_right hcomma]
      exact nofun

theorem forall_mem_writeRow (hquote : P (ofChar '"')) (hcomma : P (ofChar ','))
    (hnewline : P (ofChar '\n')) (fields : List Str) :
    (∀ c ∈ writeRow fields, P c) ↔ ∀ s ∈ fields, ∀ c ∈ s, P c := by
  rw [writeRow, List.forall_mem_append, List.forall_mem_singleton, and_iff_left hnewline]
  split
  · next h => simp [h, hquote]
  · exact forall_mem_writeFields hquote hcomma fields

end Characters

end Csv

end Python
