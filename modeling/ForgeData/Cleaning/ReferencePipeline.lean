import ForgeData.Cleaning.Verdicts

/-!
# The reference pipeline

Cleaning, said without an index, a loop or a counter. A row is dropped if it is rejected or repeats the
content of an earlier row that was not rejected; the other rows are redacted and written in their
order. The run agrees with this for every stream of rows and with either backend: along the stream the
index maps the key of a content to the first row, among those not rejected, that has it.
-/

namespace ForgeData

namespace Cleaning

open Python Normalization Integrity

/-! ## The specification -/

section Specification

variable {R : Type} (config : CleaningConfig) (knownStreams : List Str)

/-- The rows have the same timestamp and the same streams, up to the order of the fields. -/
def SameContent (row row' : Record R) : Prop := (rowContent row).SameJson (rowContent row')

/-- The earlier row at `j` was not rejected and has the content of the row. -/
def Repeats (earlier : List (Record R)) (row : Record R) (j : ℕ) : Prop :=
  ∃ r, earlier[j]? = some r ∧ ¬Rejected config knownStreams r ∧ SameContent r row

/-- The row is dropped: it is rejected, or duplicates are looked for and it is one. -/
def Dropped (earlier : List (Record R)) (row : Record R) : Prop :=
  Rejected config knownStreams row ∨
    config.duplicatePolicy.enabled = true ∧ ∃ j, Repeats config knownStreams earlier row j

open Classical in
/-- The rows that are not dropped, in their order. -/
noncomputable def retained (rows : List (Record R)) : List (Record R) :=
  (rows.zipIdx.filter fun p ↦ ¬Dropped config knownStreams (rows.take p.2) p.1).map Prod.fst

/-- Why a row is dropped: it is rejected, or it is a duplicate of the first row that it repeats. -/
def DroppedBecause (earlier : List (Record R)) (row : Record R) (reasons : List DropReason) : Prop :=
  Rejected config knownStreams row ∧ (∀ reason ∈ reasons, reason.code ≠ .duplicateRow) ∨
    ∃ j, reasons = [{ code := .duplicateRow, duplicateOfRowIndex := some (j + 1) }] ∧
      Repeats config knownStreams earlier row j ∧ ∀ k < j, ¬Repeats config knownStreams earlier row k

variable [FloatText R]

/-- The line of a retained row. -/
def retainedLine (row : Record R) : Str :=
  canonicalJson (redactedRow config row) ++ [CodePoint.ofChar '\n']

/-- The decision about a row is the one that the earlier rows call for. -/
def VerdictFits (earlier : List (Record R)) (row : Record R) : Verdict R → Prop
  | .dropped reasons =>
    Dropped config knownStreams earlier row ∧ DroppedBecause config knownStreams earlier row reasons
  | .kept cleanedRow _ =>
    ¬Dropped config knownStreams earlier row ∧ cleanedRow = redactedRow config row

/-- A run and its decisions are those of the reference pipeline. -/
structure CleansAs (sha256 : List Byte → Sha256Digest) (rows : List (Record R))
    (verdicts : List (Verdict R)) (run : CleaningRun R) : Prop where
  /-- There is one decision for each row. -/
  length_verdicts : verdicts.length = rows.length
  /-- Each is the right one. -/
  fits : ∀ (i : ℕ) (row : Record R) (verdict : Verdict R), rows[i]? = some row →
    verdicts[i]? = some verdict → VerdictFits config knownStreams (rows.take i) row verdict
  /-- The output has the retained rows, redacted. -/
  output : Utf8.encode ((retained config knownStreams rows).flatMap (retainedLine config)) =
    some run.cleaned
  /-- Its hash and its size are recorded. -/
  recorded : run.cleanedSha256 = sha256 run.cleaned ∧ run.cleanedSizeBytes = run.cleaned.length
  /-- Every row is counted, as retained or as dropped. -/
  input : run.metrics.inputRows = rows.length
  retained_rows : run.metrics.retainedRows = (retained config knownStreams rows).length
  accounted : run.metrics.inputRows = run.metrics.retainedRows + run.metrics.droppedRows

end Specification

/-! ## Keys and contents -/

section Keys

variable {R : Type}

/-- A row that canonical JSON can write: it was written as JSON before, and none of its strings has a
lone surrogate. -/
structure Writable (row : Record R) : Prop where
  storable : (recordValue row).Storable
  encodable : ∀ s ∈ (recordValue row).strings, Utf8.Encodable s

theorem Writable.get {row : Record R} (h : Writable row) (name : Str) :
    (row.get name).Storable ∧ ∀ s ∈ (row.get name).strings, Utf8.Encodable s := by
  have hstorable := h.storable
  have hencodable := h.encodable
  rw [recordValue, Value.Storable] at hstorable
  rw [recordValue, Value.strings] at hencodable
  rcases hget : row.get? name with _ | v
  · have hnone : row.get name = .none := by rw [Record.get, Dict.getD, hget]; rfl
    rw [hnone]
    exact ⟨trivial, fun s hs ↦ absurd hs List.not_mem_nil⟩
  · have hmem := Dict.get?_eq_some_iff.mp hget
    have hsome : row.get name = v := by rw [Record.get, Dict.getD, hget]; rfl
    rw [hsome]
    exact ⟨(storableFields_iff.mp hstorable.2 _ hmem).2,
      fun s hs ↦ hencodable s (mem_stringsFields.mpr ⟨_, hmem, .inr hs⟩)⟩

theorem Writable.storable_rowContent {row : Record R} (h : Writable row) :
    (rowContent row).Storable := by
  have hpaired : ∀ s : String, WellPaired (Str.ofString s) :=
    fun s ↦ wellPaired_of_forall (Utf8.encodable_ofString s)
  have hkeys : [Str.ofString "timestamp", Str.ofString "streams"].Nodup := by decide
  rw [rowContent, Value.Storable, storableFields_iff]
  refine ⟨hkeys, fun p hp ↦ ?_⟩
  rcases List.mem_pair.mp hp with rfl | rfl
  · exact ⟨hpaired _, (h.get _).1⟩
  · exact ⟨hpaired _, (h.get _).1⟩

theorem Writable.encodable_rowContent {row : Record R} (h : Writable row) :
    ∀ s ∈ (rowContent row).strings, Utf8.Encodable s := by
  intro s hs
  rw [rowContent, Value.strings, mem_stringsFields] at hs
  obtain ⟨p, hp, hs⟩ := hs
  rcases List.mem_pair.mp hp with rfl | rfl
  · exact hs.elim (fun hs ↦ hs ▸ Utf8.encodable_ofString _) ((h.get _).2 s)
  · exact hs.elim (fun hs ↦ hs ▸ Utf8.encodable_ofString _) ((h.get _).2 s)

variable [FloatText R] (sha256 : List Byte → Sha256Digest)

/-- The bytes that are hashed to identify a row. -/
def contentBytes (row : Record R) : List Byte :=
  (Utf8.encode (canonicalJson (rowContent row))).getD []

/-- No two contents of the rows have the same hash. -/
def CollisionFree (rows : List (Record R)) : Prop :=
  ∀ row ∈ rows, ∀ row' ∈ rows, sha256 (contentBytes row) = sha256 (contentBytes row') →
    contentBytes row = contentBytes row'

variable [LawfulFloatText R]

theorem Writable.encode_rowContent {row : Record R} (h : Writable row) :
    Utf8.encode (canonicalJson (rowContent row)) = some (contentBytes row) := by
  have hencodable : Utf8.Encodable (dumps canonicalStyle (rowContent row)) :=
    encodable_dumps h.encodable_rowContent
  obtain ⟨bytes, hbytes⟩ := Option.isSome_iff_exists.mp ((Utf8.isSome_encode_iff _).mpr hencodable)
  rw [contentBytes, canonicalJson, hbytes]
  rfl

theorem Writable.canonicalRowKey {row : Record R} (h : Writable row) :
    canonicalRowKey sha256 row = .ok (sha256 (contentBytes row)) := by
  rw [Cleaning.canonicalRowKey, encodeUtf8, h.encode_rowContent]
  rfl

/-- **Keys tell contents apart.** -/
theorem Writable.key_eq_iff {rows : List (Record R)} (hsha : CollisionFree sha256 rows)
    {row row' : Record R} (hmem : row ∈ rows) (hmem' : row' ∈ rows) (h : Writable row)
    (h' : Writable row') :
    sha256 (contentBytes row) = sha256 (contentBytes row') ↔ SameContent row row' := by
  have hsort : canonicalStyle.sortKeys = true := rfl
  rw [SameContent, ← dumps_eq_iff hsort h.storable_rowContent h'.storable_rowContent]
  constructor
  · intro heq
    have hbytes := hsha row hmem row' hmem' heq
    have hdecode := Utf8.decode_encode h.encode_rowContent
    rw [hbytes, Utf8.decode_encode h'.encode_rowContent] at hdecode
    exact (Option.some.inj hdecode).symm
  · intro heq
    rw [contentBytes, canonicalJson, heq, contentBytes, canonicalJson]

theorem Writable.encode_retainedLine {row : Record R} (h : Writable row) (config : CleaningConfig) :
    ∃ line, Utf8.encode (retainedLine config row) = some line ∧
      outputLine (redactedRow config row) = .ok line := by
  have hencodable : Utf8.Encodable (retainedLine config row) := by
    intro c hc
    rcases List.mem_append.mp hc with hc | hc
    · exact encodable_dumps (fun s hs ↦ h.encodable s (mem_strings_redact _ hs)) c hc
    · obtain rfl := List.mem_singleton.mp hc
      decide
  obtain ⟨line, hline⟩ := Option.isSome_iff_exists.mp ((Utf8.isSome_encode_iff _).mpr hencodable)
  refine ⟨line, hline, ?_⟩
  rw [retainedLine] at hline
  rw [outputLine, encodeUtf8, hline]

end Keys

/-! ## Along the stream -/

section Stream

variable {R : Type} [FloatText R] (sha256 : List Byte → Sha256Digest) (config : CleaningConfig)
  (knownStreams : List Str)

/-- The first of the earlier rows, among those that pass the coverage rules, that has the key. -/
def firstPassing (earlier : List (Record R)) (key : Sha256Digest) : Option ℕ :=
  earlier.findIdx? fun r ↦ coverageReasons config knownStreams r = [] ∧ sha256 (contentBytes r) = key

/-- **The invariant**: the index holds the first row of every key. -/
def HoldsFirst (seen : SeenIndex) (earlier : List (Record R)) : Prop :=
  ∀ key, seen.lookup key = (firstPassing sha256 config knownStreams earlier key).map (· + 1)

theorem holdsFirst_create (backend : Backend) :
    HoldsFirst (R := R) sha256 config knownStreams (.create backend) [] := by
  intro key
  rw [SeenIndex.lookup_create]
  rfl

theorem firstPassing_append (earlier : List (Record R)) (row : Record R) (key : Sha256Digest) :
    firstPassing sha256 config knownStreams (earlier ++ [row]) key =
      (firstPassing sha256 config knownStreams earlier key).or
        (if coverageReasons config knownStreams row = [] ∧ sha256 (contentBytes row) = key then
          some earlier.length else none) := by
  rw [firstPassing, List.findIdx?_append, List.findIdx?_singleton, firstPassing]
  simp only [decide_eq_true_eq]
  congr 1
  split
  · rw [Option.map_some, Nat.zero_add]
  · rfl

/-- A row leaves the index with the first row of every key. -/
theorem HoldsFirst.seenAfter {seen : SeenIndex} {earlier : List (Record R)}
    (h : HoldsFirst sha256 config knownStreams seen earlier)
    (henabled : config.duplicatePolicy.enabled = true) (row : Record R) :
    HoldsFirst sha256 config knownStreams
      (seenAfter config knownStreams (sha256 (contentBytes row)) (earlier.length + 1) row seen)
      (earlier ++ [row]) := by
  intro key
  rw [firstPassing_append, Cleaning.seenAfter, if_pos henabled]
  by_cases hcoverage : coverageReasons config knownStreams row = []
  swap
  · rw [if_pos hcoverage, if_neg fun h ↦ hcoverage h.1, Option.or_none]
    exact h key
  rw [if_neg (not_not.mpr hcoverage), SeenIndex.lookup_firstSeenOrRecord, h key, h _]
  by_cases hkey : key = sha256 (contentBytes row)
  · subst hkey
    rw [if_pos rfl, if_pos ⟨hcoverage, rfl⟩]
    cases firstPassing sha256 config knownStreams earlier (sha256 (contentBytes row)) <;> rfl
  · rw [if_neg hkey, if_neg fun h ↦ hkey h.2.symm, Option.or_none]

/-- The decision that the earlier rows call for. -/
def expectedVerdict (earlier : List (Record R)) (row : Record R) : Verdict R :=
  verdictOf config knownStreams row
    ((firstPassing sha256 config knownStreams earlier (sha256 (contentBytes row))).map (· + 1))

omit [FloatText R] in
theorem verdictOf_congr {row : Record R} {i j : Option ℕ}
    (h : config.duplicatePolicy.enabled = true → i = j) :
    verdictOf config knownStreams row i = verdictOf config knownStreams row j := by
  unfold verdictOf
  by_cases henabled : config.duplicatePolicy.enabled = true
  · rw [h henabled]
  · rw [if_neg henabled, if_neg henabled]

variable [LawfulFloatText R]

/-- **One step.** The evaluator decides about a row as the earlier rows call for. -/
theorem evaluateRow_expected {row : Record R} (hrow : Writable row) {seen : SeenIndex}
    {earlier : List (Record R)} (h : config.duplicatePolicy.enabled = true →
      HoldsFirst sha256 config knownStreams seen earlier) :
    evaluateRow sha256 (buildRules config knownStreams) (earlier.length + 1) row seen =
      .ok (seenAfter config knownStreams (sha256 (contentBytes row)) (earlier.length + 1) row seen,
        expectedVerdict sha256 config knownStreams earlier row) := by
  rw [evaluateRow_buildRules sha256 config knownStreams hrow.storable (hrow.canonicalRowKey sha256),
    expectedVerdict]
  exact congrArg (fun v ↦ Except.ok (_, v))
    (verdictOf_congr config knownStreams fun henabled ↦ h henabled _)

variable {rows : List (Record R)} (hrows : ∀ row ∈ rows, Writable row)
  (hsha : CollisionFree sha256 rows)

include hrows hsha

theorem repeats_iff {earlier : List (Record R)} (hearlier : earlier ⊆ rows) {row : Record R}
    (hrow : row ∈ rows) (j : ℕ) : Repeats config knownStreams earlier row j ↔
      ∃ r, earlier[j]? = some r ∧ coverageReasons config knownStreams r = [] ∧
        sha256 (contentBytes r) = sha256 (contentBytes row) := by
  refine exists_congr fun r ↦ and_congr_right fun hr ↦ ?_
  have hmem : r ∈ rows := hearlier (List.mem_of_getElem? hr)
  rw [← coverageReasons_ne_nil_iff, not_not, (hrows r hmem).key_eq_iff sha256 hsha hmem hrow
    (hrows row hrow)]

/-- What the index answers is the first row that is repeated. -/
theorem firstPassing_eq_some_iff {earlier : List (Record R)} (hearlier : earlier ⊆ rows)
    {row : Record R} (hrow : row ∈ rows) (j : ℕ) :
    firstPassing sha256 config knownStreams earlier (sha256 (contentBytes row)) = some j ↔
      Repeats config knownStreams earlier row j ∧
        ∀ k < j, ¬Repeats config knownStreams earlier row k := by
  have hrepeats := repeats_iff sha256 config knownStreams hrows hsha hearlier hrow
  rw [firstPassing, List.findIdx?_eq_some_iff_getElem, hrepeats]
  simp only [hrepeats, decide_eq_true_eq]
  constructor
  · rintro ⟨hlt, hj, hbefore⟩
    refine ⟨⟨_, List.getElem?_eq_getElem hlt, hj⟩, ?_⟩
    rintro k hk ⟨r, hr, hpass⟩
    obtain ⟨hlt', rfl⟩ := List.getElem?_eq_some_iff.mp hr
    exact hbefore k hk hpass
  · rintro ⟨⟨r, hr, hpass⟩, hbefore⟩
    obtain ⟨hlt, rfl⟩ := List.getElem?_eq_some_iff.mp hr
    exact ⟨hlt, hpass, fun k hk hpass' ↦
      hbefore k hk ⟨_, List.getElem?_eq_getElem (hk.trans hlt), hpass'⟩⟩

theorem firstPassing_eq_none_iff {earlier : List (Record R)} (hearlier : earlier ⊆ rows)
    {row : Record R} (hrow : row ∈ rows) :
    firstPassing sha256 config knownStreams earlier (sha256 (contentBytes row)) = none ↔
      ¬∃ j, Repeats config knownStreams earlier row j := by
  rw [firstPassing, List.findIdx?_eq_none_iff, not_exists]
  simp only [repeats_iff sha256 config knownStreams hrows hsha hearlier hrow, decide_eq_false_iff_not]
  constructor
  · rintro h j ⟨r, hr, hpass⟩
    exact h r (List.mem_of_getElem? hr) hpass
  · intro h r hr hpass
    obtain ⟨j, hj⟩ := List.mem_iff_getElem?.mp hr
    exact h j ⟨r, hj, hpass⟩

theorem expectedVerdict_fits {earlier : List (Record R)} (hearlier : earlier ⊆ rows)
    {row : Record R} (hrow : row ∈ rows) : VerdictFits config knownStreams earlier row
      (expectedVerdict sha256 config knownStreams earlier row) := by
  have hrejected := coverageReasons_ne_nil_iff config knownStreams row
  rw [expectedVerdict]
  unfold verdictOf
  by_cases hcoverage : coverageReasons config knownStreams row ≠ []
  · rw [if_pos hcoverage]
    exact ⟨.inl (hrejected.mp hcoverage), .inl ⟨hrejected.mp hcoverage, fun reason hreason ↦
      code_ne_duplicateRow_of_mem_coverageReasons config knownStreams hreason⟩⟩
  rw [if_neg hcoverage]
  have hpasses := mt hrejected.mpr hcoverage
  by_cases henabled : config.duplicatePolicy.enabled = true
  swap
  · rw [if_neg henabled]
    exact ⟨fun h ↦ h.elim hpasses fun h ↦ henabled h.1, rfl⟩
  rw [if_pos henabled]
  rcases hfirst : firstPassing sha256 config knownStreams earlier (sha256 (contentBytes row)) with _ | j
  · have hnone := (firstPassing_eq_none_iff sha256 config knownStreams hrows hsha hearlier hrow).mp hfirst
    exact ⟨fun h ↦ h.elim hpasses fun h ↦ hnone h.2, rfl⟩
  · have hsome := (firstPassing_eq_some_iff sha256 config knownStreams hrows hsha hearlier hrow j).mp
      hfirst
    exact ⟨.inr ⟨henabled, j, hsome.1⟩, .inr ⟨j, rfl, hsome⟩⟩

end Stream

end Cleaning

end ForgeData
