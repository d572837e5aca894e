import ForgeData.Cleaning.ReferencePipeline

/-!
# Cleaning equals the reference pipeline

The loop of `_process_rows` over the lines of an artifact that was written row by row. Its invariant
ties the state after some rows to the reference pipeline for these rows: the index, the counters, the
bytes written and those fed to the hasher.
-/

namespace ForgeData

namespace Cleaning

open Python Normalization Integrity

section Stream

variable {R : Type} [FloatText R] (sha256 : List Byte → Sha256Digest) (config : CleaningConfig)
  (knownStreams : List Str)

/-! ## Retained rows -/

omit [FloatText R] in
theorem retained_append_singleton (earlier : List (Record R)) (row : Record R)
    [Decidable (Dropped config knownStreams earlier row)] :
    retained config knownStreams (earlier ++ [row]) = retained config knownStreams earlier ++
      if Dropped config knownStreams earlier row then [] else [row] := by
  have hearlier : ∀ p ∈ earlier.zipIdx, (earlier ++ [row]).take p.2 = earlier.take p.2 := by
    intro p hp
    have hlt := List.snd_lt_of_mem_zipIdx hp
    exact List.take_append_of_le_length (by omega)
  rw [retained, List.zipIdx_append, List.filter_append, List.map_append]
  congr 1
  · rw [retained]
    refine congrArg (List.map Prod.fst) (List.filter_congr fun p hp ↦ ?_)
    rw [hearlier p hp]
  · have htake : (earlier ++ [row]).take (0 + earlier.length) = earlier := by
      rw [Nat.zero_add, List.take_left]
    rw [List.zipIdx_singleton, List.filter_singleton, htake]
    by_cases hdropped : Dropped config knownStreams earlier row
    · simp [hdropped]
    · simp [hdropped]

/-! ## Lines -/

variable [LawfulFloatText R]

theorem lineStep_jsonLine {row : Record R} (hrow : (recordValue row).Storable)
    (rules : List CleaningRule) (s : ProcessState R) :
    lineStep sha256 rules s (jsonLine row) = rowStep sha256 rules s row := by
  have hload : loads (encode .default 0 (recordValue row)) = .ok (recordValue row) :=
    loads_encode .default hrow
  obtain ⟨text, htext⟩ := exists_encode_dict .default row.items
  have hne : encode .default 0 (recordValue row) ≠ [] := by
    rw [htext]
    exact List.cons_ne_nil _ _
  rw [lineStep, strip_jsonLine, if_neg hne, hload]
  simp only [asRecord?_recordValue]

theorem foldlM_lineStep {rows : List (Record R)} (h : ∀ row ∈ rows, (recordValue row).Storable)
    (rules : List CleaningRule) (s : ProcessState R) :
    (rows.map jsonLine).foldlM (lineStep sha256 rules) s = rows.foldlM (rowStep sha256 rules) s := by
  induction rows generalizing s with
  | nil => rfl
  | cons row rows ih =>
    rw [List.map_cons, List.foldlM_cons, List.foldlM_cons,
      lineStep_jsonLine sha256 (h row List.mem_cons_self)]
    exact congrArg _ (funext fun s ↦ ih (fun row hrow ↦ h row (List.mem_cons_of_mem _ hrow)) s)

/-- **The artifact of a stream of rows is processed row by row.** -/
theorem exists_processRows {rows : List (Record R)} (h : ∀ row ∈ rows, (recordValue row).Storable) :
    ∃ artifact, writeJsonlRecords rows = some artifact ∧
      ∀ (rules : List CleaningRule) (backend : Backend) (maxDetailEntries : ℕ),
        processRows sha256 rules backend maxDetailEntries artifact =
          rows.foldlM (rowStep sha256 rules) (.init R backend maxDetailEntries) := by
  obtain ⟨artifact, text, hartifact, htext, hlines⟩ := exists_lines_writeJsonlRecords rows
  refine ⟨artifact, hartifact, fun rules backend maxDetailEntries ↦ ?_⟩
  rw [processRows, htext]
  simp only [hlines]
  exact foldlM_lineStep sha256 h rules _

/-! ## The loop -/

/-- The state of the loop after some rows. -/
structure CleanedSoFar (earlier : List (Record R)) (s : ProcessState R) : Prop where
  rowIndex : s.rowIndex = earlier.length
  seen : config.duplicatePolicy.enabled = true → HoldsFirst sha256 config knownStreams s.seen earlier
  output : Utf8.encode ((retained config knownStreams earlier).flatMap (retainedLine config)) =
    some s.outFile
  digest : s.digest = s.outFile
  size : s.sizeBytes = s.outFile.length
  input : s.metrics.inputRows = earlier.length
  retained_rows : s.metrics.retainedRows = (retained config knownStreams earlier).length
  accounted : s.metrics.inputRows = s.metrics.retainedRows + s.metrics.droppedRows

omit [LawfulFloatText R] in
theorem cleanedSoFar_init (backend : Backend) (maxDetailEntries : ℕ) :
    CleanedSoFar sha256 config knownStreams [] (.init R backend maxDetailEntries) where
  rowIndex := rfl
  seen _ := holdsFirst_create sha256 config knownStreams backend
  output := rfl
  digest := rfl
  size := rfl
  input := rfl
  retained_rows := rfl
  accounted := rfl

section Counters

variable {R : Type} (m : CleaningMetrics R) (rowIndex : ℕ) (timestamp : Value R)

theorem counters_recordKept (redactions : List RedactionRecord) :
    (m.recordKept rowIndex timestamp redactions).inputRows = m.inputRows + 1 ∧
      (m.recordKept rowIndex timestamp redactions).retainedRows = m.retainedRows + 1 ∧
      (m.recordKept rowIndex timestamp redactions).droppedRows = m.droppedRows := by
  unfold CleaningMetrics.recordKept
  dsimp only
  split
  · exact ⟨rfl, rfl, rfl⟩
  split <;> exact ⟨rfl, rfl, rfl⟩

theorem counters_recordDropped (reasons : List DropReason) :
    (m.recordDropped rowIndex timestamp reasons).inputRows = m.inputRows + 1 ∧
      (m.recordDropped rowIndex timestamp reasons).retainedRows = m.retainedRows ∧
      (m.recordDropped rowIndex timestamp reasons).droppedRows = m.droppedRows + 1 := by
  unfold CleaningMetrics.recordDropped
  dsimp only
  split <;> exact ⟨rfl, rfl, rfl⟩

end Counters

variable {rows : List (Record R)} (hrows : ∀ row ∈ rows, Writable row)
  (hsha : CollisionFree sha256 rows)

include hrows hsha

/-- **One row.** It is written if it is retained, counted in any case, and the index takes it in. -/
theorem CleanedSoFar.rowStep {earlier : List (Record R)} (hearlier : earlier ⊆ rows) {row : Record R}
    (hrow : row ∈ rows) {s : ProcessState R} (h : CleanedSoFar sha256 config knownStreams earlier s) :
    ∃ s', rowStep sha256 (buildRules config knownStreams) s row = .ok s' ∧
      CleanedSoFar sha256 config knownStreams (earlier ++ [row]) s' := by
  classical
  have hfits := expectedVerdict_fits sha256 config knownStreams hrows hsha hearlier hrow
  have hseen : config.duplicatePolicy.enabled = true →
      HoldsFirst sha256 config knownStreams (seenAfter config knownStreams
        (sha256 (contentBytes row)) (earlier.length + 1) row s.seen) (earlier ++ [row]) :=
    fun henabled ↦ (h.seen henabled).seenAfter sha256 config knownStreams henabled row
  rw [Cleaning.rowStep, h.rowIndex, evaluateRow_expected sha256 config knownStreams (hrows row hrow) h.seen]
  dsimp only [bind, Except.bind]
  cases hverdict : expectedVerdict sha256 config knownStreams earlier row with
  -- a dropped row is counted, and nothing is written
  | dropped reasons =>
    rw [hverdict] at hfits
    obtain ⟨hinput, hretained, hdropped⟩ := counters_recordDropped s.metrics (s.rowIndex + 1)
      (row.get (Str.ofString "timestamp")) reasons
    have happend : retained config knownStreams (earlier ++ [row]) =
        retained config knownStreams earlier := by
      rw [retained_append_singleton, if_pos hfits.1, List.append_nil]
    refine ⟨_, rfl, ?_⟩
    exact {
      rowIndex := by rw [List.length_append, ← h.rowIndex]; rfl
      seen := hseen
      output := by rw [happend]; exact h.output
      digest := h.digest
      size := h.size
      input := by rw [hinput, h.input, List.length_append]; rfl
      retained_rows := by rw [hretained, h.retained_rows, happend]
      accounted := by rw [hinput, hretained, hdropped, h.accounted, Nat.add_assoc] }
  -- a kept row is written with its redactions, and digest and size follow the bytes
  | kept cleanedRow redactions =>
    rw [hverdict] at hfits
    obtain ⟨hnot, rfl⟩ := hfits
    obtain ⟨line, hline, hout⟩ := (hrows row hrow).encode_retainedLine config
    obtain ⟨hinput, hretained, hdropped⟩ := counters_recordKept s.metrics (s.rowIndex + 1)
      (row.get (Str.ofString "timestamp")) redactions
    have happend : retained config knownStreams (earlier ++ [row]) =
        retained config knownStreams earlier ++ [row] := by
      rw [retained_append_singleton, if_neg hnot]
    rw [ProcessState.record, hout]
    refine ⟨_, rfl, ?_⟩
    exact {
      rowIndex := by rw [List.length_append, ← h.rowIndex]; rfl
      seen := hseen
      output := by
        rw [happend, List.flatMap_append, List.flatMap_singleton, Utf8.encode_append, h.output, hline]
        rfl
      digest := congrArg (· ++ line) h.digest
      size := by rw [List.length_append, ← h.size]
      input := by rw [hinput, h.input, List.length_append]; rfl
      retained_rows := by rw [hretained, h.retained_rows, happend, List.length_append]; rfl
      accounted := by rw [hinput, hretained, hdropped, h.accounted, Nat.add_right_comm] }

theorem exists_foldlM_rowStep (backend : Backend) (maxDetailEntries : ℕ) :
    ∃ s, rows.foldlM (Cleaning.rowStep sha256 (buildRules config knownStreams))
        (.init R backend maxDetailEntries) = .ok s ∧ CleanedSoFar sha256 config knownStreams rows s := by
  refine foldlM_total (I := CleanedSoFar sha256 config knownStreams) ?_
    (cleanedSoFar_init sha256 config knownStreams backend maxDetailEntries)
  intro earlier row later s hsplit h
  have hrow : row ∈ rows := by rw [hsplit]; exact List.mem_append_right _ List.mem_cons_self
  have hearlier : earlier ⊆ rows := by rw [hsplit]; exact List.subset_append_left _ _
  exact h.rowStep sha256 config knownStreams hrows hsha hearlier hrow

/-! ## Decisions -/

/-- The decisions about the rows after some others. -/
theorem exists_decisions {earlier later : List (Record R)} (hsplit : rows = earlier ++ later)
    {seen : SeenIndex} (h : config.duplicatePolicy.enabled = true →
      HoldsFirst sha256 config knownStreams seen earlier) :
    ∃ verdicts, decisions sha256 (buildRules config knownStreams) earlier.length seen later =
        .ok verdicts ∧ verdicts.length = later.length ∧
      ∀ (i : ℕ) (row : Record R) (verdict : Verdict R), later[i]? = some row →
        verdicts[i]? = some verdict →
          VerdictFits config knownStreams (earlier ++ later.take i) row verdict := by
  induction later generalizing earlier seen with
  | nil => exact ⟨[], rfl, rfl, fun i row verdict h ↦ absurd h (by simp)⟩
  | cons row later ih =>
    have hrow : row ∈ rows := by rw [hsplit]; exact List.mem_append_right _ List.mem_cons_self
    have hearlier : earlier ⊆ rows := by rw [hsplit]; exact List.subset_append_left _ _
    have hfits := expectedVerdict_fits sha256 config knownStreams hrows hsha hearlier hrow
    obtain ⟨verdicts, hdecisions, hlength, hall⟩ := ih (by rw [hsplit, List.append_assoc]; rfl)
      fun henabled ↦ (h henabled).seenAfter sha256 config knownStreams henabled row
    rw [List.length_append, List.length_singleton] at hdecisions
    refine ⟨expectedVerdict sha256 config knownStreams earlier row :: verdicts, ?_, ?_, ?_⟩
    · rw [decisions, evaluateRow_expected sha256 config knownStreams (hrows row hrow) h]
      dsimp only [bind, Except.bind]
      rw [hdecisions]
      rfl
    · rw [List.length_cons, List.length_cons, hlength]
    · intro i row' verdict hi hverdict
      cases i with
      | zero =>
        obtain rfl := Option.some.inj hi
        obtain rfl := Option.some.inj hverdict
        rw [List.take_zero, List.append_nil]
        exact hfits
      | succ i =>
        rw [List.getElem?_cons_succ] at hi hverdict
        have hlater := hall i row' verdict hi hverdict
        rwa [List.append_assoc] at hlater

/-! ## The run -/

/-- The run with the backend of the configuration. -/
theorem exists_clean (hconfig : validateConfig config = .ok ()) (maxDetailEntries : ℕ) :
    ∃ artifact run verdicts, writeJsonlRecords rows = some artifact ∧
      CleansAs config knownStreams sha256 rows verdicts run ∧
      clean sha256 config knownStreams maxDetailEntries artifact = .ok run ∧
      decisions sha256 (buildRules config knownStreams) 0 (.create config.duplicatePolicy.backend) rows =
        .ok verdicts := by
  obtain ⟨artifact, hartifact, hprocess⟩ :=
    exists_processRows sha256 fun row hrow ↦ (hrows row hrow).storable
  obtain ⟨s, hloop, hs⟩ := exists_foldlM_rowStep sha256 config knownStreams hrows hsha
    config.duplicatePolicy.backend maxDetailEntries
  obtain ⟨verdicts, hdecisions, hlength, hfits⟩ := exists_decisions sha256 config knownStreams hrows hsha
    (List.nil_append rows).symm
    fun _ ↦ holdsFirst_create sha256 config knownStreams config.duplicatePolicy.backend
  refine ⟨artifact, ⟨(determineStatus s.metrics config).1, (determineStatus s.metrics config).2,
    s.metrics, s.outFile, sha256 s.digest, s.sizeBytes⟩, verdicts, hartifact, ?_, ?_, hdecisions⟩
  · exact {
      length_verdicts := hlength
      fits := fun i row verdict hi hverdict ↦ by
        have h := hfits i row verdict hi hverdict
        rwa [List.nil_append] at h
      output := hs.output
      recorded := ⟨by rw [hs.digest], hs.size⟩
      input := hs.input
      retained_rows := hs.retained_rows
      accounted := hs.accounted }
  · rw [clean, hconfig, hprocess, hloop]
    rfl

end Stream

/-! ## What completed runs keep -/

section Completed

variable {R : Type} [FloatText R] [LawfulFloatText R] (sha256 : List Byte → Sha256Digest)

/-- **The invariant rule of the loop**: what holds before the first row and is kept by each row of the
file holds when a run is completed. -/
theorem exists_of_clean {config : CleaningConfig} {knownStreams : List Str} {rows : List (Record R)}
    (hrows : ∀ row ∈ rows, (recordValue row).Storable) {artifact : List Byte}
    (hartifact : writeJsonlRecords rows = some artifact) {maxDetailEntries : ℕ} {run : CleaningRun R}
    (hrun : clean sha256 config knownStreams maxDetailEntries artifact = .ok run)
    {I : List (Record R) → ProcessState R → Prop}
    (hinit : I [] (.init R config.duplicatePolicy.backend maxDetailEntries))
    (hstep : ∀ earlier, ∀ row ∈ rows, ∀ s s', I earlier s →
      rowStep sha256 (buildRules config knownStreams) s row = .ok s' → I (earlier ++ [row]) s') :
    ∃ s, I rows s ∧ run.metrics = s.metrics := by
  obtain ⟨artifact', hartifact', hprocess⟩ := exists_processRows sha256 hrows
  obtain rfl := Option.some.inj (hartifact'.symm.trans hartifact)
  obtain ⟨-, -, hrun⟩ := bind_eq_ok_iff.mp hrun
  obtain ⟨s, hloop, hrun⟩ := bind_eq_ok_iff.mp hrun
  cases hrun
  rw [hprocess] at hloop
  refine ⟨s, foldlM_invariant (I := I) (fun hsplit hI hs ↦ hstep _ _ ?_ _ _ hI hs) hinit hloop, rfl⟩
  rw [hsplit]
  exact List.mem_append_right _ List.mem_cons_self

end Completed

/-! ## The examples of the report -/

section Report

variable {R : Type}

theorem CleaningMetrics.Reportable.recordKept {m : CleaningMetrics R} (h : m.Reportable) {rowIndex : ℕ}
    {timestamp : Value R} (ht : IsReportable timestamp) (redactions : List RedactionRecord) :
    (m.recordKept rowIndex timestamp redactions).Reportable := by
  rw [CleaningMetrics.recordKept]
  dsimp only
  split_ifs
  · exact h
  · exact ⟨h.1, List.forall_mem_append.mpr ⟨h.2, List.forall_mem_singleton.mpr ht⟩⟩
  · exact h

theorem CleaningMetrics.Reportable.recordDropped {m : CleaningMetrics R} (h : m.Reportable)
    {rowIndex : ℕ} {timestamp : Value R} (ht : IsReportable timestamp) (reasons : List DropReason) :
    (m.recordDropped rowIndex timestamp reasons).Reportable := by
  rw [CleaningMetrics.recordDropped]
  dsimp only
  split_ifs
  · exact ⟨List.forall_mem_append.mpr ⟨h.1, List.forall_mem_singleton.mpr ht⟩, h.2⟩
  · exact h

variable [FloatText R] (sha256 : List Byte → Sha256Digest)

theorem reportable_rowStep {rules : List CleaningRule} {s s' : ProcessState R}
    (h : s.metrics.Reportable) {row : Record R}
    (ht : IsReportable (row.get (Str.ofString "timestamp")))
    (hstep : rowStep sha256 rules s row = .ok s') : s'.metrics.Reportable := by
  obtain ⟨⟨seen, verdict⟩, -, hrecord⟩ := bind_eq_ok_iff.mp hstep
  cases verdict with
  | dropped reasons =>
    cases hrecord
    exact h.recordDropped ht reasons
  | kept cleanedRow redactions =>
    obtain ⟨line, -, hrecord⟩ := bind_eq_ok_iff.mp hrecord
    cases hrecord
    exact h.recordKept ht redactions

/-- **The report can be built** of a run over rows whose timestamps are strings, as synchronization
writes them, or null. -/
theorem reportable_of_clean [LawfulFloatText R] (config : CleaningConfig) (knownStreams : List Str)
    {rows : List (Record R)} (hrows : ∀ row ∈ rows, (recordValue row).Storable)
    (htimes : ∀ row ∈ rows, IsReportable (row.get (Str.ofString "timestamp"))) {artifact : List Byte}
    (hartifact : writeJsonlRecords rows = some artifact) {maxDetailEntries : ℕ} {run : CleaningRun R}
    (hrun : clean sha256 config knownStreams maxDetailEntries artifact = .ok run) :
    run.metrics.Reportable := by
  obtain ⟨s, hs, hmetrics⟩ := exists_of_clean sha256 hrows hartifact hrun
    (I := fun _ s ↦ s.metrics.Reportable) ⟨List.forall_mem_nil _, List.forall_mem_nil _⟩
    fun _ row hrow s s' hs hstep ↦ reportable_rowStep sha256 hs (htimes row hrow) hstep
  rwa [hmetrics]

end Report

/-! ## Lone surrogates -/

section Surrogates

variable {R : Type} [FloatText R] (sha256 : List Byte → Sha256Digest) (config : CleaningConfig)
  (knownStreams : List Str)

theorem encodable_of_encodeUtf8 {text : Str} {bytes : List Byte} (h : encodeUtf8 text = .ok bytes) :
    Utf8.Encodable text := by
  rw [← Utf8.isSome_encode_iff, Option.isSome_iff_ne_none]
  intro hnone
  rw [encodeUtf8, hnone] at h
  cases h

/-- What has to be encoded for a row that no coverage rule rejects: the content that is hashed, where
duplicates are looked for, and otherwise the redacted row. -/
def encodedFirst (row : Record R) : Value R :=
  if config.duplicatePolicy.enabled then rowContent row else redactedRow config row

/-- **One row**: if the loop body does not raise, what it has to encode can be encoded. -/
theorem encodable_of_rowStep {row : Record R} (hrow : (recordValue row).Storable)
    (hpasses : ¬Rejected config knownStreams row) {s s' : ProcessState R}
    (h : rowStep sha256 (buildRules config knownStreams) s row = .ok s') :
    ∀ text ∈ (encodedFirst config row).strings, Utf8.Encodable text := by
  have hcoverage : ¬coverageReasons config knownStreams row ≠ [] :=
    mt (coverageReasons_ne_nil_iff config knownStreams row).mp hpasses
  obtain ⟨⟨seen, verdict⟩, heval, hrecord⟩ := bind_eq_ok_iff.mp h
  rw [evaluateRow_coverage, if_neg hcoverage] at heval
  rw [encodedFirst]
  split
  · next henabled =>
    rw [if_pos henabled, List.singleton_append, evaluateRules, CleaningRule.evaluate,
      duplicateRowOutcome, canonicalRowKey] at heval
    obtain ⟨_, hkey, -⟩ := bind_eq_ok_iff.mp heval
    obtain ⟨key, hkey, -⟩ := bind_eq_ok_iff.mp hkey
    obtain ⟨bytes, hbytes, -⟩ := bind_eq_ok_iff.mp hkey
    exact encodable_of_dumps rfl (encodable_of_encodeUtf8 hbytes)
  · next hdisabled =>
    rw [if_neg hdisabled, List.nil_append, evaluateRules_privacy sha256 config hrow] at heval
    cases heval
    obtain ⟨line, hline, -⟩ := bind_eq_ok_iff.mp hrecord
    have hencodable := encodable_of_encodeUtf8 hline
    exact encodable_of_dumps rfl fun c hc ↦ hencodable c (List.mem_append_left _ hc)

variable [LawfulFloatText R]

/-- **A lone surrogate makes the run raise**, if it is in a row that no coverage rule rejects: in the
content that is hashed, or where duplicates are not looked for in what is written. -/
theorem clean_raises_of_surrogate {rows : List (Record R)}
    (hrows : ∀ row ∈ rows, (recordValue row).Storable) {row : Record R} (hrow : row ∈ rows)
    (hpasses : ¬Rejected config knownStreams row) {text : Str}
    (htext : text ∈ (encodedFirst config row).strings) (hsurrogate : ¬Utf8.Encodable text)
    (maxDetailEntries : ℕ) :
    ∃ artifact, writeJsonlRecords rows = some artifact ∧
      ∀ run : CleaningRun R, clean sha256 config knownStreams maxDetailEntries artifact ≠ .ok run := by
  obtain ⟨artifact, hartifact, -⟩ := exists_processRows sha256 hrows
  refine ⟨artifact, hartifact, fun run hrun ↦ hsurrogate ?_⟩
  -- along the loop every row that passes could be encoded
  obtain ⟨s, hall, -⟩ := exists_of_clean sha256 hrows hartifact hrun
    (I := fun earlier _ ↦ ∀ r ∈ earlier, ¬Rejected config knownStreams r →
      ∀ t ∈ (encodedFirst config r).strings, Utf8.Encodable t) (List.forall_mem_nil _)
    fun earlier r hr s s' hearlier hstep ↦ List.forall_mem_append.mpr ⟨hearlier,
      List.forall_mem_singleton.mpr fun hpasses ↦
        encodable_of_rowStep sha256 config knownStreams (hrows r hr) hpasses hstep⟩
  exact hall row hrow hpasses text htext

end Surrogates

section Exact

variable {R : Type} [FloatText R] [LawfulFloatText R]

/-- **Cleaning equals the reference pipeline.** For every stream of rows that can be written, every
accepted configuration and either backend, the run and its decisions are those of the reference. -/
theorem cleaning_exact (sha256 : List Byte → Sha256Digest) {config : CleaningConfig}
    (hconfig : validateConfig config = .ok ()) (knownStreams : List Str) {rows : List (Record R)}
    (hrows : ∀ row ∈ rows, Writable row) (hsha : CollisionFree sha256 rows) (maxDetailEntries : ℕ) :
    ∃ artifact run verdicts, writeJsonlRecords rows = some artifact ∧
      CleansAs config knownStreams sha256 rows verdicts run ∧
      ∀ backend : Backend,
        clean sha256 (config.withBackend backend) knownStreams maxDetailEntries artifact = .ok run ∧
        decisions sha256 (buildRules (config.withBackend backend) knownStreams) 0 (.create backend) rows =
          .ok verdicts := by
  obtain ⟨artifact, run, verdicts, hartifact, hcleans, hrun, hdecisions⟩ :=
    exists_clean sha256 config knownStreams hrows hsha hconfig maxDetailEntries
  refine ⟨artifact, run, verdicts, hartifact, hcleans, fun backend ↦ ⟨?_, ?_⟩⟩
  · rw [clean_withBackend]
    exact hrun
  · rw [← hdecisions]
    exact decisions_congr sha256 _ (SeenIndex.agree_create backend _) 0 rows

end Exact

/-! ### Three rows -/

/-- A row with one stream. -/
def imuRow (timestamp : String) (payload : Value BitFloat) : Record BitFloat where
  items := [(Str.ofString "timestamp", .str (Str.ofString timestamp)),
    (Str.ofString "streams", .dict [(Str.ofString "imu", payload)])]
  nodup := show [Str.ofString "timestamp", Str.ofString "streams"].Nodup by decide

theorem writable_imuRow (timestamp : String) {payload : Value BitFloat} (hpayload : payload.Storable)
    (hstrings : ∀ s ∈ payload.strings, Utf8.Encodable s) : Writable (imuRow timestamp payload) where
  storable := by
    have hpaired : ∀ s : String, WellPaired (Str.ofString s) :=
      fun s ↦ wellPaired_of_forall (Utf8.encodable_ofString s)
    exact ⟨(imuRow timestamp payload).nodup, hpaired _, hpaired _, hpaired _,
      ⟨List.nodup_singleton _, hpaired _, hpayload, trivial⟩, trivial⟩
  encodable := by
    have hencodable := Utf8.encodable_ofString
    simp only [imuRow, Value.strings, stringsFields, List.mem_cons, List.mem_append,
      List.not_mem_nil, or_false]
    rintro s (rfl | rfl | rfl | rfl | hs)
    · exact hencodable _
    · exact hencodable _
    · exact hencodable _
    · exact hencodable _
    · exact hstrings s hs

/-- A row, the same row again, and one without a match. -/
def observedRows : List (Record BitFloat) :=
  [imuRow "2024-01-01T00:00:00Z" (.dict [(Str.ofString "ax", .float .one)]),
    imuRow "2024-01-01T00:00:00Z" (.dict [(Str.ofString "ax", .float .one)]),
    imuRow "2024-01-01T00:00:01Z" .none]

theorem writable_of_mem_observedRows : ∀ row ∈ observedRows, Writable row := by
  have hreading : (Value.dict [(Str.ofString "ax", Value.float BitFloat.one)]).Storable ∧
      ∀ s ∈ (Value.dict [(Str.ofString "ax", Value.float BitFloat.one)]).strings,
        Utf8.Encodable s := by
    refine ⟨⟨List.nodup_singleton _, wellPaired_of_forall (Utf8.encodable_ofString "ax"), trivial,
      trivial⟩, fun s hs ↦ ?_⟩
    obtain rfl := List.mem_singleton.mp hs
    exact Utf8.encodable_ofString "ax"
  rw [observedRows]
  simp only [List.forall_mem_cons, List.not_mem_nil, false_implies, implies_true, and_true]
  exact ⟨writable_imuRow _ hreading.1 hreading.2, writable_imuRow _ hreading.1 hreading.2,
    writable_imuRow _ trivial fun s hs ↦ absurd hs List.not_mem_nil⟩

/-- The stream is required, and one of its fields is redacted. -/
def imuConfig : CleaningConfig where
  requiredStreams := [Str.ofString "imu"]
  privacy := ⟨[Str.ofString "streams.imu.ax"]⟩

/-- SHA-256 of the contents of these rows, and of the output of the run. -/
def observedSha256 (bytes : List Byte) : Sha256Digest :=
  if bytes = contentBytes (imuRow "2024-01-01T00:00:00Z" (.dict [(Str.ofString "ax", .float .one)])) then
    digestOfHex "c215cc4e302baec1ebfb8f8ea8aa52767462d4ba1f29a865d8d954a22e4b15a2"
  else if bytes = contentBytes (imuRow "2024-01-01T00:00:01Z" .none) then
    digestOfHex "40e853839cf09cc073658b5d604d35e48a39f965ad49368b44be968f57581dcd"
  else digestOfHex "ae82bd6c0a708f145934de4592bbaa1dda0c9203894242cb5e4d46604a63cc52"

theorem collisionFree_observedRows : CollisionFree observedSha256 observedRows := by
  unfold CollisionFree
  decide +kernel

theorem cleaning_exact_observedRows :
    ∃ artifact run verdicts, writeJsonlRecords observedRows = some artifact ∧
      CleansAs imuConfig [Str.ofString "imu"] observedSha256 observedRows verdicts run ∧
      ∀ backend : Backend,
        clean observedSha256 (imuConfig.withBackend backend) [Str.ofString "imu"] 100 artifact =
          .ok run ∧
        decisions observedSha256
          (buildRules (imuConfig.withBackend backend) [Str.ofString "imu"]) 0 (.create backend)
            observedRows = .ok verdicts :=
  cleaning_exact observedSha256 (by decide +kernel) [Str.ofString "imu"]
    writable_of_mem_observedRows collisionFree_observedRows 100

/-- Duplicates are not looked for. -/
def keepingConfig : CleaningConfig where
  duplicatePolicy := ⟨false, .memory⟩

/-- **Without duplicate detection** a row that repeats an earlier one is kept. -/
theorem repeated_row_kept : validateConfig keepingConfig = .ok () ∧
    Repeats keepingConfig [Str.ofString "imu"] (observedRows.take 1)
      (imuRow "2024-01-01T00:00:00Z" (.dict [(Str.ofString "ax", .float .one)])) 0 ∧
    ((writeJsonlRecords observedRows).map fun artifact ↦
      (clean (R := BitFloat) observedSha256 keepingConfig [Str.ofString "imu"] 100 artifact).map fun run ↦
        (run.metrics.inputRows, run.metrics.retainedRows, run.metrics.droppedRows)) =
      some (.ok (3, 3, 0)) := by
  refine ⟨by decide +kernel, ⟨_, rfl, ?_, rfl⟩, by decide +kernel⟩
  rw [← coverageReasons_ne_nil_iff]
  decide +kernel

end Cleaning

end ForgeData
