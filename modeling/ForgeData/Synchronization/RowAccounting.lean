import ForgeData.Synchronization.CanonicalTimestamps
import ForgeData.Synchronization.FixedRateWindow
import ForgeData.Synchronization.StreamAccounting

/-!
# The accounting of a run

In both modes the targets do not go backward, so every target has its row, and a row hands each stream
exactly one result. A run that completes therefore accounts for all rows in the metrics of every
stream; what can keep it from completing is a row whose time has no timestamp.
-/

namespace ForgeData

namespace Synchronization

open Python Normalization

variable {R : Type}

/-! ## The results of one row -/

/-- The step of `recordRow`. -/
def recordEntry (accs : Dict Str StreamMetricsAccumulator) (entry : StreamEntry R) :
    Dict Str StreamMetricsAccumulator :=
  accs.modify entry.name (·.record entry.result)

theorem get?_foldl_recordEntry_of_notMem {entries : List (StreamEntry R)} {name : Str}
    (h : name ∉ entries.map StreamEntry.name) (accs : Dict Str StreamMetricsAccumulator) :
    (entries.foldl recordEntry accs).get? name = accs.get? name := by
  induction entries generalizing accs with
  | nil => rfl
  | cons entry entries ih =>
    rw [List.map_cons, List.mem_cons, not_or] at h
    rw [List.foldl_cons, ih h.2, recordEntry, Dict.get?_modify, if_neg h.1]

theorem get?_foldl_recordEntry {entries : List (StreamEntry R)}
    (hnodup : (entries.map StreamEntry.name).Nodup) {entry : StreamEntry R} (hentry : entry ∈ entries)
    (accs : Dict Str StreamMetricsAccumulator) :
    (entries.foldl recordEntry accs).get? entry.name =
      (accs.get? entry.name).map (·.record entry.result) := by
  obtain ⟨before, after, rfl⟩ := List.append_of_mem hentry
  rw [List.map_append, List.map_cons, List.nodup_append, List.nodup_cons] at hnodup
  have hbefore : entry.name ∉ before.map StreamEntry.name := fun hmem ↦
    hnodup.2.2 _ hmem _ List.mem_cons_self rfl
  rw [List.foldl_append, List.foldl_cons, get?_foldl_recordEntry_of_notMem hnodup.2.1.1, recordEntry,
    Dict.get?_modify, if_pos rfl, get?_foldl_recordEntry_of_notMem hbefore]

section

variable {options : SyncOptions} {reference : Option Str}

theorem map_name {items : List (Str × LoadedStream R)} {target : Target R}
    {entries : List (StreamEntry R)}
    (h : List.Forall₂ (StreamEntry.IsFor options reference target) items entries) :
    entries.map StreamEntry.name = items.map Prod.fst := by
  induction h with
  | nil => rfl
  | cons hentry _ ih => rw [List.map_cons, List.map_cons, hentry.name, ih]

theorem exists_entry {items : List (Str × LoadedStream R)} {target : Target R}
    {entries : List (StreamEntry R)}
    (h : List.Forall₂ (StreamEntry.IsFor options reference target) items entries)
    {p : Str × LoadedStream R} (hp : p ∈ items) :
    ∃ entry ∈ entries, entry.IsFor options reference target p :=
  exists_of_forall₂_right h.flip hp

theorem exists_get?_recordRow {loadedStreams : Dict Str (LoadedStream R)} {target : Target R}
    {row : SyncRow R} (h : row.IsFor options reference loadedStreams.items target)
    {p : Str × LoadedStream R} (hp : p ∈ loadedStreams.items)
    (accs : Dict Str StreamMetricsAccumulator) :
    ∃ entry : StreamEntry R, entry.IsFor options reference target p ∧
      (recordRow accs row).get? p.1 = (accs.get? p.1).map (·.record entry.result) := by
  obtain ⟨entry, hentry, hfor⟩ := exists_entry h.entries hp
  have hnodup : (row.entries.map StreamEntry.name).Nodup := by
    rw [map_name h.entries]
    exact loadedStreams.nodup
  refine ⟨entry, hfor, ?_⟩
  rw [← hfor.name]
  exact get?_foldl_recordEntry hnodup hentry accs

/-! ## All rows -/

/-- The line of a row: the row with the timestamp of its target. -/
def IsLine (env : SyncEnv R) (row : SyncRow R) (line : List Byte) : Prop :=
  ∃ timestamp, formatEpochUs row.targetEpochUs = .ok timestamp ∧ line = env.serializeRow timestamp row

/-- **In the JSON of the code** the lines are the UTF-8 of the texts of the rows, one after the other. -/
theorem encode_rowLines [FloatText R] [LawfulFloatText R] {sha256 : List Byte → Sha256Digest}
    {floatOf : ℚ → R} {rows : List (SyncRow R)} {lines : List (List Byte)}
    (h : List.Forall₂ (IsLine (jsonEnv sha256 floatOf)) rows lines) :
    ∃ timestamps : List Str,
      List.Forall₂ (fun row timestamp ↦ formatEpochUs row.targetEpochUs = .ok timestamp) rows
        timestamps ∧
      Utf8.encode ((timestamps.zip rows).flatMap fun p ↦ rowLine floatOf p.1 p.2) =
        some lines.flatten := by
  induction h with
  | nil => exact ⟨[], .nil, rfl⟩
  | cons hline _ ih =>
    obtain ⟨timestamp, htimestamp, rfl⟩ := hline
    obtain ⟨timestamps, hall, hencode⟩ := ih
    refine ⟨timestamp :: timestamps, .cons htimestamp hall, ?_⟩
    rw [List.zip_cons_cons, List.flatMap_cons, Utf8.encode_append, hencode,
      encode_rowLine sha256 floatOf]
    rfl

/-- What has been written and counted after these rows. -/
structure WriteState.Counts (env : SyncEnv R) (options : SyncOptions) (reference : Option Str)
    (loadedStreams : Dict Str (LoadedStream R)) (rows : List (SyncRow R)) (s : WriteState) : Prop where
  rowsWritten : s.rowsWritten = rows.length
  outFile : ∃ lines, s.outFile = lines.flatten ∧ List.Forall₂ (IsLine env) rows lines
  accumulators : ∀ p ∈ loadedStreams.items, ∃ results : List AlignmentResult,
    s.accumulators.get? p.1 = some (results.foldl StreamMetricsAccumulator.record
      { sourceRecords := p.2.recordsWritten }) ∧
    results.length = rows.length ∧
    ∀ r ∈ results, ∃ (target : Target R) (entry : StreamEntry R),
      entry.IsFor options reference target p ∧ entry.result = r

theorem counts_start (env : SyncEnv R) (loadedStreams : Dict Str (LoadedStream R)) :
    WriteState.Counts env options reference loadedStreams []
      ⟨0, [], 0, [], initialAccumulators loadedStreams⟩ := by
  refine ⟨rfl, ⟨[], rfl, .nil⟩, fun p hp ↦ ⟨[], ?_, rfl, fun r hr ↦ absurd hr List.not_mem_nil⟩⟩
  refine Dict.get?_ofPairs ?_ (List.mem_map_of_mem hp)
  rw [List.map_map]
  exact loadedStreams.nodup

theorem WriteState.Counts.writeRow {loadedStreams : Dict Str (LoadedStream R)} {s s' : WriteState}
    {rows : List (SyncRow R)} {target : Target R} {row : SyncRow R} {env : SyncEnv R}
    (h : s.Counts env options reference loadedStreams rows)
    (hrow : row.IsFor options reference loadedStreams.items target)
    (hwrite : writeRow env s row = .ok s') :
    s'.Counts env options reference loadedStreams (rows ++ [row]) := by
  rw [Synchronization.writeRow] at hwrite
  dsimp only at hwrite
  split at hwrite
  · exact absurd hwrite nofun
  next timestamp htimestamp =>
  obtain rfl := Except.ok.inj hwrite
  obtain ⟨lines, hout, hlines⟩ := h.outFile
  refine ⟨by rw [List.length_append, ← h.rowsWritten]; rfl,
    ⟨lines ++ [env.serializeRow timestamp row], ?_, ?_⟩, fun p hp ↦ ?_⟩
  · rw [List.flatten_append, List.flatten_singleton, ← hout]
  · exact List.rel_append hlines (.cons ⟨timestamp, htimestamp, rfl⟩ .nil)
  obtain ⟨results, hget, hlength, hall⟩ := h.accumulators p hp
  obtain ⟨entry, hfor, hrecord⟩ := exists_get?_recordRow hrow hp s.accumulators
  refine ⟨results ++ [entry.result], ?_, by rw [List.length_append, List.length_append, hlength]; rfl,
    fun r hr ↦ ?_⟩
  · rw [hrecord, hget, List.foldl_append]
    rfl
  · rcases List.mem_append.mp hr with hr | hr
    · exact hall r hr
    · exact ⟨target, entry, hfor, (List.mem_singleton.mp hr).symm⟩

theorem exists_formatEpochUs_iff {e : ℤ} :
    (∃ text, formatEpochUs e = .ok text) ↔ Representable e := by
  constructor
  · rintro ⟨text, h⟩
    rw [formatEpochUs] at h
    split at h
    · cases h
    · next t ht =>
      rw [← Datetime.ofEpochUs?_eq_some_iff.mp ht]
      exact ⟨Datetime.minUs_le t, Datetime.epochUs_lt t⟩
  · intro h
    obtain ⟨t, -, hformat⟩ := formatEpochUs_of_representable h
    exact ⟨_, hformat⟩

theorem exists_writeRow_iff (env : SyncEnv R) (s : WriteState) {row : SyncRow R} :
    (∃ s', writeRow env s row = .ok s') ↔ Representable row.targetEpochUs := by
  rw [← exists_formatEpochUs_iff, writeRow]
  dsimp only
  cases formatEpochUs row.targetEpochUs with
  | error e => exact iff_of_false nofun nofun
  | ok timestamp => exact iff_of_true ⟨_, rfl⟩ ⟨_, rfl⟩

theorem exists_foldlM_writeRow_iff (env : SyncEnv R) (s : WriteState) {rows : List (SyncRow R)} :
    (∃ s', rows.foldlM (writeRow env) s = .ok s') ↔ ∀ row ∈ rows, Representable row.targetEpochUs := by
  induction rows generalizing s with
  | nil => exact iff_of_true ⟨s, rfl⟩ fun row h ↦ absurd h List.not_mem_nil
  | cons row rows ih =>
    rw [List.forall_mem_cons, ← exists_writeRow_iff env s]
    constructor
    · rintro ⟨s', h⟩
      rw [List.foldlM_cons, bind_eq_ok_iff] at h
      obtain ⟨s₁, hrow, hrest⟩ := h
      exact ⟨⟨s₁, hrow⟩, (ih s₁).mp ⟨s', hrest⟩⟩
    · rintro ⟨⟨s₁, hrow⟩, hrest⟩
      obtain ⟨s', hs'⟩ := (ih s₁).mpr hrest
      exact ⟨s', by rw [List.foldlM_cons, hrow]; exact hs'⟩

theorem counts_foldlM_writeRow {loadedStreams : Dict Str (LoadedStream R)} {env : SyncEnv R}
    {rows : List (SyncRow R)} {s : WriteState}
    (hrows : ∀ row ∈ rows, ∃ target, row.IsFor options reference loadedStreams.items target)
    (h : rows.foldlM (writeRow env) ⟨0, [], 0, [], initialAccumulators loadedStreams⟩ = .ok s) :
    s.Counts env options reference loadedStreams rows := by
  refine foldlM_invariant
    (I := fun pre (s : WriteState) ↦ s.Counts env options reference loadedStreams pre) ?_
    (counts_start env loadedStreams) h
  intro pre row post s s' hl hpre hwrite
  obtain ⟨target, hrow⟩ := hrows row (hl ▸ List.mem_append_right _ List.mem_cons_self)
  exact hpre.writeRow hrow hwrite

/-! ## The modes -/

/-- The reference stream of a mode that has one. -/
def ReferenceConfig.streamName : ReferenceConfig → Option Str
  | .stream name => some name
  | .fixedRate _ => none

theorem runs_referenceRuntime (options : SyncOptions) (items : List (Str × LoadedStream R))
    (referenceName : Str) :
    List.Forall₂ (fun p stream ↦ StreamRuntime.Runs options (some referenceName) [] p stream) items
      (items.map fun p ↦ if p.1 = referenceName then referenceRuntime options p
        else alignedRuntime options p) := by
  rw [List.forall₂_map_right_iff, List.forall₂_same]
  intro p _
  by_cases hp : p.1 = referenceName
  · rw [if_pos hp]
    exact ⟨rfl, rfl, rfl, iff_of_true rfl (congrArg some hp.symm),
      fun hne ↦ absurd (congrArg some hp.symm) hne⟩
  · rw [if_neg hp]
    refine ⟨rfl, rfl, rfl, ⟨nofun, fun h ↦ absurd (Option.some.inj h).symm hp⟩, fun _ ↦ ?_⟩
    exact ⟨_, rfl, covers_ofRecords _⟩

/-- The targets of either mode do not go backward, and the streams are before the first of them. -/
theorem targets_of_buildInputs {loadedStreams : Dict Str (LoadedStream R)} {targets : List (Target R)}
    {streams : List (StreamRuntime R)}
    (hscale : ∀ p ∈ loadedStreams.items, 0 < (options.corrections p.1).scale)
    (h : buildInputs options loadedStreams = .ok (targets, streams)) :
    Targets options.reference.streamName targets ∧
      List.Forall₂ (fun p stream ↦
        StreamRuntime.Runs options options.reference.streamName [] p stream)
        loadedStreams.items streams := by
  rw [buildInputs] at h
  split at h
  · next name hmode =>
    rw [hmode]
    rw [buildReferenceStreamInputs] at h
    split at h
    · exact absurd h nofun
    next reference hreference =>
    obtain ⟨rfl, rfl⟩ := Prod.mk.inj (Except.ok.inj h)
    have hsorted : Nondecreasing (options.corrected name reference) :=
      reference.nondecreasing.applyStreamCorrection
        (hscale _ (Dict.get?_eq_some_iff.mp hreference))
    refine ⟨⟨List.pairwise_map.mpr hsorted, fun _ target htarget ↦ ?_⟩,
      runs_referenceRuntime options loadedStreams.items name⟩
    obtain ⟨record, -, rfl⟩ := List.mem_map.mp htarget
    exact ⟨record.fields, rfl⟩
  · next frequencyHz hmode =>
    rw [hmode]
    rw [buildFixedRateInputs] at h
    obtain ⟨period, -, h⟩ := bind_eq_ok_iff.mp h
    obtain ⟨ranges, -, h⟩ := bind_eq_ok_iff.mp h
    obtain ⟨⟨start, stop⟩, -, h⟩ := bind_eq_ok_iff.mp h
    obtain ⟨rfl, rfl⟩ := Prod.mk.inj (Except.ok.inj h)
    have hsorted := pairwise_fixedRateTimeline start stop period
    exact ⟨⟨List.pairwise_map.mpr (hsorted.imp le_of_lt), fun hne ↦ absurd rfl hne⟩,
      runs_alignedRuntime options loadedStreams.items⟩

/-! ## The run -/

theorem checkCorrections_eq_ok {names : List Str}
    (h : ∀ name ∈ names, 0 < (options.corrections name).scale) :
    checkCorrections options names = .ok () := by
  have hfind : (names.find? fun name ↦ (options.corrections name).scale ≤ 0) = none := by
    refine List.find?_eq_none.mpr fun name hname hle ↦ ?_
    exact absurd (h name hname) (not_lt.mpr (of_decide_eq_true hle))
  rw [checkCorrections, hfind]

section Run

variable [PyFloat R] {loadedStreams : Dict Str (LoadedStream R)} {targets : List (Target R)}
  {streams : List (StreamRuntime R)} {rows : List (SyncRow R)} {env : SyncEnv R}

/-- A run, from its rows on. -/
theorem synchronize_eq (env : SyncEnv R)
    (hscale : ∀ p ∈ loadedStreams.items, 0 < (options.corrections p.1).scale)
    (hinputs : buildInputs options loadedStreams = .ok (targets, streams))
    (hrows : iterRows targets streams = ⟨rows, none⟩) :
    synchronize env options loadedStreams =
      (rows.foldlM (writeRow env) ⟨0, [], 0, [], initialAccumulators loadedStreams⟩).map fun written ↦
        ⟨written.rowsWritten, written.outFile, env.sha256 written.digest, written.sizeBytes,
          .ofPairs (loadedStreams.keys.filterMap fun name ↦
            (written.accumulators.get? name).map fun acc ↦
              (name, acc.finalize written.rowsWritten))⟩ := by
  have hcheck : checkCorrections options loadedStreams.keys = .ok () := by
    refine checkCorrections_eq_ok fun name hname ↦ ?_
    obtain ⟨p, hp, rfl⟩ := List.mem_map.mp hname
    exact hscale p hp
  rw [synchronize, hcheck, hinputs]
  dsimp only [bind, Except.bind]
  rw [writeRows, hrows]
  dsimp only [bind, Except.bind]
  cases rows.foldlM (writeRow env) ⟨0, [], 0, [], initialAccumulators loadedStreams⟩ with
  | error e => rfl
  | ok written => rfl

omit [PyFloat R] in
theorem get?_metrics {accumulators : Dict Str StreamMetricsAccumulator} {outputRows : ℕ}
    {name : Str} {acc : StreamMetricsAccumulator} (hname : name ∈ loadedStreams.keys)
    (h : accumulators.get? name = some acc) :
    (Dict.ofPairs (loadedStreams.keys.filterMap fun name ↦
      (accumulators.get? name).map fun acc ↦ (name, acc.finalize outputRows))).get? name =
        some (acc.finalize outputRows) := by
  refine Dict.get?_ofPairs ?_ ?_
  · rw [List.map_filterMap]
    refine loadedStreams.keys_nodup.filterMap fun a a' b hb hb' ↦ ?_
    simp only [Option.map_map, Option.mem_def, Option.map_eq_some_iff, Function.comp_apply] at hb hb'
    obtain ⟨-, -, rfl⟩ := hb
    obtain ⟨-, -, rfl⟩ := hb'
    rfl
  · exact List.mem_filterMap.mpr ⟨name, hname, by rw [h]; rfl⟩

omit [PyFloat R] in
/-- The metrics of a stream that has been counted add up. -/
theorem WriteState.Counts.exists_metrics {s : WriteState} {reference : Option Str}
    (h : s.Counts env options reference loadedStreams rows) {p : Str × LoadedStream R}
    (hp : p ∈ loadedStreams.items) :
    ∃ acc, s.accumulators.get? p.1 = some acc ∧ (acc.finalize s.rowsWritten).Accounted s.rowsWritten ∧
      (reference ≠ some p.1 → options.strategies p.1 = .linear →
        (acc.finalize s.rowsWritten).LinearlyAccounted s.rowsWritten) := by
  obtain ⟨results, hget, hlength, hall⟩ := h.accumulators p hp
  have haccounts : (results.foldl StreamMetricsAccumulator.record
      { sourceRecords := p.2.recordsWritten }).Accounts results := by
    refine StreamMetricsAccumulator.accounts_foldl _ fun r hr ↦ ?_
    obtain ⟨target, entry, hentry, rfl⟩ := hall r hr
    exact hentry.delta_nonneg
  rw [h.rowsWritten, ← hlength]
  refine ⟨_, hget, haccounts.finalize, fun hreference hlinear ↦ ?_⟩
  refine haccounts.finalize_linear fun r hr ↦ ?_
  obtain ⟨target, entry, hentry, rfl⟩ := hall r hr
  rw [hentry.method hreference, hlinear]
  rfl

end Run

end

/-- The row of a record of the reference stream: at its time, and with its fields. -/
def SyncRow.Carries (row : SyncRow R) (name : Str) (record : TypedRecord R) : Prop :=
  row.targetEpochUs = record.epochUs ∧ ∃ entry ∈ row.entries, entry.name = name ∧
    entry.record = some record.fields ∧ entry.result.matched = true ∧ entry.result.method = .reference

/-- **Synchronized rows are ordered and accounted for.** Corrections with positive scales keep the order
of every stream. Whatever targets the mode generates, each has its row, in order and at its time; with a
reference stream there is one row for each of its records, which the row carries. The run completes
exactly if all rows have a timestamp; then the artifact has a line for each row, and the metrics of every
stream add up to the number of rows. -/
theorem synchronized_rows_accounted [PyFloat R] (env : SyncEnv R) (options : SyncOptions)
    (loadedStreams : Dict Str (LoadedStream R)) (targets : List (Target R))
    (streams : List (StreamRuntime R))
    (hscale : ∀ p ∈ loadedStreams.items, 0 < (options.corrections p.1).scale)
    (hinputs : buildInputs options loadedStreams = .ok (targets, streams)) :
    (∀ p ∈ loadedStreams.items, Nondecreasing (options.corrected p.1 p.2)) ∧
    ∃ rows, iterRows targets streams = ⟨rows, none⟩ ∧
      rows.map SyncRow.targetEpochUs = targets.map Prod.fst ∧
      rows.Pairwise (fun r s ↦ r.targetEpochUs ≤ s.targetEpochUs) ∧
      (∀ name, options.reference = .stream name → ∃ reference, loadedStreams.get? name = some reference ∧
        List.Forall₂ (fun record row ↦ SyncRow.Carries row name record)
          (options.corrected name reference) rows) ∧
      ((∃ run, synchronize env options loadedStreams = .ok run) ↔
        ∀ row ∈ rows, Representable row.targetEpochUs) ∧
      ∀ run, synchronize env options loadedStreams = .ok run →
        run.rowsWritten = rows.length ∧
        (∃ lines, run.artifact = lines.flatten ∧ List.Forall₂ (IsLine env) rows lines) ∧
        ∀ p ∈ loadedStreams.items, ∃ metrics, run.metrics.get? p.1 = some metrics ∧
          metrics.Accounted run.rowsWritten ∧
          (options.reference.streamName ≠ some p.1 → options.strategies p.1 = .linear →
            metrics.LinearlyAccounted run.rowsWritten) := by
  obtain ⟨htargets, hruns⟩ := targets_of_buildInputs hscale hinputs
  obtain ⟨rows, hrows, hall⟩ := exists_iterRows hruns hscale htargets
    (fun t ht ↦ absurd ht List.not_mem_nil)
  have hmap := map_targetEpochUs hall
  have heq := synchronize_eq env hscale hinputs hrows
  refine ⟨fun p hp ↦ p.2.nondecreasing.applyStreamCorrection (hscale p hp), rows, hrows, hmap, ?_, ?_,
    ?_, ?_⟩
  · rw [← List.pairwise_map (f := SyncRow.targetEpochUs), hmap]
    exact List.pairwise_map.mpr htargets.nondecreasing
  -- with a reference stream the targets are its records, so rows and records go in step
  · intro name hmode
    rw [buildInputs, hmode] at hinputs
    dsimp only at hinputs
    rw [buildReferenceStreamInputs] at hinputs
    split at hinputs
    · exact absurd hinputs nofun
    next reference hreference =>
    obtain ⟨rfl, -⟩ := Prod.mk.inj (Except.ok.inj hinputs)
    rw [hmode, List.forall₂_map_left_iff] at hall
    refine ⟨reference, hreference, hall.imp fun record row hrow ↦ ⟨hrow.targetEpochUs, ?_⟩⟩
    obtain ⟨entry, hentry, hfor⟩ := exists_entry hrow.entries (Dict.get?_eq_some_iff.mp hreference)
    obtain ⟨hrecord, hresult⟩ := hfor.carries rfl
    exact ⟨entry, hentry, hfor.name, hrecord, by rw [hresult], by rw [hresult]⟩
  -- writing raises only at a row whose time has no timestamp
  · rw [← exists_foldlM_writeRow_iff env ⟨0, [], 0, [], initialAccumulators loadedStreams⟩, heq]
    cases rows.foldlM (writeRow env) ⟨0, [], 0, [], initialAccumulators loadedStreams⟩ with
    | error e => exact iff_of_false nofun nofun
    | ok written => exact iff_of_true ⟨_, rfl⟩ ⟨_, rfl⟩
  · intro run hrun
    rw [heq] at hrun
    cases hwritten : rows.foldlM (writeRow env) ⟨0, [], 0, [], initialAccumulators loadedStreams⟩ with
    | error e => rw [hwritten] at hrun; exact absurd hrun nofun
    | ok written =>
      rw [hwritten] at hrun
      obtain rfl := Except.ok.inj hrun
      -- the counters are the invariant of the fold over the rows
      have hcounts := counts_foldlM_writeRow (fun row hrow ↦
        (exists_of_forall₂_right hall hrow).imp fun _ h ↦ h.2) hwritten
      refine ⟨hcounts.rowsWritten, hcounts.outFile, fun p hp ↦ ?_⟩
      obtain ⟨acc, hget, haccounted, hlinear⟩ := hcounts.exists_metrics hp
      exact ⟨_, get?_metrics (List.mem_map_of_mem hp) hget, haccounted, hlinear⟩

/-- Empty lines, and a constant hash. -/
def blankLines : SyncEnv ℚ where
  sha256 := fun _ ↦ digestOfHex ""
  serializeRow := fun _ _ ↦ [10]

/-- The first stream gives the targets. -/
def tickReferenceOptions : SyncOptions :=
  { tickOptions with reference := .stream (Str.ofString "a") }

theorem synchronized_rows_accounted_ticks : ∃ targets streams rows,
    buildInputs tickReferenceOptions tickStreams = .ok (targets, streams) ∧
      iterRows targets streams = ⟨rows, none⟩ ∧
      rows.Pairwise (fun r s ↦ r.targetEpochUs ≤ s.targetEpochUs) ∧
      ((∃ run, synchronize blankLines tickReferenceOptions tickStreams = .ok run) ↔
        ∀ row ∈ rows, Representable row.targetEpochUs) := by
  obtain ⟨-, rows, hrows, -, hordered, -, hcompletes, -⟩ := synchronized_rows_accounted blankLines
    tickReferenceOptions tickStreams _ _ (by decide +kernel) rfl
  exact ⟨_, _, rows, rfl, hrows, hordered, hcompletes⟩

end Synchronization

end ForgeData
