import ForgeData.Python.Digest
import ForgeData.Python.JsonTexts
import ForgeData.Synchronization.Alignment
import ForgeData.Synchronization.LoadedStreams

/-!
# The synchronization run

The streams of a request are read, corrected and aligned against the timeline of the reference mode;
every row is counted and written. The artifact of a stream is read by `iter_typed_records`, which yields
records that do not go backward and whose numeric fields are floats or null; both are fields of the type
of streams. Reading it twice, as the fixed-rate mode does, gives the same records. The strategies are
those that the registry has returned for the requested methods. The run is over any serialization of
rows; that of the code is `jsonEnv`, over any hash.
-/

namespace ForgeData

namespace Synchronization

open Python

/-- `ReferenceConfig`, after its validation. -/
inductive ReferenceConfig where
  | stream (name : Str)
  | fixedRate (frequencyHz : ℚ)

/-- What a run takes from its request and its settings. -/
structure SyncOptions where
  reference : ReferenceConfig
  strategies : Str → AlignmentStrategy
  corrections : Str → ClockCorrectionConfig
  toleranceMs : ℚ
  maxFrequencyHz : ℚ

/-- `round(tolerance_ms * 1000)`. -/
def SyncOptions.toleranceUs (options : SyncOptions) : ℤ := roundHalfEven (options.toleranceMs * 1000)

/-- What a run takes from the rest of the system. -/
structure SyncEnv (R : Type) where
  sha256 : List Byte → Sha256Digest
  /-- The line of a row, with the text of its timestamp. -/
  serializeRow : Str → SyncRow R → List Byte

/-! ## The line of a row -/

/-- The name of a method in a row. -/
def AlignmentMethod.text : AlignmentMethod → String
  | reference => "reference"
  | nearest => "nearest"
  | linear => "linear"

/-- The name of a reason in a row. -/
def UnmatchedReason.text : UnmatchedReason → String
  | noData => "NO_DATA"
  | noExtrapolation => "NO_EXTRAPOLATION"
  | outsideTolerance => "OUTSIDE_TOLERANCE"

/-- An entry of `alignment_payload`; the argument is the float of a number of milliseconds. -/
def AlignmentResult.toValue {R : Type} (floatOf : ℚ → R) (result : AlignmentResult) : Value R :=
  .dict ([(Str.ofString "matched", .bool result.matched),
    (Str.ofString "method", .str (Str.ofString result.method.text))] ++
      if result.matched then
        [(Str.ofString "delta_ms", result.deltaMs.elim .none fun deltaMs ↦ .float (floatOf deltaMs))]
      else
        [(Str.ofString "reason", result.reason.elim .none fun reason ↦ .str (Str.ofString reason.text))])

/-- `row` of `_write_rows`. -/
def SyncRow.toValue {R : Type} (floatOf : ℚ → R) (timestamp : Str) (row : SyncRow R) : Value R :=
  .dict [(Str.ofString "timestamp", .str timestamp),
    (Str.ofString "streams",
      .dict (row.entries.map fun entry ↦ (entry.name, entry.record.elim .none .dict))),
    (Str.ofString "alignment",
      .dict (row.entries.map fun entry ↦ (entry.name, entry.result.toValue floatOf)))]

section Lines

variable {R : Type} [FloatText R]

/-- `json.dumps(row) + "\n"`. -/
def rowLine (floatOf : ℚ → R) (timestamp : Str) (row : SyncRow R) : Str :=
  dumps .default (row.toValue floatOf timestamp) ++ [CodePoint.ofChar '\n']

/-- What a run takes from the rest of the system: the hash, and the line as UTF-8. -/
def jsonEnv (sha256 : List Byte → Sha256Digest) (floatOf : ℚ → R) : SyncEnv R where
  sha256 := sha256
  serializeRow timestamp row := (Utf8.encode (rowLine floatOf timestamp row)).getD []

/-- **Writing a row does not raise**: its text is ASCII, so the bytes are those of the whole line. -/
theorem encode_rowLine [LawfulFloatText R] (sha256 : List Byte → Sha256Digest) (floatOf : ℚ → R)
    (timestamp : Str) (row : SyncRow R) :
    Utf8.encode (rowLine floatOf timestamp row) =
      some ((jsonEnv sha256 floatOf).serializeRow timestamp row) := by
  have hencodable : Utf8.Encodable (rowLine floatOf timestamp row) := by
    intro c hc
    rcases List.mem_append.mp hc with hc | hc
    · exact encodable_encode_ascii rfl 0 _ c hc
    · obtain rfl := List.mem_singleton.mp hc
      decide
  obtain ⟨bytes, hbytes⟩ := Option.isSome_iff_exists.mp ((Utf8.isSome_encode_iff _).mpr hencodable)
  have hline : (jsonEnv sha256 floatOf).serializeRow timestamp row =
      (Utf8.encode (rowLine floatOf timestamp row)).getD [] := rfl
  rw [hline, hbytes]
  rfl

end Lines

/-- The result of a run: the artifact, and what the manifest records of it. -/
structure SyncRun where
  rowsWritten : ℕ
  artifact : List Byte
  synchronizedSha256 : Sha256Digest
  synchronizedSizeBytes : ℕ
  metrics : Dict Str StreamMetrics

section

variable {R : Type}

/-- The corrected records of a stream. -/
def SyncOptions.corrected (options : SyncOptions) (name : Str) (loaded : LoadedStream R) :
    List (TypedRecord R) :=
  applyStreamCorrection loaded.records (options.corrections name)

/-- The check of the clock corrections, for the first stream that fails it. -/
def checkCorrections (options : SyncOptions) (names : List Str) : Except SynchronizationError Unit :=
  match names.find? fun name ↦ (options.corrections name).scale ≤ 0 with
  | some name => .error (.clockCorrection name (options.corrections name).driftPpm
      (options.corrections name).scale)
  | none => .ok ()

/-- The runtime of a stream with a cursor over its corrected records. -/
def alignedRuntime (options : SyncOptions) (p : Str × LoadedStream R) : StreamRuntime R where
  name := p.1
  schema := p.2.schema
  strategy := options.strategies p.1
  cursor := some (.ofRecords (options.corrected p.1 p.2))
  toleranceUs := options.toleranceUs
  isReference := false

/-- The runtime of the reference stream. -/
def referenceRuntime (options : SyncOptions) (p : Str × LoadedStream R) : StreamRuntime R where
  name := p.1
  schema := p.2.schema
  strategy := options.strategies p.1
  cursor := none
  toleranceUs := options.toleranceUs
  isReference := true

/-- `_build_reference_stream_inputs`; the reference stream has been found among the names before. -/
def buildReferenceStreamInputs (options : SyncOptions) (loadedStreams : Dict Str (LoadedStream R))
    (referenceName : Str) : Except SynchronizationError (List (Target R) × List (StreamRuntime R)) :=
  match loadedStreams.get? referenceName with
  | none => .error (.referenceStreamNotFound referenceName)
  | some reference =>
    .ok ((options.corrected referenceName reference).map fun record ↦
        (record.epochUs, some record.fields),
      loadedStreams.items.map fun p ↦
        if p.1 = referenceName then referenceRuntime options p else alignedRuntime options p)

/-- The range of a stream, in the first pass of the fixed-rate mode. -/
def streamRange (options : SyncOptions) (p : Str × LoadedStream R) :
    Except SynchronizationError (ℤ × ℤ) :=
  let corrected := options.corrected p.1 p.2
  match corrected.head?, corrected.getLast? with
  | some first, some last => .ok (first.epochUs, last.epochUs)
  | _, _ => .error (.conversion p.1)

/-- `_build_fixed_rate_inputs`. -/
def buildFixedRateInputs (options : SyncOptions) (loadedStreams : Dict Str (LoadedStream R))
    (frequencyHz : ℚ) : Except SynchronizationError (List (Target R) × List (StreamRuntime R)) := do
  let periodUs ← fixedRatePeriodUs frequencyHz options.maxFrequencyHz
  let ranges ← loadedStreams.items.mapM (streamRange options)
  let (startEpochUs, endEpochUs) ← intersectionInterval ranges
  return ((fixedRateTimeline startEpochUs endEpochUs periodUs).map (·, none),
    loadedStreams.items.map (alignedRuntime options))

/-- The targets and the streams of the reference mode. -/
def buildInputs (options : SyncOptions) (loadedStreams : Dict Str (LoadedStream R)) :
    Except SynchronizationError (List (Target R) × List (StreamRuntime R)) :=
  match options.reference with
  | .stream name => buildReferenceStreamInputs options loadedStreams name
  | .fixedRate frequencyHz => buildFixedRateInputs options loadedStreams frequencyHz

/-! ## Output -/

/-- What has been written and counted so far. -/
structure WriteState where
  rowsWritten : ℕ
  digest : List Byte
  sizeBytes : ℕ
  outFile : List Byte
  accumulators : Dict Str StreamMetricsAccumulator

/-- `metrics_accumulators[name].record(result)` for every stream of a row. -/
def recordRow (accumulators : Dict Str StreamMetricsAccumulator) (row : SyncRow R) :
    Dict Str StreamMetricsAccumulator :=
  row.entries.foldl (fun accs entry ↦ accs.modify entry.name (·.record entry.result)) accumulators

/-- The loop body of `_write_rows`. -/
def writeRow (env : SyncEnv R) (s : WriteState) (row : SyncRow R) :
    Except SynchronizationError WriteState :=
  let accumulators := recordRow s.accumulators row
  match formatEpochUs row.targetEpochUs with
  | .error e => .error (.timestamp e)
  | .ok timestamp =>
    let line := env.serializeRow timestamp row
    .ok ⟨s.rowsWritten + 1, s.digest ++ line, s.sizeBytes + line.length, s.outFile ++ line,
      accumulators⟩

/-- `_write_rows`: an exception of the rows comes after the rows that were yielded before it. -/
def writeRows (env : SyncEnv R) (rows : Gen SynchronizationError (SyncRow R))
    (accumulators : Dict Str StreamMetricsAccumulator) : Except SynchronizationError WriteState := do
  let s ← rows.yields.foldlM (writeRow env) ⟨0, [], 0, [], accumulators⟩
  match rows.raised with
  | some e => .error e
  | none => .ok s

/-- The accumulators before the first row. -/
def initialAccumulators (loadedStreams : Dict Str (LoadedStream R)) :
    Dict Str StreamMetricsAccumulator :=
  .ofPairs (loadedStreams.items.map fun p ↦ (p.1, { sourceRecords := p.2.recordsWritten }))

variable [PyFloat R]

/-- `synchronize`, from the loaded streams on. -/
def synchronize (env : SyncEnv R) (options : SyncOptions) (loadedStreams : Dict Str (LoadedStream R)) : Except SynchronizationError SyncRun := do
  checkCorrections options loadedStreams.keys
  let (targets, streams) ← buildInputs options loadedStreams
  let written ← writeRows env (iterRows targets streams) (initialAccumulators loadedStreams)
  let metrics := loadedStreams.keys.filterMap fun name ↦
    (written.accumulators.get? name).map fun acc ↦ (name, acc.finalize written.rowsWritten)
  return ⟨written.rowsWritten, written.outFile, env.sha256 written.digest, written.sizeBytes,
    .ofPairs metrics⟩

end

end Synchronization

end ForgeData
