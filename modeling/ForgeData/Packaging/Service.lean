import ForgeData.Packaging.Leakage
import ForgeData.Packaging.Profile

/-!
# The packaging run

`_run_packaging` reads the transformed file twice. The first pass keeps an identity record of every
sample, groups the records, assigns whole groups to splits, and audits the result. The second pass
re-reads the lines and writes each to the file of its split, finding the assignment by the sample's
index.

A transformed file is a list of lines, of which blank ones are skipped by both passes. Serialization
and Parquet export are parameters.
-/

namespace ForgeData

open Python

inductive PackageStatus where
  | completed
  | rejected
  deriving DecidableEq, Repr

inductive PackagingRejectionReason where
  | emptySourceDataset
  | insufficientGroupsForSplit
  | emptyRequestedSplit
  deriving DecidableEq, Repr

structure SplitStats (R : Type) where
  samples : ℕ
  groups : ℕ
  sampleRatio : R

structure SplitManifestEntry where
  samples : ℕ
  sha256 : Sha256Digest
  sizeBytes : ℕ
  artifactUri : String

/-- One line of `split_index.jsonl`. -/
structure SplitIndexRecord where
  sampleId : String
  groupId : String
  split : Split
  sourceRowStart : Option ℤ
  sourceRowEnd : Option ℤ
  deriving DecidableEq, Repr

/-- What a packaging run takes from the rest of the system. -/
structure PackagingEnv (π : Type) where
  sha256 : String → Sha256Digest
  /-- One output line of a sample, newline included. The transformed artifact, whose digest has been
  checked, was written by the same function, so it does not raise on what is read from it. -/
  serializeSample : Sample π → String
  /-- One line of the split index, newline included. -/
  serializeIndex : SplitIndexRecord → String
  artifactUri : String → String
  /-- The digest and size of the Parquet file exported from a JSONL text, by an installation that has
  the optional library. -/
  exportParquet : String → Sha256Digest × ℕ

/-- The result object of a packaging run. -/
structure PackagingResult (R : Type) where
  status : PackageStatus
  sourceSamples : ℕ
  packagedSamples : ℕ
  groupCount : ℕ
  requestedRatios : Split → R
  splitStats : Split → SplitStats R
  leakageChecks : LeakageCheckResult
  rejectionReasons : List PackagingRejectionReason
  splitManifestEntries : Split → SplitManifestEntry
  splitIndexSha256 : Sha256Digest
  splitIndexSizeBytes : ℕ
  parquetEntries : Option (Split → SplitManifestEntry)

/-- The files a packaging run writes to its staging directory, together with what is kept beside
them while they are written: the bytes each hasher has been fed, and the sizes counted so far. -/
structure StagedSplits (π : Type) where
  files : Split → List (Sample π)
  splitIndex : List SplitIndexRecord
  digests : Split → String
  sizes : Split → ℕ
  splitIndexDigest : String
  splitIndexSize : ℕ

/-- The files before anything has been written. -/
def StagedSplits.init (π : Type) : StagedSplits π :=
  ⟨fun _ ↦ [], [], fun _ ↦ "", fun _ ↦ 0, "", 0⟩

section

variable {R π : Type} [PyFloat R]

/-! ## First pass -/

/-- One pass through the loop body of `_read_sample_records`; a blank line is skipped. -/
def readStep (records : List SampleRecord) (line : Option (Sample π)) :
    Except PackagingError (List SampleRecord) :=
  match line with
  | none => .ok records
  | some sample =>
    match sample.sampleId with
    | none => .error (.missingSampleId s!"Sample at index {records.length} is missing 'sample_id'")
    | some sampleId =>
      if sampleId = "" then
        .error (.missingSampleId s!"Sample at index {records.length} is missing 'sample_id'")
      else if sampleId ∈ records.map SampleRecord.sampleId then
        .error (.duplicateSampleId
          s!"Duplicate sample_id '{sampleId}' at index {records.length}")
      else
        .ok (records ++ [⟨records.length, sampleId, sample.sourceRowStart, sample.sourceRowEnd⟩])

def readSampleRecords (lines : List (Option (Sample π))) :
    Except PackagingError (List SampleRecord) :=
  lines.foldlM readStep []

/-- The group ids in order of first appearance, and the number of samples in each group. -/
def countGroups (grouped : List (SampleRecord × String)) : List String × Dict String ℕ :=
  grouped.foldl
    (fun s p ↦ (addToSet p.2 s.1, s.2.set p.2 (s.2.getD p.2 0 + 1))) ([], .empty)

/-- Pass over the grouped records: `index_to_assignment`. -/
def indexAssignments (groupToSplit : Dict String Split) (grouped : List (SampleRecord × String)) :
    Except PackagingError (Dict ℕ Assignment) :=
  grouped.foldlM (fun d p ↦
    match groupToSplit.get? p.2 with
    | none => .error .keyError
    | some split => .ok (d.set p.1.index (p.1.sampleId, p.2, split))) .empty

/-- The ranges handed to the audit. Grouping by source overlap has already refused a sample without
a range, and every group has a split, so nothing is left out. -/
def overlapRanges (groupToSplit : Dict String Split) (grouped : List (SampleRecord × String)) :
    List (ℤ × ℤ × Split) :=
  grouped.filterMap fun p ↦
    match p.1.sourceRowStart, p.1.sourceRowEnd, groupToSplit.get? p.2 with
    | some start, some stop, some split => some (start, stop, split)
    | _, _, _ => none

/-! ## Second pass -/

/-- The loop body of `_write_splits` for the sample at `index`. -/
def writeStep (env : PackagingEnv π) (indexToAssignment : Dict ℕ Assignment)
    (staged : StagedSplits π) (p : Sample π × ℕ) : Except PackagingError (StagedSplits π) :=
  match indexToAssignment.get? p.2 with
  | none => .error .keyError
  | some (sampleId, groupId, split) =>
    let line := env.serializeSample p.1
    let indexRecord : SplitIndexRecord :=
      ⟨sampleId, groupId, split, p.1.sourceRowStart, p.1.sourceRowEnd⟩
    let indexLine := env.serializeIndex indexRecord
    .ok {
      files := Function.update staged.files split (staged.files split ++ [p.1])
      splitIndex := staged.splitIndex ++ [indexRecord]
      digests := Function.update staged.digests split (staged.digests split ++ line)
      sizes := Function.update staged.sizes split (staged.sizes split + line.utf8ByteSize)
      splitIndexDigest := staged.splitIndexDigest ++ indexLine
      splitIndexSize := staged.splitIndexSize + indexLine.utf8ByteSize }

def writeSplits (env : PackagingEnv π) (indexToAssignment : Dict ℕ Assignment)
    (lines : List (Option (Sample π))) : Except PackagingError (StagedSplits π) :=
  ((lines.filterMap id).zipIdx).foldlM (writeStep env indexToAssignment) (.init π)

/-- The text of a split file. -/
def StagedSplits.text (env : PackagingEnv π) (staged : StagedSplits π) (split : Split) : String :=
  String.join ((staged.files split).map env.serializeSample)

/-- The text of the split index. -/
def StagedSplits.indexText (env : PackagingEnv π) (staged : StagedSplits π) : String :=
  String.join (staged.splitIndex.map env.serializeIndex)

def splitEntry (env : PackagingEnv π) (staged : StagedSplits π)
    (indexToAssignment : Dict ℕ Assignment) (split : Split) : SplitManifestEntry where
  samples := indexToAssignment.values.countP (·.2.2 = split)
  sha256 := env.sha256 (staged.digests split)
  sizeBytes := staged.sizes split
  artifactUri := env.artifactUri s!"{split.name}.jsonl"

/-- `_run_optional_exports`. -/
def optionalExports (env : PackagingEnv π) (exports : List String) (staged : StagedSplits π)
    (entries : Split → SplitManifestEntry) : Option (Split → SplitManifestEntry) :=
  if "parquet" ∈ exports then
    some fun split ↦
      let file := env.exportParquet (staged.text env split)
      ⟨(entries split).samples, file.1, file.2,
        env.artifactUri s!"optional/{split.name}.parquet"⟩
  else none

/-! ## The run -/

/-- `_finalize_empty_result`: a source without samples is committed as a rejected package with
empty files. -/
def finalizeEmptyResult (env : PackagingEnv π) (config : PackagingConfig R) :
    PackagingResult R × StagedSplits π :=
  let staged : StagedSplits π := .init π
  let entries := splitEntry env staged .empty
  ({ status := .rejected
     sourceSamples := 0
     packagedSamples := 0
     groupCount := 0
     requestedRatios := config.split.ratio
     splitStats := fun _ ↦ ⟨0, 0, PyFloat.ofInt 0⟩
     leakageChecks := ⟨0, 0, 0, true⟩
     rejectionReasons := [.emptySourceDataset]
     splitManifestEntries := entries
     splitIndexSha256 := env.sha256 ""
     splitIndexSizeBytes := 0
     parquetEntries := optionalExports env config.exports staged entries }, staged)

/-- The groups of the configured mode; `validate_config` has rejected any other. -/
def assignGroups (env : PackagingEnv π) (mode transformedSha256 : String)
    (sessionIds : List String) (records : List SampleRecord) :
    Except PackagingError (List (SampleRecord × String)) :=
  if mode = "source_overlap" then
    assignSourceOverlapGroups env.sha256 transformedSha256 records
  else if mode = "session" then
    assignSessionGroups env.sha256 transformedSha256 records sessionIds
  else .error (.missingGroupMetadata s!"Unsupported grouping mode '{mode}'")

def rejectionReasons (config : SplitConfig R) (groupCount : ℕ) (sampleCount : Split → ℕ) :
    List PackagingRejectionReason :=
  let nonzeroSplits := Split.all.filter fun split ↦ PyFloat.ofInt 0 < config.ratio split
  (if groupCount < nonzeroSplits.length then [.insufficientGroupsForSplit] else []) ++
    (if nonzeroSplits.any (sampleCount · = 0) then [.emptyRequestedSplit] else [])

/-- The run over a source with samples. -/
def packageRecords (env : PackagingEnv π) (profile : PackagingProfile) (config : PackagingConfig R)
    (transformedSha256 : String) (sessionIds : List String) (lines : List (Option (Sample π)))
    (records : List SampleRecord) : Except PackagingError (PackagingResult R × StagedSplits π) := do
  let grouped ← assignGroups env config.groupingMode transformedSha256 sessionIds records
  let groups := countGroups grouped
  let groupToSplit ← assignSplits env.sha256 config.split profile.profileName
    profile.profileVersion groups.1 groups.2
  let indexToAssignment ← indexAssignments groupToSplit grouped
  let sampleCount : Split → ℕ := fun split ↦
    grouped.countP fun p ↦ groupToSplit.get? p.2 = some split
  let groupCount : Split → ℕ := fun split ↦ groupToSplit.values.count split
  let reasons := rejectionReasons config.split groups.1.length sampleCount
  let ranges :=
    if config.groupingMode = "source_overlap" then overlapRanges groupToSplit grouped else []
  let leakageChecks ← runLeakageChecks
    ((indexToAssignment.items.insertionSort (·.1 ≤ ·.1)).map Prod.snd) records.length ranges
  let staged ← writeSplits env indexToAssignment lines
  let entries := splitEntry env staged indexToAssignment
  return ({
    status := if reasons = [] then .completed else .rejected
    sourceSamples := records.length
    packagedSamples := (Split.all.map sampleCount).sum
    groupCount := groups.1.length
    requestedRatios := config.split.ratio
    splitStats := fun split ↦ ⟨sampleCount split, groupCount split,
      PyFloat.ofInt (sampleCount split) / PyFloat.ofInt records.length⟩
    leakageChecks := leakageChecks
    rejectionReasons := reasons
    splitManifestEntries := entries
    splitIndexSha256 := env.sha256 staged.splitIndexDigest
    splitIndexSizeBytes := staged.splitIndexSize
    parquetEntries := optionalExports env config.exports staged entries }, staged)

/-- `_run_packaging`, on the lines of the transformed file. -/
def runPackaging (env : PackagingEnv π) (profile : PackagingProfile) (config : PackagingConfig R)
    (transformedSha256 : String) (sessionIds : List String) (lines : List (Option (Sample π))) :
    Except PackagingError (PackagingResult R × StagedSplits π) := do
  let records ← readSampleRecords lines
  if records = [] then return finalizeEmptyResult env config
  else packageRecords env profile config transformedSha256 sessionIds lines records

end

end ForgeData
