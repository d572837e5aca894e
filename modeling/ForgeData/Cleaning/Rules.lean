import ForgeData.Normalization.WrittenRecords
import ForgeData.Python.Digest
import ForgeData.Python.JsonCanonical

/-!
# Cleaning rules

The rules of a cleaning policy and the evaluator that applies them to one row. A policy fixes the
order of its rules; the first rule that drops a row ends its evaluation. The duplicate rule is the
only one with a state, the index of the keys seen so far, which has two backends: a dictionary in
memory and a table in a temporary database.

A row is a JSON object. Its hash is taken over a byte string, and which hash it is plays no role, so
it is a parameter.
-/

namespace ForgeData

namespace Cleaning

open Python Normalization

/-! ## Configuration -/

/-- Where the duplicate rule keeps its index. -/
inductive Backend where
  | memory
  | sqlite
deriving DecidableEq, Repr

structure DuplicatePolicyConfig where
  enabled : Bool := true
  backend : Backend := .memory

structure PrivacyConfig where
  redactFields : List Str := []

structure CleaningConfig where
  requiredStreams : List Str := []
  minPresentStreams : Option ℤ := none
  dropIfAllOptionalStreamsMissing : Bool := false
  duplicatePolicy : DuplicatePolicyConfig := {}
  privacy : PrivacyConfig := {}
  minimumRetainedRows : Option ℤ := none

/-- The exceptions of a cleaning run. -/
inductive CleaningError where
  | invalidCleaningConfiguration (message : String)
  /-- `f"'{path}' is not a valid redaction field path"`. -/
  | invalidRedactionPath (path : Str)
  /-- `UnicodeDecodeError` of the artifact. -/
  | unicodeDecodeError
  /-- An exception of `json.loads` on a line. -/
  | json (e : JsonError)
  /-- `AttributeError`: a line that is no object has no `get`. -/
  | attributeError
  /-- `UnicodeEncodeError`: a text with a lone surrogate has no UTF-8 encoding. -/
  | unicodeEncodeError
deriving DecidableEq

/-! ## Vocabulary of rules -/

inductive RuleCode where
  | missingRequiredStream
  | insufficientModalityCoverage
  | allOptionalStreamsMissing
  | duplicateRow
  | fieldRedacted
deriving DecidableEq, Repr

structure DropReason where
  code : RuleCode
  stream : Option Str := none
  duplicateOfRowIndex : Option ℕ := none
deriving DecidableEq

structure RedactionRecord where
  code : RuleCode
  field : Str
deriving DecidableEq

structure RuleOutcome where
  dropReasons : List DropReason := []
  redactions : List RedactionRecord := []

def RuleOutcome.shouldDrop (outcome : RuleOutcome) : Bool := outcome.dropReasons ≠ []

/-! ## Coverage -/

section

variable {R : Type}

/-- `_is_present`. -/
def isPresent (row : Record R) (streamName : Str) : Bool :=
  match row.get (Str.ofString "streams") with
  | .dict streams => match streams.lookup streamName with
    | none | some .none => false
    | some _ => true
  | _ => false

/-- `RequiredStreamsRule.evaluate`. -/
def requiredStreamsOutcome (requiredStreams : List Str) (row : Record R) : RuleOutcome :=
  let missing := requiredStreams.filter fun name ↦ !isPresent row name
  { dropReasons := missing.map fun name ↦ { code := .missingRequiredStream, stream := some name } }

/-- `MinPresentStreamsRule.evaluate`. -/
def minPresentStreamsOutcome (minPresentStreams : ℤ) (knownStreams : List Str) (row : Record R) :
    RuleOutcome :=
  let presentCount := knownStreams.countP (isPresent row)
  if minPresentStreams ≤ presentCount then {}
  else { dropReasons := [{ code := .insufficientModalityCoverage }] }

/-- `AllOptionalMissingRule.evaluate`. -/
def allOptionalMissingOutcome (requiredStreams optionalStreams : List Str) (row : Record R) :
    RuleOutcome :=
  if optionalStreams = [] then {}
  else if !requiredStreams.all (isPresent row) then {}
  else if optionalStreams.all fun name ↦ !isPresent row name then
    { dropReasons := [{ code := .allOptionalStreamsMissing }] }
  else {}

/-! ## Dot paths -/

/-- `path.split(".")`. -/
def pathParts (path : Str) : List Str := path.splitOn (CodePoint.ofChar '.')

/-- `is_valid_field_path`. -/
def isValidFieldPath (path : Str) : Bool := path ≠ [] && (pathParts path).all (· ≠ [])

/-- `path_exists`, from a node on. -/
def pathExists : Value R → List Str → Bool
  | _, [] => true
  | .dict fields, part :: parts => match fields.lookup part with
    | none => false
    | some node => pathExists node parts
  | _, _ :: _ => false

/-- The assignment that `apply_redactions` makes for one path, if its last node can be reached. -/
def setNull : Value R → List Str → Value R
  | node, [] => node
  | .dict fields, part :: parts => match fields.lookup part with
    | none => .dict fields
    | some child =>
      .dict (Dict.setItems part (if parts = [] then .none else setNull child parts) fields)
  | node, _ :: _ => node

/-- `apply_redactions`. -/
def applyRedactions (row : Value R) (fields : List Str) : Value R :=
  fields.foldl (fun result path ↦ setNull result (pathParts path)) row

/-- `PrivacyRedactionRule.evaluate`. -/
def privacyRedactionOutcome (fields : List Str) (row : Record R) : RuleOutcome :=
  { redactions := (fields.filter fun path ↦ pathExists (recordValue row) (pathParts path)).map
      fun path ↦ ⟨.fieldRedacted, path⟩ }

/-! ## Duplicates -/

/-- The options of `canonical_json`. -/
def canonicalStyle : JsonStyle := ⟨false, 0, 0, none, true⟩

/-- What identifies a row: its timestamp and its streams. -/
def rowContent (row : Record R) : Value R :=
  .dict [(Str.ofString "timestamp", row.get (Str.ofString "timestamp")),
    (Str.ofString "streams", row.get (Str.ofString "streams"))]

/-- The seen-set of the duplicate rule, in the backend that holds it. -/
inductive SeenIndex where
  /-- `_InMemorySeenIndex`: a dictionary from keys to first indices. -/
  | memory (seen : Dict Sha256Digest ℕ)
  /-- `_SqliteSeenIndex`: the rows of the table `seen`, whose key is its primary key. -/
  | sqlite (rows : List (Sha256Digest × ℕ))

/-- The index that `DuplicateRowRule` begins with. -/
def SeenIndex.create : Backend → SeenIndex
  | .memory => .memory .empty
  | .sqlite => .sqlite []

/-- `first_seen_or_record`. The insertion into the table fails with `IntegrityError` if a row has the
key already; then the first index is selected. -/
def SeenIndex.firstSeenOrRecord (key : Sha256Digest) (rowIndex : ℕ) :
    SeenIndex → SeenIndex × Option ℕ
  | .memory seen => match seen.get? key with
    | some existing => (.memory seen, some existing)
    | none => (.memory (seen.set key rowIndex), none)
  | .sqlite rows =>
    if key ∈ rows.map Prod.fst then (.sqlite rows, (rows.find? (·.1 = key)).map Prod.snd)
    else (.sqlite (rows ++ [(key, rowIndex)]), none)

variable [FloatText R]

/-- `canonical_json`. -/
def canonicalJson (v : Value R) : Str := dumps canonicalStyle v

/-- `s.encode("utf-8")`. -/
def encodeUtf8 (s : Str) : Except CleaningError (List Byte) :=
  match Utf8.encode s with
  | some bytes => .ok bytes
  | none => .error .unicodeEncodeError

/-- `canonical_row_key`. -/
def canonicalRowKey (sha256 : List Byte → Sha256Digest) (row : Record R) :
    Except CleaningError Sha256Digest := do
  let bytes ← encodeUtf8 (canonicalJson (rowContent row))
  return sha256 bytes

/-- `DuplicateRowRule.evaluate`. -/
def duplicateRowOutcome (sha256 : List Byte → Sha256Digest) (seen : SeenIndex) (rowIndex : ℕ)
    (row : Record R) : Except CleaningError (SeenIndex × RuleOutcome) := do
  let key ← canonicalRowKey sha256 row
  match seen.firstSeenOrRecord key rowIndex with
  | (seen, none) => return (seen, {})
  | (seen, some firstIndex) =>
    return (seen, { dropReasons := [{ code := .duplicateRow, duplicateOfRowIndex := some firstIndex }] })

/-! ## Policies -/

inductive CleaningRule where
  | requiredStreams (requiredStreams : List Str)
  | minPresentStreams (minPresentStreams : ℤ) (knownStreams : List Str)
  | allOptionalMissing (requiredStreams optionalStreams : List Str)
  | duplicateRow
  | privacyRedaction (fields : List Str)

/-- `rule.evaluate`, with the index of the duplicate rule before and after it. -/
def CleaningRule.evaluate (sha256 : List Byte → Sha256Digest) (rule : CleaningRule)
    (seen : SeenIndex) (rowIndex : ℕ) (row : Record R) :
    Except CleaningError (SeenIndex × RuleOutcome) :=
  match rule with
  | .requiredStreams required => .ok (seen, requiredStreamsOutcome required row)
  | .minPresentStreams least known => .ok (seen, minPresentStreamsOutcome least known row)
  | .allOptionalMissing required optionals => .ok (seen, allOptionalMissingOutcome required optionals row)
  | .duplicateRow => duplicateRowOutcome sha256 seen rowIndex row
  | .privacyRedaction fields => .ok (seen, privacyRedactionOutcome fields row)

/-- `optional_streams`: the known streams that are not required. -/
def CleaningConfig.optionalStreams (config : CleaningConfig) (knownStreams : List Str) : List Str :=
  knownStreams.filter (· ∉ config.requiredStreams)

/-- `DefaultMultimodalPolicy.build_rules`. -/
def buildRules (config : CleaningConfig) (knownStreams : List Str) : List CleaningRule :=
  (if config.requiredStreams = [] then [] else [.requiredStreams config.requiredStreams]) ++
    (config.minPresentStreams.toList.map fun least ↦ .minPresentStreams least knownStreams) ++
    (if config.dropIfAllOptionalStreamsMissing then
      [.allOptionalMissing config.requiredStreams (config.optionalStreams knownStreams)] else []) ++
    (if config.duplicatePolicy.enabled then [.duplicateRow] else []) ++
    (if config.privacy.redactFields = [] then [] else [.privacyRedaction config.privacy.redactFields])

/-! ## The evaluator -/

/-- What the evaluator decides about a row. -/
inductive Verdict (R : Type) where
  | dropped (reasons : List DropReason)
  | kept (cleanedRow : Value R) (redactions : List RedactionRecord)

/-- The loop of `RowEvaluator.evaluate`, with the redactions collected so far. -/
def evaluateRules (sha256 : List Byte → Sha256Digest) (rowIndex : ℕ) (row : Record R) :
    List CleaningRule → List RedactionRecord → SeenIndex →
      Except CleaningError (SeenIndex × Verdict R)
  | [], redactions, seen =>
    .ok (seen, .kept (if redactions = [] then recordValue row
      else applyRedactions (recordValue row) (redactions.map RedactionRecord.field)) redactions)
  | rule :: rules, redactions, seen => do
    let (seen, outcome) ← rule.evaluate sha256 seen rowIndex row
    if outcome.shouldDrop then return (seen, .dropped outcome.dropReasons)
    else evaluateRules sha256 rowIndex row rules (redactions ++ outcome.redactions) seen

/-- `RowEvaluator.evaluate`. -/
def evaluateRow (sha256 : List Byte → Sha256Digest) (rules : List CleaningRule) (rowIndex : ℕ)
    (row : Record R) (seen : SeenIndex) : Except CleaningError (SeenIndex × Verdict R) :=
  evaluateRules sha256 rowIndex row rules [] seen

end

end Cleaning

end ForgeData
