import ForgeData.Normalization.Profile
import ForgeData.Normalization.Records

/-!
# Normalized artifacts

What the normalization service makes of the bytes of a raw file: every record is normalized, and an exception
at one of them fails the whole run.
-/

namespace ForgeData

namespace Normalization

open Python

variable {R : Type} [FloatText R] [Mul R]

/-- The exceptions of writing an artifact. -/
inductive ArtifactError where
  /-- A record is not normalized. -/
  | record (e : NormalizationError)
  /-- Reading the raw file raises. -/
  | read (e : ReadError)
  /-- `UnicodeEncodeError`. -/
  | unicodeEncodeError
deriving DecidableEq

/-- The normalized records of numbered raw ones. -/
def normalizeRecords (normalizer : RecordNormalizer R) :
    List (ℕ × Record R) → Except NormalizationError (List (Record R))
  | [] => .ok []
  | p :: l => do
    let record ← normalizer.normalizeRecord p.1 p.2
    return record :: (← normalizeRecords normalizer l)

/-- `_write_staged_artifact`: the number of records that were written, and the bytes of the artifact. -/
def writeStagedArtifact (strOf : Value R → Str) (type : FileType) (normalizer : RecordNormalizer R)
    (bytes : List Byte) : Except ArtifactError (ℕ × List Byte) :=
  let source : Gen ReadError (ℕ × Record R) := Integrity.iterRecords type bytes
  match normalizeRecords normalizer source.yields with
  | .error e => .error (.record e)
  | .ok records =>
    match source.raised with
    | some e => .error (.read e)
    | none =>
      match writeRecords strOf type normalizer.schema.fields.keys records with
      | none => .error .unicodeEncodeError
      | some artifact => .ok (records.length, artifact)

theorem normalizeRecords_eq_ok {normalizer : RecordNormalizer R} {l : List (ℕ × Record R)}
    {records : List (Record R)}
    (h : List.Forall₂ (fun p record ↦ normalizer.normalizeRecord p.1 p.2 = .ok record) l records) :
    normalizeRecords normalizer l = .ok records := by
  induction h with
  | nil => rfl
  | cons hp _ ih =>
    rw [normalizeRecords, hp, ih]
    rfl

theorem normalizeRecords_eq_error {normalizer : RecordNormalizer R} {before after : List (ℕ × Record R)}
    {p : ℕ × Record R} {e : NormalizationError}
    (hbefore : ∀ q ∈ before, ∃ record, normalizer.normalizeRecord q.1 q.2 = .ok record)
    (h : normalizer.normalizeRecord p.1 p.2 = .error e) :
    normalizeRecords normalizer (before ++ p :: after) = .error e := by
  induction before with
  | nil =>
    rw [List.nil_append, normalizeRecords, h]
    rfl
  | cons q before ih =>
    obtain ⟨⟨record, hrecord⟩, hbefore⟩ := List.forall_mem_cons.mp hbefore
    rw [List.cons_append, normalizeRecords, hrecord, ih hbefore]
    rfl

end Normalization

end ForgeData
