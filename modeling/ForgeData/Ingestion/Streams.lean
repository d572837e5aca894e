import ForgeData.Python.Utf8

/-!
# Upload streams

The wrappers that `app/ingestion/service.py` puts around an uploaded stream: one that replays what was
read ahead, and one that counts and raises when there is too much. The stream below them may give its
bytes in pieces of any length, as long as it gives some until the end.
-/

namespace ForgeData

namespace Ingestion

open Python

/-- Binary streams that end. A read takes a piece from what is still to come; the piece is empty only at
the end, or when no byte was asked for. -/
class ByteStream (σ : Type) where
  /-- `stream.read(size)`. -/
  read : ℤ → σ → List Byte × σ
  /-- The bytes that are still to come. -/
  pending : σ → List Byte
  pending_read : ∀ size s, pending s = (read size s).1 ++ pending (read size s).2
  read_ne_nil : ∀ size s, size ≠ 0 → pending s ≠ [] → (read size s).1 ≠ []

/-- The errors of the ingestion service. -/
inductive IngestionError where
  | unsupportedFileType (message : String)
  | emptyFile (message : String)
  | fileTooLarge (message : String)
  | ingestionConflict (message : String)
deriving DecidableEq

/-! ## A stream with its pieces -/

/-- Bytes that come in pieces: how long a piece is may depend on where the stream is and on what was
asked for. -/
structure PiecewiseStream where
  position : ℕ
  rest : List Byte
  pieceLength : ℕ → ℤ → ℕ
  pieceLength_pos : ∀ position size, size ≠ 0 → 0 < pieceLength position size
  pieceLength_le : ∀ position (size : ℕ), pieceLength position size ≤ size

namespace PiecewiseStream

/-- The next piece. -/
def read (size : ℤ) (s : PiecewiseStream) : List Byte × PiecewiseStream :=
  let chunk := s.rest.take (s.pieceLength s.position size)
  (chunk, { s with
    position := s.position + chunk.length
    rest := s.rest.drop (s.pieceLength s.position size) })

instance : ByteStream PiecewiseStream where
  read := read
  pending := rest
  pending_read _ _ := (List.take_append_drop ..).symm
  read_ne_nil size s hsize hrest := by
    have hpos := s.pieceLength_pos s.position size hsize
    change s.rest.take _ ≠ []
    rw [Ne, List.take_eq_nil_iff, not_or]
    exact ⟨hpos.ne', hrest⟩

end PiecewiseStream

/-! ## Replaying a prefix -/

/-- `_PrefixedStream`. -/
structure PrefixedStream (σ : Type) where
  buffered : List Byte
  stream : σ

namespace PrefixedStream

variable {σ : Type} [ByteStream σ]

/-- `_PrefixedStream.read`. -/
def read (size : ℤ) (s : PrefixedStream σ) : List Byte × PrefixedStream σ :=
  if s.buffered ≠ [] then
    if size < 0 ∨ s.buffered.length ≤ size then (s.buffered, { s with buffered := [] })
    else (s.buffered.take size.toNat, { s with buffered := s.buffered.drop size.toNat })
  else
    let (chunk, stream) := ByteStream.read size s.stream
    (chunk, { s with stream })

/-- **The prefix is handed over**: nothing is lost or repeated between it and the stream. -/
instance : ByteStream (PrefixedStream σ) where
  read := read
  pending s := s.buffered ++ ByteStream.pending s.stream
  pending_read size s := by
    rw [read]
    split
    · split
      · rfl
      · dsimp only
        rw [← List.append_assoc, List.take_append_drop]
    · next hnil =>
      rw [not_not.mp hnil]
      exact ByteStream.pending_read size s.stream
  read_ne_nil size s hsize hpending := by
    rw [read]
    split
    · next hne =>
      split
      · exact hne
      · next hsize' =>
        dsimp only
        rw [Ne, List.take_eq_nil_iff, not_or]
        exact ⟨by omega, hne⟩
    · next hnil =>
      rw [not_not.mp hnil] at hpending
      exact ByteStream.read_ne_nil size s.stream hsize hpending

end PrefixedStream

/-! ## Counting -/

/-- `_SizeLimitedReader`. -/
structure SizeLimitedReader (σ : Type) where
  stream : σ
  maxBytes : ℕ
  readSoFar : ℕ := 0

/-- `_SizeLimitedReader.read`. -/
def SizeLimitedReader.read {σ : Type} [ByteStream σ] (size : ℤ) (s : SizeLimitedReader σ) :
    Except IngestionError (List Byte × SizeLimitedReader σ) :=
  let (chunk, stream) := ByteStream.read size s.stream
  let readSoFar := s.readSoFar + chunk.length
  if readSoFar > s.maxBytes then
    .error (.fileTooLarge s!"Upload exceeds maximum size of {s.maxBytes} bytes")
  else .ok (chunk, { s with stream, readSoFar })

end Ingestion

end ForgeData
