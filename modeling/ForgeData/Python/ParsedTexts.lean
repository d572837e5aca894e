import ForgeData.Python.Csv
import ForgeData.Python.Lines
import ForgeData.Python.Utf8

/-!
# What is read from bytes

Decoded bytes have no surrogates, and neither have the lines and the CSV cells of the text.
-/

namespace Python

open Str CodePoint

/-! ## Decoded bytes -/

namespace Utf8

theorem isSurrogate_of_ofBits? {least n : ℕ} {c : CodePoint} (h : ofBits? least n = some c) :
    c.isSurrogate = false := by
  rw [ofBits?] at h
  split at h
  · split at h
    · next hn =>
      rw [← Option.some.inj h]
      exact hn.2
    · cases h
  · cases h

theorem isSurrogate_of_decodeOne {bytes rest : List Byte} {c : CodePoint}
    (h : decodeOne bytes = some (c, rest)) : c.isSurrogate = false := by
  have hbits {least n : ℕ} {s : List Byte}
      (h : (ofBits? least n).bind (fun d ↦ pure (d, s)) = some (c, rest)) : c.isSurrogate = false := by
    obtain ⟨d, hd, heq⟩ := Option.bind_eq_some_iff.mp h
    obtain ⟨rfl, -⟩ := Prod.mk.inj (Option.some.inj heq)
    exact isSurrogate_of_ofBits? hd
  rcases bytes with _ | ⟨a, s⟩
  · cases h
  simp only [decodeOne, Option.bind_eq_bind] at h
  split at h
  · exact hbits h
  split at h
  · -- two bytes
    split at h
    · obtain ⟨x, -, h⟩ := Option.bind_eq_some_iff.mp h
      exact hbits h
    · cases h
  split at h
  · -- three bytes
    split at h
    · obtain ⟨x, -, h⟩ := Option.bind_eq_some_iff.mp h
      obtain ⟨y, -, h⟩ := Option.bind_eq_some_iff.mp h
      exact hbits h
    · cases h
  split at h
  · -- four bytes
    split at h
    · obtain ⟨x, -, h⟩ := Option.bind_eq_some_iff.mp h
      obtain ⟨y, -, h⟩ := Option.bind_eq_some_iff.mp h
      obtain ⟨z, -, h⟩ := Option.bind_eq_some_iff.mp h
      exact hbits h
    · cases h
  · cases h

theorem encodable_of_decodeUpTo {k : ℕ} {bytes : List Byte} {s : Str} (h : decodeUpTo k bytes = some s) :
    Encodable s := by
  induction k generalizing bytes s with
  | zero =>
    rcases bytes with _ | ⟨b, bytes⟩
    · rw [← Option.some.inj h]
      exact List.forall_mem_nil _
    · cases h
  | succ k ih =>
    rcases bytes with _ | ⟨b, bytes⟩
    · rw [← Option.some.inj h]
      exact List.forall_mem_nil _
    · simp only [decodeUpTo, Option.bind_eq_bind] at h
      obtain ⟨⟨c, rest⟩, hone, h⟩ := Option.bind_eq_some_iff.mp h
      obtain ⟨t, hrest, h⟩ := Option.bind_eq_some_iff.mp h
      rw [← Option.some.inj h]
      exact List.forall_mem_cons.mpr ⟨isSurrogate_of_decodeOne hone, ih hrest⟩

/-- **Decoded bytes have no surrogates.** -/
theorem encodable_of_decode {bytes : List Byte} {s : Str} (h : decode bytes = some s) : Encodable s :=
  encodable_of_decodeUpTo h

end Utf8

/-! ## Lines and cells -/

section Parts

variable {P : CodePoint → Prop}

theorem Str.forall_mem_universalNewlines (hnewline : P (ofChar '\n')) {s : Str} (h : ∀ c ∈ s, P c) :
    ∀ c ∈ s.universalNewlines, P c := by
  induction s with
  | nil => exact List.forall_mem_nil _
  | cons c s ih =>
    obtain ⟨hc, hs⟩ := List.forall_mem_cons.mp h
    rw [universalNewlines]
    split
    · split
      · exact ih hs
      · exact List.forall_mem_cons.mpr ⟨hnewline, ih hs⟩
    · exact List.forall_mem_cons.mpr ⟨hc, ih hs⟩

theorem Str.forall_mem_linesOf {s : Str} (h : ∀ c ∈ s, P c) : ∀ line ∈ s.linesOf, ∀ c ∈ line, P c := by
  induction s with
  | nil => exact List.forall_mem_nil _
  | cons c s ih =>
    obtain ⟨hc, hs⟩ := List.forall_mem_cons.mp h
    have ih := ih hs
    rw [linesOf]
    split
    · exact List.forall_mem_cons.mpr ⟨List.forall_mem_singleton.mpr hc, ih⟩
    · split
      · exact List.forall_mem_singleton.mpr (List.forall_mem_singleton.mpr hc)
      · next line lines heq =>
        rw [heq] at ih
        obtain ⟨hline, hlines⟩ := List.forall_mem_cons.mp ih
        exact List.forall_mem_cons.mpr ⟨List.forall_mem_cons.mpr ⟨hc, hline⟩, hlines⟩

theorem Str.mem_of_mem_strip {s : Str} {c : CodePoint} (h : c ∈ s.strip) : c ∈ s := by
  rw [strip, List.mem_reverse] at h
  exact (List.dropWhile_sublist _).mem (List.mem_reverse.mp ((List.dropWhile_sublist _).mem h))

namespace Csv

/-- The characters that the reader holds. -/
def Reader.Holds (P : CodePoint → Prop) (r : Reader) : Prop :=
  (∀ c ∈ r.field, P c) ∧ ∀ field ∈ r.fields, ∀ c ∈ field, P c

theorem Reader.Holds.save {r : Reader} (h : r.Holds P) (state : State) : (r.save state).Holds P := by
  refine ⟨List.forall_mem_nil _, ?_⟩
  exact List.forall_mem_append.mpr ⟨h.2, List.forall_mem_singleton.mpr h.1⟩

theorem Reader.Holds.add {r : Reader} (h : r.Holds P) {c : CodePoint} (hc : P c) (state : State) :
    (r.add c state).Holds P :=
  ⟨List.forall_mem_append.mpr ⟨h.1, List.forall_mem_singleton.mpr hc⟩, h.2⟩

theorem holds_startField {r : Reader} (h : r.Holds P) {c : CodePoint} (hc : P c) :
    (startField r c).Holds P := by
  rw [startField]
  split
  · exact h.save _
  split
  · exact h
  split
  · exact h.save _
  · exact h.add hc _

theorem holds_processChar {r r' : Reader} (h : r.Holds P) {c : CodePoint} (hc : P c)
    (hok : processChar r c = .ok r') : r'.Holds P := by
  rw [processChar] at hok
  split at hok
  · split at hok
    · rw [← Except.ok.inj hok]
      exact h
    · rw [← Except.ok.inj hok]
      exact holds_startField h hc
  · rw [← Except.ok.inj hok]
    exact holds_startField h hc
  · split at hok
    · rw [← Except.ok.inj hok]
      exact h.save _
    split at hok
    · rw [← Except.ok.inj hok]
      exact h.save _
    · rw [← Except.ok.inj hok]
      exact h.add hc _
  · split at hok
    · rw [← Except.ok.inj hok]
      exact h
    · rw [← Except.ok.inj hok]
      exact h.add hc _
  · split at hok
    · rw [← Except.ok.inj hok]
      exact h.add hc _
    split at hok
    · rw [← Except.ok.inj hok]
      exact h.save _
    split at hok
    · rw [← Except.ok.inj hok]
      exact h.save _
    · rw [← Except.ok.inj hok]
      exact h.add hc _
  · split at hok
    · rw [← Except.ok.inj hok]
      exact h
    · cases hok

theorem holds_processEol {r : Reader} (h : r.Holds P) : (processEol r).Holds P := by
  rw [processEol]
  split
  · exact h
  · exact h
  · exact h.save _
  · exact h.save _
  · exact h.save _
  · exact h

theorem forall_mem_readFrom {r : Reader} (hr : r.Holds P) {s : Str} (hs : ∀ c ∈ s, P c) :
    ∀ row ∈ (readFrom r s).yields, ∀ cell ∈ row, ∀ c ∈ cell, P c := by
  induction s generalizing r with
  | nil =>
    rw [readFrom]
    split
    · exact List.forall_mem_singleton.mpr
        (List.forall_mem_append.mpr ⟨hr.2, List.forall_mem_singleton.mpr hr.1⟩)
    · exact List.forall_mem_nil _
  | cons c s ih =>
    obtain ⟨hc, hs⟩ := List.forall_mem_cons.mp hs
    have hstart : Reader.start.Holds P := ⟨List.forall_mem_nil _, List.forall_mem_nil _⟩
    rw [readFrom]
    split
    · exact List.forall_mem_nil _
    · next r' hok =>
      have hr' := holds_processChar hr hc hok
      split
      · have heol := holds_processEol hr'
        dsimp only
        split
        · exact List.forall_mem_append.mpr ⟨List.forall_mem_singleton.mpr heol.2, ih hstart hs⟩
        · exact ih heol hs
      · exact ih hr' hs

theorem forall_mem_reader {text : Str} (h : ∀ c ∈ text, P c) :
    ∀ row ∈ (reader text).yields, ∀ cell ∈ row, ∀ c ∈ cell, P c :=
  forall_mem_readFrom ⟨List.forall_mem_nil _, List.forall_mem_nil _⟩ h

end Csv

end Parts

end Python
