import ForgeData.Python.JsonCanonical
import ForgeData.Python.Loop

/-!
# Files of JSON lines

One value a line. A compact text has no line break, since its strings escape the control characters, so
whatever the strings hold, a file that can be encoded is read back line by line as it was written.
-/

namespace Python

open Str CodePoint

variable {R : Type}

/-- The value in the order in which its fields are written. -/
def JsonStyle.arranged (style : JsonStyle) (v : Value R) : Value R :=
  if style.sortKeys then Python.sortKeys v else v

variable [FloatText R]

/-- `json.dumps(v) + "\n"`. -/
def JsonStyle.line (style : JsonStyle) (v : Value R) : Str := dumps style v ++ [ofChar '\n']

/-! ## Lines -/

theorem exists_encode_dict (style : JsonStyle) (fields : List (Str × Value R)) :
    ∃ s, encode style 0 (.dict fields) = ofChar '{' :: (s ++ [ofChar '}']) := by
  cases fields with
  | nil => exact ⟨[], rfl⟩
  | cons p fields =>
    obtain ⟨k, v⟩ := p
    rw [encode]
    refine ⟨style.newline 1 ++ (encodeStr style.ensureAscii k ++ (style.keySep ++
      (encode style 1 v ++ (encodeFields style 1 fields ++ style.newline 0)))), ?_⟩
    simp only [List.append_assoc, Nat.zero_add]

theorem exists_dumps_dict (style : JsonStyle) (fields : List (Str × Value R)) :
    ∃ s, dumps style (.dict fields) = ofChar '{' :: (s ++ [ofChar '}']) := by
  rw [dumps]
  split
  · exact exists_encode_dict style _
  · exact exists_encode_dict style fields

theorem strip_line (style : JsonStyle) (fields : List (Str × Value R)) :
    (style.line (.dict fields)).strip = dumps style (.dict fields) := by
  obtain ⟨s, hs⟩ := exists_dumps_dict style fields
  rw [JsonStyle.line, hs]
  refine Str.strip_append_newline (List.cons_ne_nil _ _) ?_ ?_
  · rintro c ⟨⟩
    decide
  · rw [← List.cons_append, List.getLast?_concat]
    rintro c ⟨⟩
    decide

variable [LawfulFloatText R]

theorem le_val_of_mem_dumps {style : JsonStyle} (hindent : style.indent = none) {v : Value R}
    {c : CodePoint} (h : c ∈ dumps style v) : 32 ≤ c.val := by
  rw [dumps] at h
  refine forall_mem_encode (P := fun c ↦ 32 ≤ c.val) (fun c hc ↦ hc.1)
    (fun hne ↦ absurd hindent hne) 0 _ ?_ c h
  intro s _ a _ d hd
  rcases mem_escape hd with hd | ⟨-, rfl, hd⟩
  · exact hd.1
  · exact hd

/-- The lines of a file are those that were written. -/
theorem linesOf_of_encode {style : JsonStyle} (hindent : style.indent = none) {values : List (Value R)}
    {bytes : List Byte} (h : Utf8.encode (values.flatMap style.line) = some bytes) :
    ∃ text, Utf8.decode bytes = some text ∧
      linesOf (universalNewlines text) = values.map style.line := by
  have hcontrol : ∀ a : Char, a.toNat < 32 → ∀ v : Value R, ofChar a ∉ dumps style v :=
    fun a ha v hmem ↦ absurd (le_val_of_mem_dumps hindent hmem) (Nat.not_le.mpr ha)
  have hflat : values.flatMap style.line = (values.map (dumps style)).flatMap (· ++ [ofChar '\n']) := by
    rw [List.flatMap_map]
    rfl
  have hreturn : ofChar '\r' ∉ values.flatMap style.line := by
    intro hmem
    obtain ⟨v, -, hmem⟩ := List.mem_flatMap.mp hmem
    rcases List.mem_append.mp hmem with hmem | hmem
    · exact hcontrol '\r' (by decide) v hmem
    · exact absurd (List.mem_singleton.mp hmem) (by decide)
  refine ⟨_, Utf8.decode_encode h, ?_⟩
  rw [universalNewlines_eq_self hreturn, hflat, linesOf_flatMap, List.map_map]
  · rfl
  · rw [List.forall_mem_map]
    exact fun v _ ↦ hcontrol '\n' (by decide) v

theorem loads_dumps (style : JsonStyle) {v : Value R} (h : v.Storable) :
    (loads (dumps style v) : Except JsonError (Value R)) = .ok (style.arranged v) := by
  have harranged : (style.arranged v).Storable := by
    rw [JsonStyle.arranged]
    split
    · exact storable_sortKeys h
    · exact h
  exact loads_encode style harranged

end Python
