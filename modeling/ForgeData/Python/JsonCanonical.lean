import ForgeData.Python.JsonTexts
import Mathlib.Data.List.Lex
import Mathlib.Order.Fin.Basic

/-!
# JSON with sorted keys

With `sort_keys` two values have the same text exactly if they are equal up to the order of the fields
of their objects: the text is read back as the value with its keys sorted. Without `ensure_ascii` a
text has a UTF-8 encoding as soon as the strings within the value have.
-/

namespace Python

open Str CodePoint

variable {R : Type}

/-- The values are equal up to the order of the fields of their objects. -/
def Value.SameJson (v w : Value R) : Prop := sortKeys v = sortKeys w

/-! ## Sorted values -/

theorem map_fst_sortKeysFields (fields : List (Str × Value R)) :
    (sortKeysFields fields).map Prod.fst = fields.map Prod.fst := by
  induction fields with
  | nil => rfl
  | cons p fields ih =>
    obtain ⟨k, v⟩ := p
    rw [sortKeysFields, List.map_cons, List.map_cons, ih]

theorem exists_sortKeys_dict (fields : List (Str × Value R)) :
    ∃ sorted, sortKeys (.dict fields) = .dict sorted ∧ sorted.Perm (sortKeysFields fields) :=
  ⟨_, by rw [sortKeys], List.perm_insertionSort _ _⟩

theorem storableFields_iff {fields : List (Str × Value R)} :
    StorableFields fields ↔ ∀ p ∈ fields, WellPaired p.1 ∧ p.2.Storable := by
  induction fields with
  | nil => simp [StorableFields]
  | cons p fields ih =>
    obtain ⟨k, v⟩ := p
    rw [StorableFields, ih, List.forall_mem_cons, and_assoc]

mutual

theorem storable_sortKeys : ∀ {v : Value R}, v.Storable → (sortKeys v).Storable
  | .none, h | .bool _, h | .int _, h | .float _, h | .str _, h => h
  | .list _, h => by
    rw [Value.Storable] at h
    rw [sortKeys, Value.Storable]
    exact storableItems_sortKeys h
  | .dict fields, h => by
    rw [Value.Storable] at h
    obtain ⟨sorted, heq, hperm⟩ := exists_sortKeys_dict fields
    rw [heq, Value.Storable, storableFields_iff]
    constructor
    · rw [(hperm.map Prod.fst).nodup_iff, map_fst_sortKeysFields]
      exact h.1
    · intro p hp
      exact storableFields_iff.mp (storableFields_sortKeys h.2) p (hperm.mem_iff.mp hp)

theorem storableItems_sortKeys : ∀ {l : List (Value R)}, StorableItems l →
    StorableItems (sortKeysItems l)
  | [], h => h
  | _ :: _, h => by
    rw [StorableItems] at h
    rw [sortKeysItems, StorableItems]
    exact ⟨storable_sortKeys h.1, storableItems_sortKeys h.2⟩

theorem storableFields_sortKeys : ∀ {fields : List (Str × Value R)}, StorableFields fields →
    StorableFields (sortKeysFields fields)
  | [], h => h
  | _ :: _, h => by
    rw [StorableFields] at h
    rw [sortKeysFields, StorableFields]
    exact ⟨h.1, storable_sortKeys h.2.1, storableFields_sortKeys h.2.2⟩

end

theorem mem_stringsFields {fields : List (Str × Value R)} {s : Str} :
    s ∈ stringsFields fields ↔ ∃ p ∈ fields, s = p.1 ∨ s ∈ p.2.strings := by
  induction fields with
  | nil => simp [stringsFields]
  | cons p fields ih =>
    obtain ⟨k, v⟩ := p
    rw [stringsFields, List.mem_cons, List.mem_append, ih, List.exists_mem_cons_iff, or_assoc]

theorem perm_stringsFields {fields fields' : List (Str × Value R)} (h : fields.Perm fields') :
    (stringsFields fields).Perm (stringsFields fields') := by
  have hflat : ∀ l : List (Str × Value R), stringsFields l = l.flatMap fun p ↦ p.1 :: p.2.strings := by
    intro l
    induction l with
    | nil => rfl
    | cons p l ih =>
      obtain ⟨k, v⟩ := p
      rw [stringsFields, ih, List.flatMap_cons, List.cons_append]
  rw [hflat, hflat]
  exact h.flatMap_right _

mutual

theorem perm_strings_sortKeys : ∀ v : Value R, (sortKeys v).strings.Perm v.strings
  | .none | .bool _ | .int _ | .float _ | .str _ => .refl _
  | .list l => by
    rw [sortKeys, Value.strings, Value.strings]
    exact perm_stringsItems_sortKeys l
  | .dict fields => by
    obtain ⟨sorted, heq, hperm⟩ := exists_sortKeys_dict fields
    rw [heq, Value.strings, Value.strings]
    exact (perm_stringsFields hperm).trans (perm_stringsFields_sortKeys fields)

theorem perm_stringsItems_sortKeys : ∀ l : List (Value R),
    (stringsItems (sortKeysItems l)).Perm (stringsItems l)
  | [] => .refl _
  | v :: l => by
    rw [sortKeysItems, stringsItems, stringsItems]
    exact (perm_strings_sortKeys v).append (perm_stringsItems_sortKeys l)

theorem perm_stringsFields_sortKeys : ∀ fields : List (Str × Value R),
    (stringsFields (sortKeysFields fields)).Perm (stringsFields fields)
  | [] => .refl _
  | (k, v) :: fields => by
    rw [sortKeysFields, stringsFields, stringsFields]
    exact ((perm_strings_sortKeys v).append (perm_stringsFields_sortKeys fields)).cons k

end

theorem mem_strings_sortKeys_iff {v : Value R} {s : Str} :
    s ∈ (sortKeys v).strings ↔ s ∈ v.strings :=
  (perm_strings_sortKeys v).mem_iff

/-! ## Texts -/

section Texts

variable [FloatText R] [LawfulFloatText R]

/-- **With sorted keys the text tells values apart** up to the order of fields. -/
theorem dumps_eq_iff {style : JsonStyle} (hsort : style.sortKeys = true) {v w : Value R}
    (hv : v.Storable) (hw : w.Storable) : dumps style v = dumps style w ↔ v.SameJson w := by
  rw [dumps, dumps, if_pos hsort, if_pos hsort, Value.SameJson]
  constructor
  · intro h
    have hread := loads_encode style (storable_sortKeys hv)
    rw [h, loads_encode style (storable_sortKeys hw)] at hread
    exact (Except.ok.inj hread).symm
  · intro h
    rw [h]

theorem encodable_encode {style : JsonStyle} (level : ℕ) {v : Value R}
    (h : ∀ s ∈ v.strings, Utf8.Encodable s) : Utf8.Encodable (encode style level v) := by
  refine forall_mem_encode (fun _ ↦ isSurrogate_of_isPrintable) (fun _ ↦ by decide) level v ?_
  intro s hs c hc d hd
  rcases mem_escape hd with hd | ⟨-, rfl, -⟩
  · exact isSurrogate_of_isPrintable hd
  · exact h s hs d hc

omit [LawfulFloatText R] in
theorem encodable_of_dumps {style : JsonStyle} (hascii : style.ensureAscii = false) {v : Value R}
    (h : Utf8.Encodable (dumps style v)) : ∀ s ∈ v.strings, Utf8.Encodable s := by
  intro s hs c hc
  by_contra hsurrogate
  rw [Bool.not_eq_false] at hsurrogate
  have hmem : c ∈ dumps style v := by
    rw [dumps]
    refine mem_encode_of_isSurrogate hascii hsurrogate hc 0 _ ?_
    split
    · exact mem_strings_sortKeys_iff.mpr hs
    · exact hs
  rw [h c hmem] at hsurrogate
  cases hsurrogate

theorem encodable_dumps {style : JsonStyle} {v : Value R}
    (h : ∀ s ∈ v.strings, Utf8.Encodable s) : Utf8.Encodable (dumps style v) := by
  rw [dumps]
  refine encodable_encode 0 fun s hs ↦ ?_
  split at hs
  · exact h s (mem_strings_sortKeys_iff.mp hs)
  · exact h s hs

end Texts

end Python
