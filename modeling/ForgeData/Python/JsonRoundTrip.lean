import ForgeData.Python.JsonNumbers
import ForgeData.Python.JsonStrings

/-!
# JSON, written and read

`loads` gives back the value that `dumps` wrote, whatever the style: the blanks, the indentation and
the escapes do not matter, and sorted keys only order the fields. The value has to be one that a text
can hold: no key twice in an object, no integer of more digits than `int` reads, no lone surrogates
that the escapes would pair.
-/

namespace Python

open Str CodePoint

section RoundTrip

variable {R : Type}

mutual

/-- The values that can be written and read back. -/
def Value.Storable : Value R → Prop
  | .int n => (decimal n.natAbs).length ≤ maxStrDigits
  | .str s => WellPaired s
  | .list l => StorableItems l
  | .dict fields => (fields.map Prod.fst).Nodup ∧ StorableFields fields
  | .none | .bool _ | .float _ => True

def StorableItems : List (Value R) → Prop
  | [] => True
  | v :: l => v.Storable ∧ StorableItems l

def StorableFields : List (Str × Value R) → Prop
  | [] => True
  | (k, v) :: fields => WellPaired k ∧ v.Storable ∧ StorableFields fields

end

mutual

/-- The fuel that reading a value takes. -/
def Value.size : Value R → ℕ
  | .list l => 1 + sizeItems l
  | .dict fields => 1 + sizeFields fields
  | .none | .bool _ | .int _ | .float _ | .str _ => 1

def sizeItems : List (Value R) → ℕ
  | [] => 0
  | v :: l => 1 + v.size + sizeItems l

def sizeFields : List (Str × Value R) → ℕ
  | [] => 0
  | (_, v) :: fields => 1 + v.size + sizeFields fields

end

theorem size_pos (v : Value R) : 0 < v.size := by
  cases v with
  | list l => rw [Value.size]; omega
  | dict fields => rw [Value.size]; omega
  | none | bool | int | float | str => exact Nat.one_pos

/-! ## White space -/

theorem skipSpace_append {ws s : Str} (h : ∀ c ∈ ws, isJsonSpace c = true) :
    skipSpace (ws ++ s) = skipSpace s :=
  List.dropWhile_append_of_pos h

theorem skipSpace_cons {c : CodePoint} (h : isJsonSpace c = false) (s : Str) :
    skipSpace (c :: s) = c :: s :=
  List.dropWhile_cons_of_neg (by rw [h]; decide)

theorem isJsonSpace_of_mem_newline {style : JsonStyle} {level : ℕ} {c : CodePoint}
    (h : c ∈ style.newline level) : isJsonSpace c = true := by
  rw [JsonStyle.newline] at h
  split at h
  · exact absurd h List.not_mem_nil
  · rcases List.mem_cons.mp h with rfl | h
    · decide
    · rw [List.eq_of_mem_replicate h]
      decide

theorem isJsonSpace_of_mem_blanks {n : ℕ} {c : CodePoint} (h : c ∈ List.replicate n (ofChar ' ')) :
    isJsonSpace c = true := by
  rw [List.eq_of_mem_replicate h]
  decide

theorem numberEnd_newline (style : JsonStyle) (level : ℕ) {c : CodePoint} (h : c.isDigit = false)
    (hpoint : c ≠ ofChar '.') (he : c ≠ ofChar 'e') (hE : c ≠ ofChar 'E') (rest : Str) :
    NumberEnd (style.newline level ++ c :: rest) := by
  rw [JsonStyle.newline]
  split
  · exact numberEnd_cons h hpoint he hE rest
  · exact numberEnd_cons (by decide) (by decide) (by decide) (by decide) _

/-! ## How a value begins -/

theorem scanWord_append (word : String) (v : Value R) (rest : Str) :
    scanWord word v (ofString word ++ rest) = .ok (v, rest) := by
  rw [scanWord, if_pos (List.prefix_append _ _), List.drop_left]

variable [FloatText R]

/-- Text that begins as a number is read as one. -/
theorem scanOnce_number (n : ℕ) {s : Str} (h : NumberStart s) :
    scanOnce (R := R) (n + 1) s = scanNumber s := by
  have hne : ∀ {c b : CodePoint}, c.isDigit = true → b.isDigit = false → c ≠ b := by
    rintro c b hc hb rfl
    rw [hc] at hb
    exact absurd hb (by decide)
  have hword : ofString "-Infinity" = ofChar '-' :: ofString "Infinity" := rfl
  have hI : ofString "Infinity" = ofChar 'I' :: ofString "nfinity" := rfl
  obtain ⟨c, t, hc, rfl | rfl⟩ := h
  · have hpre : ¬ofString "-Infinity" <+: c :: t := by
      rw [hword, List.cons_prefix_cons]
      exact fun h ↦ hne hc (by decide) h.1.symm
    rw [scanOnce, if_neg (hne hc (by decide)), if_neg (hne hc (by decide)),
      if_neg (hne hc (by decide)), if_neg (hne hc (by decide)), if_neg (hne hc (by decide)),
      if_neg (hne hc (by decide)), if_neg (hne hc (by decide)), if_neg (hne hc (by decide)),
      if_neg hpre]
  · have hpre : ¬ofString "-Infinity" <+: ofChar '-' :: c :: t := by
      rw [hword, hI, List.cons_prefix_cons, List.cons_prefix_cons]
      exact fun h ↦ hne hc (by decide) h.2.1.symm
    rw [scanOnce, if_neg (by decide), if_neg (by decide), if_neg (by decide), if_neg (by decide),
      if_neg (by decide), if_neg (by decide), if_neg (by decide), if_neg (by decide), if_neg hpre]

variable [LawfulFloatText R]

/-- The text of a value begins with a character that is neither white space nor a closing bracket nor
a byte order mark. -/
theorem exists_encode_eq_cons (style : JsonStyle) (level : ℕ) (v : Value R) (rest : Str) :
    ∃ c s, encode style level v ++ rest = c :: s ∧ isJsonSpace c = false ∧ c ≠ ofChar ']' ∧
      c ≠ 0xFEFF := by
  -- digits and the minus sign are none of the characters in question
  have hnumber : ∀ {s : Str}, NumberStart s → ∃ c t, s = c :: t ∧ isJsonSpace c = false ∧
      c ≠ ofChar ']' ∧ c ≠ 0xFEFF := by
    rintro s ⟨c, t, hc, rfl | rfl⟩
    · have hne : ∀ b : CodePoint, b.isDigit = false → c ≠ b := by
        rintro b hb rfl
        rw [hc] at hb
        exact absurd hb (by decide)
      refine ⟨c, t, rfl, ?_, hne _ (by decide), hne _ (by decide)⟩
      · simp only [isJsonSpace, hne (ofChar ' ') (by decide), hne (ofChar '\t') (by decide),
          hne (ofChar '\n') (by decide), hne (ofChar '\r') (by decide), or_self, decide_false]
    · exact ⟨_, _, rfl, by decide, by decide, by decide⟩
  cases v with
  | none => exact ⟨_, _, rfl, by decide, by decide, by decide⟩
  | bool b => cases b <;> exact ⟨_, _, rfl, by decide, by decide, by decide⟩
  | int n =>
    rw [encode]
    exact hnumber (numberStart_encodeInt n rest)
  | float x =>
    rw [encode, encodeFloat]
    split
    · next h => exact hnumber (numberStart_repr h rest)
    · exact ⟨_, _, rfl, by decide, by decide, by decide⟩
    · exact ⟨_, _, rfl, by decide, by decide, by decide⟩
    · exact ⟨_, _, rfl, by decide, by decide, by decide⟩
  | str s => exact ⟨_, _, rfl, by decide, by decide, by decide⟩
  | list l => cases l <;> exact ⟨_, _, rfl, by decide, by decide, by decide⟩
  | dict fields =>
    cases fields with
    | nil => exact ⟨_, _, rfl, by decide, by decide, by decide⟩
    | cons p fields =>
      obtain ⟨k, v⟩ := p
      exact ⟨_, _, rfl, by decide, by decide, by decide⟩

theorem skipSpace_encode (style : JsonStyle) (level : ℕ) (v : Value R) (rest : Str) :
    skipSpace (encode style level v ++ rest) = encode style level v ++ rest := by
  obtain ⟨c, s, heq, hspace, -⟩ := exists_encode_eq_cons style level v rest
  rw [heq, skipSpace_cons hspace]

theorem scanOnce_float (n : ℕ) (x : R) {rest : Str} (hrest : NumberEnd rest) :
    scanOnce (n + 1) (encodeFloat x ++ rest) = .ok (.float x, rest) := by
  rw [encodeFloat]
  split
  · next h => rw [scanOnce_number n (numberStart_repr h rest), scanNumber_repr h hrest]
  · next h =>
    rw [(LawfulFloatText.kind_eq_nan_iff x).mp h]
    exact scanWord_append "NaN" _ rest
  · next h =>
    rw [(LawfulFloatText.kind_eq_inf_iff x).mp h]
    exact scanWord_append "Infinity" _ rest
  · next h =>
    rw [(LawfulFloatText.kind_eq_negInf_iff x).mp h]
    have hpre : ofString "-Infinity" <+: ofString "-Infinity" ++ rest := List.prefix_append _ _
    have hcons : ofString "-Infinity" ++ rest = ofChar '-' :: (ofString "Infinity" ++ rest) := rfl
    rw [hcons] at hpre ⊢
    rw [scanOnce, if_neg (by decide), if_neg (by decide), if_neg (by decide), if_neg (by decide),
      if_neg (by decide), if_neg (by decide), if_neg (by decide), if_neg (by decide), if_pos hpre]
    exact scanWord_append "-Infinity" _ rest

/-! ## Values -/

theorem skipSpace_itemGap (style : JsonStyle) (level : ℕ) (v : Value R) (rest : Str) :
    skipSpace (List.replicate style.itemGap (ofChar ' ') ++
      (style.newline level ++ (encode style level v ++ rest))) = encode style level v ++ rest := by
  rw [skipSpace_append fun _ ↦ isJsonSpace_of_mem_blanks,
    skipSpace_append fun _ ↦ isJsonSpace_of_mem_newline, skipSpace_encode]

/-- Reading back a value with some fuel. -/
def ReadsBack (R : Type) [FloatText R] (style : JsonStyle) (n : ℕ) : Prop :=
  ∀ (v : Value R) (level : ℕ) (rest : Str), v.size ≤ n → v.Storable → NumberEnd rest →
    scanOnce n (encode style level v ++ rest) = .ok (v, rest)

/-- Reading back the items of an array, if single values are read back with less fuel. -/
theorem scanItems_encode {style : JsonStyle} {N : ℕ} (hread : ∀ n < N, ReadsBack R style n)
    (l : List (Value R)) {v : Value R} {n : ℕ} (level k : ℕ) (rest : Str) (hN : n ≤ N)
    (hn : 1 + v.size + sizeItems l ≤ n) (hv : v.Storable) (hl : StorableItems l) :
    scanItems n (encode style level v ++ (encodeItems style level l ++
      (style.newline k ++ ofChar ']' :: rest))) = .ok (v :: l, rest) := by
  induction l generalizing v n with
  | nil =>
    obtain ⟨n, rfl⟩ : ∃ n', n = n' + 1 := ⟨n - 1, by omega⟩
    have hscan := hread n (by omega) v level (style.newline k ++ ofChar ']' :: rest)
      (by rw [sizeItems] at hn; omega) hv
      (numberEnd_newline style k (by decide) (by decide) (by decide) (by decide) rest)
    rw [encodeItems, List.nil_append, scanItems, hscan]
    simp only [bind, Except.bind]
    rw [skipSpace_append fun _ ↦ isJsonSpace_of_mem_newline, skipSpace_cons (by decide)]
    rfl
  | cons w l ih =>
    obtain ⟨n, rfl⟩ : ∃ n', n = n' + 1 := ⟨n - 1, by omega⟩
    rw [sizeItems] at hn
    obtain ⟨hw, hl⟩ := hl
    have hscan := hread n (by omega) v level (encodeItems style level (w :: l) ++
      (style.newline k ++ ofChar ']' :: rest)) (by omega) hv
      (numberEnd_cons (by decide) (by decide) (by decide) (by decide) _)
    -- a comma and the gaps of the style stand before the next item
    have hnext : encodeItems style level (w :: l) ++ (style.newline k ++ ofChar ']' :: rest) =
        ofChar ',' :: (List.replicate style.itemGap (ofChar ' ') ++ (style.newline level ++
          (encode style level w ++ (encodeItems style level l ++
            (style.newline k ++ ofChar ']' :: rest))))) := by
      rw [encodeItems, JsonStyle.itemSep]
      simp only [List.cons_append, List.append_assoc]
    rw [scanItems, hscan]
    simp only [bind, Except.bind]
    rw [hnext, skipSpace_cons (by decide)]
    simp only
    rw [if_neg (by decide), if_pos trivial, skipSpace_itemGap, ih (by omega) (by omega) hw hl]
    rfl

theorem skipSpace_keySep (style : JsonStyle) (level : ℕ) (v : Value R) (rest : Str) :
    skipSpace (style.keySep ++ (encode style level v ++ rest)) =
        ofChar ':' :: (List.replicate style.keyGap (ofChar ' ') ++ (encode style level v ++ rest)) ∧
      skipSpace (List.replicate style.keyGap (ofChar ' ') ++ (encode style level v ++ rest)) =
        encode style level v ++ rest := by
  constructor
  · rw [JsonStyle.keySep, List.cons_append, skipSpace_cons (by decide)]
  · rw [skipSpace_append fun _ ↦ isJsonSpace_of_mem_blanks, skipSpace_encode]

theorem encodeStr_append (ensureAscii : Bool) (s rest : Str) :
    encodeStr ensureAscii s ++ rest =
      ofChar '"' :: (s.flatMap (escape ensureAscii) ++ ofChar '"' :: rest) := by
  rw [encodeStr, List.cons_append, List.append_assoc, List.singleton_append]

/-- Reading back the fields of an object, if single values are read back with less fuel. -/
theorem scanFields_encode {style : JsonStyle} {N : ℕ} (hread : ∀ n < N, ReadsBack R style n)
    (fields : List (Str × Value R)) {key : Str} {v : Value R} {n : ℕ} (level k : ℕ) (rest : Str)
    (hN : n ≤ N) (hn : 1 + v.size + sizeFields fields ≤ n) (hkey : WellPaired key) (hv : v.Storable)
    (hfields : StorableFields fields) :
    scanFields n (encodeStr style.ensureAscii key ++ (style.keySep ++ (encode style level v ++
      (encodeFields style level fields ++ (style.newline k ++ ofChar '}' :: rest))))) =
      .ok ((key, v) :: fields, rest) := by
  induction fields generalizing key v n with
  | nil =>
    obtain ⟨n, rfl⟩ : ∃ n', n = n' + 1 := ⟨n - 1, by omega⟩
    have hscan := hread n (by omega) v level (style.newline k ++ ofChar '}' :: rest)
      (by rw [sizeFields] at hn; omega) hv
      (numberEnd_newline style k (by decide) (by decide) (by decide) (by decide) rest)
    obtain ⟨hcolon, hgap⟩ := skipSpace_keySep style level v (style.newline k ++ ofChar '}' :: rest)
    rw [encodeFields, List.nil_append, encodeStr_append, scanFields, if_neg (not_not.mpr rfl),
      scanString_encodeStr _ hkey]
    simp only [orDecodeError, bind, Except.bind]
    rw [hcolon]
    simp only
    rw [if_neg (not_not.mpr rfl), hgap, hscan]
    simp only
    rw [skipSpace_append fun _ ↦ isJsonSpace_of_mem_newline, skipSpace_cons (by decide)]
    rfl
  | cons p fields ih =>
    obtain ⟨key', w⟩ := p
    obtain ⟨n, rfl⟩ : ∃ n', n = n' + 1 := ⟨n - 1, by omega⟩
    rw [sizeFields] at hn
    obtain ⟨hkey', hw, hfields⟩ := hfields
    have hscan := hread n (by omega) v level (encodeFields style level ((key', w) :: fields) ++
      (style.newline k ++ ofChar '}' :: rest)) (by omega) hv
      (numberEnd_cons (by decide) (by decide) (by decide) (by decide) _)
    obtain ⟨hcolon, hgap⟩ := skipSpace_keySep style level v
      (encodeFields style level ((key', w) :: fields) ++ (style.newline k ++ ofChar '}' :: rest))
    have hnext : encodeFields style level ((key', w) :: fields) ++
        (style.newline k ++ ofChar '}' :: rest) =
        ofChar ',' :: (List.replicate style.itemGap (ofChar ' ') ++ (style.newline level ++
          (encodeStr style.ensureAscii key' ++ (style.keySep ++ (encode style level w ++
            (encodeFields style level fields ++ (style.newline k ++ ofChar '}' :: rest))))))) := by
      rw [encodeFields, JsonStyle.itemSep]
      simp only [List.cons_append, List.append_assoc]
    -- the scanner skips the gap before a key, and a key begins with a quote
    have hquote : ∀ s, skipSpace (encodeStr style.ensureAscii key' ++ s) =
        encodeStr style.ensureAscii key' ++ s := by
      intro s
      rw [encodeStr_append, skipSpace_cons (by decide)]
    rw [encodeStr_append, scanFields, if_neg (not_not.mpr rfl), scanString_encodeStr _ hkey]
    simp only [orDecodeError, bind, Except.bind]
    rw [hcolon]
    simp only
    rw [if_neg (not_not.mpr rfl), hgap, hscan]
    simp only
    rw [hnext, skipSpace_cons (by decide)]
    simp only
    rw [if_neg (by decide), if_pos trivial, skipSpace_append fun _ ↦ isJsonSpace_of_mem_blanks,
      skipSpace_append fun _ ↦ isJsonSpace_of_mem_newline, hquote,
      ih (by omega) (by omega) hkey' hw hfields]
    rfl

/-- **Every value is read back**, by induction on the fuel. -/
theorem readsBack (style : JsonStyle) (n : ℕ) : ReadsBack R style n := by
  induction n using Nat.strong_induction_on with
  | _ n ih =>
    intro v level rest hn hv hrest
    have hpos := size_pos v
    obtain ⟨n, rfl⟩ : ∃ n', n = n' + 1 := ⟨n - 1, by omega⟩
    -- the parts of a value are smaller, and the fuel left is enough for them
    have hless : ∀ m < n, ReadsBack R style m := fun m hm ↦ ih m (by omega)
    cases v with
    | none => exact scanWord_append "null" _ rest
    | bool b =>
      cases b with
      | true => exact scanWord_append "true" _ rest
      | false => exact scanWord_append "false" _ rest
    | int m =>
      rw [encode, scanOnce_number n (numberStart_encodeInt m rest), scanNumber_encodeInt hv hrest]
    | float x => exact scanOnce_float n x hrest
    | str s =>
      rw [encode, encodeStr_append, scanOnce, if_pos rfl, scanString_encodeStr _ hv]
      rfl
    | list l =>
      cases l with
      | nil => rfl
      | cons w l =>
        rw [Value.size, sizeItems] at hn
        obtain ⟨c, s, heq, hspace, hclose, -⟩ := exists_encode_eq_cons style (level + 1) w
          (encodeItems style (level + 1) l ++ (style.newline level ++ ofChar ']' :: rest))
        have hitems := scanItems_encode hless l (v := w) (n := n) (level + 1) level rest le_rfl
          (by omega) hv.1 hv.2
        -- an array is its opening bracket, the first value, the others, and the closing bracket
        have htext : encode style level (.list (w :: l)) ++ rest = ofChar '[' ::
            (style.newline (level + 1) ++ (encode style (level + 1) w ++
              (encodeItems style (level + 1) l ++ (style.newline level ++ ofChar ']' :: rest)))) := by
          rw [encode]
          simp only [List.cons_append, List.append_assoc, List.nil_append]
        rw [htext, scanOnce, if_neg (by decide), if_neg (by decide), if_pos rfl,
          skipSpace_append fun _ ↦ isJsonSpace_of_mem_newline, skipSpace_encode]
        rw [heq] at hitems ⊢
        simp only
        rw [if_neg hclose, hitems]
        rfl
    | dict fields =>
      cases fields with
      | nil => rfl
      | cons p fields =>
        obtain ⟨key, w⟩ := p
        obtain ⟨hnodup, hkey, hw, hfields⟩ := hv
        rw [Value.size, sizeFields] at hn
        have hitems := scanFields_encode hless fields (level + 1) level rest le_rfl (by omega) hkey
          hw hfields
        -- an object likewise, with the first key read by the scanner of strings
        have htext : encode style level (.dict ((key, w) :: fields)) ++ rest = ofChar '{' ::
            (style.newline (level + 1) ++ (encodeStr style.ensureAscii key ++ (style.keySep ++
              (encode style (level + 1) w ++ (encodeFields style (level + 1) fields ++
                (style.newline level ++ ofChar '}' :: rest)))))) := by
          rw [encode]
          simp only [List.cons_append, List.append_assoc, List.nil_append]
        rw [htext, scanOnce, if_neg (by decide), if_pos rfl,
          skipSpace_append fun _ ↦ isJsonSpace_of_mem_newline, encodeStr_append,
          skipSpace_cons (by decide)]
        rw [encodeStr_append] at hitems
        simp only
        rw [if_neg (by decide), hitems]
        simp only [bind, Except.bind, Dict.items_ofPairs hnodup]
        rfl

/-! ## Whole texts -/

theorem length_encode_pos (style : JsonStyle) (level : ℕ) (v : Value R) :
    0 < (encode style level v).length := by
  obtain ⟨c, s, h, -⟩ := exists_encode_eq_cons style level v ([] : Str)
  rw [List.append_nil] at h
  rw [h]
  exact Nat.succ_pos _

section Sizes

omit [LawfulFloatText R]

mutual

/-- The text of a value is at least as long as the fuel that reading it takes. -/
theorem size_le_length [LawfulFloatText R] (style : JsonStyle) (level : ℕ) :
    ∀ v : Value R, v.size ≤ (encode style level v).length
  | .none => length_encode_pos style level .none
  | .bool b => length_encode_pos style level (.bool b)
  | .int n => length_encode_pos style level (.int n)
  | .float x => length_encode_pos style level (.float x)
  | .str s => length_encode_pos style level (.str s)
  | .list [] => length_encode_pos style level (.list [])
  | .list (v :: l) => by
    have hv := size_le_length style (level + 1) v
    have hl := sizeItems_le_length style (level + 1) l
    simp only [encode, Value.size, sizeItems, List.length_cons, List.length_append]
    omega
  | .dict [] => length_encode_pos style level (.dict [])
  | .dict ((k, v) :: fields) => by
    have hv := size_le_length style (level + 1) v
    have hl := sizeFields_le_length style (level + 1) fields
    simp only [encode, Value.size, sizeFields, List.length_cons, List.length_append]
    omega

theorem sizeItems_le_length [LawfulFloatText R] (style : JsonStyle) (level : ℕ) :
    ∀ l : List (Value R), sizeItems l ≤ (encodeItems style level l).length
  | [] => Nat.le_refl 0
  | v :: l => by
    have hv := size_le_length style level v
    have hl := sizeItems_le_length style level l
    simp only [encodeItems, sizeItems, JsonStyle.itemSep, List.length_cons, List.length_append]
    omega

theorem sizeFields_le_length [LawfulFloatText R] (style : JsonStyle) (level : ℕ) :
    ∀ fields : List (Str × Value R), sizeFields fields ≤ (encodeFields style level fields).length
  | [] => Nat.le_refl 0
  | (k, v) :: fields => by
    have hv := size_le_length style level v
    have hl := sizeFields_le_length style level fields
    simp only [encodeFields, sizeFields, JsonStyle.itemSep, List.length_cons, List.length_append]
    omega

end

end Sizes

/-- **Reading is inverse to writing.** -/
theorem loads_encode (style : JsonStyle) {v : Value R} (h : v.Storable) :
    loads (encode style 0 v) = .ok v := by
  have hbom : (encode style 0 v).head? ≠ some 0xFEFF := by
    obtain ⟨c, s, heq, -, -, hbom⟩ := exists_encode_eq_cons style 0 v ([] : Str)
    rw [List.append_nil] at heq
    rw [heq]
    exact fun h ↦ hbom (Option.some.inj h)
  have hscan := readsBack style ((encode style 0 v).length + 1) v 0 []
    (Nat.le_succ_of_le (size_le_length style 0 v)) h numberEnd_nil
  have hskip := skipSpace_encode style 0 v ([] : Str)
  rw [List.append_nil] at hscan hskip
  rw [loads, if_neg hbom, hskip, hscan]
  rfl

end RoundTrip

end Python
