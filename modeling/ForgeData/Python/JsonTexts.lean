import ForgeData.Python.JsonRoundTrip
import ForgeData.Python.Lines
import ForgeData.Python.Utf8

/-!
# The characters of a JSON text

Outside its strings a JSON text is printable ASCII, with line breaks only where it is indented; a
string contributes the escapes of its code points. So with `ensure_ascii` every text has a UTF-8
encoding, and without it a text has one if and only if all strings within the value have.
-/

namespace Python

open Str CodePoint

variable {R : Type}

mutual

/-- The strings within a value, the keys of its objects included. -/
def Value.strings : Value R → List Str
  | .str s => [s]
  | .list l => stringsItems l
  | .dict fields => stringsFields fields
  | .none | .bool _ | .int _ | .float _ => []

def stringsItems : List (Value R) → List Str
  | [] => []
  | v :: l => v.strings ++ stringsItems l

def stringsFields : List (Str × Value R) → List Str
  | [] => []
  | (k, v) :: fields => k :: (v.strings ++ stringsFields fields)

end

/-! ## The code points that an escape is made of -/

/-- Printable ASCII. -/
def IsPrintable (c : CodePoint) : Prop := 32 ≤ c.val ∧ c.val < 127

instance (c : CodePoint) : Decidable (IsPrintable c) := inferInstanceAs (Decidable (_ ∧ _))

theorem isPrintable_hexDigit (d : ℕ) : IsPrintable (hexDigit d) := by
  rw [IsPrintable, hexDigit_val]
  split <;> omega

theorem isPrintable_of_mem_escapeUnit {u : ℕ} {c : CodePoint} (h : c ∈ escapeUnit u) :
    IsPrintable c := by
  simp only [escapeUnit, List.mem_cons, List.not_mem_nil, or_false] at h
  rcases h with rfl | rfl | rfl | rfl | rfl | rfl
  · decide
  · decide
  all_goals exact isPrintable_hexDigit _

theorem isPrintable_shortEscape {c e : CodePoint} (h : shortEscape c = some e) : IsPrintable e := by
  rw [shortEscape] at h
  repeat' split at h
  all_goals first
    | (obtain rfl := Option.some.inj h; decide)
    | cases h

/-- A code point is escaped by printable ASCII, or it is written as it is. -/
theorem mem_escape {ensureAscii : Bool} {c d : CodePoint} (h : d ∈ escape ensureAscii c) :
    IsPrintable d ∨ ensureAscii = false ∧ d = c ∧ 32 ≤ c.val := by
  rw [escape] at h
  split at h
  · next e he =>
    rcases List.mem_pair.mp h with rfl | rfl
    · exact .inl (by decide)
    · exact .inl (isPrintable_shortEscape he)
  split at h
  · exact .inl (isPrintable_of_mem_escapeUnit h)
  next hlow =>
  split at h
  · split at h
    · exact .inl (isPrintable_of_mem_escapeUnit h)
    · rcases List.mem_append.mp h with h | h
      · exact .inl (isPrintable_of_mem_escapeUnit h)
      · exact .inl (isPrintable_of_mem_escapeUnit h)
  · next hhigh =>
    obtain rfl := List.mem_singleton.mp h
    simp only [Bool.and_eq_true, decide_eq_true_eq, not_and] at hhigh
    cases ensureAscii with
    | false => exact .inr ⟨rfl, rfl, by omega⟩
    | true =>
      have := hhigh rfl
      exact .inl ⟨by omega, by omega⟩

theorem escape_surrogate {c : CodePoint} (h : c.isSurrogate = true) : escape false c = [c] := by
  simp only [isSurrogate, Bool.and_eq_true, decide_eq_true_eq] at h
  have hne : ∀ a : CodePoint, a.val < 0xD800 → c ≠ a := by
    rintro a ha rfl
    omega
  have hshort : shortEscape c = none := by
    rw [shortEscape, if_neg (hne _ (by decide)), if_neg (hne _ (by decide)),
      if_neg (hne _ (by decide)), if_neg (hne _ (by decide)), if_neg (hne _ (by decide)),
      if_neg (by omega), if_neg (by omega)]
  rw [escape, hshort]
  simp only [Bool.false_and, Bool.false_eq_true, if_false]
  rw [if_neg (by omega)]

theorem isPrintable_of_mem_ofString {word : String}
    (h : (ofString word).all (IsPrintable ·) = true) {c : CodePoint} (hc : c ∈ ofString word) :
    IsPrintable c :=
  of_decide_eq_true (List.all_eq_true.mp h c hc)

/-! ## The code points of a text -/

section Encode

theorem isPrintable_of_mem_encodeInt {n : ℤ} {c : CodePoint} (h : c ∈ encodeInt n) :
    IsPrintable c := by
  rcases List.mem_append.mp h with h | h
  · split at h
    · obtain rfl := List.mem_singleton.mp h
      decide
    · exact absurd h List.not_mem_nil
  · have hdigit := isDigit_of_mem_decimal h
    simp only [isDigit, Bool.and_eq_true, decide_eq_true_eq] at hdigit
    exact ⟨by omega, by omega⟩

variable [FloatText R] [LawfulFloatText R]

theorem isPrintable_of_mem_encodeFloat {x : R} {c : CodePoint} (h : c ∈ encodeFloat x) :
    IsPrintable c := by
  rw [encodeFloat] at h
  split at h
  · have hrepr := LawfulFloatText.repr_ascii x c h
    exact ⟨by omega, by omega⟩
  · exact isPrintable_of_mem_ofString (by decide) h
  · exact isPrintable_of_mem_ofString (by decide) h
  · exact isPrintable_of_mem_ofString (by decide) h

section Text

omit [LawfulFloatText R]

variable {P : CodePoint → Prop} {style : JsonStyle}

theorem forall_mem_newline (hprint : ∀ c, IsPrintable c → P c)
    (hnewline : style.indent ≠ none → P (ofChar '\n')) (level : ℕ) :
    ∀ c ∈ style.newline level, P c := by
  intro c hc
  rw [JsonStyle.newline] at hc
  split at hc
  · exact absurd hc List.not_mem_nil
  · next n hindent =>
    rcases List.mem_cons.mp hc with rfl | hc
    · exact hnewline (by rw [hindent]; exact Option.some_ne_none n)
    · rw [List.eq_of_mem_replicate hc]
      exact hprint _ (by decide)

theorem forall_mem_blanks (hprint : ∀ c, IsPrintable c → P c) (n : ℕ) :
    ∀ c ∈ List.replicate n (ofChar ' '), P c := by
  intro c hc
  rw [List.eq_of_mem_replicate hc]
  exact hprint _ (by decide)

theorem forall_mem_encodeStr (hprint : ∀ c, IsPrintable c → P c) {s : Str}
    (hs : ∀ c ∈ s, ∀ d ∈ escape style.ensureAscii c, P d) :
    ∀ c ∈ encodeStr style.ensureAscii s, P c := by
  intro c hc
  rcases List.mem_cons.mp hc with rfl | hc
  · exact hprint _ (by decide)
  rcases List.mem_append.mp hc with hc | hc
  · obtain ⟨a, ha, hmem⟩ := List.mem_flatMap.mp hc
    exact hs a ha c hmem
  · obtain rfl := List.mem_singleton.mp hc
    exact hprint _ (by decide)

theorem forall_mem_itemSep (hprint : ∀ c, IsPrintable c → P c)
    (hnewline : style.indent ≠ none → P (ofChar '\n')) (level : ℕ) :
    ∀ c ∈ style.itemSep level, P c := by
  rw [JsonStyle.itemSep]
  simp only [List.forall_mem_cons, List.forall_mem_append]
  exact ⟨hprint _ (by decide), forall_mem_blanks hprint _, forall_mem_newline hprint hnewline _⟩

theorem forall_mem_keySep (hprint : ∀ c, IsPrintable c → P c) : ∀ c ∈ style.keySep, P c := by
  rw [JsonStyle.keySep]
  simp only [List.forall_mem_cons]
  exact ⟨hprint _ (by decide), forall_mem_blanks hprint _⟩

mutual

/-- **The code points of a text** are printable ASCII, line breaks if it is indented, and the escapes
of the strings. -/
theorem forall_mem_encode [LawfulFloatText R] (hprint : ∀ c, IsPrintable c → P c)
    (hnewline : style.indent ≠ none → P (ofChar '\n')) (level : ℕ) :
    ∀ v : Value R, (∀ s ∈ v.strings, ∀ c ∈ s, ∀ d ∈ escape style.ensureAscii c, P d) →
      ∀ c ∈ encode style level v, P c
  | .none, _ => fun c hc ↦ hprint c (isPrintable_of_mem_ofString (by decide) hc)
  | .bool true, _ => fun c hc ↦ hprint c (isPrintable_of_mem_ofString (by decide) hc)
  | .bool false, _ => fun c hc ↦ hprint c (isPrintable_of_mem_ofString (by decide) hc)
  | .int _, _ => fun c hc ↦ hprint c (isPrintable_of_mem_encodeInt hc)
  | .float _, _ => fun c hc ↦ hprint c (isPrintable_of_mem_encodeFloat hc)
  | .str s, hs => forall_mem_encodeStr hprint (hs s (List.mem_singleton_self s))
  | .list [], _ => fun c hc ↦ hprint c (isPrintable_of_mem_ofString (by decide) hc)
  | .list (v :: l), hs => by
    simp only [Value.strings, stringsItems, List.forall_mem_append] at hs
    simp only [encode, List.forall_mem_cons, List.forall_mem_append, List.not_mem_nil,
      false_implies, implies_true, and_true]
    exact ⟨hprint _ (by decide), forall_mem_newline hprint hnewline _,
      forall_mem_encode hprint hnewline _ v hs.1, forall_mem_encodeItems hprint hnewline _ l hs.2,
      forall_mem_newline hprint hnewline _, hprint _ (by decide)⟩
  | .dict [], _ => fun c hc ↦ hprint c (isPrintable_of_mem_ofString (by decide) hc)
  | .dict ((k, v) :: fields), hs => by
    simp only [Value.strings, stringsFields, List.forall_mem_cons, List.forall_mem_append] at hs
    simp only [encode, List.forall_mem_cons, List.forall_mem_append, List.not_mem_nil,
      false_implies, implies_true, and_true]
    exact ⟨hprint _ (by decide), forall_mem_newline hprint hnewline _,
      forall_mem_encodeStr hprint hs.1, forall_mem_keySep hprint,
      forall_mem_encode hprint hnewline _ v hs.2.1,
      forall_mem_encodeFields hprint hnewline _ fields hs.2.2,
      forall_mem_newline hprint hnewline _, hprint _ (by decide)⟩

theorem forall_mem_encodeItems [LawfulFloatText R] (hprint : ∀ c, IsPrintable c → P c)
    (hnewline : style.indent ≠ none → P (ofChar '\n')) (level : ℕ) :
    ∀ l : List (Value R), (∀ s ∈ stringsItems l, ∀ c ∈ s, ∀ d ∈ escape style.ensureAscii c, P d) →
      ∀ c ∈ encodeItems style level l, P c
  | [], _ => fun _ hc ↦ absurd hc List.not_mem_nil
  | v :: l, hs => by
    simp only [stringsItems, List.forall_mem_append] at hs
    simp only [encodeItems, List.forall_mem_append]
    exact ⟨forall_mem_itemSep hprint hnewline _, forall_mem_encode hprint hnewline _ v hs.1,
      forall_mem_encodeItems hprint hnewline _ l hs.2⟩

theorem forall_mem_encodeFields [LawfulFloatText R] (hprint : ∀ c, IsPrintable c → P c)
    (hnewline : style.indent ≠ none → P (ofChar '\n')) (level : ℕ) :
    ∀ fields : List (Str × Value R),
      (∀ s ∈ stringsFields fields, ∀ c ∈ s, ∀ d ∈ escape style.ensureAscii c, P d) →
        ∀ c ∈ encodeFields style level fields, P c
  | [], _ => fun _ hc ↦ absurd hc List.not_mem_nil
  | (k, v) :: fields, hs => by
    simp only [stringsFields, List.forall_mem_cons, List.forall_mem_append] at hs
    simp only [encodeFields, List.forall_mem_append]
    exact ⟨forall_mem_itemSep hprint hnewline _, forall_mem_encodeStr hprint hs.1,
      forall_mem_keySep hprint, forall_mem_encode hprint hnewline _ v hs.2.1,
      forall_mem_encodeFields hprint hnewline _ fields hs.2.2⟩

end

section Surrogates

variable {s : Str} {c : CodePoint}

theorem mem_encodeStr_of_isSurrogate (hascii : style.ensureAscii = false)
    (hsurrogate : c.isSurrogate = true) (hc : c ∈ s) : c ∈ encodeStr style.ensureAscii s := by
  refine List.mem_cons_of_mem _ (List.mem_append_left _ (List.mem_flatMap.mpr ⟨c, hc, ?_⟩))
  rw [hascii, escape_surrogate hsurrogate]
  exact List.mem_singleton_self c

mutual

/-- **Without `ensure_ascii`** the surrogates of a string go into the text as they are. -/
theorem mem_encode_of_isSurrogate (hascii : style.ensureAscii = false)
    (hsurrogate : c.isSurrogate = true) (hc : c ∈ s) (level : ℕ) :
    ∀ v : Value R, s ∈ v.strings → c ∈ encode style level v
  | .none, hs | .bool _, hs | .int _, hs | .float _, hs => absurd hs List.not_mem_nil
  | .str s', hs => by
    obtain rfl := List.mem_singleton.mp hs
    exact mem_encodeStr_of_isSurrogate hascii hsurrogate hc
  | .list [], hs | .dict [], hs => absurd hs List.not_mem_nil
  | .list (v :: l), hs => by
    rw [Value.strings, stringsItems] at hs
    simp only [encode, List.mem_cons, List.mem_append]
    rcases List.mem_append.mp hs with hs | hs
    · exact .inr (.inr (.inl (mem_encode_of_isSurrogate hascii hsurrogate hc _ v hs)))
    · exact .inr (.inr (.inr (.inl (mem_encodeItems_of_isSurrogate hascii hsurrogate hc _ l hs))))
  | .dict ((k, v) :: fields), hs => by
    rw [Value.strings, stringsFields] at hs
    simp only [encode, List.mem_cons, List.mem_append]
    rcases List.mem_cons.mp hs with rfl | hs
    · exact .inr (.inr (.inl (mem_encodeStr_of_isSurrogate hascii hsurrogate hc)))
    rcases List.mem_append.mp hs with hs | hs
    · exact .inr (.inr (.inr (.inr (.inl (mem_encode_of_isSurrogate hascii hsurrogate hc _ v hs)))))
    · exact .inr (.inr (.inr (.inr (.inr (.inl
        (mem_encodeFields_of_isSurrogate hascii hsurrogate hc _ fields hs))))))

theorem mem_encodeItems_of_isSurrogate (hascii : style.ensureAscii = false)
    (hsurrogate : c.isSurrogate = true) (hc : c ∈ s) (level : ℕ) :
    ∀ l : List (Value R), s ∈ stringsItems l → c ∈ encodeItems style level l
  | [], hs => absurd hs List.not_mem_nil
  | v :: l, hs => by
    rw [encodeItems]
    refine List.mem_append_right _ (List.mem_append.mpr ?_)
    rcases List.mem_append.mp hs with hs | hs
    · exact .inl (mem_encode_of_isSurrogate hascii hsurrogate hc _ v hs)
    · exact .inr (mem_encodeItems_of_isSurrogate hascii hsurrogate hc _ l hs)

theorem mem_encodeFields_of_isSurrogate (hascii : style.ensureAscii = false)
    (hsurrogate : c.isSurrogate = true) (hc : c ∈ s) (level : ℕ) :
    ∀ fields : List (Str × Value R), s ∈ stringsFields fields → c ∈ encodeFields style level fields
  | [], hs => absurd hs List.not_mem_nil
  | (k, v) :: fields, hs => by
    simp only [encodeFields, List.mem_append]
    rcases List.mem_cons.mp hs with rfl | hs
    · exact .inr (.inl (mem_encodeStr_of_isSurrogate hascii hsurrogate hc))
    rcases List.mem_append.mp hs with hs | hs
    · exact .inr (.inr (.inr (.inl (mem_encode_of_isSurrogate hascii hsurrogate hc _ v hs))))
    · exact .inr (.inr (.inr (.inr
        (mem_encodeFields_of_isSurrogate hascii hsurrogate hc _ fields hs))))

end

end Surrogates

end Text

/-- **With `ensure_ascii`** a text is printable ASCII but for the line breaks of its indentation. -/
theorem mem_encode_ascii {style : JsonStyle} (hascii : style.ensureAscii = true) {level : ℕ}
    {v : Value R} {c : CodePoint} (h : c ∈ encode style level v) :
    IsPrintable c ∨ style.indent ≠ none ∧ c = ofChar '\n' := by
  refine forall_mem_encode (P := fun c ↦ IsPrintable c ∨ style.indent ≠ none ∧ c = ofChar '\n')
    (fun _ ↦ .inl) (fun hindent ↦ .inr ⟨hindent, rfl⟩) level v ?_ c h
  intro s _ a _ d hd
  rw [hascii] at hd
  rcases mem_escape hd with hd | ⟨hfalse, -⟩
  · exact .inl hd
  · exact absurd hfalse (by decide)

theorem isSurrogate_of_isPrintable {c : CodePoint} (h : IsPrintable c) : c.isSurrogate = false := by
  obtain ⟨-, h⟩ := h
  simp only [isSurrogate, Bool.and_eq_false_iff, decide_eq_false_iff_not]
  omega

theorem encodable_encode_ascii {style : JsonStyle} (hascii : style.ensureAscii = true) (level : ℕ)
    (v : Value R) : Utf8.Encodable (encode style level v) := by
  intro c hc
  rcases mem_encode_ascii hascii hc with h | ⟨-, rfl⟩
  · exact isSurrogate_of_isPrintable h
  · decide

theorem notMem_encode_ascii {style : JsonStyle} (hascii : style.ensureAscii = true) {level : ℕ}
    {v : Value R} {c : CodePoint} (hc : ¬IsPrintable c)
    (hline : style.indent = none ∨ c ≠ ofChar '\n') : c ∉ encode style level v := by
  intro h
  rcases mem_encode_ascii hascii h with h | ⟨hindent, rfl⟩
  · exact hc h
  · rcases hline with hline | hline
    · exact hindent hline
    · exact hline rfl

end Encode

end Python
