import Mathlib.Data.List.Basic
import Mathlib.Data.List.Nodup
import Mathlib.Tactic.Common

/-!
# Insertion-ordered dictionaries

A Python `dict` remembers the order in which its keys were first inserted, overwrites the value
of a key it already holds without moving it, and holds every key once. The last of these is a
field of the structure here, so a dictionary with a repeated key cannot be built.

Every operation is characterised by what it does to lookup, `get?`; nothing outside this file
unfolds an operation.
-/

namespace Python

/-- A dictionary: its items in insertion order, no key twice. -/
structure Dict (κ ν : Type) where
  /-- The key-value pairs, oldest key first. -/
  items : List (κ × ν)
  /-- No key occurs twice. -/
  nodup : (items.map Prod.fst).Nodup

namespace Dict

variable {κ ν : Type}

/-- The keys, in insertion order. -/
def keys (d : Dict κ ν) : List κ := d.items.map Prod.fst

/-- The values, in insertion order of their keys. -/
def values (d : Dict κ ν) : List ν := d.items.map Prod.snd

/-- The empty dictionary `{}`. -/
def empty : Dict κ ν := ⟨[], List.nodup_nil⟩

instance : Inhabited (Dict κ ν) := ⟨empty⟩

theorem keys_nodup (d : Dict κ ν) : d.keys.Nodup := d.nodup

@[simp] theorem keys_empty : (empty : Dict κ ν).keys = [] := rfl

@[ext] theorem ext {d e : Dict κ ν} (h : d.items = e.items) : d = e := by
  cases d; cases e; cases h; rfl

variable [DecidableEq κ]

/-- `d.get(k)`: the value held under `k`, if there is one. -/
def get? (d : Dict κ ν) (k : κ) : Option ν := d.items.lookup k

/-- `d.get(k, default)`. -/
def getD (d : Dict κ ν) (k : κ) (default : ν) : ν := (d.get? k).getD default

/-- `k in d`. -/
def contains (d : Dict κ ν) (k : κ) : Bool := (d.get? k).isSome

/-- The items after `d[k] = v`: a key already there keeps its place, a new one goes last. -/
def setItems (k : κ) (v : ν) : List (κ × ν) → List (κ × ν)
  | [] => [(k, v)]
  | p :: l => if p.1 = k then (k, v) :: l else p :: setItems k v l

theorem map_fst_setItems (k : κ) (v : ν) (l : List (κ × ν)) :
    (setItems k v l).map Prod.fst
      = if k ∈ l.map Prod.fst then l.map Prod.fst else l.map Prod.fst ++ [k] := by
  induction l with
  | nil => simp [setItems]
  | cons p l ih =>
    by_cases hp : p.1 = k
    · simp [setItems, hp]
    · simp only [setItems, if_neg hp, List.map_cons, ih, List.mem_cons, Ne.symm hp, false_or]
      split <;> rfl

private theorem lookup_cons_ite (k a : κ) (b : ν) (l : List (κ × ν)) :
    ((a, b) :: l).lookup k = if k = a then some b else l.lookup k := by
  by_cases h : k = a
  · simp [h]
  · rw [if_neg h, List.lookup_cons, beq_false_of_ne h]

theorem lookup_setItems (k k' : κ) (v : ν) (l : List (κ × ν)) :
    (setItems k v l).lookup k' = if k' = k then some v else l.lookup k' := by
  induction l with
  | nil => rw [setItems, lookup_cons_ite]
  | cons p l ih =>
    obtain ⟨a, b⟩ := p
    by_cases ha : a = k
    · subst ha
      rw [setItems, if_pos rfl, lookup_cons_ite, lookup_cons_ite]
      split <;> rfl
    · rw [setItems, if_neg ha, lookup_cons_ite, lookup_cons_ite, ih]
      by_cases hk : k' = a
      · rw [if_pos hk, if_neg (hk ▸ ha), if_pos hk]
      · rw [if_neg hk, if_neg hk]

/-- `d[k] = v`. -/
def set (d : Dict κ ν) (k : κ) (v : ν) : Dict κ ν where
  items := setItems k v d.items
  nodup := by
    rw [map_fst_setItems]
    split
    · exact d.nodup
    · next h =>
      refine List.nodup_append.2 ⟨d.nodup, List.nodup_singleton k, fun a ha b hb hab ↦ h ?_⟩
      rwa [← List.mem_singleton.1 hb, ← hab]

/-- `del d[k]`, and what `d.pop(k)` leaves behind. -/
def erase (d : Dict κ ν) (k : κ) : Dict κ ν where
  items := d.items.filter (·.1 ≠ k)
  nodup := d.nodup.sublist (List.filter_sublist.map Prod.fst)

/-- Change the value under a key, if the key is there. -/
def modify (d : Dict κ ν) (k : κ) (f : ν → ν) : Dict κ ν :=
  match d.get? k with
  | none => d
  | some v => d.set k (f v)

/-- The dictionary built by assigning the pairs one after the other. -/
def ofPairs (l : List (κ × ν)) : Dict κ ν := l.foldl (fun d p ↦ d.set p.1 p.2) empty

/-! ## Lookup -/

@[simp] theorem get?_empty (k : κ) : (empty : Dict κ ν).get? k = none := rfl

@[simp] theorem get?_set (d : Dict κ ν) (k k' : κ) (v : ν) :
    (d.set k v).get? k' = if k' = k then some v else d.get? k' :=
  lookup_setItems k k' v d.items

theorem get?_set_self (d : Dict κ ν) (k : κ) (v : ν) : (d.set k v).get? k = some v := by simp

theorem get?_set_of_ne (d : Dict κ ν) {k k' : κ} (h : k' ≠ k) (v : ν) :
    (d.set k v).get? k' = d.get? k' := by simp [h]

theorem keys_set (d : Dict κ ν) (k : κ) (v : ν) :
    (d.set k v).keys = if k ∈ d.keys then d.keys else d.keys ++ [k] :=
  map_fst_setItems k v d.items

theorem get?_eq_some_iff {d : Dict κ ν} {k : κ} {v : ν} :
    d.get? k = some v ↔ (k, v) ∈ d.items := by
  rw [get?, List.lookup_eq_some_iff]
  constructor
  · rintro ⟨l₁, l₂, h, -⟩
    simp [h]
  · intro h
    obtain ⟨l₁, l₂, hl⟩ := List.append_of_mem h
    refine ⟨l₁, l₂, hl, fun p hp ↦ ?_⟩
    have hnd := d.nodup
    rw [hl, List.map_append, List.map_cons, List.nodup_append] at hnd
    simpa using Ne.symm (hnd.2.2 p.1 (List.mem_map_of_mem hp) k (List.mem_cons_self ..))

theorem get?_eq_none_iff {d : Dict κ ν} {k : κ} : d.get? k = none ↔ k ∉ d.keys := by
  simp only [get?, keys, List.lookup_eq_none_iff, List.mem_map, not_exists, not_and,
    bne_iff_ne]
  exact ⟨fun h p hp e ↦ h p hp e.symm, fun h p hp e ↦ h p hp e.symm⟩

theorem mem_keys_iff {d : Dict κ ν} {k : κ} : k ∈ d.keys ↔ ∃ v, d.get? k = some v := by
  rw [← Option.isSome_iff_exists, ← Option.ne_none_iff_isSome, Ne, get?_eq_none_iff, not_not]

@[simp] theorem get?_erase (d : Dict κ ν) (k k' : κ) :
    (d.erase k).get? k' = if k' = k then none else d.get? k' := by
  ext v
  by_cases hk : k' = k
  · simp [get?_eq_some_iff, hk, erase]
  · simp [get?_eq_some_iff, hk, erase]

@[simp] theorem get?_modify (d : Dict κ ν) (k k' : κ) (f : ν → ν) :
    (d.modify k f).get? k' = if k' = k then (d.get? k').map f else d.get? k' := by
  rcases h : d.get? k with _ | v
  · simp only [modify, h]
    by_cases hk : k' = k
    · simp [hk, h]
    · simp [hk]
  · simp only [modify, h, get?_set]
    by_cases hk : k' = k
    · simp [hk, h]
    · simp [hk]

theorem keys_modify (d : Dict κ ν) (k : κ) (f : ν → ν) : (d.modify k f).keys = d.keys := by
  rcases h : d.get? k with _ | v
  · simp only [modify, h]
  · simp only [modify, h, keys_set, if_pos (mem_keys_iff.2 ⟨v, h⟩)]

theorem items_set_of_notMem {d : Dict κ ν} {k : κ} (hk : k ∉ d.keys) (v : ν) :
    (d.set k v).items = d.items ++ [(k, v)] := by
  suffices h : ∀ l : List (κ × ν), k ∉ l.map Prod.fst → setItems k v l = l ++ [(k, v)] from
    h d.items hk
  intro l
  induction l with
  | nil => exact fun _ ↦ rfl
  | cons p l ih =>
    intro hl
    rw [List.map_cons, List.mem_cons, not_or] at hl
    rw [setItems, if_neg (Ne.symm hl.1), ih hl.2, List.cons_append]

/-- Changing the value under a key keeps the items before it and after it. -/
theorem exists_items_modify {d : Dict κ ν} {k : κ} {v : ν} (h : d.get? k = some v) (f : ν → ν) :
    ∃ l₁ l₂, d.items = l₁ ++ (k, v) :: l₂ ∧ (d.modify k f).items = l₁ ++ (k, f v) :: l₂ := by
  suffices hgen : ∀ l : List (κ × ν), (l.map Prod.fst).Nodup → l.lookup k = some v →
      ∃ l₁ l₂, l = l₁ ++ (k, v) :: l₂ ∧ setItems k (f v) l = l₁ ++ (k, f v) :: l₂ by
    simp only [modify, h]
    exact hgen d.items d.nodup h
  intro l
  induction l with
  | nil => exact fun _ hl ↦ (nomatch hl)
  | cons p l ih =>
    obtain ⟨a, b⟩ := p
    intro hnd hl
    rw [lookup_cons_ite] at hl
    by_cases ha : a = k
    · rw [if_pos ha.symm] at hl
      cases hl
      subst ha
      exact ⟨[], l, rfl, by rw [setItems, if_pos rfl, List.nil_append]⟩
    · rw [if_neg (Ne.symm ha)] at hl
      obtain ⟨l₁, l₂, hl₁, hl₂⟩ := ih (List.nodup_cons.1 hnd).2 hl
      refine ⟨(a, b) :: l₁, l₂, by rw [hl₁, List.cons_append], ?_⟩
      rw [setItems, if_neg ha, hl₂, List.cons_append]

theorem modify_eq_self_of_get?_eq_none {d : Dict κ ν} {k : κ} (h : d.get? k = none) (f : ν → ν) :
    d.modify k f = d := by
  simp only [modify, h]

/-! ## Dictionaries built from pairs -/

theorem get?_foldl_set_of_notMem {l : List (κ × ν)} {k : κ} (hk : k ∉ l.map Prod.fst)
    (d : Dict κ ν) : (l.foldl (fun d p ↦ d.set p.1 p.2) d).get? k = d.get? k := by
  induction l generalizing d with
  | nil => rfl
  | cons p l ih =>
    rw [List.map_cons, List.mem_cons, not_or] at hk
    rw [List.foldl_cons, ih hk.2, get?_set, if_neg hk.1]

theorem get?_ofPairs {l : List (κ × ν)} (hl : (l.map Prod.fst).Nodup) {k : κ} {v : ν}
    (h : (k, v) ∈ l) : (ofPairs l).get? k = some v := by
  obtain ⟨l₁, l₂, rfl⟩ := List.append_of_mem h
  rw [List.map_append, List.map_cons, List.nodup_append] at hl
  rw [ofPairs, List.foldl_append, List.foldl_cons,
    get?_foldl_set_of_notMem (List.nodup_cons.1 hl.2.1).1, get?_set_self]

theorem mem_keys_foldl_set {l : List (κ × ν)} {d : Dict κ ν} {k : κ} :
    k ∈ (l.foldl (fun d p ↦ d.set p.1 p.2) d).keys ↔ k ∈ d.keys ∨ k ∈ l.map Prod.fst := by
  induction l generalizing d with
  | nil => simp
  | cons p l ih =>
    have hset : k ∈ (d.set p.1 p.2).keys ↔ k ∈ d.keys ∨ k = p.1 := by
      rw [keys_set]
      split
      · next h => exact ⟨.inl, fun hk ↦ hk.elim id fun heq ↦ heq ▸ h⟩
      · rw [List.mem_append, List.mem_singleton]
    rw [List.foldl_cons, ih, hset, List.map_cons, List.mem_cons, or_assoc]

theorem mem_keys_ofPairs {l : List (κ × ν)} {k : κ} :
    k ∈ (ofPairs l).keys ↔ k ∈ l.map Prod.fst := by
  rw [ofPairs, mem_keys_foldl_set, keys_empty]
  exact or_iff_right List.not_mem_nil

/-- What is found was among the pairs. -/
theorem mem_of_get?_ofPairs {l : List (κ × ν)} {k : κ} {v : ν} (h : (ofPairs l).get? k = some v) :
    (k, v) ∈ l := by
  suffices hgen : ∀ (l : List (κ × ν)) (d : Dict κ ν),
      (l.foldl (fun d p ↦ d.set p.1 p.2) d).get? k = some v → d.get? k = some v ∨ (k, v) ∈ l from
    (hgen l empty h).resolve_left (by simp)
  intro l
  induction l with
  | nil => exact fun d h ↦ .inl h
  | cons p l ih =>
    intro d h
    rcases ih _ h with hset | hmem
    · rw [get?_set] at hset
      split at hset
      · next hk =>
        refine .inr (List.mem_cons.2 (.inl ?_))
        rw [hk, ← Option.some.inj hset]
      · exact .inl hset
    · exact .inr (List.mem_cons_of_mem p hmem)

theorem items_foldl_set {l : List (κ × ν)} {d : Dict κ ν}
    (h : (d.keys ++ l.map Prod.fst).Nodup) :
    (l.foldl (fun d p ↦ d.set p.1 p.2) d).items = d.items ++ l := by
  induction l generalizing d with
  | nil => exact (List.append_nil _).symm
  | cons p l ih =>
    have hp : p.1 ∉ d.keys := fun hmem ↦
      (List.nodup_append.1 h).2.2 _ hmem _ (List.mem_cons_self ..) rfl
    rw [List.map_cons, List.append_cons] at h
    rw [List.foldl_cons, ih, items_set_of_notMem hp, List.append_assoc, List.singleton_append]
    rwa [keys_set, if_neg hp]

theorem items_ofPairs {l : List (κ × ν)} (h : (l.map Prod.fst).Nodup) : (ofPairs l).items = l :=
  items_foldl_set h

end Dict

end Python
