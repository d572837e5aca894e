import ForgeData.Python.JsonCanonical

/-!
# Positions in values

A position in a value is a path of keys. Below a value that is no object there are none. Where no object
has a key twice, an entry is found under its key.
-/

namespace Python

variable {R : Type}

/-- The value at the end of a path of keys. -/
def nodeAt : Value R → List Str → Option (Value R)
  | v, [] => some v
  | .dict fields, part :: parts => match fields.lookup part with
    | none => none
    | some child => nodeAt child parts
  | _, _ :: _ => none

/-- No object that a path of keys leads to has a key twice. -/
def DistinctKeys (v : Value R) : Prop :=
  ∀ path fields, nodeAt v path = some (.dict fields) → (fields.map Prod.fst).Nodup

theorem DistinctKeys.nodup {fields : List (Str × Value R)} (h : DistinctKeys (.dict fields)) :
    (fields.map Prod.fst).Nodup :=
  h [] fields rfl

theorem DistinctKeys.of_lookup {fields : List (Str × Value R)} (h : DistinctKeys (.dict fields))
    {part : Str} {child : Value R} (hchild : fields.lookup part = some child) : DistinctKeys child := by
  intro path inner hpath
  refine h (part :: path) inner ?_
  rw [nodeAt, hchild]
  exact hpath

theorem lookup_eq_of_mem {fields : List (Str × Value R)} (hnodup : (fields.map Prod.fst).Nodup)
    {p : Str × Value R} (hp : p ∈ fields) : fields.lookup p.1 = some p.2 := by
  rcases hlookup : fields.lookup p.1 with _ | child
  · have hne := List.lookup_eq_none_iff.mp hlookup p hp
    rw [bne_self_eq_false] at hne
    exact Bool.noConfusion hne
  · obtain ⟨l₁, l₂, rfl, -⟩ := List.lookup_eq_some_iff.mp hlookup
    have heq := List.inj_on_of_nodup_map hnodup hp
      (List.mem_append_right l₁ (List.mem_cons_self (a := (p.1, child)))) rfl
    rw [heq]

theorem storable_of_lookup {fields : List (Str × Value R)} (h : StorableFields fields) {part : Str}
    {child : Value R} (hchild : fields.lookup part = some child) : child.Storable := by
  obtain ⟨l₁, l₂, rfl, -⟩ := List.lookup_eq_some_iff.mp hchild
  exact (storableFields_iff.mp h (part, child) (by simp)).2

theorem distinctKeys_of_storable {v : Value R} (h : v.Storable) : DistinctKeys v := by
  intro path
  induction path generalizing v with
  | nil =>
    rintro fields ⟨⟩
    rw [Value.Storable] at h
    exact h.1
  | cons part parts ih =>
    intro inner hinner
    cases v with
    | none | bool | int | float | str | list => cases hinner
    | dict fields =>
      rw [Value.Storable] at h
      rw [nodeAt] at hinner
      rcases hchild : fields.lookup part with _ | child
      · rw [hchild] at hinner
        cases hinner
      · rw [hchild] at hinner
        exact ih (storable_of_lookup h.2 hchild) inner hinner

end Python
