import Mathlib.Data.List.Sort
import Mathlib.Data.String.Basic

/-!
# JSON values

What `json.loads` returns. Objects keep their fields in order; a repeated field never arises, since
the parser keeps the last one. A number without a fraction is an integer; any other finite number is
kept by the text that `repr` gives for it, which tells floating-point numbers apart. The texts `NaN`
and `Infinity` are read by `json.loads` but not written again by `canonical_json`; they have no
value here.
-/

namespace Python

/-- A JSON value. -/
inductive Json where
  | null
  | bool (b : Bool)
  | int (n : Int)
  | real (text : String)
  | str (s : String)
  | arr (l : List Json)
  | obj (fields : List (String × Json))

namespace Json

mutual

/-- Equality of JSON values, decided along the value. -/
def decEq : (a b : Json) → Decidable (a = b)
  | null, b => match b with
    | null => isTrue rfl
    | bool _ | int _ | real _ | str _ | arr _ | obj _ => isFalse nofun
  | bool x, b => match b with
    | bool y => decidable_of_iff (x = y) ⟨congrArg bool, bool.inj⟩
    | null | int _ | real _ | str _ | arr _ | obj _ => isFalse nofun
  | int x, b => match b with
    | int y => decidable_of_iff (x = y) ⟨congrArg int, int.inj⟩
    | null | bool _ | real _ | str _ | arr _ | obj _ => isFalse nofun
  | real x, b => match b with
    | real y => decidable_of_iff (x = y) ⟨congrArg real, real.inj⟩
    | null | bool _ | int _ | str _ | arr _ | obj _ => isFalse nofun
  | str x, b => match b with
    | str y => decidable_of_iff (x = y) ⟨congrArg str, str.inj⟩
    | null | bool _ | int _ | real _ | arr _ | obj _ => isFalse nofun
  | arr x, b => match b with
    | arr y => match decEqList x y with
      | isTrue h => isTrue (congrArg arr h)
      | isFalse h => isFalse fun h' ↦ h (arr.inj h')
    | null | bool _ | int _ | real _ | str _ | obj _ => isFalse nofun
  | obj x, b => match b with
    | obj y => match decEqFields x y with
      | isTrue h => isTrue (congrArg obj h)
      | isFalse h => isFalse fun h' ↦ h (obj.inj h')
    | null | bool _ | int _ | real _ | str _ | arr _ => isFalse nofun

/-- Equality of lists of JSON values. -/
def decEqList : (a b : List Json) → Decidable (a = b)
  | [], [] => isTrue rfl
  | [], _ :: _ => isFalse nofun
  | _ :: _, [] => isFalse nofun
  | x :: a, y :: b => match decEq x y, decEqList a b with
    | isTrue h, isTrue h' => isTrue (by rw [h, h'])
    | isFalse h, _ => isFalse fun h' ↦ h (List.cons.inj h').1
    | _, isFalse h => isFalse fun h' ↦ h (List.cons.inj h').2

/-- Equality of the fields of two objects. -/
def decEqFields : (a b : List (String × Json)) → Decidable (a = b)
  | [], [] => isTrue rfl
  | [], _ :: _ => isFalse nofun
  | _ :: _, [] => isFalse nofun
  | (k, x) :: a, (k', y) :: b =>
    match decEq x y, decEqFields a b, inferInstanceAs (Decidable (k = k')) with
    | isTrue h, isTrue h', isTrue hk => isTrue (by rw [h, h', hk])
    | isFalse h, _, _ => isFalse fun h' ↦ h (Prod.mk.inj (List.cons.inj h').1).2
    | _, isFalse h, _ => isFalse fun h' ↦ h (List.cons.inj h').2
    | _, _, isFalse hk => isFalse fun h' ↦ hk (Prod.mk.inj (List.cons.inj h').1).1

end

instance : DecidableEq Json := decEq

instance : Inhabited Json := ⟨null⟩

/-- `data.get(k)`, of an object; anything else has no fields. -/
def get? (j : Json) (k : String) : Option Json :=
  match j with
  | obj fields => fields.lookup k
  | _ => none

/-- The text under a field, if there is one. -/
def getStr? (j : Json) (k : String) : Option String :=
  match j.get? k with
  | some (str s) => some s
  | _ => none

mutual

/-- The value that `canonical_json` writes: `sort_keys=True` orders the fields of every object. Two
values have the same canonical text exactly when these are equal. -/
def canonical : Json → Json
  | arr l => arr (canonicalList l)
  | obj fields => obj ((canonicalFields fields).insertionSort fun p q ↦ p.1 ≤ q.1)
  | j => j

def canonicalList : List Json → List Json
  | [] => []
  | j :: l => canonical j :: canonicalList l

def canonicalFields : List (String × Json) → List (String × Json)
  | [] => []
  | (k, j) :: l => (k, canonical j) :: canonicalFields l

end

/-! ## Fields of canonical values -/

theorem canonicalList_eq_map (l : List Json) : canonicalList l = l.map canonical := by
  induction l with
  | nil => rfl
  | cons j l ih => rw [canonicalList, ih, List.map_cons]

theorem lookup_canonicalFields (fields : List (String × Json)) (k : String) :
    (canonicalFields fields).lookup k = (fields.lookup k).map canonical := by
  induction fields with
  | nil => rfl
  | cons p fields ih =>
    obtain ⟨k', j⟩ := p
    rw [canonicalFields, List.lookup_cons, List.lookup_cons, ih]
    cases k == k' <;> rfl

/-- Sorting is stable, so the first field of a name stays the first one. -/
theorem lookup_insertionSort (fields : List (String × Json)) (k : String) :
    (fields.insertionSort fun p q ↦ p.1 ≤ q.1).lookup k = fields.lookup k := by
  have hinsert : ∀ (p : String × Json) (l : List (String × Json)),
      (l.orderedInsert (fun p q ↦ p.1 ≤ q.1) p).lookup k = (p :: l).lookup k := by
    intro p l
    induction l with
    | nil => rfl
    | cons q l ih =>
      rw [List.orderedInsert_cons]
      split
      · rfl
      · next hle =>
        have hne : p.1 ≠ q.1 := fun h ↦ hle (h ▸ le_refl _)
        rw [List.lookup_cons, ih, List.lookup_cons, List.lookup_cons, List.lookup_cons]
        by_cases hp : k = p.1
        · have hq : (k == q.1) = false := beq_false_of_ne (hp ▸ hne)
          rw [hq]
        · have hp' : (k == p.1) = false := beq_false_of_ne hp
          rw [hp']
  induction fields with
  | nil => rfl
  | cons p fields ih => rw [List.insertionSort_cons, hinsert, List.lookup_cons, List.lookup_cons, ih]

theorem get?_canonical (j : Json) (k : String) : j.canonical.get? k = (j.get? k).map canonical := by
  cases j with
  | obj fields => rw [canonical, get?, get?, lookup_insertionSort, lookup_canonicalFields]
  | null | bool | int | real | str | arr => rfl

theorem getStr?_canonical (j : Json) (k : String) : j.canonical.getStr? k = j.getStr? k := by
  rw [getStr?, getStr?, get?_canonical]
  rcases j.get? k with _ | v
  · rfl
  · cases v <;> rfl

end Json

end Python
