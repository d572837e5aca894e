import ForgeData.Cleaning.Rules
import ForgeData.Python.Positions

/-!
# Redaction

`apply_redactions` sets one path after the other to null, and only the paths that the row has. The
specification is a single pass over the row that nulls whatever stands at the end of any of the paths.
The two agree: a path that the row does not have changes nothing, and neither does one that leads
through a value already nulled.
-/

namespace ForgeData

namespace Cleaning

open Python

variable {R : Type}

/-! ## The specification -/

/-- What is left of a path that begins with `part`. -/
def restUnder (part : Str) : List Str → Option (List Str)
  | [] => none
  | first :: rest => if first = part then some rest else none

/-- What is left of the paths that begin with `part`. -/
def pathsUnder (part : Str) (paths : List (List Str)) : List (List Str) :=
  paths.filterMap (restUnder part)

mutual

/-- The value with null at the end of every path. -/
def redact (paths : List (List Str)) : Value R → Value R
  | .dict fields => .dict (redactFields paths fields)
  | v => v

def redactFields (paths : List (List Str)) : List (Str × Value R) → List (Str × Value R)
  | [] => []
  | (part, v) :: fields =>
    (part, if [part] ∈ paths then .none else redact (pathsUnder part paths) v) ::
      redactFields paths fields

end

theorem redactFields_eq_map (paths : List (List Str)) (fields : List (Str × Value R)) :
    redactFields paths fields = fields.map fun p ↦
      (p.1, if [p.1] ∈ paths then .none else redact (pathsUnder p.1 paths) p.2) := by
  induction fields with
  | nil => rfl
  | cons p fields ih =>
    obtain ⟨part, v⟩ := p
    rw [redactFields, ih, List.map_cons]

theorem lookup_redactFields (paths : List (List Str)) (fields : List (Str × Value R)) (part : Str) :
    (redactFields paths fields).lookup part = (fields.lookup part).map fun v ↦
      if [part] ∈ paths then .none else redact (pathsUnder part paths) v := by
  induction fields with
  | nil => rfl
  | cons p fields ih =>
    obtain ⟨k, v⟩ := p
    rw [redactFields, List.lookup_cons, List.lookup_cons, ih]
    by_cases hk : part = k
    · rw [hk, beq_self_eq_true]
      rfl
    · rw [beq_false_of_ne hk]

/-! ## One path -/

theorem pathsUnder_append_self (part : Str) (paths : List (List Str)) (rest : List Str) :
    pathsUnder part (paths ++ [part :: rest]) = pathsUnder part paths ++ [rest] := by
  have hrest : restUnder part (part :: rest) = some rest := if_pos rfl
  rw [pathsUnder, List.filterMap_append, List.filterMap_cons_some hrest, List.filterMap_nil, pathsUnder]

theorem pathsUnder_append_of_ne {part first : Str} (h : first ≠ part) (paths : List (List Str))
    (rest : List Str) : pathsUnder part (paths ++ [first :: rest]) = pathsUnder part paths := by
  have hrest : restUnder part (first :: rest) = none := if_neg h
  rw [pathsUnder, List.filterMap_append, List.filterMap_cons_none hrest, List.filterMap_nil,
    List.append_nil, pathsUnder]

theorem mem_append_of_ne {part first : Str} (h : first ≠ part) (paths : List (List Str))
    (rest : List Str) : [part] ∈ paths ++ [first :: rest] ↔ [part] ∈ paths := by
  rw [List.mem_append, List.mem_singleton, List.cons.injEq]
  exact or_iff_left fun heq ↦ h heq.1.symm

/-- Assigning to a key of a list of items without repeated keys changes the item of that key. -/
theorem setItems_eq_map {fields : List (Str × Value R)} {part : Str} {v : Value R}
    (hnodup : (fields.map Prod.fst).Nodup) (hpart : part ∈ fields.map Prod.fst) :
    Dict.setItems part v fields = fields.map fun p ↦ if p.1 = part then (part, v) else p := by
  induction fields with
  | nil => exact absurd hpart List.not_mem_nil
  | cons p fields ih =>
    rw [List.map_cons, List.nodup_cons] at hnodup
    rw [Dict.setItems, List.map_cons]
    by_cases hp : p.1 = part
    · have hrest : ∀ q ∈ fields, (if q.1 = part then (part, v) else q) = q := by
        intro q hq
        refine if_neg fun hq' ↦ hnodup.1 ?_
        rw [hp, ← hq']
        exact List.mem_map_of_mem hq
      rw [if_pos hp, if_pos hp, List.map_congr_left hrest, List.map_id']
    · rw [List.map_cons, List.mem_cons] at hpart
      rw [if_neg hp, if_neg hp, ih hnodup.2 (hpart.resolve_left fun h ↦ hp h.symm)]

/-- One more path through an object, where its first part is a key of the object. -/
theorem setNull_redactFields {fields : List (Str × Value R)} (hnodup : (fields.map Prod.fst).Nodup)
    {paths : List (List Str)} {part : Str} {parts : List Str} {child : Value R}
    (hchild : fields.lookup part = some child)
    (hset : parts ≠ [] →
      setNull (if [part] ∈ paths then .none else redact (pathsUnder part paths) child) parts =
        if [part] ∈ paths then .none else redact (pathsUnder part paths ++ [parts]) child) :
    setNull (redact paths (.dict fields)) (part :: parts) =
      redact (paths ++ [part :: parts]) (.dict fields) := by
  have hitem : (if parts = [] then Value.none else
      setNull (if [part] ∈ paths then .none else redact (pathsUnder part paths) child) parts) =
      if [part] ∈ paths ++ [part :: parts] then .none
      else redact (pathsUnder part (paths ++ [part :: parts])) child := by
    rw [pathsUnder_append_self]
    by_cases hparts : parts = []
    · subst hparts
      rw [if_pos rfl, if_pos (List.mem_append_right _ (List.mem_singleton_self _))]
    · have hmem : [part] ∈ paths ++ [part :: parts] ↔ [part] ∈ paths := by
        rw [List.mem_append, List.mem_singleton, List.cons.injEq]
        exact or_iff_left fun h ↦ hparts h.2.symm
      rw [if_neg hparts, hset hparts]
      simp only [hmem]
  have hkeys : (redactFields paths fields).map Prod.fst = fields.map Prod.fst := by
    rw [redactFields_eq_map, List.map_map]
    rfl
  obtain ⟨l₁, l₂, rfl, -⟩ := List.lookup_eq_some_iff.mp hchild
  rw [redact, setNull, lookup_redactFields, hchild]
  simp only [Option.map_some]
  rw [hitem, setItems_eq_map (by rwa [hkeys]) (by rw [hkeys]; simp), redact, redactFields_eq_map,
    redactFields_eq_map, List.map_map]
  refine congrArg Value.dict (List.map_congr_left fun p hp ↦ ?_)
  simp only [Function.comp_apply]
  by_cases hpart : p.1 = part
  · obtain rfl : p = (part, child) :=
      List.inj_on_of_nodup_map hnodup hp (List.mem_append_right _ List.mem_cons_self) hpart
    rw [if_pos rfl]
  · rw [if_neg hpart, pathsUnder_append_of_ne (Ne.symm hpart)]
    simp only [mem_append_of_ne (Ne.symm hpart)]

theorem redact_append_of_lookup_eq_none {fields : List (Str × Value R)} {part : Str}
    (hpart : fields.lookup part = none) (paths : List (List Str)) (parts : List Str) :
    redact (paths ++ [part :: parts]) (.dict fields) = redact paths (.dict fields) := by
  rw [redact, redact, redactFields_eq_map, redactFields_eq_map]
  refine congrArg Value.dict (List.map_congr_left fun p hp ↦ ?_)
  have hne : part ≠ p.1 := by
    intro heq
    have := List.lookup_eq_none_iff.mp hpart p hp
    rw [heq, bne_self_eq_false] at this
    exact Bool.noConfusion this
  rw [pathsUnder_append_of_ne hne]
  simp only [mem_append_of_ne hne]

/-- **One more path.** Nulling the end of a path in a value that is redacted already. -/
theorem setNull_redact {v : Value R} (h : DistinctKeys v) (paths : List (List Str)) {path : List Str}
    (hpath : path ≠ []) : setNull (redact paths v) path = redact (paths ++ [path]) v := by
  induction path generalizing v paths with
  | nil => exact absurd rfl hpath
  | cons part parts ih =>
    cases v with
    | none | bool | int | float | str | list => rw [redact, redact, setNull] <;> exact nofun
    | dict fields =>
      rcases hchild : fields.lookup part with _ | child
      · rw [redact_append_of_lookup_eq_none hchild, redact, setNull, lookup_redactFields, hchild]
        rfl
      · refine setNull_redactFields h.nodup hchild fun hparts ↦ ?_
        split
        · cases parts <;> rfl
        · exact ih (h.of_lookup hchild) _ hparts

/-! ## All paths -/

mutual

theorem redact_nil : ∀ v : Value R, redact [] v = v
  | .none | .bool _ | .int _ | .float _ | .str _ | .list _ => by rw [redact]; exact nofun
  | .dict fields => by rw [redact, redactFields_nil fields]

theorem redactFields_nil : ∀ fields : List (Str × Value R), redactFields [] fields = fields
  | [] => rfl
  | (part, v) :: fields => by
    have hunder : pathsUnder part [] = [] := rfl
    rw [redactFields, if_neg List.not_mem_nil, hunder, redact_nil v, redactFields_nil fields]

end

/-- The paths that the row has, below one of its keys. -/
theorem pathsUnder_filter {fields : List (Str × Value R)} {part : Str} {child : Value R}
    (hchild : fields.lookup part = some child) (paths : List (List Str)) :
    pathsUnder part (paths.filter (pathExists (.dict fields))) =
      (pathsUnder part paths).filter (pathExists child) := by
  induction paths with
  | nil => rfl
  | cons path paths ih =>
    have hcons : ∀ paths, pathsUnder part (path :: paths) =
        (restUnder part path).toList ++ pathsUnder part paths := by
      intro paths
      rw [pathsUnder, List.filterMap_cons, pathsUnder]
      cases restUnder part path <;> rfl
    rw [hcons, List.filter_append, ← ih, List.filter_cons]
    cases path with
    | nil => rw [pathExists, if_pos rfl, hcons]; rfl
    | cons first rest =>
      rw [restUnder]
      by_cases hfirst : first = part
      · subst hfirst
        have hexists : pathExists (.dict fields) (first :: rest) = pathExists child rest := by
          rw [pathExists, hchild]
        rw [hexists, if_pos rfl, Option.toList_some, List.filter_cons, List.filter_nil]
        by_cases hrest : pathExists child rest = true
        · rw [if_pos hrest, if_pos hrest, hcons, restUnder, if_pos rfl, Option.toList_some]
        · rw [if_neg hrest, if_neg hrest, List.nil_append]
      · rw [if_neg hfirst, Option.toList_none, List.filter_nil, List.nil_append]
        split
        · rw [hcons, restUnder, if_neg hfirst, Option.toList_none, List.nil_append]
        · rfl

mutual

theorem redact_filter : ∀ {v : Value R}, DistinctKeys v → ∀ paths,
    redact (paths.filter (pathExists v)) v = redact paths v
  | .none, _, _ | .bool _, _, _ | .int _, _, _ | .float _, _, _ | .str _, _, _ | .list _, _, _ => by
    rw [redact, redact] <;> exact nofun
  | .dict fields, h, paths => by
    rw [redact, redact, redactFields_eq_map, redactFields_eq_map]
    refine congrArg Value.dict (List.map_congr_left fun p hp ↦ ?_)
    have hchild : fields.lookup p.1 = some p.2 := lookup_eq_of_mem h.nodup hp
    have hmem : [p.1] ∈ paths.filter (pathExists (.dict fields)) ↔ [p.1] ∈ paths := by
      rw [List.mem_filter, pathExists, hchild]
      exact and_iff_left (by simp only [pathExists])
    simp only [hmem]
    rw [pathsUnder_filter hchild, forall_redact_filter p hp (h.of_lookup hchild)]

theorem forall_redact_filter : ∀ {fields : List (Str × Value R)}, ∀ p ∈ fields, DistinctKeys p.2 →
    ∀ paths, redact (paths.filter (pathExists p.2)) p.2 = redact paths p.2
  | [], _, hp, _, _ => absurd hp List.not_mem_nil
  | (_, v) :: fields, p, hp, h, paths => by
    rcases List.mem_cons.mp hp with rfl | hp
    · exact redact_filter h paths
    · exact forall_redact_filter p hp h paths

end

/-- **`apply_redactions` nulls the ends of all its paths.** -/
theorem applyRedactions_eq_redact {v : Value R} (h : DistinctKeys v) (fields : List Str) :
    applyRedactions v fields = redact (fields.map pathParts) v := by
  suffices hgen : ∀ (fields : List Str) (paths : List (List Str)),
      applyRedactions (redact paths v) fields = redact (paths ++ fields.map pathParts) v by
    have hall := hgen fields []
    rwa [redact_nil, List.nil_append] at hall
  intro fields
  induction fields with
  | nil => exact fun paths ↦ by rw [List.map_nil, List.append_nil]; rfl
  | cons path fields ih =>
    intro paths
    have hpath : pathParts path ≠ [] := List.splitOn_ne_nil _ _
    have hstep : applyRedactions (redact paths v) (path :: fields) =
        applyRedactions (setNull (redact paths v) (pathParts path)) fields := rfl
    rw [hstep, setNull_redact h paths hpath, ih, List.append_assoc, List.singleton_append, List.map_cons]

/-- **The privacy rule and the evaluator together** null whatever stands at the end of a configured
path. -/
theorem applyRedactions_filter {v : Value R} (h : DistinctKeys v) (fields : List Str) :
    applyRedactions v (fields.filter fun path ↦ pathExists v (pathParts path)) =
      redact (fields.map pathParts) v := by
  have hmap : (fields.filter fun path ↦ pathExists v (pathParts path)).map pathParts =
      (fields.map pathParts).filter (pathExists v) := by
    rw [List.filter_map]
    rfl
  rw [applyRedactions_eq_redact h, hmap, redact_filter h]

/-! ## Strings of a redacted value -/

mutual

theorem mem_strings_redact : ∀ (paths : List (List Str)) {v : Value R} {s : Str},
    s ∈ (redact paths v).strings → s ∈ v.strings
  | _, .none, _, h | _, .bool _, _, h | _, .int _, _, h | _, .float _, _, h | _, .str _, _, h
  | _, .list _, _, h => by
    rwa [redact] at h
    exact nofun
  | paths, .dict fields, _, h => by
    rw [redact, Value.strings] at h
    rw [Value.strings]
    exact mem_stringsFields_redact paths h

theorem mem_stringsFields_redact : ∀ (paths : List (List Str)) {fields : List (Str × Value R)} {s : Str},
    s ∈ stringsFields (redactFields paths fields) → s ∈ stringsFields fields
  | _, [], _, h => h
  | paths, (part, v) :: fields, s, h => by
    rw [redactFields, stringsFields, List.mem_cons, List.mem_append] at h
    rw [stringsFields, List.mem_cons, List.mem_append]
    refine h.imp_right fun h ↦ h.imp (fun h ↦ ?_) (mem_stringsFields_redact paths)
    split at h
    · exact absurd h List.not_mem_nil
    · exact mem_strings_redact _ h

end

end Cleaning

end ForgeData
