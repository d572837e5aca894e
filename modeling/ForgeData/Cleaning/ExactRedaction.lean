import ForgeData.Cleaning.CleanedStream

/-!
# Exact redaction

A row that the evaluator keeps differs from the row it is given at the ends of the configured paths and
nowhere else. Positions are paths of keys; what stands at a position itself, apart from what is below
it, is its outline.
-/

namespace ForgeData

namespace Cleaning

open Python Normalization

variable {R : Type}

/-! ## Positions of a redacted value -/

theorem mem_pathsUnder {part : Str} {paths : List (List Str)} {rest : List Str} :
    rest ∈ pathsUnder part paths ↔ part :: rest ∈ paths := by
  rw [pathsUnder, List.mem_filterMap]
  constructor
  · rintro ⟨path, hpath, hrest⟩
    cases path with
    | nil => cases hrest
    | cons first tail =>
      rw [restUnder] at hrest
      split at hrest
      · next heq =>
        obtain rfl := Option.some.inj hrest
        rwa [← heq]
      · cases hrest
  · intro h
    exact ⟨part :: rest, h, if_pos rfl⟩

/-- What is left of the paths that begin with `path`. -/
def pathsBelow (path : List Str) (paths : List (List Str)) : List (List Str) :=
  path.foldl (fun paths part ↦ pathsUnder part paths) paths

theorem mem_pathsBelow {path : List Str} {paths : List (List Str)} {rest : List Str} :
    rest ∈ pathsBelow path paths ↔ path ++ rest ∈ paths := by
  induction path generalizing paths with
  | nil => rfl
  | cons part parts ih =>
    rw [pathsBelow, List.foldl_cons, List.cons_append, ← mem_pathsUnder]
    exact ih

/-- A position that no path leads to or through keeps its value, redacted below. -/
theorem nodeAt_redact (v : Value R) {paths : List (List Str)} {path : List Str}
    (h : ∀ p ∈ paths, p ≠ [] → ¬p <+: path) :
    nodeAt (redact paths v) path = (nodeAt v path).map (redact (pathsBelow path paths)) := by
  induction path generalizing v paths with
  | nil => rw [nodeAt, nodeAt, Option.map_some, pathsBelow, List.foldl_nil]
  | cons part parts ih =>
    cases v with
    | none | bool | int | float | str | list => rfl
    | dict fields =>
      have hpart : [part] ∉ paths := fun hmem ↦
        h [part] hmem (List.cons_ne_nil _ _) (List.prefix_append [part] parts)
      rw [redact, nodeAt, nodeAt, lookup_redactFields]
      rcases fields.lookup part with _ | child
      · rfl
      · rw [Option.map_some, if_neg hpart]
        refine ih child fun p hp hne hprefix ↦ ?_
        exact h (part :: p) (mem_pathsUnder.mp hp) (List.cons_ne_nil _ _)
          (List.cons_prefix_cons.mpr ⟨rfl, hprefix⟩)

/-- There is null at the end of a path, or nothing. -/
theorem nodeAt_redact_of_mem (v : Value R) {paths : List (List Str)} {path : List Str}
    (hpath : path ≠ []) (hmem : path ∈ paths) :
    nodeAt (redact paths v) path = none ∨ nodeAt (redact paths v) path = some .none := by
  induction path generalizing v paths with
  | nil => exact absurd rfl hpath
  | cons part parts ih =>
    cases v with
    | none | bool | int | float | str | list => exact .inl rfl
    | dict fields =>
      rw [redact, nodeAt, lookup_redactFields]
      rcases fields.lookup part with _ | child
      · exact .inl rfl
      · rw [Option.map_some]
        dsimp only
        by_cases hpart : [part] ∈ paths
        · rw [if_pos hpart]
          cases parts with
          | nil => exact .inr rfl
          | cons => exact .inl rfl
        · rw [if_neg hpart]
          refine ih child ?_ (mem_pathsUnder.mpr hmem)
          rintro rfl
          exact hpart hmem

/-- Whatever stands in a redacted value is null, or stood there and is redacted itself. -/
theorem eq_redact_of_nodeAt {v w : Value R} {paths : List (List Str)} {path : List Str}
    (h : nodeAt (redact paths v) path = some w) :
    w = .none ∨ ∃ u below, nodeAt v path = some u ∧ w = redact below u := by
  induction path generalizing v paths with
  | nil =>
    rw [nodeAt, Option.some.injEq] at h
    exact .inr ⟨v, paths, rfl, h.symm⟩
  | cons part parts ih =>
    cases v with
    | none | bool | int | float | str | list => cases h
    | dict fields =>
      rw [redact, nodeAt, lookup_redactFields] at h
      rw [nodeAt]
      rcases hchild : fields.lookup part with _ | child
      · rw [hchild] at h
        cases h
      · rw [hchild, Option.map_some] at h
        dsimp only at h
        split at h
        · cases parts with
          | nil => exact .inl (Option.some.inj h).symm
          | cons => cases h
        · exact ih h

/-! ## Outlines -/

/-- What stands at a position itself: the keys of an object, any other value as it is. -/
def outline : Value R → Value R ⊕ List Str
  | .dict fields => .inr (fields.map Prod.fst)
  | v => .inl v

theorem outline_redact (paths : List (List Str)) (v : Value R) :
    outline (redact paths v) = outline v := by
  cases v with
  | none | bool | int | float | str | list => rfl
  | dict fields =>
    rw [redact, outline, outline, redactFields_eq_map, List.map_map]
    rfl

theorem distinctKeys_redact {v : Value R} (h : DistinctKeys v) (paths : List (List Str)) :
    DistinctKeys (redact paths v) := by
  intro path fields hfields
  rcases eq_redact_of_nodeAt hfields with hnone | ⟨u, below, hu, heq⟩
  · cases hnone
  · have houtline : outline u = .inr (fields.map Prod.fst) := by
      rw [← outline_redact below u, ← heq, outline]
    cases u with
    | none | bool | int | float | str | list => cases houtline
    | dict inner =>
      rw [outline, Sum.inr.injEq] at houtline
      rw [← houtline]
      exact h path inner hu

/-! ## Order and multiplicity -/

mutual

theorem redact_congr : ∀ {paths paths' : List (List Str)}, (∀ p, p ∈ paths ↔ p ∈ paths') →
    ∀ v : Value R, redact paths v = redact paths' v
  | _, _, _, .none | _, _, _, .bool _ | _, _, _, .int _ | _, _, _, .float _ | _, _, _, .str _
  | _, _, _, .list _ => by rw [redact, redact] <;> exact nofun
  | _, _, h, .dict fields => by rw [redact, redact, redactFields_congr h fields]

theorem redactFields_congr : ∀ {paths paths' : List (List Str)}, (∀ p, p ∈ paths ↔ p ∈ paths') →
    ∀ fields : List (Str × Value R), redactFields paths fields = redactFields paths' fields
  | _, _, _, [] => rfl
  | paths, paths', h, (part, v) :: fields => by
    have hunder : ∀ p, p ∈ pathsUnder part paths ↔ p ∈ pathsUnder part paths' := by
      intro p
      rw [mem_pathsUnder, mem_pathsUnder]
      exact h _
    rw [redactFields, redactFields, redactFields_congr h fields, redact_congr hunder v]
    simp only [h [part]]

end

theorem redact_redact {v : Value R} (h : DistinctKeys v) (fields : List Str) :
    applyRedactions (redact (fields.map pathParts) v) fields = redact (fields.map pathParts) v := by
  rw [← applyRedactions_eq_redact h, applyRedactions, applyRedactions, ← List.foldl_append]
  have htwice : applyRedactions v (fields ++ fields) = applyRedactions v fields := by
    rw [applyRedactions_eq_redact h, applyRedactions_eq_redact h, List.map_append]
    exact redact_congr (fun p ↦ by rw [List.mem_append, or_self]) v
  exact htwice

/-! ## The evaluator -/

/-- The cleaned row is the row with null at the end of each path that the row has. -/
structure RedactsExactly (row cleaned : Value R) (paths : List (List Str)) : Prop where
  /-- Every configured path is absent or null. -/
  nulled : ∀ path ∈ paths, nodeAt cleaned path = none ∨ nodeAt cleaned path = some .none
  /-- A position that is not at or under one of them has its value, an object its keys. -/
  untouched : ∀ position, (∀ path ∈ paths, pathExists row path = true → ¬path <+: position) →
    (nodeAt cleaned position).map outline = (nodeAt row position).map outline
  /-- If none is under it either, everything below is as it was. -/
  unchanged : ∀ position, (∀ path ∈ paths, pathExists row path = true →
    ¬path <+: position ∧ ¬position <+: path) → nodeAt cleaned position = nodeAt row position

theorem redactsExactly_redact {v : Value R} (h : DistinctKeys v) {paths : List (List Str)}
    (hpaths : ∀ path ∈ paths, path ≠ []) : RedactsExactly v (redact paths v) paths where
  nulled path hpath := nodeAt_redact_of_mem v (hpaths path hpath) hpath
  untouched position hposition := by
    rw [← redact_filter h, nodeAt_redact v fun path hpath _ ↦ hposition path
      (List.mem_of_mem_filter hpath) (List.of_mem_filter hpath), Option.map_map]
    exact congrArg (Option.map · _) (funext fun u ↦ outline_redact _ u)
  unchanged position hposition := by
    have hbelow : pathsBelow position (paths.filter (pathExists v)) = [] := by
      refine List.eq_nil_iff_forall_not_mem.mpr fun rest hrest ↦ ?_
      obtain ⟨hmem, hexists⟩ := List.mem_filter.mp (mem_pathsBelow.mp hrest)
      exact (hposition _ hmem hexists).2 (List.prefix_append position rest)
    rw [← redact_filter h, nodeAt_redact v fun path hpath _ ↦ (hposition path
      (List.mem_of_mem_filter hpath) (List.of_mem_filter hpath)).1, hbelow]
    rcases nodeAt v position with _ | u
    · rfl
    · rw [Option.map_some, redact_nil]

/-- The paths of a privacy rule. -/
def CleaningRule.paths : CleaningRule → List Str
  | .privacyRedaction fields => fields
  | .requiredStreams _ | .minPresentStreams _ _ | .allOptionalMissing _ _ | .duplicateRow => []

/-- The paths of all privacy rules. -/
def configuredPaths (rules : List CleaningRule) : List Str := rules.flatMap CleaningRule.paths

/-- The configured paths that the row has, each with a record. -/
def recordsOf (fields : List Str) (row : Record R) : List RedactionRecord :=
  (privacyRedactionOutcome fields row).redactions

theorem recordsOf_append (fields fields' : List Str) (row : Record R) :
    recordsOf (fields ++ fields') row = recordsOf fields row ++ recordsOf fields' row := by
  rw [recordsOf, privacyRedactionOutcome, List.filter_append, List.map_append]
  rfl

theorem field_recordsOf (fields : List Str) (row : Record R) :
    (recordsOf fields row).map RedactionRecord.field
      = fields.filter fun path ↦ pathExists (recordValue row) (pathParts path) := by
  rw [recordsOf, privacyRedactionOutcome, List.map_map]
  exact List.map_id _

theorem mem_recordsOf_iff {fields : List Str} {row : Record R} {r : RedactionRecord} :
    r ∈ recordsOf fields row ↔ r.code = .fieldRedacted ∧ r.field ∈ fields ∧
      pathExists (recordValue row) (pathParts r.field) = true := by
  rw [recordsOf, privacyRedactionOutcome, List.mem_map]
  constructor
  · rintro ⟨path, hpath, rfl⟩
    exact ⟨rfl, List.mem_filter.mp hpath⟩
  · rintro ⟨hcode, hpath⟩
    exact ⟨r.field, List.mem_filter.mpr hpath, by rw [← hcode]⟩

variable [FloatText R] {sha256 : List Byte → Sha256Digest} {row : Record R}

/-- The records of one rule. -/
theorem redactions_of_evaluate {rule : CleaningRule} {rowIndex : ℕ} {seen seen' : SeenIndex}
    {outcome : RuleOutcome} (h : rule.evaluate sha256 seen rowIndex row = .ok (seen', outcome)) :
    outcome.redactions = recordsOf rule.paths row := by
  cases rule with
  | requiredStreams required =>
    cases h
    rfl
  | minPresentStreams least known =>
    cases h
    rw [minPresentStreamsOutcome]
    split <;> rfl
  | allOptionalMissing required optionals =>
    cases h
    have hnil : (allOptionalMissingOutcome required optionals row).redactions = [] := by
      rw [allOptionalMissingOutcome]
      repeat' split
      all_goals rfl
    exact hnil
  | duplicateRow =>
    obtain ⟨key, -, hkey⟩ := bind_eq_ok_iff.mp h
    split at hkey <;> cases hkey <;> rfl
  | privacyRedaction fields =>
    cases h
    rfl

/-- What the evaluator returns for a row that it keeps. -/
theorem evaluateRules_kept {rules : List CleaningRule} {collected : List RedactionRecord}
    {rowIndex : ℕ} {seen seen' : SeenIndex} {cleaned : Value R} {redactions : List RedactionRecord}
    (h : evaluateRules sha256 rowIndex row rules collected seen
      = .ok (seen', .kept cleaned redactions)) :
    redactions = collected ++ recordsOf (configuredPaths rules) row ∧
      cleaned = applyRedactions (recordValue row) (redactions.map RedactionRecord.field) := by
  induction rules generalizing collected seen with
  | nil =>
    cases h
    refine ⟨(List.append_nil _).symm, ?_⟩
    split
    · next hnil => rw [hnil]; rfl
    · rfl
  | cons rule rules ih =>
    obtain ⟨⟨seen₁, outcome⟩, hrule, hrest⟩ := bind_eq_ok_iff.mp h
    dsimp only at hrest
    split at hrest
    · cases hrest
    · obtain ⟨hredactions, hcleaned⟩ := ih hrest
      refine ⟨?_, hcleaned⟩
      have hcons : configuredPaths (rule :: rules) = rule.paths ++ configuredPaths rules := rfl
      rw [hredactions, redactions_of_evaluate hrule, hcons, recordsOf_append, List.append_assoc]

theorem evaluateRow_kept (hrow : DistinctKeys (recordValue row)) {rules : List CleaningRule}
    {rowIndex : ℕ} {seen seen' : SeenIndex} {cleaned : Value R} {redactions : List RedactionRecord}
    (h : evaluateRow sha256 rules rowIndex row seen = .ok (seen', .kept cleaned redactions)) :
    redactions = recordsOf (configuredPaths rules) row ∧
      cleaned = redact ((configuredPaths rules).map pathParts) (recordValue row) := by
  obtain ⟨hredactions, hcleaned⟩ := evaluateRules_kept h
  rw [List.nil_append] at hredactions
  refine ⟨hredactions, ?_⟩
  rw [hcleaned, hredactions, field_recordsOf, applyRedactions_filter hrow]

/-- **Redaction nulls exactly the configured paths.** Of a row that the evaluator keeps, whatever the
rules: the paths are absent or null, nothing else changes, a path is reported exactly if the row has it,
and neither the order of the paths nor how often they are given or applied matters. -/
theorem redaction_exact (hrow : DistinctKeys (recordValue row)) {rules : List CleaningRule}
    {rowIndex : ℕ} {seen seen' : SeenIndex} {cleaned : Value R} {redactions : List RedactionRecord}
    (h : evaluateRow sha256 rules rowIndex row seen = .ok (seen', .kept cleaned redactions)) :
    RedactsExactly (recordValue row) cleaned ((configuredPaths rules).map pathParts) ∧
      (∀ r, r ∈ redactions ↔ r.code = .fieldRedacted ∧ r.field ∈ configuredPaths rules ∧
        pathExists (recordValue row) (pathParts r.field) = true) ∧
      (∀ rules' rowIndex' seen₁ seen₂ cleaned' redactions',
        (∀ path, path ∈ configuredPaths rules' ↔ path ∈ configuredPaths rules) →
        evaluateRow sha256 rules' rowIndex' row seen₁ = .ok (seen₂, .kept cleaned' redactions') →
        cleaned' = cleaned ∧ ∀ r, r ∈ redactions' ↔ r ∈ redactions) ∧
      applyRedactions cleaned (configuredPaths rules) = cleaned ∧
      ∃ cleanedRow, recordValue cleanedRow = cleaned ∧
        ∀ rowIndex' seen₁ seen₂ cleaned' redactions',
          evaluateRow sha256 rules rowIndex' cleanedRow seen₁ = .ok (seen₂, .kept cleaned' redactions') →
          cleaned' = cleaned := by
  obtain ⟨rfl, rfl⟩ := evaluateRow_kept hrow h
  have hkeys := distinctKeys_redact hrow ((configuredPaths rules).map pathParts)
  refine ⟨redactsExactly_redact hrow fun path hpath ↦ ?_, fun r ↦ mem_recordsOf_iff, ?_,
    redact_redact hrow _, ?_⟩
  · obtain ⟨text, -, rfl⟩ := List.mem_map.mp hpath
    exact List.splitOn_ne_nil _ _
  · intro rules' rowIndex' seen₁ seen₂ cleaned' redactions' hsame h'
    obtain ⟨rfl, rfl⟩ := evaluateRow_kept hrow h'
    refine ⟨redact_congr (fun p ↦ ?_) _, fun r ↦ ?_⟩
    · rw [List.mem_map, List.mem_map]
      exact exists_congr fun path ↦ and_congr_left' (hsame path)
    · rw [mem_recordsOf_iff, mem_recordsOf_iff, hsame]
  · rw [recordValue, redact] at hkeys ⊢
    refine ⟨⟨_, hkeys.nodup⟩, rfl, fun rowIndex' seen₁ seen₂ cleaned' redactions' h' ↦ ?_⟩
    obtain ⟨-, rfl⟩ := evaluateRow_kept hkeys h'
    rw [← applyRedactions_eq_redact hkeys]
    have htwice := redact_redact hrow (configuredPaths rules)
    rwa [recordValue, redact] at htwice

/-- Nested paths, one of them twice, and one that the row does not have. -/
def nestedPaths : List Str :=
  [Str.ofString "streams.imu.ax", Str.ofString "streams.imu", Str.ofString "streams.gps",
    Str.ofString "streams.imu.ax"]

/-- A row with a stream that has one field. -/
def imuReading : Record BitFloat :=
  imuRow "2024-01-01T00:00:00Z" (.dict [(Str.ofString "ax", .float .one)])

theorem redaction_exact_nestedPaths : ∃ cleaned redactions,
    evaluateRow observedSha256 [.privacyRedaction nestedPaths] 0 imuReading (.create .memory)
        = .ok (.create .memory, .kept cleaned redactions) ∧
      RedactsExactly (recordValue imuReading) cleaned (nestedPaths.map pathParts) ∧
      redactions.length = 3 ∧ nodeAt cleaned (pathParts (Str.ofString "streams.imu")) = some .none ∧
      nodeAt cleaned (pathParts (Str.ofString "timestamp"))
        = some (.str (Str.ofString "2024-01-01T00:00:00Z")) := by
  have hkeys : DistinctKeys (recordValue imuReading) :=
    distinctKeys_of_storable (writable_of_mem_observedRows _ List.mem_cons_self).storable
  have hkept : ∃ cleaned redactions,
      evaluateRow observedSha256 [.privacyRedaction nestedPaths] 0 imuReading (.create .memory)
        = .ok (.create .memory, .kept cleaned redactions) ∧
      redactions.length = 3 ∧ nodeAt cleaned (pathParts (Str.ofString "streams.imu")) = some .none ∧
      nodeAt cleaned (pathParts (Str.ofString "timestamp"))
        = some (.str (Str.ofString "2024-01-01T00:00:00Z")) := by
    exact ⟨_, _, rfl, by decide +kernel, rfl, rfl⟩
  obtain ⟨cleaned, redactions, heval, hrest⟩ := hkept
  exact ⟨cleaned, redactions, heval, (redaction_exact hkeys heval).1, hrest⟩

end Cleaning

end ForgeData
