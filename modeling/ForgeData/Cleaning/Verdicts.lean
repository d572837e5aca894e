import ForgeData.Cleaning.Redaction
import ForgeData.Cleaning.SeenIndex

/-!
# What the evaluator decides

The policy's rules, read as a specification. A row is rejected if a coverage rule speaks against it;
it is a duplicate if an earlier row that was not rejected has its content. The evaluator's decision is
computed from the index of the keys seen so far, and the invariant is that this index maps a key to the
first row, among those not rejected, that has it.
-/

namespace ForgeData

namespace Cleaning

open Python Normalization Integrity

/-! ## Coverage -/

section Coverage

variable {R : Type} (config : CleaningConfig) (knownStreams : List Str)

/-- Some coverage rule rejects the row: a required stream is missing, there are fewer streams than
asked for, or there are optional streams and none is present. -/
def Rejected (row : Record R) : Prop :=
  (∃ name ∈ config.requiredStreams, isPresent row name = false) ∨
  (∃ least ∈ config.minPresentStreams, (knownStreams.countP (isPresent row) : ℤ) < least) ∨
  config.dropIfAllOptionalStreamsMissing = true ∧
    (∃ name ∈ knownStreams, name ∉ config.requiredStreams) ∧
    ∀ name ∈ knownStreams, name ∉ config.requiredStreams → isPresent row name = false

def requiredReasons (row : Record R) : List DropReason :=
  (requiredStreamsOutcome config.requiredStreams row).dropReasons

def minPresentReasons (row : Record R) : List DropReason :=
  match config.minPresentStreams with
  | none => []
  | some least => (minPresentStreamsOutcome least knownStreams row).dropReasons

def allOptionalReasons (row : Record R) : List DropReason :=
  if config.dropIfAllOptionalStreamsMissing then
    (allOptionalMissingOutcome config.requiredStreams (config.optionalStreams knownStreams)
      row).dropReasons
  else []

/-- The reasons of the first coverage rule that drops the row. -/
def coverageReasons (row : Record R) : List DropReason :=
  if requiredReasons config row ≠ [] then requiredReasons config row
  else if minPresentReasons config knownStreams row ≠ [] then minPresentReasons config knownStreams row
  else allOptionalReasons config knownStreams row

theorem requiredReasons_ne_nil_iff (row : Record R) : requiredReasons config row ≠ [] ↔
    ∃ name ∈ config.requiredStreams, isPresent row name = false := by
  rw [requiredReasons, requiredStreamsOutcome, ne_eq, List.map_eq_nil_iff, List.filter_eq_nil_iff]
  simp

theorem minPresentReasons_ne_nil_iff (row : Record R) :
    minPresentReasons config knownStreams row ≠ [] ↔
      ∃ least ∈ config.minPresentStreams, (knownStreams.countP (isPresent row) : ℤ) < least := by
  rw [minPresentReasons]
  rcases config.minPresentStreams with _ | least
  · simp
  · simp only [Option.mem_def, Option.some.injEq, exists_eq_left', minPresentStreamsOutcome]
    split
    · next h => simpa using h
    · next h => simpa using h

theorem allOptionalReasons_ne_nil_iff {row : Record R} (hrequired : requiredReasons config row = []) :
    allOptionalReasons config knownStreams row ≠ [] ↔
      config.dropIfAllOptionalStreamsMissing = true ∧
        (∃ name ∈ knownStreams, name ∉ config.requiredStreams) ∧
        ∀ name ∈ knownStreams, name ∉ config.requiredStreams → isPresent row name = false := by
  have hempty : knownStreams.filter (· ∉ config.requiredStreams) = [] ↔
      ¬∃ name ∈ knownStreams, name ∉ config.requiredStreams := by
    rw [List.filter_eq_nil_iff]
    simp
  -- the rule is reached only when no required stream is missing
  have hpresent : (!config.requiredStreams.all (isPresent row)) = false := by
    rw [Bool.not_eq_false', List.all_eq_true]
    intro name hname
    by_contra hne
    exact (requiredReasons_ne_nil_iff config row).mpr
      ⟨name, hname, Bool.not_eq_true _ ▸ hne⟩ hrequired
  have hmissing : ((knownStreams.filter (· ∉ config.requiredStreams)).all fun name ↦
      !isPresent row name) = true ↔
        ∀ name ∈ knownStreams, name ∉ config.requiredStreams → isPresent row name = false := by
    rw [List.all_eq_true]
    simp [List.mem_filter]
  rw [allOptionalReasons, CleaningConfig.optionalStreams, allOptionalMissingOutcome, hpresent]
  by_cases hflag : config.dropIfAllOptionalStreamsMissing = true
  swap
  · rw [if_neg hflag]
    exact iff_of_false (fun h ↦ h rfl) fun h ↦ hflag h.1
  rw [if_pos hflag]
  by_cases hnone : knownStreams.filter (· ∉ config.requiredStreams) = []
  · rw [if_pos hnone]
    exact iff_of_false (fun h ↦ h rfl) fun h ↦ hempty.mp hnone h.2.1
  · rw [if_neg hnone, if_neg Bool.false_ne_true]
    have hsome := not_not.mp (mt hempty.mpr hnone)
    split
    · next h => exact iff_of_true (List.cons_ne_nil _ _) ⟨hflag, hsome, hmissing.mp h⟩
    · next h => exact iff_of_false (fun h' ↦ h' rfl) fun h' ↦ h (hmissing.mpr h'.2.2)

/-- **The coverage rules drop exactly the rejected rows.** -/
theorem coverageReasons_ne_nil_iff (row : Record R) :
    coverageReasons config knownStreams row ≠ [] ↔ Rejected config knownStreams row := by
  rw [coverageReasons, Rejected, ← requiredReasons_ne_nil_iff,
    ← minPresentReasons_ne_nil_iff config knownStreams]
  by_cases hrequired : requiredReasons config row = []
  · rw [if_neg (not_not.mpr hrequired), ← allOptionalReasons_ne_nil_iff config knownStreams hrequired,
      or_iff_right (not_not.mpr hrequired)]
    split
    · next h => exact iff_of_true h (.inl h)
    · next h => exact (or_iff_right h).symm
  · rw [if_pos hrequired]
    exact iff_of_true hrequired (.inl hrequired)

/-- A coverage rule gives no duplicate as its reason. -/
theorem code_ne_duplicateRow_of_mem_coverageReasons {row : Record R} {reason : DropReason}
    (h : reason ∈ coverageReasons config knownStreams row) : reason.code ≠ .duplicateRow := by
  have hmem : reason ∈ requiredReasons config row ∨
      reason ∈ minPresentReasons config knownStreams row ∨
      reason ∈ allOptionalReasons config knownStreams row := by
    rw [coverageReasons] at h
    split at h
    · exact .inl h
    split at h
    · exact .inr (.inl h)
    · exact .inr (.inr h)
  rcases hmem with h | h | h
  · obtain ⟨name, -, rfl⟩ := List.mem_map.mp h
    exact nofun
  · rw [minPresentReasons] at h
    split at h
    · exact absurd h List.not_mem_nil
    · rw [minPresentStreamsOutcome] at h
      split at h
      · exact absurd h List.not_mem_nil
      · obtain rfl := List.mem_singleton.mp h
        exact nofun
  · rw [allOptionalReasons, allOptionalMissingOutcome] at h
    split at h
    · split at h
      · exact absurd h List.not_mem_nil
      split at h
      · exact absurd h List.not_mem_nil
      split at h
      · obtain rfl := List.mem_singleton.mp h
        exact nofun
      · exact absurd h List.not_mem_nil
    · exact absurd h List.not_mem_nil

end Coverage

/-! ## The evaluator -/

section Evaluator

variable {R : Type} [FloatText R] (sha256 : List Byte → Sha256Digest) (config : CleaningConfig)
  (knownStreams : List Str)

/-- One rule at most, which gives these reasons for dropping the row and redacts nothing. -/
def Contributes (rowIndex : ℕ) (row : Record R) (seen : SeenIndex) (rules : List CleaningRule)
    (reasons : List DropReason) : Prop :=
  rules = [] ∧ reasons = [] ∨
    ∃ rule, rules = [rule] ∧ rule.evaluate sha256 seen rowIndex row = .ok (seen, ⟨reasons, []⟩)

theorem Contributes.evaluateRules_append {rowIndex : ℕ} {row : Record R} {seen : SeenIndex}
    {rules : List CleaningRule} {reasons : List DropReason}
    (h : Contributes sha256 rowIndex row seen rules reasons) (rest : List CleaningRule) :
    evaluateRules sha256 rowIndex row (rules ++ rest) [] seen =
      if reasons ≠ [] then .ok (seen, .dropped reasons)
      else evaluateRules sha256 rowIndex row rest [] seen := by
  rcases h with ⟨rfl, rfl⟩ | ⟨rule, rfl, heval⟩
  · rw [if_neg (not_not.mpr rfl), List.nil_append]
  · rw [List.singleton_append, evaluateRules, heval]
    simp only [RuleOutcome.shouldDrop, decide_eq_true_eq]
    by_cases hreasons : reasons = []
    · rw [if_neg (not_not.mpr hreasons)]
      exact if_neg (not_not.mpr hreasons)
    · rw [if_pos hreasons]
      exact if_pos hreasons

/-- The records of the privacy rule. -/
def redactionRecords (row : Record R) : List RedactionRecord :=
  (privacyRedactionOutcome config.privacy.redactFields row).redactions

/-- The row with all configured paths nulled. -/
def redactedRow (row : Record R) : Value R :=
  redact (config.privacy.redactFields.map pathParts) (recordValue row)

/-- The decision about a row that no rule drops. -/
def keptVerdict (row : Record R) : Verdict R := .kept (redactedRow config row) (redactionRecords config row)

/-- The privacy rule, at the end. -/
theorem evaluateRules_privacy {row : Record R} (hrow : (recordValue row).Storable) (rowIndex : ℕ)
    (seen : SeenIndex) :
    evaluateRules sha256 rowIndex row
        (if config.privacy.redactFields = [] then []
          else [.privacyRedaction config.privacy.redactFields]) [] seen =
      .ok (seen, keptVerdict config row) := by
  have hkept : ∀ redactions : List RedactionRecord, redactions = redactionRecords config row →
      evaluateRules sha256 rowIndex row [] redactions seen = .ok (seen, keptVerdict config row) := by
    rintro redactions rfl
    have hfields : (redactionRecords config row).map RedactionRecord.field =
        config.privacy.redactFields.filter
          fun path ↦ pathExists (recordValue row) (pathParts path) := by
      rw [redactionRecords, privacyRedactionOutcome, List.map_map]
      exact List.map_id _
    have hcleaned : (if redactionRecords config row = [] then recordValue row
        else applyRedactions (recordValue row) ((redactionRecords config row).map RedactionRecord.field))
          = redactedRow config row := by
      rw [redactedRow, ← applyRedactions_filter (distinctKeys_of_storable hrow), ← hfields]
      split
      · next h => rw [h]; rfl
      · rfl
    rw [evaluateRules, hcleaned, keptVerdict]
  by_cases hfields : config.privacy.redactFields = []
  · rw [if_pos hfields]
    refine hkept [] ?_
    rw [redactionRecords, hfields]
    rfl
  · rw [if_neg hfields, evaluateRules]
    exact hkept _ (List.nil_append _)

/-- The decision about a row, with what the duplicate index answers for its key. -/
def verdictOf (row : Record R) (firstIndex : Option ℕ) : Verdict R :=
  if coverageReasons config knownStreams row ≠ [] then .dropped (coverageReasons config knownStreams row)
  else if config.duplicatePolicy.enabled then match firstIndex with
    | some i => .dropped [{ code := .duplicateRow, duplicateOfRowIndex := some i }]
    | none => keptVerdict config row
  else keptVerdict config row

/-- The index after a row: only a row that passes the coverage rules is recorded. -/
def seenAfter (key : Sha256Digest) (rowIndex : ℕ) (row : Record R) (seen : SeenIndex) : SeenIndex :=
  if coverageReasons config knownStreams row ≠ [] then seen
  else if config.duplicatePolicy.enabled then (seen.firstSeenOrRecord key rowIndex).1 else seen

/-- The coverage rules, in front of the others. -/
theorem evaluateRow_coverage (row : Record R) (rowIndex : ℕ) (seen : SeenIndex) :
    evaluateRow sha256 (buildRules config knownStreams) rowIndex row seen =
      if coverageReasons config knownStreams row ≠ [] then
        .ok (seen, .dropped (coverageReasons config knownStreams row))
      else evaluateRules sha256 rowIndex row
        ((if config.duplicatePolicy.enabled then [.duplicateRow] else []) ++
          (if config.privacy.redactFields = [] then []
            else [.privacyRedaction config.privacy.redactFields])) [] seen := by
  have hrequired : Contributes sha256 rowIndex row seen
      (if config.requiredStreams = [] then [] else [.requiredStreams config.requiredStreams])
      (requiredReasons config row) := by
    by_cases h : config.requiredStreams = []
    · refine .inl ⟨if_pos h, ?_⟩
      rw [requiredReasons, h]
      rfl
    · exact .inr ⟨_, if_neg h, rfl⟩
  have hleast : Contributes sha256 rowIndex row seen
      (config.minPresentStreams.toList.map fun least ↦ .minPresentStreams least knownStreams)
      (minPresentReasons config knownStreams row) := by
    rw [minPresentReasons]
    rcases config.minPresentStreams with _ | least
    · exact .inl ⟨rfl, rfl⟩
    · refine .inr ⟨_, rfl, ?_⟩
      simp only [CleaningRule.evaluate, minPresentStreamsOutcome]
      split <;> rfl
  have hoptional : Contributes sha256 rowIndex row seen
      (if config.dropIfAllOptionalStreamsMissing then
        [.allOptionalMissing config.requiredStreams (config.optionalStreams knownStreams)] else [])
      (allOptionalReasons config knownStreams row) := by
    rw [allOptionalReasons]
    by_cases h : config.dropIfAllOptionalStreamsMissing = true
    · rw [if_pos h, if_pos h]
      refine .inr ⟨_, rfl, ?_⟩
      simp only [CleaningRule.evaluate, allOptionalMissingOutcome]
      repeat' split
      all_goals rfl
    · rw [if_neg h, if_neg h]
      exact .inl ⟨rfl, rfl⟩
  -- each rule that drops ends the evaluation, so they can be peeled off in order
  rw [evaluateRow, buildRules, List.append_assoc, List.append_assoc, List.append_assoc,
    hrequired.evaluateRules_append, hleast.evaluateRules_append, hoptional.evaluateRules_append,
    coverageReasons]
  by_cases h₁ : requiredReasons config row ≠ []
  · simp only [if_pos h₁]
  by_cases h₂ : minPresentReasons config knownStreams row ≠ []
  · simp only [if_neg h₁, if_pos h₂]
  · simp only [if_neg h₁, if_neg h₂]

theorem duplicateRowOutcome_of_key {row : Record R} {key : Sha256Digest}
    (hkey : canonicalRowKey sha256 row = .ok key) (rowIndex : ℕ) (seen : SeenIndex) :
    duplicateRowOutcome sha256 seen rowIndex row = .ok ((seen.firstSeenOrRecord key rowIndex).1,
      { dropReasons := (seen.lookup key).toList.map fun i ↦
          { code := .duplicateRow, duplicateOfRowIndex := some i } }) := by
  rw [duplicateRowOutcome, hkey, ← SeenIndex.firstSeenOrRecord_snd key rowIndex]
  dsimp only [bind, Except.bind]
  rcases seen.firstSeenOrRecord key rowIndex with ⟨seen, firstIndex⟩
  cases firstIndex <;> rfl

/-- **One row.** Coverage comes first, then the duplicate index, and the redaction last. -/
theorem evaluateRow_buildRules {row : Record R} (hrow : (recordValue row).Storable) {key : Sha256Digest}
    (hkey : canonicalRowKey sha256 row = .ok key) (rowIndex : ℕ) (seen : SeenIndex) :
    evaluateRow sha256 (buildRules config knownStreams) rowIndex row seen =
      .ok (seenAfter config knownStreams key rowIndex row seen,
        verdictOf config knownStreams row (seen.lookup key)) := by
  rw [evaluateRow_coverage, seenAfter]
  unfold verdictOf
  by_cases hcoverage : coverageReasons config knownStreams row ≠ []
  · rw [if_pos hcoverage, if_pos hcoverage, if_pos hcoverage]
  rw [if_neg hcoverage, if_neg hcoverage, if_neg hcoverage]
  by_cases henabled : config.duplicatePolicy.enabled = true
  swap
  · rw [if_neg henabled, if_neg henabled, if_neg henabled, List.nil_append,
      evaluateRules_privacy sha256 config hrow]
  rw [if_pos henabled, if_pos henabled, if_pos henabled, List.singleton_append, evaluateRules,
    CleaningRule.evaluate, duplicateRowOutcome_of_key sha256 hkey]
  rcases seen.lookup key with _ | i
  · exact evaluateRules_privacy sha256 config hrow rowIndex _
  · rfl

end Evaluator

end Cleaning

end ForgeData
