import ForgeData.Cleaning.Service
import ForgeData.Python.Loop

/-!
# The two backends of the duplicate index

Both backends hold a finite map from keys to row indices, and `first_seen_or_record` is one operation
on that map: it answers what the key is mapped to and maps a new key to the row at hand. Everything a
run does depends on the index through this map only, so a run with one backend makes the decisions
that it makes with the other.
-/

namespace ForgeData

namespace Cleaning

open Python Integrity

/-- The map that an index holds. -/
def SeenIndex.lookup (key : Sha256Digest) : SeenIndex → Option ℕ
  | .memory seen => seen.get? key
  | .sqlite rows => (rows.find? (·.1 = key)).map Prod.snd

theorem SeenIndex.lookup_create (backend : Backend) (key : Sha256Digest) :
    (SeenIndex.create backend).lookup key = none := by
  cases backend <;> rfl

theorem find?_eq_none_of_notMem {rows : List (Sha256Digest × ℕ)} {key : Sha256Digest}
    (h : key ∉ rows.map Prod.fst) : rows.find? (·.1 = key) = none := by
  refine List.find?_eq_none.mpr fun p hp ↦ ?_
  rw [decide_eq_true_eq]
  rintro rfl
  exact h (List.mem_map_of_mem hp)

theorem SeenIndex.firstSeenOrRecord_snd (key : Sha256Digest) (rowIndex : ℕ) (seen : SeenIndex) :
    (seen.firstSeenOrRecord key rowIndex).2 = seen.lookup key := by
  cases seen with
  | memory seen =>
    rw [firstSeenOrRecord, lookup]
    cases seen.get? key <;> rfl
  | sqlite rows =>
    rw [firstSeenOrRecord, lookup]
    split
    · rfl
    · next hkey =>
      rw [find?_eq_none_of_notMem hkey]
      rfl

/-- A key that is there keeps its index, a new one gets the index of the row. -/
theorem SeenIndex.lookup_firstSeenOrRecord (key key' : Sha256Digest) (rowIndex : ℕ)
    (seen : SeenIndex) : (seen.firstSeenOrRecord key rowIndex).1.lookup key' =
      if key' = key then some ((seen.lookup key).getD rowIndex) else seen.lookup key' := by
  cases seen with
  | memory seen =>
    rw [firstSeenOrRecord]
    rcases hget : seen.get? key with _ | existing
    · simp only [lookup, Dict.get?_set, hget, Option.getD_none]
    · simp only [lookup, hget, Option.getD_some]
      split
      · next heq => rw [heq, hget]
      · rfl
  | sqlite rows =>
    rw [firstSeenOrRecord]
    split
    · next hkey =>
      obtain ⟨p, hp, rfl⟩ := List.mem_map.mp hkey
      have hsome : (rows.find? (·.1 = p.1)).isSome = true :=
        List.find?_isSome.mpr ⟨p, hp, decide_eq_true rfl⟩
      obtain ⟨q, hq⟩ := Option.isSome_iff_exists.mp hsome
      simp only [lookup, hq, Option.map_some, Option.getD_some]
      split
      · next heq => rw [heq, hq, Option.map_some]
      · rfl
    · next hkey =>
      simp only [lookup, List.find?_append]
      by_cases heq : key' = key
      · subst heq
        rw [find?_eq_none_of_notMem hkey, if_pos rfl]
        simp
      · rw [if_neg heq]
        have hne : ¬key = key' := fun h ↦ heq h.symm
        simp [hne]

/-- The indices hold the same map. -/
def SeenIndex.Agree (s t : SeenIndex) : Prop := ∀ key, s.lookup key = t.lookup key

theorem SeenIndex.agree_create (backend backend' : Backend) :
    (SeenIndex.create backend).Agree (.create backend') := by
  intro key
  rw [lookup_create, lookup_create]

theorem SeenIndex.Agree.firstSeenOrRecord {s t : SeenIndex} (h : s.Agree t) (key : Sha256Digest)
    (rowIndex : ℕ) : (s.firstSeenOrRecord key rowIndex).1.Agree (t.firstSeenOrRecord key rowIndex).1 := by
  intro key'
  rw [lookup_firstSeenOrRecord, lookup_firstSeenOrRecord, h key, h key']

/-! ## Runs with either backend -/

section

variable {R : Type} [FloatText R] (sha256 : List Byte → Sha256Digest)

/-- What the evaluator answers: the indices agree and the rest is the same. -/
def SameAnswer {α : Type} (p q : SeenIndex × α) : Prop := p.1.Agree q.1 ∧ p.2 = q.2

theorem sameUpTo_duplicateRowOutcome {s t : SeenIndex} (h : s.Agree t) (rowIndex : ℕ)
    (row : Record R) : SameUpTo SameAnswer (duplicateRowOutcome sha256 s rowIndex row)
      (duplicateRowOutcome sha256 t rowIndex row) := by
  rw [duplicateRowOutcome, duplicateRowOutcome]
  refine SameUpTo.bind (.of_eq _) ?_
  rintro key _ rfl
  have hagree := h.firstSeenOrRecord key rowIndex
  have hanswer : (s.firstSeenOrRecord key rowIndex).2 = (t.firstSeenOrRecord key rowIndex).2 := by
    rw [SeenIndex.firstSeenOrRecord_snd, SeenIndex.firstSeenOrRecord_snd, h key]
  revert hagree hanswer
  rcases s.firstSeenOrRecord key rowIndex with ⟨s, answer⟩
  rcases t.firstSeenOrRecord key rowIndex with ⟨t, answer'⟩
  rintro hagree rfl
  cases answer <;> exact ⟨hagree, rfl⟩

theorem sameUpTo_evaluate (rule : CleaningRule) {s t : SeenIndex} (h : s.Agree t) (rowIndex : ℕ)
    (row : Record R) : SameUpTo SameAnswer (rule.evaluate sha256 s rowIndex row)
      (rule.evaluate sha256 t rowIndex row) := by
  cases rule with
  | duplicateRow => exact sameUpTo_duplicateRowOutcome sha256 h rowIndex row
  | requiredStreams | minPresentStreams | allOptionalMissing | privacyRedaction => exact ⟨h, rfl⟩

theorem sameUpTo_evaluateRules (rules : List CleaningRule) {s t : SeenIndex} (h : s.Agree t)
    (rowIndex : ℕ) (row : Record R) (redactions : List RedactionRecord) :
    SameUpTo SameAnswer (evaluateRules sha256 rowIndex row rules redactions s)
      (evaluateRules sha256 rowIndex row rules redactions t) := by
  induction rules generalizing s t redactions with
  | nil => exact ⟨h, rfl⟩
  | cons rule rules ih =>
    rw [evaluateRules, evaluateRules]
    refine (sameUpTo_evaluate sha256 rule h rowIndex row).bind ?_
    rintro ⟨s, outcome⟩ ⟨t, outcome'⟩ ⟨hagree, heq⟩
    obtain rfl : outcome = outcome' := heq
    dsimp only
    split
    · exact ⟨hagree, rfl⟩
    · exact ih hagree _

/-- The states of two runs that differ in the backend. -/
def ProcessState.Agree (s t : ProcessState R) : Prop :=
  ∃ seen, s.seen.Agree seen ∧ t = { s with seen := seen }

theorem ProcessState.Agree.rowStep (rules : List CleaningRule) {s t : ProcessState R}
    (h : s.Agree t) (row : Record R) :
    SameUpTo ProcessState.Agree (rowStep sha256 rules s row) (rowStep sha256 rules t row) := by
  obtain ⟨seen, hseen, rfl⟩ := h
  rw [Cleaning.rowStep, Cleaning.rowStep]
  refine (sameUpTo_evaluateRules sha256 rules hseen _ row []).bind ?_
  rintro ⟨seen, verdict⟩ ⟨seen', _⟩ ⟨hagree, rfl⟩
  cases verdict with
  | dropped reasons => exact ⟨_, hagree, rfl⟩
  | kept cleanedRow redactions =>
    refine SameUpTo.bind (.of_eq _) ?_
    rintro line _ rfl
    exact ⟨_, hagree, rfl⟩

theorem decisions_congr (rules : List CleaningRule) {s t : SeenIndex} (h : s.Agree t) (rowIndex : ℕ)
    (rows : List (Record R)) :
    decisions sha256 rules rowIndex s rows = decisions sha256 rules rowIndex t rows := by
  induction rows generalizing s t rowIndex with
  | nil => rfl
  | cons row rows ih =>
    rw [decisions, decisions]
    refine SameUpTo.eq (SameUpTo.bind (sameUpTo_evaluateRules sha256 rules h (rowIndex + 1) row []) ?_)
    rintro ⟨s, verdict⟩ ⟨t, verdict'⟩ ⟨hagree, heq⟩
    obtain rfl : verdict = verdict' := heq
    dsimp only
    rw [ih hagree]
    exact .of_eq _

theorem ProcessState.Agree.lineStep (rules : List CleaningRule) {s t : ProcessState R}
    (h : s.Agree t) (line : Str) :
    SameUpTo ProcessState.Agree (lineStep sha256 rules s line) (lineStep sha256 rules t line) := by
  rw [Cleaning.lineStep, Cleaning.lineStep]
  split
  · exact h
  split
  · exact rfl
  split
  · exact rfl
  · exact h.rowStep sha256 rules _

theorem sameUpTo_processRows (rules : List CleaningRule) (backend backend' : Backend)
    (maxDetailEntries : ℕ) (artifact : List Byte) :
    SameUpTo (ProcessState.Agree (R := R))
      (processRows sha256 rules backend maxDetailEntries artifact)
      (processRows sha256 rules backend' maxDetailEntries artifact) := by
  rw [processRows, processRows]
  split
  · exact rfl
  · exact SameUpTo.foldlM (fun s t line h ↦ h.lineStep sha256 rules line)
      ⟨_, SeenIndex.agree_create backend backend', rfl⟩

/-- The configuration with another backend. -/
def CleaningConfig.withBackend (config : CleaningConfig) (backend : Backend) : CleaningConfig :=
  { config with duplicatePolicy := { config.duplicatePolicy with backend } }

/-- **The backend does not matter.** A run ends in the same way with either backend, also where it
raises an exception. -/
theorem clean_withBackend (config : CleaningConfig) (backend : Backend) (knownStreams : List Str)
    (maxDetailEntries : ℕ) (artifact : List Byte) :
    (clean sha256 (config.withBackend backend) knownStreams maxDetailEntries artifact :
        Except CleaningError (CleaningRun R)) =
      clean sha256 config knownStreams maxDetailEntries artifact := by
  have hsame := sameUpTo_processRows (R := R) sha256 (buildRules config knownStreams) backend
    config.duplicatePolicy.backend maxDetailEntries artifact
  have hleft : (clean sha256 (config.withBackend backend) knownStreams maxDetailEntries artifact :
      Except CleaningError (CleaningRun R)) = (do
        validateConfig config
        let s : ProcessState R ← processRows sha256 (buildRules config knownStreams) backend
          maxDetailEntries artifact
        let status := determineStatus s.metrics config
        return ⟨status.1, status.2, s.metrics, s.outFile, sha256 s.digest, s.sizeBytes⟩) := rfl
  rw [hleft, clean]
  rcases validateConfig config with e | _
  · rfl
  revert hsame
  rcases (processRows sha256 (buildRules config knownStreams) backend maxDetailEntries artifact :
    Except CleaningError (ProcessState R)) with e | s
  · rcases (processRows sha256 (buildRules config knownStreams) config.duplicatePolicy.backend
      maxDetailEntries artifact : Except CleaningError (ProcessState R)) with e' | t
    · exact fun h ↦ congrArg Except.error h
    · exact fun h ↦ h.elim
  · rcases (processRows sha256 (buildRules config knownStreams) config.duplicatePolicy.backend
      maxDetailEntries artifact : Except CleaningError (ProcessState R)) with e' | t
    · exact fun h ↦ h.elim
    · rintro ⟨seen, -, rfl⟩
      rfl

end

end Cleaning

end ForgeData
