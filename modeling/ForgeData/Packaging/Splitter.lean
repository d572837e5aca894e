import ForgeData.Packaging.Grouping
import ForgeData.Python.Float

/-!
# Assigning whole groups to splits

A splitter sees group identities and their sample counts, never a sample. `group_hash` looks at one
group at a time; `sequential` fills the splits in turn. Whatever the ratios are, every group it is
given is assigned some split.
-/

namespace ForgeData

open Python

inductive Split where
  | train
  | validation
  | test
  deriving DecidableEq, Repr

namespace Split

def name : Split → String
  | train => "train"
  | validation => "validation"
  | test => "test"

/-- `SPLIT_NAMES`. -/
def all : List Split := [train, validation, test]

end Split

/-- The `split` block of a packaging configuration. -/
structure SplitConfig (R : Type) where
  strategy : String := "group_hash"
  trainRatio : R
  validationRatio : R
  testRatio : R
  seed : ℤ := 0

variable {R : Type} [PyFloat R]

/-- The ratio requested for a split. -/
def SplitConfig.ratio (config : SplitConfig R) : Split → R
  | .train => config.trainRatio
  | .validation => config.validationRatio
  | .test => config.testRatio

/-! ## Group hash -/

section

variable (sha256 : String → Sha256Digest) (config : SplitConfig R)
  (profileName profileVersion : String)

/-- A group's position in `[0, 1)`: the first 32 bits of a hash, as a fraction. -/
def groupSplitFraction (groupId : String) : R :=
  let digest := sha256 s!"{groupId}:{config.seed}:{profileName}:{profileVersion}"
  PyFloat.ofInt (digest.leading 8) / PyFloat.ofInt 0x100000000

/-- The split a group's fraction falls in. -/
def groupHashSplit (groupId : String) : Split :=
  let fraction : R := groupSplitFraction sha256 config profileName profileVersion groupId
  if fraction < config.trainRatio then .train
  else if fraction < config.trainRatio + config.validationRatio then .validation
  else .test

def assignGroupHashSplits (groupIds : List String) : Dict String Split :=
  groupIds.foldl
    (fun assignment groupId ↦ assignment.set groupId
      (groupHashSplit sha256 config profileName profileVersion groupId)) .empty

end

/-! ## Sequential filling -/

/-- The local variables of `assign_sequential_splits`. The index `idx` into the list of splits is
kept as the split it points at together with the splits after it. -/
structure SequentialState where
  assignment : Dict String Split
  current : Split
  later : List Split
  usedInCurrent : ℕ

/-- The inner `while` loop: move on as long as the current split has a positive target and has
reached it, and is not the last. -/
def advanceSplit (targets : Split → R) : Split → List Split → ℕ → Split × List Split × ℕ
  | current, [], used => (current, [], used)
  | current, next :: later, used =>
    if PyFloat.ofInt 0 < targets current ∧ targets current ≤ PyFloat.ofInt used then
      advanceSplit targets next later 0
    else (current, next :: later, used)

/-- One pass through the loop body of `assign_sequential_splits`. -/
def sequentialStep (targets : Split → R) (s : SequentialState) (group : String × ℕ) :
    SequentialState :=
  let (current, later, used) := advanceSplit targets s.current s.later s.usedInCurrent
  ⟨s.assignment.set group.1 current, current, later, used + group.2⟩

def assignSequentialSplits (config : SplitConfig R) (groupOrder : List (String × ℕ)) :
    Dict String Split :=
  let totalSamples := (groupOrder.map Prod.snd).sum
  let targets : Split → R := fun split ↦ config.ratio split * PyFloat.ofInt totalSamples
  (groupOrder.foldl (sequentialStep targets) ⟨.empty, .train, [.validation, .test], 0⟩).assignment

/-! ## The strategy of the configuration -/

def assignSplits (sha256 : String → Sha256Digest) (config : SplitConfig R)
    (profileName profileVersion : String) (groupIdsInOrder : List String)
    (groupSampleCounts : Dict String ℕ) : Except PackagingError (Dict String Split) :=
  if config.strategy = "group_hash" then
    .ok (assignGroupHashSplits sha256 config profileName profileVersion groupIdsInOrder)
  else if config.strategy = "sequential" then
    -- Every group in order has been counted, so the default is never used.
    .ok (assignSequentialSplits config
      (groupIdsInOrder.map fun groupId ↦ (groupId, groupSampleCounts.getD groupId 0)))
  else .error (.unsupportedSplitStrategy s!"Unsupported split strategy '{config.strategy}'")

/-! ## Every group is assigned -/

/-- The groups handled so far all have a split. -/
private def AllAssigned (pre : List String) (assignment : Dict String Split) : Prop :=
  ∀ g ∈ pre, ∃ s, assignment.get? g = some s

omit [PyFloat R] in
private theorem AllAssigned.set {pre : List String} {assignment : Dict String Split}
    (h : AllAssigned pre assignment) (g : String) (split : Split) :
    AllAssigned (pre ++ [g]) (assignment.set g split) := by
  intro g' hg'
  rw [Dict.get?_set]
  split
  · exact ⟨split, rfl⟩
  · next hne => exact h g' ((List.mem_append.1 hg').resolve_right (hne ∘ List.mem_singleton.1))

theorem exists_get?_assignGroupHashSplits (sha256 : String → Sha256Digest)
    (config : SplitConfig R) (profileName profileVersion : String) {groupIds : List String}
    {g : String} (hg : g ∈ groupIds) :
    ∃ s, (assignGroupHashSplits sha256 config profileName profileVersion groupIds).get? g
      = some s :=
  foldl_invariant (I := AllAssigned) (fun _ h ↦ h.set _ _) (fun _ h ↦ absurd h List.not_mem_nil) g hg

theorem exists_get?_assignSequentialSplits (config : SplitConfig R)
    {groupOrder : List (String × ℕ)} {g : String} (hg : g ∈ groupOrder.map Prod.fst) :
    ∃ s, (assignSequentialSplits config groupOrder).get? g = some s :=
  foldl_invariant (I := fun pre (st : SequentialState) ↦ AllAssigned (pre.map Prod.fst) st.assignment)
    (fun _ h ↦ by rw [List.map_append]; exact h.set _ _)
    (fun _ h ↦ absurd h List.not_mem_nil) g hg

theorem exists_get?_of_assignSplits {sha256 : String → Sha256Digest} {config : SplitConfig R}
    {profileName profileVersion : String} {groupIds : List String} {counts : Dict String ℕ}
    {groupToSplit : Dict String Split}
    (h : assignSplits sha256 config profileName profileVersion groupIds counts = .ok groupToSplit)
    {g : String} (hg : g ∈ groupIds) : ∃ s, groupToSplit.get? g = some s := by
  rw [assignSplits] at h
  split at h
  · obtain rfl := Except.ok.inj h
    exact exists_get?_assignGroupHashSplits sha256 config profileName profileVersion hg
  · split at h
    · obtain rfl := Except.ok.inj h
      exact exists_get?_assignSequentialSplits config (by simpa [Function.comp_def] using hg)
    · cases h

end ForgeData
