import ForgeData.Packaging.Splitter

/-!
# The leakage audit

After the splits have been assigned, a separate pass re-derives from the assignment whether any
sample id is repeated, any group is spread over two splits, or any chain of overlapping samples is.
The chains are recomputed from the source ranges alone.

The audit raises when it finds anything, so packaging completes only if it passes. For an
assignment that gives each group one split it finds nothing, unless a chain crosses two groups.
-/

namespace ForgeData

open Python

structure LeakageCheckResult where
  duplicateSampleIds : ℕ
  crossSplitGroups : ℕ
  crossSplitOverlaps : ℕ
  passed : Bool
  deriving DecidableEq, Repr

/-- `s.add(a)` on a set kept as a list. -/
def addToSet {α : Type} [DecidableEq α] (a : α) (s : List α) : List α :=
  if a ∈ s then s else s ++ [a]

/-! ## Cross-split overlap chains -/

/-- The local variables of `_count_cross_split_overlaps`. -/
structure ChainState where
  violations : ℕ
  currentMaxEnd : Option ℤ
  currentSplits : List Split

/-- The violations once the current chain is closed. -/
def ChainState.close (s : ChainState) : ℕ :=
  if 1 < s.currentSplits.length then s.violations + 1 else s.violations

/-- One pass through the loop body of `_count_cross_split_overlaps`. -/
def chainStep (s : ChainState) (range : ℤ × ℤ × Split) : ChainState :=
  match s.currentMaxEnd with
  | some m =>
    if range.1 ≤ m then
      ⟨s.violations, some (max m range.2.1), addToSet range.2.2 s.currentSplits⟩
    else ⟨s.close, some range.2.1, [range.2.2]⟩
  | none => ⟨s.close, some range.2.1, [range.2.2]⟩

def countCrossSplitOverlaps (rangesAndSplits : List (ℤ × ℤ × Split)) : ℕ :=
  (rangesAndSplits.foldl chainStep ⟨0, none, []⟩).close

/-! ## The audit -/

/-- The local variables of the audit's pass over the assignments. -/
structure AuditState where
  seenSampleIds : List String
  duplicateSampleIds : ℕ
  groupSplits : Dict String (List Split)

/-- One assignment: sample id, group id and split. -/
abbrev Assignment := String × String × Split

def auditStep (s : AuditState) (a : Assignment) : AuditState where
  seenSampleIds := addToSet a.1 s.seenSampleIds
  duplicateSampleIds :=
    if a.1 ∈ s.seenSampleIds then s.duplicateSampleIds + 1 else s.duplicateSampleIds
  groupSplits := s.groupSplits.set a.2.1 (addToSet a.2.2 (s.groupSplits.getD a.2.1 []))

def runLeakageChecks (assignments : List Assignment) (sourceSampleCount : ℕ)
    (overlapRangesAndSplits : List (ℤ × ℤ × Split)) : Except PackagingError LeakageCheckResult :=
  let audit := assignments.foldl auditStep ⟨[], 0, .empty⟩
  let crossSplitGroups := audit.groupSplits.values.countP (1 < ·.length)
  let crossSplitOverlaps := countCrossSplitOverlaps overlapRangesAndSplits
  if assignments.length ≠ sourceSampleCount then
    .error (.sampleCountMismatch
      s!"Packaged {assignments.length} samples but source transformed dataset has {sourceSampleCount} — refusing to commit.")
  else if audit.duplicateSampleIds = 0 ∧ crossSplitGroups = 0 ∧ crossSplitOverlaps = 0 then
    .ok ⟨0, 0, 0, true⟩
  else
    .error (.leakageInvariantViolation audit.duplicateSampleIds crossSplitGroups crossSplitOverlaps)

/-! ## Assignments that pass -/

/-- The invariant of the audit's pass when a group's split is a function of its id: the ids seen
are those of the assignments so far, none of them twice, and every group has one split. -/
structure AuditInv (splitOf : String → Split) (pre : List Assignment) (s : AuditState) : Prop where
  seen : s.seenSampleIds = pre.map Prod.fst
  duplicates : s.duplicateSampleIds = 0
  groups : ∀ g splits, s.groupSplits.get? g = some splits → splits = [splitOf g]

theorem AuditInv.step {splitOf : String → Split} {pre : List Assignment} {s : AuditState}
    {a : Assignment} (h : AuditInv splitOf pre s) (hid : a.1 ∉ pre.map Prod.fst)
    (hsplit : a.2.2 = splitOf a.2.1) : AuditInv splitOf (pre ++ [a]) (auditStep s a) where
  seen := by simp [auditStep, addToSet, h.seen, hid]
  duplicates := by simp [auditStep, h.seen, hid, h.duplicates]
  groups := fun g splits hg ↦ by
    rw [auditStep, Dict.get?_set] at hg
    split at hg
    · next hga =>
      obtain rfl := Option.some.inj hg
      rw [Dict.getD, hga, hsplit]
      rcases hold : s.groupSplits.get? a.2.1 with _ | old
      · rfl
      · simp [h.groups _ _ hold, addToSet]
    · exact h.groups g splits hg

/-- **The audit passes** for distinct sample ids, one split for each group, and ranges whose chains
keep to one split. -/
theorem runLeakageChecks_eq_ok {assignments : List Assignment} (splitOf : String → Split)
    (hids : (assignments.map Prod.fst).Nodup) (hsplits : ∀ a ∈ assignments, a.2.2 = splitOf a.2.1)
    {ranges : List (ℤ × ℤ × Split)} (hranges : countCrossSplitOverlaps ranges = 0) :
    runLeakageChecks assignments assignments.length ranges = .ok ⟨0, 0, 0, true⟩ := by
  have hinv : AuditInv splitOf assignments (assignments.foldl auditStep ⟨[], 0, .empty⟩) :=
    foldl_invariant (fun {pre a post s} hl ih ↦ by
      refine ih.step (fun hmem ↦ ?_) (hsplits a (by simp [hl]))
      rw [hl, List.map_append, List.map_cons, List.nodup_append] at hids
      exact hids.2.2 a.1 hmem a.1 (List.mem_cons_self ..) rfl)
      ⟨rfl, rfl, fun _ _ h ↦ by simp at h⟩
  have hgroups : (assignments.foldl auditStep ⟨[], 0, .empty⟩).groupSplits.values.countP
      (1 < ·.length) = 0 := by
    refine List.countP_eq_zero.2 fun splits hsplits ↦ ?_
    obtain ⟨p, hp, rfl⟩ := List.mem_map.1 hsplits
    rw [hinv.groups p.1 p.2 (Dict.get?_eq_some_iff.2 hp)]
    simp
  simp [runLeakageChecks, hinv.duplicates, hgroups, hranges]

end ForgeData
