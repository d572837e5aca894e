import ForgeData.Packaging.Growth

/-!
# How the sequential strategy fills the splits

The loop keeps one split open and moves on when its target is positive and reached. So the groups it
has handled are three runs: the groups of train, none of whose proper prefixes reaches the train
target, then those of validation, likewise, then the rest. A split with a target of zero is never left
again.
-/

namespace ForgeData

open Python

variable {R : Type} [PyFloat R]

/-! ## Shortest runs -/

/-- No proper prefix of the list has the property. -/
def NoProperPrefix {α : Type} (P : List α → Prop) (l : List α) : Prop :=
  ∀ front back, l = front ++ back → back ≠ [] → ¬P front

theorem noProperPrefix_nil {α : Type} {P : List α → Prop} : NoProperPrefix P ([] : List α) :=
  fun _ _ h hne ↦ absurd (List.append_eq_nil_iff.1 h.symm).2 hne

theorem NoProperPrefix.concat {α : Type} {P : List α → Prop} {l : List α} (h : NoProperPrefix P l)
    (hl : ¬P l) (a : α) : NoProperPrefix P (l ++ [a]) := by
  intro front back heq hne
  obtain ⟨back', b, rfl⟩ := List.eq_nil_or_concat' back |>.resolve_left hne
  rw [← List.append_assoc] at heq
  obtain ⟨rfl, -⟩ := List.append_inj' heq rfl
  rcases eq_or_ne back' [] with rfl | hne'
  · rwa [List.append_nil] at hl
  · exact h front back' rfl hne'

/-! ## The loop -/

/-- The samples of some groups. -/
def sampleTotal (groups : List (String × ℕ)) : ℕ := (groups.map Prod.snd).sum

/-- The groups reach the target of a split, which is positive. -/
def Reaches (targets : Split → R) (split : Split) (groups : List (String × ℕ)) : Prop :=
  PyFloat.ofInt 0 < targets split ∧ targets split ≤ PyFloat.ofInt (sampleTotal groups)

/-- Where the loop stands, and what moved it there. -/
inductive FillStage (targets : Split → R) (s : SequentialState) :
    List (String × ℕ) → List (String × ℕ) → List (String × ℕ) → Prop
  | train {t} : s.current = .train → s.later = [.validation, .test] →
      s.usedInCurrent = sampleTotal t → FillStage targets s t [] []
  | validation {t v} : s.current = .validation → s.later = [.test] →
      s.usedInCurrent = sampleTotal v → Reaches targets .train t → v ≠ [] → FillStage targets s t v []
  | test {t v e} : s.current = .test → s.later = [] → Reaches targets .train t →
      Reaches targets .validation v → e ≠ [] → FillStage targets s t v e

/-- **The invariant**: the groups handled so far are the runs `t`, `v` and `e`. -/
structure SequentialFill (targets : Split → R) (pre : List (String × ℕ)) (s : SequentialState)
    (t v e : List (String × ℕ)) : Prop where
  runs : pre = t ++ (v ++ e)
  keys : s.assignment.keys = pre.map Prod.fst
  train : ∀ g ∈ t, s.assignment.get? g.1 = some .train
  validation : ∀ g ∈ v, s.assignment.get? g.1 = some .validation
  test : ∀ g ∈ e, s.assignment.get? g.1 = some .test
  train_shortest : NoProperPrefix (Reaches targets .train) t
  validation_shortest : NoProperPrefix (Reaches targets .validation) v
  stage : FillStage targets s t v e

theorem advanceSplit_cons (targets : Split → R) (current next : Split) (later : List Split)
    (groups : List (String × ℕ)) :
    (Reaches targets current groups →
      advanceSplit targets current (next :: later) (sampleTotal groups)
        = advanceSplit targets next later 0) ∧
      (¬Reaches targets current groups →
        advanceSplit targets current (next :: later) (sampleTotal groups)
          = (current, next :: later, sampleTotal groups)) :=
  ⟨fun h ↦ if_pos h, fun h ↦ if_neg h⟩

theorem sequentialStep_of_advanceSplit {targets : Split → R} {assignment : Dict String Split}
    {current current' : Split} {later later' : List Split} {used used' : ℕ} (g : String × ℕ)
    (h : advanceSplit targets current later used = (current', later', used')) :
    sequentialStep targets ⟨assignment, current, later, used⟩ g
      = ⟨assignment.set g.1 current', current', later', used' + g.2⟩ := by
  rw [sequentialStep, h]

theorem sampleTotal_concat (groups : List (String × ℕ)) (g : String × ℕ) :
    sampleTotal (groups ++ [g]) = sampleTotal groups + g.2 := by
  simp [sampleTotal]

section Step

variable {targets : Split → R} {pre t v e : List (String × ℕ)} {s : SequentialState}
  {g : String × ℕ}

omit [PyFloat R] in
theorem get?_set_of_fresh {assignment : Dict String Split} {l : List (String × ℕ)} {split x : Split}
    (h : ∀ y ∈ l, assignment.get? y.1 = some split) (hfresh : g.1 ∉ l.map Prod.fst) :
    ∀ y ∈ l, (assignment.set g.1 x).get? y.1 = some split := by
  intro y hy
  rw [Dict.get?_set_of_ne]
  · exact h y hy
  · rintro heq
    exact hfresh (heq ▸ List.mem_map_of_mem hy)

omit [PyFloat R] in
theorem get?_set_concat {assignment : Dict String Split} {l : List (String × ℕ)} {split : Split}
    (h : ∀ y ∈ l, assignment.get? y.1 = some split) (hfresh : g.1 ∉ l.map Prod.fst) :
    ∀ y ∈ l ++ [g], (assignment.set g.1 split).get? y.1 = some split := by
  intro y hy
  rcases List.mem_append.1 hy with hy | hy
  · exact get?_set_of_fresh h hfresh y hy
  · rw [List.mem_singleton.1 hy, Dict.get?_set_self]

/-- **The step lemma**: one more group goes to the split that is open once the loop has moved on. -/
theorem SequentialFill.step (h : SequentialFill targets pre s t v e) (hfresh : g.1 ∉ pre.map Prod.fst) :
    ∃ t' v' e', SequentialFill targets (pre ++ [g]) (sequentialStep targets s g) t' v' e' := by
  obtain ⟨rfl, hkeys, htrain, hvalidation, htest, htshort, hvshort, hstage⟩ := h
  obtain ⟨assignment, current, later, used⟩ := s
  have hkeys' : ∀ x, (assignment.set g.1 x).keys = (t ++ (v ++ e) ++ [g]).map Prod.fst := by
    intro x
    dsimp only at hkeys
    rw [Dict.keys_set, hkeys, if_neg hfresh]
    simp
  simp only [List.map_append, List.mem_append, not_or] at hfresh
  obtain ⟨hft, hfv, hfe⟩ := hfresh
  have htrain' : ∀ x, ∀ y ∈ t, (assignment.set g.1 x).get? y.1 = some .train :=
    fun x ↦ get?_set_of_fresh htrain hft
  have hvalidation' : ∀ x, ∀ y ∈ v, (assignment.set g.1 x).get? y.1 = some .validation :=
    fun x ↦ get?_set_of_fresh hvalidation hfv
  rcases hstage with ⟨hcurrent, hlater, hused⟩ | ⟨hcurrent, hlater, hused, hreach, hne⟩ |
    ⟨hcurrent, hlater, hreach, hreach', hne⟩
  · dsimp only at hcurrent hlater hused
    subst hcurrent hlater hused
    by_cases hreach : Reaches targets .train t
    · have hadvance := (advanceSplit_cons targets .train .validation [.test] t).1 hreach
      by_cases hempty : Reaches targets .validation []
      · -- Both targets are reached before the group: it is the first of test.
        have hadvance' := (advanceSplit_cons targets .validation .test [] []).1 hempty
        rw [sequentialStep_of_advanceSplit g (hadvance.trans hadvance')]
        exact ⟨t, [], [g], by simp, hkeys' _, htrain' _, List.forall_mem_nil _,
          get?_set_concat (List.forall_mem_nil _) List.not_mem_nil, htshort, noProperPrefix_nil,
          .test rfl rfl hreach hempty (List.cons_ne_nil _ _)⟩
      · have hadvance' := (advanceSplit_cons targets .validation .test [] []).2 hempty
        rw [sequentialStep_of_advanceSplit g (hadvance.trans hadvance')]
        exact ⟨t, [g], [], by simp, hkeys' _, htrain' _,
          get?_set_concat (List.forall_mem_nil _) List.not_mem_nil, List.forall_mem_nil _, htshort,
          noProperPrefix_nil.concat hempty g,
          .validation rfl rfl (by simp [sampleTotal]) hreach (List.cons_ne_nil _ _)⟩
    · have hadvance := (advanceSplit_cons targets .train .validation [.test] t).2 hreach
      rw [sequentialStep_of_advanceSplit g hadvance]
      exact ⟨t ++ [g], [], [], by simp, hkeys' _, get?_set_concat htrain hft, List.forall_mem_nil _,
        List.forall_mem_nil _, htshort.concat hreach g, noProperPrefix_nil,
        .train rfl rfl (sampleTotal_concat t g).symm⟩
  · dsimp only at hcurrent hlater hused
    subst hcurrent hlater hused
    by_cases hreach' : Reaches targets .validation v
    · have hadvance := (advanceSplit_cons targets .validation .test [] v).1 hreach'
      rw [sequentialStep_of_advanceSplit g hadvance]
      exact ⟨t, v, [g], by simp, hkeys' _, htrain' _, hvalidation' _,
        get?_set_concat (List.forall_mem_nil _) List.not_mem_nil, htshort, hvshort,
        .test rfl rfl hreach hreach' (List.cons_ne_nil _ _)⟩
    · have hadvance := (advanceSplit_cons targets .validation .test [] v).2 hreach'
      rw [sequentialStep_of_advanceSplit g hadvance]
      exact ⟨t, v ++ [g], [], by simp, hkeys' _, htrain' _, get?_set_concat hvalidation hfv,
        List.forall_mem_nil _, htshort, hvshort.concat hreach' g,
        .validation rfl rfl (sampleTotal_concat v g).symm hreach (by simp)⟩
  · dsimp only at hcurrent hlater
    subst hcurrent hlater
    rw [sequentialStep_of_advanceSplit g (rfl : advanceSplit targets .test [] used = (.test, [], used))]
    exact ⟨t, v, e ++ [g], by simp, hkeys' _, htrain' _, hvalidation' _, get?_set_concat htest hfe,
      htshort, hvshort, .test rfl rfl hreach hreach' (by simp)⟩

end Step

/-! ## The whole run -/

/-- The target of each split, in samples. -/
def sequentialTargets (config : SplitConfig R) (groups : List (String × ℕ)) (split : Split) : R :=
  config.ratio split * PyFloat.ofInt (sampleTotal groups)

/-- **The run lemma**: distinct groups end up in three runs. -/
theorem exists_sequentialFill (config : SplitConfig R) {groups : List (String × ℕ)}
    (hnodup : (groups.map Prod.fst).Nodup) :
    ∃ s t v e, SequentialFill (sequentialTargets config groups) groups s t v e ∧
      assignSequentialSplits config groups = s.assignment := by
  have hinit : SequentialFill (sequentialTargets config groups) []
      ⟨.empty, .train, [.validation, .test], 0⟩ [] [] [] :=
    ⟨rfl, rfl, List.forall_mem_nil _, List.forall_mem_nil _, List.forall_mem_nil _,
      noProperPrefix_nil, noProperPrefix_nil, .train rfl rfl rfl⟩
  obtain ⟨t, v, e, hfill⟩ := foldl_invariant (l := groups)
    (f := sequentialStep (sequentialTargets config groups))
    (I := fun pre s ↦ ∃ t v e, SequentialFill (sequentialTargets config groups) pre s t v e)
    (fun {pre g post s} heq ⟨t, v, e, h⟩ ↦ by
      refine h.step fun hmem ↦ ?_
      rw [heq, List.map_append, List.map_cons, List.nodup_append] at hnodup
      exact hnodup.2.2 _ hmem _ List.mem_cons_self rfl)
    ⟨[], [], [], hinit⟩
  exact ⟨_, t, v, e, hfill, rfl⟩

namespace SequentialFill

variable {targets : Split → R} {groups t v e : List (String × ℕ)} {s : SequentialState}

theorem exists_validation_iff (h : SequentialFill targets groups s t v e) :
    (∃ g, s.assignment.get? g = some .validation) ↔ v ≠ [] := by
  constructor
  · rintro ⟨g, hg⟩ rfl
    have hmem : g ∈ s.assignment.keys := Dict.mem_keys_iff.2 ⟨_, hg⟩
    rw [h.keys, h.runs, List.nil_append, List.map_append, List.mem_append] at hmem
    rcases hmem with hmem | hmem <;> obtain ⟨p, hp, rfl⟩ := List.mem_map.1 hmem
    · rw [h.train p hp] at hg
      cases hg
    · rw [h.test p hp] at hg
      cases hg
  · intro hne
    obtain ⟨g, hg⟩ := List.exists_mem_of_ne_nil v hne
    exact ⟨g.1, h.validation g hg⟩

theorem exists_test_iff (h : SequentialFill targets groups s t v e) :
    (∃ g, s.assignment.get? g = some .test) ↔ e ≠ [] := by
  constructor
  · rintro ⟨g, hg⟩ rfl
    have hmem : g ∈ s.assignment.keys := Dict.mem_keys_iff.2 ⟨_, hg⟩
    rw [h.keys, h.runs, List.append_nil, List.map_append, List.mem_append] at hmem
    rcases hmem with hmem | hmem <;> obtain ⟨p, hp, rfl⟩ := List.mem_map.1 hmem
    · rw [h.train p hp] at hg
      cases hg
    · rw [h.validation p hp] at hg
      cases hg
  · intro hne
    obtain ⟨g, hg⟩ := List.exists_mem_of_ne_nil e hne
    exact ⟨g.1, h.test g hg⟩

/-- If its target is not positive, validation gets a group once another one follows a prefix that
reaches the target of train. -/
theorem validation_ne_nil_iff (h : SequentialFill targets groups s t v e)
    (hzero : ¬PyFloat.ofInt 0 < targets .validation) :
    v ≠ [] ↔ ∃ pre g post, groups = pre ++ g :: post ∧ Reaches targets .train pre := by
  obtain ⟨hruns, -, -, -, -, htshort, -, hstage⟩ := h
  rcases hstage with ⟨-, -, -⟩ | ⟨-, -, -, hreach, hne⟩ | ⟨-, -, -, hreach, -⟩
  · refine iff_of_false (fun h ↦ h rfl) ?_
    rintro ⟨pre, g, post, heq, hreach⟩
    rw [List.append_nil, List.append_nil] at hruns
    exact htshort pre (g :: post) (hruns.symm.trans heq) (List.cons_ne_nil _ _) hreach
  · refine iff_of_true hne ?_
    obtain ⟨g, v', rfl⟩ := List.exists_cons_of_ne_nil hne
    exact ⟨t, g, v', by rw [hruns, List.append_nil], hreach⟩
  · exact absurd hreach.1 hzero

end SequentialFill

end ForgeData
