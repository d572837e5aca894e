import ForgeData.Packaging.SequentialFill
import Mathlib.Algebra.Order.Field.Rat

/-!
# Splits of ratio zero, and the order of the splits

Which splits receive a group at all. The hash strategy compares a group's fraction with the sum of
ratios, which may be a little less than one, and the sequential strategy never leaves a split whose
target is zero: where the ratio of validation is zero it takes what train leaves over. With three
positive ratios the sequential strategy is chronological.
-/

namespace ForgeData

open Python

/-! ## Arithmetic of ratios -/

/-- What is used of the arithmetic of ratios; floats and exact numbers obey it. -/
class LawfulRatios (R : Type) [PyFloat R] : Prop where
  /-- What a count reaches, a larger count reaches. -/
  le_ofInt_mono {x : R} {m n : ℕ} : m ≤ n → x ≤ PyFloat.ofInt m → x ≤ PyFloat.ofInt n
  /-- Adding zero changes no comparison. -/
  lt_of_lt_add_zero {x y : R} : x < y + PyFloat.ofInt 0 → x < y
  /-- No part of the samples is more than none. -/
  not_pos_zero_mul (n : ℕ) : ¬(PyFloat.ofInt 0 : R) < PyFloat.ofInt 0 * PyFloat.ofInt n
  zero_le_zero : (PyFloat.ofInt 0 : R) ≤ PyFloat.ofInt 0

theorem ofInt_rat (n : ℤ) : (PyFloat.ofInt n : ℚ) = n := rfl

instance : LawfulRatios ℚ where
  le_ofInt_mono {x m n} hmn hx := by
    rw [ofInt_rat] at hx ⊢
    exact hx.trans (by exact_mod_cast hmn)
  lt_of_lt_add_zero {x y} h := by
    rw [ofInt_rat, Int.cast_zero] at h
    rwa [← add_zero y]
  not_pos_zero_mul n := by
    rw [ofInt_rat, Int.cast_zero]
    exact fun h ↦ absurd (zero_mul (n : ℚ) ▸ h) (lt_irrefl _)
  zero_le_zero := le_refl (0 : ℚ)

variable {R : Type} [PyFloat R] [LawfulRatios R]

theorem Reaches.append {targets : Split → R} {split : Split} {groups : List (String × ℕ)}
    (h : Reaches targets split groups) (front : List (String × ℕ)) :
    Reaches targets split (front ++ groups) := by
  refine ⟨h.1, LawfulRatios.le_ofInt_mono ?_ h.2⟩
  simp [sampleTotal]

/-- Test gets a group exactly if one follows groups that reach the target of train and then groups that
reach the target of validation. -/
theorem SequentialFill.test_ne_nil_iff {targets : Split → R} {groups t v e : List (String × ℕ)}
    {s : SequentialState} (h : SequentialFill targets groups s t v e) :
    e ≠ [] ↔ ∃ pre mid g post, groups = pre ++ (mid ++ g :: post) ∧ Reaches targets .train pre ∧
      Reaches targets .validation mid := by
  obtain ⟨hruns, -, -, -, -, htshort, hvshort, hstage⟩ := h
  constructor
  · intro hne
    rcases hstage with ⟨-, -, -⟩ | ⟨-, -, -, -, -⟩ | ⟨-, -, hreach, hreach', -⟩
    · exact absurd rfl hne
    · exact absurd rfl hne
    · obtain ⟨g, e', rfl⟩ := List.exists_cons_of_ne_nil hne
      exact ⟨t, v, g, e', hruns, hreach, hreach'⟩
  · rintro ⟨pre, mid, g, post, heq, hreach, hreach'⟩ rfl
    rw [List.append_nil, heq] at hruns
    rcases List.append_eq_append_iff.1 hruns with ⟨x, rfl, hmid⟩ | ⟨x, rfl, hv⟩
    · rcases eq_or_ne x [] with rfl | hx
      · rw [List.nil_append] at hmid
        exact hvshort mid (g :: post) hmid.symm (List.cons_ne_nil _ _) hreach'
      · exact htshort pre x rfl hx hreach
    · exact hvshort (x ++ mid) (g :: post) (by rw [hv, List.append_assoc]) (List.cons_ne_nil _ _)
        (hreach'.append x)

/-! ## Splits of ratio zero -/

section Zero

variable (sha256 : String → Sha256Digest) (config : SplitConfig R) (profileName profileVersion : String)
  (groupIds : List String) (counts : Dict String ℕ)

/-- No group is assigned to a split of ratio zero. -/
def ZeroRatiosEmpty (assignment : Dict String Split) : Prop :=
  ∀ split, config.ratio split = PyFloat.ofInt 0 → ∀ g, assignment.get? g ≠ some split

/-- The groups with their sample counts, as the sequential strategy gets them. -/
def countedGroups : List (String × ℕ) := groupIds.map fun g ↦ (g, counts.getD g 0)

/-- No group lies beyond the ratios of train and validation if that of test is zero. -/
def HashSpares : Prop :=
  config.testRatio = PyFloat.ofInt 0 → ∀ g ∈ groupIds,
    (groupSplitFraction sha256 config profileName profileVersion g : R) < config.trainRatio ∨
      groupSplitFraction sha256 config profileName profileVersion g
        < config.trainRatio + config.validationRatio

/-- No group follows where train is full, if the ratio of validation is zero, or where validation is
full as well, if that of test is. -/
def SequentialSpares (groups : List (String × ℕ)) : Prop :=
  (config.validationRatio = PyFloat.ofInt 0 → ∀ pre g post, groups = pre ++ g :: post →
    ¬Reaches (sequentialTargets config groups) .train pre) ∧
  (config.testRatio = PyFloat.ofInt 0 → ∀ pre mid g post, groups = pre ++ (mid ++ g :: post) →
    ¬(Reaches (sequentialTargets config groups) .train pre ∧
      Reaches (sequentialTargets config groups) .validation mid))

/-- Nothing is left over for a split of ratio zero. -/
def SparesZeroRatios : Prop :=
  if config.strategy = "group_hash" then HashSpares sha256 config profileName profileVersion groupIds
  else SequentialSpares config (countedGroups groupIds counts)

variable {sha256 config profileName profileVersion groupIds counts}

theorem train_ratio_ne_zero {config : PackagingConfig R}
    (hconfig : defaultMlPackage.validateConfig config = .ok ()) :
    config.split.trainRatio ≠ PyFloat.ofInt 0 := by
  intro hzero
  rw [PackagingProfile.validateConfig] at hconfig
  split at hconfig
  · cases hconfig
  split at hconfig
  · cases hconfig
  split at hconfig
  · cases hconfig
  have hpositive : invalidRatios config.split = none := by
    rcases hinvalid : invalidRatios config.split with _ | message
    · rfl
    · rw [hinvalid] at hconfig
      cases hconfig
  rw [invalidRatios] at hpositive
  dsimp only at hpositive
  split at hpositive
  · cases hpositive
  split at hpositive
  · cases hpositive
  split at hpositive
  · cases hpositive
  have hle : config.split.trainRatio ≤ PyFloat.ofInt 0 := by
    rw [hzero]
    exact LawfulRatios.zero_le_zero
  rw [if_pos hle] at hpositive
  cases hpositive

omit [LawfulRatios R] in
theorem mem_of_get?_assignGroupHashSplits {g : String} {split : Split}
    (h : (assignGroupHashSplits sha256 config profileName profileVersion groupIds).get? g = some split) :
    g ∈ groupIds := by
  refine foldl_invariant (l := groupIds)
    (I := fun pre (assignment : Dict String Split) ↦ assignment.get? g = some split → g ∈ pre)
    (fun {pre g' post assignment} _ hpre hget ↦ ?_) (fun hget ↦ ?_) h
  swap
  · cases hget
  rw [Dict.get?_set] at hget
  split at hget
  · next heq => exact heq ▸ List.mem_append_right _ (List.mem_singleton_self _)
  · exact List.mem_append_left _ (hpre hget)

/-- The hash strategy. -/
theorem hash_zeroRatiosEmpty_iff (htrain : config.trainRatio ≠ PyFloat.ofInt 0) :
    ZeroRatiosEmpty config (assignGroupHashSplits sha256 config profileName profileVersion groupIds) ↔
      HashSpares sha256 config profileName profileVersion groupIds := by
  constructor
  · intro h htest g hg
    by_contra hbeyond
    obtain ⟨hlt, hlt'⟩ := not_or.1 hbeyond
    refine h .test htest g ?_
    rw [get?_assignGroupHashSplits _ _ _ _ hg, groupHashSplit, if_neg hlt, if_neg hlt']
  · intro h split hzero g hget
    have hg := mem_of_get?_assignGroupHashSplits hget
    rw [get?_assignGroupHashSplits _ _ _ _ hg, groupHashSplit] at hget
    split at hget
    · obtain rfl := Option.some.inj hget
      exact htrain hzero
    · next hlt =>
      split at hget
      · next hlt' =>
        obtain rfl := Option.some.inj hget
        change config.validationRatio = _ at hzero
        rw [hzero] at hlt'
        exact hlt (LawfulRatios.lt_of_lt_add_zero hlt')
      · next hlt' =>
        obtain rfl := Option.some.inj hget
        exact (h hzero g hg).elim hlt hlt'

/-- The sequential strategy. -/
theorem sequential_zeroRatiosEmpty_iff {groups : List (String × ℕ)}
    (hnodup : (groups.map Prod.fst).Nodup) (htrain : config.trainRatio ≠ PyFloat.ofInt 0) :
    ZeroRatiosEmpty config (assignSequentialSplits config groups) ↔ SequentialSpares config groups := by
  obtain ⟨s, t, v, e, hfill, heq⟩ := exists_sequentialFill config hnodup
  rw [heq]
  have hnotPositive : config.validationRatio = PyFloat.ofInt 0 →
      ¬PyFloat.ofInt 0 < sequentialTargets config groups .validation := by
    intro hzero
    rw [sequentialTargets, show config.ratio .validation = _ from hzero]
    exact LawfulRatios.not_pos_zero_mul _
  constructor
  · intro h
    refine ⟨fun hzero pre g post hgroups hreach ↦ ?_, fun hzero pre mid g post hgroups hreach ↦ ?_⟩
    · have hne := (hfill.validation_ne_nil_iff (hnotPositive hzero)).2 ⟨pre, g, post, hgroups, hreach⟩
      obtain ⟨g', hg'⟩ := hfill.exists_validation_iff.2 hne
      exact h .validation hzero g' hg'
    · have hne := hfill.test_ne_nil_iff.2 ⟨pre, mid, g, post, hgroups, hreach⟩
      obtain ⟨g', hg'⟩ := hfill.exists_test_iff.2 hne
      exact h .test hzero g' hg'
  · rintro ⟨hvalidation, htest⟩ split hzero g hget
    cases split with
    | train => exact htrain hzero
    | validation =>
      have hne := hfill.exists_validation_iff.1 ⟨g, hget⟩
      obtain ⟨pre, g', post, hgroups, hreach⟩ :=
        (hfill.validation_ne_nil_iff (hnotPositive hzero)).1 hne
      exact hvalidation hzero pre g' post hgroups hreach
    | test =>
      obtain ⟨pre, mid, g', post, hgroups, hreach⟩ :=
        hfill.test_ne_nil_iff.1 (hfill.exists_test_iff.1 ⟨g, hget⟩)
      exact htest hzero pre mid g' post hgroups hreach

end Zero

/-- **When a split of ratio zero receives nothing.** For every accepted configuration and all distinct
groups: the splits of ratio zero stay empty exactly if nothing is left over for them. -/
theorem zeroRatiosEmpty_iff (sha256 : String → Sha256Digest) (config : PackagingConfig R)
    (hconfig : defaultMlPackage.validateConfig config = .ok ()) (profileName profileVersion : String)
    {groupIds : List String} (hnodup : groupIds.Nodup) (counts : Dict String ℕ) :
    ∃ assignment,
      assignSplits sha256 config.split profileName profileVersion groupIds counts = .ok assignment ∧
      (ZeroRatiosEmpty config.split assignment ↔
        SparesZeroRatios sha256 config.split profileName profileVersion groupIds counts) := by
  have htrain := train_ratio_ne_zero hconfig
  rw [assignSplits, SparesZeroRatios]
  rcases strategy_of_validateConfig hconfig with hstrategy | hstrategy
  · rw [if_pos hstrategy, if_pos hstrategy]
    exact ⟨_, rfl, hash_zeroRatiosEmpty_iff htrain⟩
  · have hne : config.split.strategy ≠ "group_hash" := by
      rw [hstrategy]
      decide
    rw [if_neg hne, if_neg hne, if_pos hstrategy]
    refine ⟨_, rfl, sequential_zeroRatiosEmpty_iff ?_ htrain⟩
    rw [List.map_map]
    exact (List.map_id' groupIds).symm ▸ hnodup

/-- Four fifths for train, nothing for validation, a fifth for test. -/
def zeroValidation : PackagingConfig ℚ where
  split := { strategy := "sequential", trainRatio := 4 / 5, validationRatio := 0, testRatio := 1 / 5 }

/-- A group of eight samples and one of two. -/
def eightAndTwo : Dict String ℕ := .ofPairs [("a", 8), ("b", 2)]

/-- Train takes the first group, and the second one, meant for test, goes to validation. -/
theorem zero_validation_receives_group : ∃ assignment,
    defaultMlPackage.validateConfig zeroValidation = .ok () ∧
    assignSplits (fun _ ↦ digestOfHex "") zeroValidation.split "p" "1.0.0" ["a", "b"] eightAndTwo
      = .ok assignment ∧
    zeroValidation.split.ratio .validation = 0 ∧ assignment.get? "b" = some .validation ∧
    ¬ZeroRatiosEmpty zeroValidation.split assignment := by
  refine ⟨_, by decide +kernel, rfl, rfl, by decide +kernel, fun h ↦ ?_⟩
  exact h .validation rfl "b" (by decide +kernel)

/-- The condition at that input, and where all groups fit into train. -/
theorem zeroRatiosEmpty_iff_zero_validation :
    (∃ assignment, assignSplits (fun _ ↦ digestOfHex "") zeroValidation.split "p" "1.0.0" ["a", "b"]
      eightAndTwo = .ok assignment ∧ (ZeroRatiosEmpty zeroValidation.split assignment ↔
        SparesZeroRatios (fun _ ↦ digestOfHex "") zeroValidation.split "p" "1.0.0" ["a", "b"]
          eightAndTwo)) ∧
    ∃ assignment, assignSplits (fun _ ↦ digestOfHex "") zeroValidation.split "p" "1.0.0" ["a"]
      eightAndTwo = .ok assignment ∧ (ZeroRatiosEmpty zeroValidation.split assignment ↔
        SparesZeroRatios (fun _ ↦ digestOfHex "") zeroValidation.split "p" "1.0.0" ["a"]
          eightAndTwo) :=
  ⟨zeroRatiosEmpty_iff _ zeroValidation (by decide +kernel) _ _ (by decide) _,
    zeroRatiosEmpty_iff _ zeroValidation (by decide +kernel) _ _ (by decide) _⟩

/-! ## Chronological splits -/

/-- The samples that a split is to get, exactly. -/
def targetSamples (config : SplitConfig ℚ) (groups : List (String × ℕ)) (split : Split) : ℚ :=
  config.ratio split * sampleTotal groups

/-- The groups of train, then those of validation, then those of test; each split is full before the
next one begins, and none takes a group once it is full. -/
structure Chronological (config : SplitConfig ℚ) (groups : List (String × ℕ))
    (assignment : Dict String Split) (t v e : List (String × ℕ)) : Prop where
  runs : groups = t ++ (v ++ e)
  train : ∀ g ∈ t, assignment.get? g.1 = some .train
  validation : ∀ g ∈ v, assignment.get? g.1 = some .validation
  test : ∀ g ∈ e, assignment.get? g.1 = some .test
  train_full : v ++ e ≠ [] → targetSamples config groups .train ≤ sampleTotal t
  validation_full : e ≠ [] → targetSamples config groups .validation ≤ sampleTotal v
  train_overshoot : ∀ front last, t = front ++ [last] →
    (sampleTotal t : ℚ) < targetSamples config groups .train + last.2
  validation_overshoot : ∀ front last, v = front ++ [last] →
    (sampleTotal v : ℚ) < targetSamples config groups .validation + last.2

theorem sampleTotal_pos {groups : List (String × ℕ)} (hcounts : ∀ g ∈ groups, 0 < g.2)
    (hne : groups ≠ []) : 0 < sampleTotal groups := by
  obtain ⟨g, rest, rfl⟩ := List.exists_cons_of_ne_nil hne
  have := hcounts g List.mem_cons_self
  rw [sampleTotal, List.map_cons, List.sum_cons]
  omega

theorem reaches_iff {config : SplitConfig ℚ} {groups l : List (String × ℕ)} {split : Split}
    (hpos : 0 < targetSamples config groups split) :
    Reaches (sequentialTargets config groups) split l ↔
      targetSamples config groups split ≤ sampleTotal l := by
  have htarget : sequentialTargets config groups split = targetSamples config groups split := rfl
  rw [Reaches, htarget, ofInt_rat, ofInt_rat, Int.cast_zero, Int.cast_natCast]
  exact and_iff_right hpos

theorem NoProperPrefix.overshoot {config : SplitConfig ℚ} {groups l : List (String × ℕ)}
    {split : Split} (h : NoProperPrefix (Reaches (sequentialTargets config groups) split) l)
    (hpos : 0 < targetSamples config groups split) :
    ∀ front last, l = front ++ [last] →
      (sampleTotal l : ℚ) < targetSamples config groups split + last.2 := by
  rintro front last rfl
  have hshort := h front [last] rfl (List.cons_ne_nil _ _)
  rw [reaches_iff hpos, not_le] at hshort
  rw [sampleTotal_concat, Nat.cast_add]
  exact add_lt_add_of_lt_of_le hshort le_rfl

/-- **Sequential splitting is chronological**, and no split exceeds its target by more than its last
group, for three positive ratios and distinct groups that are not empty. -/
theorem sequential_chronological (config : SplitConfig ℚ) (hratios : ∀ split, 0 < config.ratio split)
    {groups : List (String × ℕ)} (hnodup : (groups.map Prod.fst).Nodup)
    (hcounts : ∀ g ∈ groups, 0 < g.2) :
    ∃ t v e, Chronological config groups (assignSequentialSplits config groups) t v e := by
  obtain ⟨s, t, v, e, hfill, heq⟩ := exists_sequentialFill config hnodup
  rw [heq]
  refine ⟨t, v, e, ?_⟩
  rcases eq_or_ne groups [] with rfl | hne
  · obtain ⟨rfl, hrest⟩ := List.append_eq_nil_iff.1 hfill.runs.symm
    obtain ⟨rfl, rfl⟩ := List.append_eq_nil_iff.1 hrest
    exact ⟨rfl, List.forall_mem_nil _, List.forall_mem_nil _, List.forall_mem_nil _,
      fun h ↦ absurd rfl h, fun h ↦ absurd rfl h, fun _ _ h ↦ absurd h (by simp),
      fun _ _ h ↦ absurd h (by simp)⟩
  have hpos : ∀ split, 0 < targetSamples config groups split := fun split ↦
    mul_pos (hratios split) (by exact_mod_cast sampleTotal_pos hcounts hne)
  have htrain : v ++ e ≠ [] → Reaches (sequentialTargets config groups) .train t := by
    intro hne'
    rcases hfill.stage with ⟨-, -, -⟩ | ⟨-, -, -, hreach, -⟩ | ⟨-, -, hreach, -, -⟩
    · exact absurd rfl hne'
    · exact hreach
    · exact hreach
  have hvalidation : e ≠ [] → Reaches (sequentialTargets config groups) .validation v := by
    intro hne'
    rcases hfill.stage with ⟨-, -, -⟩ | ⟨-, -, -, -, -⟩ | ⟨-, -, -, hreach, -⟩
    · exact absurd rfl hne'
    · exact absurd rfl hne'
    · exact hreach
  exact {
    runs := hfill.runs
    train := hfill.train
    validation := hfill.validation
    test := hfill.test
    train_full := fun h ↦ (reaches_iff (hpos .train)).1 (htrain h)
    validation_full := fun h ↦ (reaches_iff (hpos .validation)).1 (hvalidation h)
    train_overshoot := hfill.train_shortest.overshoot (hpos .train)
    validation_overshoot := hfill.validation_shortest.overshoot (hpos .validation) }

/-- Half of the samples, a quarter, and a quarter. -/
def halfAndQuarters : SplitConfig ℚ where
  strategy := "sequential"
  trainRatio := 1 / 2
  validationRatio := 1 / 4
  testRatio := 1 / 4

/-- The first group alone is more than half of the samples. -/
theorem sequential_chronological_large_group : ∃ t v e,
    Chronological halfAndQuarters [("a", 9), ("b", 2), ("c", 3), ("d", 1)]
      (assignSequentialSplits halfAndQuarters [("a", 9), ("b", 2), ("c", 3), ("d", 1)]) t v e :=
  sequential_chronological halfAndQuarters (fun split ↦ by cases split <;> decide +kernel)
    (by decide) (by decide)

end ForgeData
