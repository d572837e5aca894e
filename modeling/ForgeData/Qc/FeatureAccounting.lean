import ForgeData.Qc.FeatureCounts
import Mathlib.Algebra.Order.Field.Rat

/-!
# The accounting of features

A second pass that knew a path from the start would begin its accumulator with nothing missing, and
look for the path in every sample. A pass that comes upon the path at some index begins there with that
many samples missing, and from then on does the same. So the two accumulators are equal, not only in
their counters, and as every sample moves one of the four counters, these add up to the samples.
-/

namespace ForgeData

namespace Qc

open Python

variable {R : Type} [StatFloat R]

/-! ## The second pass -/

/-- One sample of a pass that knows the path. -/
def observeKnown (path : Str) (a : FeatureAccumulator R) (sample : Record R) :
    Except QcError (FeatureAccumulator R) := do
  let discovered ← discover sample
  match discovered.get? path with
  | none => return a.observeMissing
  | some value => a.observe value

/-- The accumulator of a path after a pass that knows it from the start. -/
def secondPass (maxValues : ℕ) (path : Str) (samples : List (Record R)) :
    Except QcError (FeatureAccumulator R) :=
  samples.foldlM (observeKnown path) (.new 0 maxValues)

theorem secondPass_concat (maxValues : ℕ) (path : Str) (samples : List (Record R))
    (sample : Record R) :
    secondPass maxValues path (samples ++ [sample]) =
      (secondPass maxValues path samples).bind fun a ↦ observeKnown path a sample := by
  rw [secondPass, List.foldlM_append, secondPass]
  refine congrArg _ (funext fun a ↦ ?_)
  rw [List.foldlM_cons]
  exact bind_pure _

/-- The accumulators are those of a second pass; a path that has not been seen yet would be missing
from all samples so far. -/
def AgreesWithSecondPass (maxValues : ℕ) (samples : List (Record R))
    (accumulators : Dict Str (FeatureAccumulator R)) : Prop :=
  ∀ path, secondPass maxValues path samples =
    .ok (accumulators.getD path (.new samples.length maxValues))

/-- **The step lemma**: one sample keeps the agreement. -/
theorem AgreesWithSecondPass.step {maxValues : ℕ} {samples : List (Record R)}
    {accumulators accumulators' : Dict Str (FeatureAccumulator R)}
    (h : AgreesWithSecondPass maxValues samples accumulators) {sample : Record R}
    (hstep : observeFeatures maxValues samples.length sample accumulators = .ok accumulators') :
    AgreesWithSecondPass maxValues (samples ++ [sample]) accumulators' := by
  intro path
  obtain ⟨hmissing, hobserve⟩ := get?_observeFeatures hstep path
  obtain ⟨discovered, hdiscover, -⟩ := bind_eq_ok_iff.mp hstep
  have hvalueAt : valueAt sample path = discovered.get? path := by rw [valueAt, hdiscover]
  rw [secondPass_concat, h path, List.length_append, List.length_singleton, Dict.getD, Dict.getD]
  have hknown : ∀ a : FeatureAccumulator R, observeKnown path a sample =
      match valueAt sample path with
      | none => .ok a.observeMissing
      | some value => a.observe value := by
    intro a
    rw [observeKnown, hdiscover, hvalueAt]
    rfl
  rw [Except.bind, hknown]
  rcases hvalue : valueAt sample path with _ | value
  · rw [hmissing hvalue]
    cases accumulators.get? path with
    | none => rfl
    | some a => rfl
  · obtain ⟨a, ha, hget⟩ := hobserve value hvalue
    rw [Dict.getD] at ha
    rw [hget]
    exact ha

/-- **The run lemma.** -/
theorem agreesWithSecondPass_collectMetrics {maxValues : ℕ} {samples : List (Record R)}
    {m : DatasetMetrics R} (h : collectMetrics maxValues samples = .ok m) :
    AgreesWithSecondPass maxValues samples m.featureAccumulators := by
  refine collectMetrics_invariant (I := fun pre m ↦
    AgreesWithSecondPass maxValues pre m.featureAccumulators) (fun _ ↦ rfl) ?_ h
  intro pre sample m accumulators _ hpre hfeatures
  exact hpre.step hfeatures

/-! ## The sum of the counters -/

/-- The samples that an accumulator accounts for. -/
def FeatureAccumulator.accountedCount (a : FeatureAccumulator R) : ℕ :=
  a.presentCount + a.nullCount + a.nonFiniteCount + a.missingCount

omit [StatFloat R] in
theorem accountedCount_observeMissing (a : FeatureAccumulator R) :
    a.observeMissing.accountedCount = a.accountedCount + 1 := rfl

theorem accountedCount_observeNumber (a : FeatureAccumulator R) (x : R) :
    (a.observeNumber x).accountedCount = a.accountedCount + 1 := by
  rw [FeatureAccumulator.observeNumber]
  split
  · have hpresent : (a.welford.update x).count = a.welford.count + 1 := rfl
    simp only [FeatureAccumulator.accountedCount, FeatureAccumulator.presentCount, hpresent]
    omega
  · simp only [FeatureAccumulator.accountedCount, FeatureAccumulator.presentCount]
    omega

/-- A value moves exactly one of the counters. -/
theorem accountedCount_observe {a a' : FeatureAccumulator R} {value : FeatureValue R}
    (h : a.observe value = .ok a') : a'.accountedCount = a.accountedCount + 1 := by
  cases value with
  | null =>
    obtain rfl := Except.ok.inj h
    simp only [FeatureAccumulator.accountedCount, FeatureAccumulator.presentCount]
    omega
  | int n =>
    rw [FeatureAccumulator.observe] at h
    split at h
    · cases h
    · obtain rfl := Except.ok.inj h
      exact accountedCount_observeNumber a _
  | float x =>
    obtain rfl := Except.ok.inj h
    exact accountedCount_observeNumber a x

theorem accountedCount_observeKnown {path : Str} {a a' : FeatureAccumulator R} {sample : Record R}
    (h : observeKnown path a sample = .ok a') : a'.accountedCount = a.accountedCount + 1 := by
  obtain ⟨discovered, -, h⟩ := bind_eq_ok_iff.mp h
  split at h
  · obtain rfl := Except.ok.inj h
    exact accountedCount_observeMissing a
  · exact accountedCount_observe h

theorem accountedCount_secondPass {maxValues : ℕ} {path : Str} {samples : List (Record R)}
    {a : FeatureAccumulator R} (h : secondPass maxValues path samples = .ok a) :
    a.accountedCount = samples.length := by
  refine foldlM_invariant (I := fun pre (a : FeatureAccumulator R) ↦ a.accountedCount = pre.length)
    ?_ rfl h
  intro pre sample post a a' _ hpre hstep
  rw [accountedCount_observeKnown hstep, hpre, List.length_append, List.length_singleton]

/-! ## Samples that can be observed -/

/-- The features are an object, or nothing; and the integers among them are within the floats. -/
def Observable (sample : Record R) : Prop :=
  ∃ discovered, discover sample = .ok discovered ∧
    ∀ p ∈ discovered.items, ∀ n, p.2 = .int n → (StatFloat.float? (R := R) n).isSome = true

theorem exists_observe_iff {a : FeatureAccumulator R} {value : FeatureValue R} :
    (∃ a', a.observe value = .ok a') ↔
      ∀ n, value = .int n → (StatFloat.float? (R := R) n).isSome = true := by
  cases value with
  | null => exact iff_of_true ⟨_, rfl⟩ nofun
  | float x => exact iff_of_true ⟨_, rfl⟩ nofun
  | int n =>
    rw [FeatureAccumulator.observe]
    constructor
    · rintro ⟨a', h⟩ k hk
      cases hk
      split at h
      · cases h
      · next x hx => rw [hx, Option.isSome_some]
    · intro h
      obtain ⟨x, hx⟩ := Option.isSome_iff_exists.mp (h n rfl)
      rw [hx]
      exact ⟨_, rfl⟩

/-- **What makes `_observe_features` raise** lies in the sample alone. -/
theorem exists_observeFeatures_iff {maxValues index : ℕ} {sample : Record R}
    {accumulators : Dict Str (FeatureAccumulator R)} :
    (∃ accumulators', observeFeatures maxValues index sample accumulators = .ok accumulators') ↔
      Observable sample := by
  constructor
  · rintro ⟨accumulators', h⟩
    obtain ⟨discovered, hdiscover, -⟩ := bind_eq_ok_iff.mp h
    refine ⟨discovered, hdiscover, fun p hp ↦ ?_⟩
    have hvalue : valueAt sample p.1 = some p.2 := by
      rw [valueAt, hdiscover]
      exact Dict.get?_eq_some_iff.mpr hp
    obtain ⟨a, ha, -⟩ := (get?_observeFeatures h p.1).2 p.2 hvalue
    exact exists_observe_iff.mp ⟨a, ha⟩
  · rintro ⟨discovered, hdiscover, hnumbers⟩
    have hloop : ∃ middle, discovered.items.foldlM (observeFeature maxValues index) accumulators =
        .ok middle ∧ True := by
      refine foldlM_total (I := fun _ _ ↦ True) ?_ trivial
      intro pre p post s hsplit _
      have hp : p ∈ discovered.items := by
        rw [hsplit]
        exact List.mem_append_right _ List.mem_cons_self
      obtain ⟨a, ha⟩ :=
        (exists_observe_iff (a := s.getD p.1 (.new index maxValues))).mpr (hnumbers p hp)
      exact ⟨s.set p.1 a, bind_eq_ok_iff.mpr ⟨a, ha, rfl⟩, trivial⟩
    obtain ⟨middle, hmiddle, -⟩ := hloop
    exact ⟨_, bind_eq_ok_iff.mpr ⟨discovered, hdiscover, bind_eq_ok_iff.mpr ⟨middle, hmiddle, rfl⟩⟩⟩

theorem exists_collectMetrics_iff {maxValues : ℕ} {samples : List (Record R)} :
    (∃ m, collectMetrics maxValues samples = .ok m) ↔ ∀ sample ∈ samples, Observable sample := by
  constructor
  · rintro ⟨m, h⟩
    refine collectMetrics_invariant (I := fun pre _ ↦ ∀ sample ∈ pre, Observable sample)
      (fun _ hs ↦ absurd hs List.not_mem_nil) ?_ h
    intro pre sample m accumulators _ hpre hfeatures
    rw [List.forall_mem_append, List.forall_mem_singleton]
    exact ⟨hpre, exists_observeFeatures_iff.mp ⟨accumulators, hfeatures⟩⟩
  · intro hall
    have hloop : ∃ m, collectMetrics maxValues samples = .ok m ∧ True := by
      refine foldlM_total (I := fun _ _ ↦ True) ?_ trivial
      intro pre p post m hsplit _
      have hp : p ∈ samples.zipIdx := by
        rw [hsplit]
        exact List.mem_append_right _ List.mem_cons_self
      obtain ⟨accumulators, h⟩ :=
        exists_observeFeatures_iff.mpr (hall p.1 (List.fst_mem_of_mem_zipIdx hp))
      exact ⟨_, bind_eq_ok_iff.mpr ⟨accumulators, h, rfl⟩, trivial⟩
    obtain ⟨m, hm, -⟩ := hloop
    exact ⟨m, hm⟩

/-! ## The accounting -/

/-- **The accounting of features is exact.** Whatever the samples, unless one of them raises, every path
that occurs has an accumulator, its four counters add up to the samples, those in which the path does
not occur are the missing ones, and the accumulator is that of a pass that knew the path from the
start. The samples that raise are those on which the observer of features does; where another observer
raises, the pass ends without accumulators. -/
theorem featureAccounting_exact (maxValues : ℕ) (samples : List (Record R)) :
    ((∃ m, collectMetrics maxValues samples = .ok m) ↔ ∀ sample ∈ samples, Observable sample) ∧
      ∀ m, collectMetrics maxValues samples = .ok m →
        m.sampleCount = samples.length ∧
        (∀ path, path ∈ m.featureAccumulators.keys ↔
          ∃ sample ∈ samples, occursAt path sample = true) ∧
        ∀ path a, m.featureAccumulators.get? path = some a →
          a.presentCount + a.nullCount + a.nonFiniteCount + a.missingCount = samples.length ∧
          a.missingCount = samples.countP (fun sample ↦ !occursAt path sample) ∧
          secondPass maxValues path samples = .ok a := by
  refine ⟨exists_collectMetrics_iff, fun m h ↦ ?_⟩
  have hcollected := collected_collectMetrics h
  refine ⟨hcollected.count, fun path ↦ ?_, fun path a hget ↦ ?_⟩
  · have hpath := hcollected.accumulated path
    rcases hget : m.featureAccumulators.get? path with _ | a
    · rw [hget] at hpath
      refine iff_of_false (Dict.get?_eq_none_iff.mp hget) ?_
      rintro ⟨sample, hsample, hoccurs⟩
      rw [hpath sample hsample] at hoccurs
      cases hoccurs
    · rw [hget] at hpath
      exact iff_of_true (Dict.mem_keys_iff.mpr ⟨a, hget⟩) hpath.2
  · have hpath := hcollected.accumulated path
    rw [hget] at hpath
    have hsecond : secondPass maxValues path samples = .ok a := by
      rw [agreesWithSecondPass_collectMetrics h path, Dict.getD, hget]
      rfl
    exact ⟨accountedCount_secondPass hsecond, hpath.1.missing, hsecond⟩

/-- A sample with these features. -/
def sampleOf (features : List (Str × Value ℚ)) : Record ℚ where
  items := [(Str.ofString "features", .dict features)]
  nodup := List.nodup_singleton _

/-- A feature that is first seen, as a null, in the second sample. -/
def lateSamples : List (Record ℚ) :=
  [sampleOf [], sampleOf [(Str.ofString "speed", .none), (Str.ofString "fix", .bool true)],
    sampleOf [(Str.ofString "speed", .int 2)]]

theorem featureAccounting_exact_lateSamples : ∃ (m : DatasetMetrics ℚ) (a : FeatureAccumulator ℚ),
    collectMetrics 1 lateSamples = .ok m ∧
      m.featureAccumulators.get? (Str.ofString "features.speed") = some a ∧
      a.presentCount + a.nullCount + a.nonFiniteCount + a.missingCount = 3 ∧ a.missingCount = 1 ∧
      secondPass 1 (Str.ofString "features.speed") lateSamples = .ok a := by
  have hcollect : ∃ m, collectMetrics 1 lateSamples = .ok m := ⟨_, rfl⟩
  obtain ⟨m, hm⟩ := hcollect
  obtain ⟨-, hkeys, haccounts⟩ := (featureAccounting_exact 1 lateSamples).2 m hm
  have hoccurs : ∃ sample ∈ lateSamples, occursAt (Str.ofString "features.speed") sample = true :=
    ⟨sampleOf [(Str.ofString "speed", .int 2)], by simp [lateSamples], by decide +kernel⟩
  obtain ⟨a, ha⟩ := Dict.mem_keys_iff.mp ((hkeys _).mpr hoccurs)
  obtain ⟨hsum, hmissing, hsecond⟩ := haccounts _ a ha
  have hcount : lateSamples.countP
      (fun sample ↦ !occursAt (Str.ofString "features.speed") sample) = 1 := by
    decide +kernel
  exact ⟨m, a, hm, ha, hsum, hmissing.trans hcount, hsecond⟩

end Qc

end ForgeData
