import ForgeData.Qc.Metrics
import ForgeData.Python.Loop

/-!
# Counts of features

Whatever the order in which paths are first seen, the counters of an accumulator are those of a second
pass that knows its path from the start: a path that is new at some index was missing from exactly the
samples before it.
-/

namespace ForgeData

namespace Qc

open Python

variable {R : Type} [StatFloat R]

/-! ## What a sample has under a path -/

/-- The value under a path of a sample, if the path occurs in it. -/
def valueAt (sample : Record R) (path : Str) : Option (FeatureValue R) :=
  match discover sample with
  | .ok discovered => discovered.get? path
  | .error _ => none

/-- The number that is observed; an integer beyond the floats is none. -/
def FeatureValue.number? : FeatureValue R → Option R
  | .null => none
  | .int n => StatFloat.float? n
  | .float x => some x

/-- The path occurs in the sample. -/
def occursAt (path : Str) (sample : Record R) : Bool := (valueAt sample path).isSome

/-- There is a null under the path. -/
def nullAt (path : Str) (sample : Record R) : Bool :=
  match valueAt sample path with
  | some .null => true
  | _ => false

/-- There is a finite number under the path. -/
def finiteAt (path : Str) (sample : Record R) : Bool :=
  ((valueAt sample path).bind FeatureValue.number?).any StatFloat.isFinite

/-- There is an infinity or NaN under the path. -/
def nonFiniteAt (path : Str) (sample : Record R) : Bool :=
  ((valueAt sample path).bind FeatureValue.number?).any fun x ↦ !StatFloat.isFinite x

/-! ## Accumulators -/

/-- The counters of an accumulator are those of the samples. -/
structure Counted (samples : List (Record R)) (path : Str) (a : FeatureAccumulator R) : Prop where
  present : a.presentCount = samples.countP (finiteAt path)
  null : a.nullCount = samples.countP (nullAt path)
  nonFinite : a.nonFiniteCount = samples.countP (nonFiniteAt path)
  missing : a.missingCount = samples.countP fun sample ↦ !occursAt path sample

theorem not_finiteAt_of_not_occursAt {path : Str} {sample : Record R}
    (h : occursAt path sample = false) :
    finiteAt path sample = false ∧ nullAt path sample = false ∧ nonFiniteAt path sample = false := by
  have hnone : valueAt sample path = none := by
    rw [occursAt] at h
    exact Option.isSome_eq_false_iff.mp h |> Option.isNone_iff_eq_none.mp
  rw [finiteAt, nullAt, nonFiniteAt, hnone]
  exact ⟨rfl, rfl, rfl⟩

theorem counted_new {samples : List (Record R)} {path : Str} (maxValues : ℕ)
    (h : ∀ sample ∈ samples, occursAt path sample = false) :
    Counted samples path (.new samples.length maxValues) where
  present := (List.countP_eq_zero.mpr fun s hs ↦ by
    simp [(not_finiteAt_of_not_occursAt (h s hs)).1]).symm
  null := (List.countP_eq_zero.mpr fun s hs ↦ by
    simp [(not_finiteAt_of_not_occursAt (h s hs)).2.1]).symm
  nonFinite := (List.countP_eq_zero.mpr fun s hs ↦ by
    simp [(not_finiteAt_of_not_occursAt (h s hs)).2.2]).symm
  missing := (List.countP_eq_length.mpr fun s hs ↦ by rw [h s hs]; rfl).symm

theorem Counted.observeMissing {samples : List (Record R)} {path : Str} {a : FeatureAccumulator R}
    (h : Counted samples path a) {sample : Record R} (hmissing : valueAt sample path = none) :
    Counted (samples ++ [sample]) path a.observeMissing := by
  have hoccurs : occursAt path sample = false := by rw [occursAt, hmissing]; rfl
  obtain ⟨hfinite, hnull, hnonFinite⟩ := not_finiteAt_of_not_occursAt hoccurs
  constructor
  · rw [List.countP_append, List.countP_singleton, hfinite]
    exact h.present
  · rw [List.countP_append, List.countP_singleton, hnull]
    exact h.null
  · rw [List.countP_append, List.countP_singleton, hnonFinite]
    exact h.nonFinite
  · rw [List.countP_append, List.countP_singleton, hoccurs, ← h.missing]
    rfl

/-- One more sample with a number under the path. -/
theorem Counted.observeNumber {samples : List (Record R)} {path : Str} {a : FeatureAccumulator R}
    (h : Counted samples path a) {sample : Record R} {value : FeatureValue R} {x : R}
    (hvalue : valueAt sample path = some value) (hx : value.number? = some x) :
    Counted (samples ++ [sample]) path (a.observeNumber x) := by
  have hoccurs : occursAt path sample = true := by rw [occursAt, hvalue]; rfl
  have hnull : nullAt path sample = false := by
    rw [nullAt, hvalue]
    cases value with
    | null => cases hx
    | int | float => rfl
  have hfinite : finiteAt path sample = StatFloat.isFinite x := by
    rw [finiteAt, hvalue, Option.bind_some, hx]
    rfl
  have hnonFinite : nonFiniteAt path sample = !StatFloat.isFinite x := by
    rw [nonFiniteAt, hvalue, Option.bind_some, hx]
    rfl
  rw [FeatureAccumulator.observeNumber]
  constructor
  all_goals
    rw [List.countP_append, List.countP_singleton]
  · rw [hfinite, ← h.present]
    split <;> rfl
  · rw [hnull, ← h.null]
    split <;> rfl
  · rw [hnonFinite, ← h.nonFinite]
    split <;> simp [*]
  · rw [hoccurs, ← h.missing]
    split <;> rfl

/-- **One more sample with the path.** -/
theorem Counted.observe {samples : List (Record R)} {path : Str} {a a' : FeatureAccumulator R}
    (h : Counted samples path a) {sample : Record R} {value : FeatureValue R}
    (hvalue : valueAt sample path = some value) (hobserve : a.observe value = .ok a') :
    Counted (samples ++ [sample]) path a' := by
  cases value with
  | null =>
    obtain rfl := Except.ok.inj hobserve
    have hfinite : finiteAt path sample = false := by rw [finiteAt, hvalue]; rfl
    have hnull : nullAt path sample = true := by rw [nullAt, hvalue]
    have hnonFinite : nonFiniteAt path sample = false := by rw [nonFiniteAt, hvalue]; rfl
    have hoccurs : occursAt path sample = true := by rw [occursAt, hvalue]; rfl
    constructor
    · rw [List.countP_append, List.countP_singleton, hfinite]
      exact h.present
    · rw [List.countP_append, List.countP_singleton, hnull, ← h.null]
      rfl
    · rw [List.countP_append, List.countP_singleton, hnonFinite]
      exact h.nonFinite
    · rw [List.countP_append, List.countP_singleton, hoccurs]
      exact h.missing
  | int n =>
    rw [FeatureAccumulator.observe] at hobserve
    split at hobserve
    · cases hobserve
    · next x hx =>
      obtain rfl := Except.ok.inj hobserve
      exact h.observeNumber hvalue hx
  | float x =>
    obtain rfl := Except.ok.inj hobserve
    exact h.observeNumber hvalue rfl

/-! ## One sample -/

/-- The loop over the features of a sample. -/
theorem get?_foldlM_observeFeature {maxValues index : ℕ} {l : List (Str × FeatureValue R)}
    (hl : (l.map Prod.fst).Nodup) {accumulators accumulators' : Dict Str (FeatureAccumulator R)}
    (h : l.foldlM (observeFeature maxValues index) accumulators = .ok accumulators') (path : Str) :
    (path ∉ l.map Prod.fst → accumulators'.get? path = accumulators.get? path) ∧
      ∀ value, (path, value) ∈ l → ∃ a,
        (accumulators.getD path (.new index maxValues)).observe value = .ok a ∧
          accumulators'.get? path = some a := by
  induction l generalizing accumulators with
  | nil =>
    obtain rfl := Except.ok.inj h
    exact ⟨fun _ ↦ rfl, fun _ hmem ↦ absurd hmem List.not_mem_nil⟩
  | cons p l ih =>
    rw [List.map_cons, List.nodup_cons] at hl
    rw [List.foldlM_cons, bind_eq_ok_iff] at h
    obtain ⟨middle, hstep, hrest⟩ := h
    obtain ⟨a, hobserve, heq⟩ := bind_eq_ok_iff.mp hstep
    obtain rfl := Except.ok.inj heq
    obtain ⟨hskip, hmem⟩ := ih hl.2 hrest
    constructor
    · intro hpath
      rw [List.map_cons, List.mem_cons, not_or] at hpath
      rw [hskip hpath.2, Dict.get?_set_of_ne _ hpath.1]
    · intro value hvalue
      rcases List.mem_cons.mp hvalue with rfl | hvalue
      · exact ⟨a, hobserve, by rw [hskip hl.1, Dict.get?_set_self]⟩
      · obtain ⟨b, hb, hget⟩ := hmem value hvalue
        have hne : path ≠ p.1 := by
          rintro rfl
          exact hl.1 (List.mem_map.mpr ⟨_, hvalue, rfl⟩)
        rw [Dict.getD, Dict.get?_set_of_ne _ hne] at hb
        exact ⟨b, hb, hget⟩

/-- A loop that changes the values under some of the keys, each once. -/
theorem get?_foldl_modify {κ ν : Type} [DecidableEq κ] {c : κ → Bool} {f : ν → ν} {l : List κ}
    (hl : l.Nodup) (d : Dict κ ν) (k : κ) :
    (l.foldl (fun d a ↦ if c a then d else d.modify a f) d).get? k
      = if k ∈ l ∧ c k = false then (d.get? k).map f else d.get? k := by
  induction l generalizing d with
  | nil => rw [List.foldl_nil, if_neg fun h ↦ List.not_mem_nil h.1]
  | cons a l ih =>
    rw [List.nodup_cons] at hl
    rw [List.foldl_cons, ih hl.2]
    by_cases hka : k = a
    · subst hka
      rw [if_neg fun h ↦ hl.1 h.1]
      cases hc : c k with
      | true => rw [if_pos rfl, if_neg (by simp)]
      | false =>
        rw [if_neg (by simp), Dict.get?_modify, if_pos rfl, if_pos ⟨List.mem_cons_self, rfl⟩]
    · have hmem : k ∈ a :: l ↔ k ∈ l := by rw [List.mem_cons, or_iff_right hka]
      have hget : (if c a then d else d.modify a f).get? k = d.get? k := by
        split
        · rfl
        · rw [Dict.get?_modify, if_neg hka]
      rw [hget]
      simp only [hmem]

/-- **The accumulator of a path after one sample.** -/
theorem get?_observeFeatures {maxValues index : ℕ} {sample : Record R}
    {accumulators accumulators' : Dict Str (FeatureAccumulator R)}
    (h : observeFeatures maxValues index sample accumulators = .ok accumulators') (path : Str) :
    (valueAt sample path = none →
      accumulators'.get? path = (accumulators.get? path).map FeatureAccumulator.observeMissing) ∧
      ∀ value, valueAt sample path = some value → ∃ a,
        (accumulators.getD path (.new index maxValues)).observe value = .ok a ∧
          accumulators'.get? path = some a := by
  obtain ⟨discovered, hdiscover, h⟩ := bind_eq_ok_iff.mp h
  obtain ⟨middle, hloop, heq⟩ := bind_eq_ok_iff.mp h
  obtain rfl := Except.ok.inj heq
  have hvalueAt : valueAt sample path = discovered.get? path := by rw [valueAt, hdiscover]
  obtain ⟨hskip, hmem⟩ := get?_foldlM_observeFeature discovered.nodup hloop path
  have hcontains : discovered.contains path = (discovered.get? path).isSome := rfl
  rw [get?_foldl_modify middle.keys_nodup, hvalueAt, hcontains]
  constructor
  · intro hnone
    rw [hskip (Dict.get?_eq_none_iff.mp hnone), hnone]
    split
    · rfl
    · next hkey =>
      have hget : middle.get? path = none :=
        Dict.get?_eq_none_iff.mpr fun hkeys ↦ hkey ⟨hkeys, rfl⟩
      rw [hskip (Dict.get?_eq_none_iff.mp hnone)] at hget
      rw [hget]
      rfl
  · intro value hvalue
    rw [hvalue, if_neg fun hkey ↦ Bool.noConfusion hkey.2]
    exact hmem value (Dict.get?_eq_some_iff.mp hvalue)

/-! ## All samples -/

/-- There is an accumulator for every path that occurs in a sample, and for no other. -/
def Accumulated (samples : List (Record R)) (accumulators : Dict Str (FeatureAccumulator R)) : Prop :=
  ∀ path, match accumulators.get? path with
    | none => ∀ sample ∈ samples, occursAt path sample = false
    | some a => Counted samples path a ∧ ∃ sample ∈ samples, occursAt path sample = true

/-- **The step lemma**: the accumulators follow one more sample. -/
theorem Accumulated.step {samples : List (Record R)}
    {accumulators accumulators' : Dict Str (FeatureAccumulator R)} (h : Accumulated samples accumulators)
    {maxValues : ℕ} {sample : Record R}
    (hstep : observeFeatures maxValues samples.length sample accumulators = .ok accumulators') :
    Accumulated (samples ++ [sample]) accumulators' := by
  intro path
  have hpath := h path
  obtain ⟨hmissing, hobserve⟩ := get?_observeFeatures hstep path
  rcases hvalue : valueAt sample path with _ | value
  · rw [hmissing hvalue]
    have hoccurs : occursAt path sample = false := by rw [occursAt, hvalue]; rfl
    rcases hget : accumulators.get? path with _ | a
    · rw [hget] at hpath
      intro s hs
      rcases List.mem_append.mp hs with hs | hs
      · exact hpath s hs
      · rw [List.mem_singleton.mp hs, hoccurs]
    · rw [hget] at hpath
      obtain ⟨hcounted, s, hs, hat⟩ := hpath
      exact ⟨hcounted.observeMissing hvalue, s, List.mem_append_left _ hs, hat⟩
  · obtain ⟨a, ha, hget'⟩ := hobserve value hvalue
    have hbefore : Counted samples path (accumulators.getD path (.new samples.length maxValues)) := by
      rw [Dict.getD]
      rcases hget : accumulators.get? path with _ | b
      · rw [hget] at hpath
        exact counted_new maxValues hpath
      · rw [hget] at hpath
        exact hpath.1
    rw [hget']
    exact ⟨hbefore.observe hvalue ha, sample, List.mem_append_right _ (List.mem_singleton_self _),
      by rw [occursAt, hvalue]; rfl⟩

/-- What holds before the first sample and is kept by each one holds after all of them. -/
theorem collectMetrics_invariant {I : List (Record R) → DatasetMetrics R → Prop} {maxValues : ℕ}
    {samples : List (Record R)} {m : DatasetMetrics R} (h₀ : I [] {})
    (hstep : ∀ {pre sample m accumulators}, sample ∈ samples → I pre m →
      observeFeatures maxValues pre.length sample m.featureAccumulators = .ok accumulators →
      I (pre ++ [sample]) ⟨m.sampleCount + 1, accumulators⟩)
    (h : collectMetrics maxValues samples = .ok m) : I samples m := by
  rw [← List.zipIdx_map_fst 0 samples]
  refine foldlM_invariant (I := fun pre m ↦ I (pre.map Prod.fst) m) ?_ h₀ h
  intro pre p post m m' hsplit hI hsample
  obtain ⟨accumulators, hfeatures, heq⟩ := bind_eq_ok_iff.mp hsample
  obtain rfl := Except.ok.inj heq
  have hp : samples.zipIdx[pre.length]? = some p := by
    rw [hsplit, List.getElem?_append_right (Nat.le_refl _), Nat.sub_self]
    rfl
  obtain ⟨sample, hmem, rfl⟩ : ∃ sample ∈ samples, p = (sample, pre.length) := by
    rw [List.getElem?_zipIdx, Option.map_eq_some_iff] at hp
    obtain ⟨sample, hget, rfl⟩ := hp
    exact ⟨sample, List.mem_of_getElem? hget, by rw [Nat.zero_add]⟩
  rw [List.map_append]
  refine hstep hmem hI ?_
  rw [List.length_map]
  exact hfeatures

/-- The metrics are those of the samples. -/
structure Collected (samples : List (Record R)) (m : DatasetMetrics R) : Prop where
  count : m.sampleCount = samples.length
  accumulated : Accumulated samples m.featureAccumulators

/-- **The counters are those of a second pass**, whatever the samples and the order of their paths. -/
theorem collected_collectMetrics {maxValues : ℕ} {samples : List (Record R)} {m : DatasetMetrics R}
    (h : collectMetrics maxValues samples = .ok m) : Collected samples m := by
  refine collectMetrics_invariant ⟨rfl, fun _ _ hs ↦ absurd hs List.not_mem_nil⟩ ?_ h
  intro pre sample m accumulators _ hpre hfeatures
  refine ⟨?_, hpre.accumulated.step hfeatures⟩
  rw [hpre.count, List.length_append, List.length_singleton]

end Qc

end ForgeData
