import ForgeData.Synchronization.Service

/-!
# Aligned streams

What a cursor has done after some targets, and what a strategy answers from there. The samples before
the cursor are those at or before a target; with targets that do not go backward they all lie at or
before the next one. The linear strategy fails to match only where one of the two samples is missing,
the nearest one has no data only if there is no sample at all, and on typed records neither raises.
-/

namespace ForgeData

namespace Synchronization

open Python

variable {R : Type}

/-! ## Cursors -/

/-- Whether a sample is at or before a target. -/
def StreamSample.reaches (target : ℤ) (x : StreamSample R) : Bool := x.epochUs ≤ target

theorem advanceFrom_eq (target : ℤ) (prev : Option (StreamSample R)) (samples : List (StreamSample R)) :
    StreamCursor.advanceFrom target prev samples =
      ⟨(samples.takeWhile (StreamSample.reaches target)).getLast?.or prev,
        samples.dropWhile (StreamSample.reaches target)⟩ := by
  induction samples generalizing prev with
  | nil => rfl
  | cons sample samples ih =>
    rw [StreamCursor.advanceFrom]
    by_cases hle : sample.epochUs ≤ target
    · have hreaches : sample.reaches target = true := decide_eq_true hle
      rw [if_pos hle, ih, List.takeWhile_cons_of_pos hreaches, List.dropWhile_cons_of_pos hreaches,
        List.getLast?_cons]
      cases (samples.takeWhile (StreamSample.reaches target)).getLast? <;> rfl
    · have hreaches : ¬sample.reaches target = true := fun h ↦ hle (of_decide_eq_true h)
      rw [if_neg hle, List.takeWhile_cons_of_neg hreaches, List.dropWhile_cons_of_neg hreaches]
      rfl

/-- The cursor walks through these samples and has been advanced to these targets. -/
structure StreamCursor.Covers (cursor : StreamCursor R) (samples : List (StreamSample R))
    (reached : List ℤ) : Prop where
  exists_consumed : ∃ consumed, samples = consumed ++ cursor.upcoming ∧
    cursor.prev = consumed.getLast? ∧ ∀ x ∈ consumed, ∃ t ∈ reached, x.epochUs ≤ t

/-- The samples of a stream. -/
def samplesOf (records : List (TypedRecord R)) : List (StreamSample R) :=
  records.map fun record ↦ ⟨record.epochUs, record.fields⟩

theorem covers_ofRecords (records : List (TypedRecord R)) :
    (StreamCursor.ofRecords records).Covers (samplesOf records) [] :=
  ⟨[], rfl, rfl, fun _ h ↦ absurd h List.not_mem_nil⟩

namespace StreamCursor.Covers

variable {cursor : StreamCursor R} {samples : List (StreamSample R)} {reached : List ℤ}

theorem advanceTo (h : cursor.Covers samples reached) (target : ℤ) :
    (cursor.advanceTo target).Covers samples (reached ++ [target]) := by
  obtain ⟨consumed, hsamples, hprev, hreached⟩ := h
  refine ⟨consumed ++ cursor.upcoming.takeWhile (StreamSample.reaches target), ?_, ?_, ?_⟩
  · rw [StreamCursor.advanceTo, advanceFrom_eq, List.append_assoc, List.takeWhile_append_dropWhile,
      hsamples]
  · rw [StreamCursor.advanceTo, advanceFrom_eq, List.getLast?_append, hprev]
  · intro x hx
    rcases List.mem_append.mp hx with hx | hx
    · obtain ⟨t, ht, hle⟩ := hreached x hx
      exact ⟨t, List.mem_append_left _ ht, hle⟩
    · exact ⟨target, List.mem_append_right _ (List.mem_singleton_self _),
        of_decide_eq_true (List.mem_takeWhile_imp hx : x.reaches target = true)⟩

theorem mem_of_mem_prev (h : cursor.Covers samples reached) {x : StreamSample R}
    (hx : x ∈ cursor.prev) : x ∈ samples := by
  obtain ⟨consumed, hsamples, hprev, -⟩ := h
  rw [hprev] at hx
  rw [hsamples]
  exact List.mem_append_left _ (List.mem_of_getLast? hx)

theorem mem_of_mem_pending (h : cursor.Covers samples reached) {x : StreamSample R}
    (hx : x ∈ cursor.pending) : x ∈ samples := by
  obtain ⟨consumed, hsamples, -, -⟩ := h
  rw [hsamples]
  exact List.mem_append_right _ (List.mem_of_mem_head? hx)

/-- A sample at or before the target has been passed, in a cursor that was advanced to it. -/
theorem prev_ne_none (h : cursor.Covers samples reached) {target : ℤ}
    (hsorted : samples.Pairwise fun x y ↦ x.epochUs ≤ y.epochUs) {x : StreamSample R}
    (hx : x ∈ samples) (hle : x.epochUs ≤ target) : (cursor.advanceTo target).prev ≠ none := by
  obtain ⟨consumed, hsamples, hprev, -⟩ := h
  rw [StreamCursor.advanceTo, advanceFrom_eq, hprev, ← List.getLast?_append, ne_eq,
    List.getLast?_eq_none_iff, List.append_eq_nil_iff]
  rintro ⟨rfl, htake⟩
  rw [List.nil_append] at hsamples
  subst hsamples
  cases hupcoming : cursor.upcoming with
  | nil => rw [hupcoming] at hx; exact List.not_mem_nil hx
  | cons first rest =>
    rw [hupcoming] at hx hsorted htake
    have hfirst : first.epochUs ≤ x.epochUs := by
      rcases List.mem_cons.mp hx with rfl | hx
      · exact le_refl _
      · exact (List.pairwise_cons.mp hsorted).1 x hx
    have hreaches : first.reaches target = true := decide_eq_true (hfirst.trans hle)
    rw [List.takeWhile_cons_of_pos hreaches] at htake
    exact List.cons_ne_nil _ _ htake

/-- Where no sample is to come, and one lies at or after the target, the last one is at the target. -/
theorem prev_eq_target (h : cursor.Covers samples reached) {target : ℤ}
    (htargets : ∀ t ∈ reached, t ≤ target)
    (hsorted : samples.Pairwise fun x y ↦ x.epochUs ≤ y.epochUs) {y : StreamSample R}
    (hy : y ∈ samples) (hle : target ≤ y.epochUs)
    (hpending : (cursor.advanceTo target).pending = none) :
    ∀ x ∈ (cursor.advanceTo target).prev, x.epochUs = target := by
  obtain ⟨consumed, hsamples, hprev, hreached⟩ := h.advanceTo target
  intro x hx
  rw [hprev] at hx
  have hnil : (cursor.advanceTo target).upcoming = [] := List.head?_eq_none_iff.mp hpending
  rw [hnil, List.append_nil] at hsamples
  subst hsamples
  have hmem := List.mem_of_getLast? hx
  obtain ⟨t, ht, hxt⟩ := hreached x hmem
  have hupper : x.epochUs ≤ target := by
    rcases List.mem_append.mp ht with ht | ht
    · exact hxt.trans (htargets t ht)
    · rwa [List.mem_singleton.mp ht] at hxt
  -- the last sample is at least as late as the one at or after the target
  have hlast : y.epochUs ≤ x.epochUs := by
    obtain ⟨front, hfront⟩ := List.getLast?_eq_some_iff.mp hx
    rw [hfront] at hy hsorted
    rcases List.mem_append.mp hy with hy | hy
    · exact (List.pairwise_append.mp hsorted).2.2 y hy x (List.mem_singleton_self x)
    · rw [List.mem_singleton.mp hy]
  omega

end StreamCursor.Covers

/-! ## Strategies -/

section Strategies

theorem get_typed {schema : SchemaDefinition} {record : Fields R} (h : IsTyped schema record)
    {p : Str × FieldDefinition} (hp : p ∈ schema.fields.items)
    (hnumeric : FieldType.isNumeric p.2.type = true) :
    record.get p.1 = .none ∨ ∃ x, record.get p.1 = .float x := by
  rw [Fields.get]
  rcases hlookup : record.lookup p.1 with _ | v
  · exact .inl rfl
  · obtain ⟨l₁, l₂, rfl, -⟩ := List.lookup_eq_some_iff.mp hlookup
    exact h (p.1, v) (by simp) p.2 (Dict.get?_eq_some_iff.mpr hp) hnumeric

variable [PyFloat R]

theorem exists_interpolateField {context : AlignmentContext} {prev pending : StreamSample R}
    (hprev : IsTyped context.schema prev.record) (hpending : IsTyped context.schema pending.record)
    {p : Str × FieldDefinition} (hp : p ∈ context.schema.fields.items) :
    ∃ q, interpolateField context prev pending p = .ok q := by
  rw [interpolateField]
  dsimp only
  split
  · next hnumeric =>
    rcases get_typed hprev hp hnumeric with h₀ | ⟨a, h₀⟩
    · rw [h₀]
      exact ⟨_, rfl⟩
    · rcases get_typed hpending hp hnumeric with h₁ | ⟨b, h₁⟩
      · rw [h₀, h₁]
        exact ⟨_, rfl⟩
      · rw [h₀, h₁]
        exact ⟨_, rfl⟩
  · exact ⟨_, rfl⟩

/-- The method that a strategy reports. -/
def AlignmentStrategy.method : AlignmentStrategy → AlignmentMethod
  | .nearest => .nearest
  | .linear => .linear

/-- What a strategy answers: its own method, no negative delta, and an unmatched stream only where the
samples around the target do not allow a match. -/
structure AnswersFor (strategy : AlignmentStrategy) (cursor : StreamCursor R) (target : ℤ)
    (outcome : AlignmentOutcome) : Prop where
  method : outcome.method = strategy.method
  delta_nonneg : ∀ d ∈ outcome.deltaMs, 0 ≤ d
  linear : strategy = .linear → outcome.matched = false →
    (∀ x ∈ cursor.prev, x.epochUs ≠ target) ∧ (cursor.prev = none ∨ cursor.pending = none)
  nearest : strategy = .nearest → outcome.reason = some .noData → cursor.prev = none

theorem exists_alignLinear {cursor : StreamCursor R} {context : AlignmentContext}
    (hprev : ∀ x ∈ cursor.prev, IsTyped context.schema x.record)
    (hpending : ∀ x ∈ cursor.pending, IsTyped context.schema x.record) :
    ∃ record outcome, alignLinear cursor context = .ok (record, outcome) ∧
      AnswersFor .linear cursor context.targetEpochUs outcome := by
  have hmatched : ∀ {outcome : AlignmentOutcome}, outcome.matched = true → outcome.method = .linear →
      (∀ d ∈ outcome.deltaMs, 0 ≤ d) → AnswersFor .linear cursor context.targetEpochUs outcome :=
    fun hmatched hmethod hdelta ↦ ⟨hmethod, hdelta, fun _ h ↦ absurd (hmatched.symm.trans h) nofun, nofun⟩
  have hzero : ∀ d ∈ some (0 : ℚ), 0 ≤ d := fun d hd ↦ (Option.some.inj hd) ▸ le_refl _
  rw [alignLinear]
  dsimp only
  split
  · exact ⟨_, _, rfl, hmatched rfl rfl hzero⟩
  · exact ⟨_, _, rfl, hmatched rfl rfl hzero⟩
  · next hnone _ =>
    have hne : ∀ x ∈ cursor.prev, x.epochUs ≠ context.targetEpochUs := by
      intro x hx heq
      have hfilter := Option.filter_eq_none_iff.mp hnone x hx
      exact hfilter (decide_eq_true heq)
    split
    · next prev pending hp hq =>
      obtain ⟨interpolated, hmap⟩ : ∃ interpolated, ((context.schema.fields.items.filter
          (·.1 ≠ context.timestampField)).mapM (interpolateField context prev pending)) =
            .ok interpolated := by
        refine exists_mapM_eq_ok fun p hmem ↦ ?_
        exact exists_interpolateField (hprev prev hp) (hpending pending hq) (List.mem_filter.mp hmem).1
      rw [hmap]
      refine ⟨_, _, rfl, hmatched rfl rfl fun d hd ↦ ?_⟩
      obtain rfl := Option.some.inj hd
      positivity
    · next hmissing =>
      refine ⟨_, _, rfl, rfl, nofun, fun _ _ ↦ ⟨hne, ?_⟩, nofun⟩
      rcases hp : cursor.prev with _ | prev
      · exact .inl rfl
      · rcases hq : cursor.pending with _ | pending
        · exact .inr rfl
        · exact absurd hq (hmissing prev pending hp)

omit [PyFloat R] in
theorem nearestOf_eq_none {target : ℤ} {candidates : List (StreamSample R)}
    (h : nearestOf target candidates = none) : candidates = [] := by
  cases candidates with
  | nil => rfl
  | cons first rest => exact absurd h nofun

omit [PyFloat R] in
theorem answersFor_alignNearest (cursor : StreamCursor R) (context : AlignmentContext) :
    AnswersFor .nearest cursor context.targetEpochUs (alignNearest cursor context).2 := by
  rw [alignNearest]
  dsimp only
  split
  · next hnone =>
    refine ⟨rfl, nofun, nofun, fun _ _ ↦ ?_⟩
    have hnil := nearestOf_eq_none hnone
    exact Option.toList_eq_nil_iff.mp (List.append_eq_nil_iff.mp hnil).1
  · split
    · exact ⟨rfl, nofun, nofun, nofun⟩
    · refine ⟨rfl, fun d hd ↦ ?_, nofun, nofun⟩
      obtain rfl := Option.some.inj hd
      positivity

/-- **A strategy answers**, whatever it is, if the samples around the target are typed. -/
theorem exists_align (strategy : AlignmentStrategy) (cursor : StreamCursor R)
    (context : AlignmentContext) (hprev : ∀ x ∈ cursor.prev, IsTyped context.schema x.record)
    (hpending : ∀ x ∈ cursor.pending, IsTyped context.schema x.record) :
    ∃ record outcome, strategy.align cursor context = .ok (record, outcome) ∧
      AnswersFor strategy cursor context.targetEpochUs outcome := by
  cases strategy with
  | nearest => exact ⟨_, _, rfl, answersFor_alignNearest cursor context⟩
  | linear => exact exists_alignLinear hprev hpending

end Strategies

end Synchronization

end ForgeData
