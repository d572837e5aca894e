import ForgeData.Synchronization.BracketedTargets

/-!
# The nearest strategy over a whole stream

A cursor around the target holds the last sample before it and the first one after it. No other sample
is nearer than the better of the two, so the strategy, which looks at these two only, answers as if it
had searched the stream.
-/

namespace ForgeData

namespace Synchronization

open Python

variable {R : Type}

/-- The sample is nearest to the target in the stream, and the earliest of those at its distance. -/
structure IsNearest (samples : List (StreamSample R)) (target : ℤ) (best : StreamSample R) : Prop where
  mem : best ∈ samples
  minimal : ∀ s ∈ samples, |best.epochUs - target| ≤ |s.epochUs - target|
  earliest : ∀ s ∈ samples, |s.epochUs - target| = |best.epochUs - target| → best.epochUs ≤ s.epochUs

/-- What the nearest strategy reports of a stream at a target. -/
structure NearestAt (samples : List (StreamSample R)) (toleranceUs target : ℤ)
    (entry : StreamEntry R) : Prop where
  method : entry.result.method = .nearest
  matched_iff : entry.result.matched = true ↔ ∃ s ∈ samples, |s.epochUs - target| ≤ toleranceUs
  matched : entry.result.matched = true → ∃ best, IsNearest samples target best ∧
    entry.record = some best.record ∧
    entry.result.deltaMs = some ((|best.epochUs - target| : ℤ) / 1000 : ℚ)
  unmatched : entry.result.matched = false → entry.record = none

theorem nearestOf_pair (target : ℤ) (p q : StreamSample R) :
    nearestOf target [p, q] = some (if |q.epochUs - target| < |p.epochUs - target| then q else p) :=
  rfl

/-- **The better of two samples is the best of all.** -/
theorem StreamCursor.Brackets.isNearest {cursor : StreamCursor R} {samples : List (StreamSample R)}
    {target : ℤ} (h : cursor.Brackets samples target) (hsorted : InTimeOrder samples)
    {best : StreamSample R}
    (hbest : nearestOf target (cursor.prev.toList ++ cursor.pending.toList) = some best) :
    IsNearest samples target best := by
  rcases hp : cursor.prev with _ | p <;> rcases hq : cursor.pending with _ | q <;>
    rw [hp, hq] at hbest
  · cases hbest
  · -- All samples lie after the target.
    obtain rfl : q = best := Option.some.inj hbest
    obtain ⟨hmem, hqt, hfirst⟩ := h.pending hsorted hq
    refine ⟨hmem, fun s hs ↦ ?_, fun s hs _ ↦ hfirst s hs (h.prev_eq_none hp s hs)⟩
    have hs' := hfirst s hs (h.prev_eq_none hp s hs)
    rw [Int.abs_eq_natAbs, Int.abs_eq_natAbs]
    omega
  · -- All samples lie at or before the target.
    obtain rfl : p = best := Option.some.inj hbest
    obtain ⟨hmem, hpt, hlast⟩ := h.prev hsorted hp
    refine ⟨hmem, fun s hs ↦ ?_, fun s hs heq ↦ ?_⟩
    · have hs' := hlast s hs (h.pending_eq_none hq s hs)
      rw [Int.abs_eq_natAbs, Int.abs_eq_natAbs]
      omega
    · have hst := h.pending_eq_none hq s hs
      rw [Int.abs_eq_natAbs, Int.abs_eq_natAbs] at heq
      omega
  · obtain ⟨hpmem, hpt, hlast⟩ := h.prev hsorted hp
    obtain ⟨hqmem, hqt, hfirst⟩ := h.pending hsorted hq
    have hside : ∀ s ∈ samples, s.epochUs ≤ p.epochUs ∨ q.epochUs ≤ s.epochUs := by
      intro s hs
      rcases le_or_gt s.epochUs target with hst | hst
      · exact .inl (hlast s hs hst)
      · exact .inr (hfirst s hs hst)
    rw [Option.toList_some, Option.toList_some, List.singleton_append, nearestOf_pair] at hbest
    split at hbest
    · next hlt =>
      obtain rfl : q = best := Option.some.inj hbest
      simp only [Int.abs_eq_natAbs] at hlt
      refine ⟨hqmem, fun s hs ↦ ?_, fun s hs heq ↦ ?_⟩
      · have := hside s hs
        rw [Int.abs_eq_natAbs, Int.abs_eq_natAbs]
        omega
      · have := hside s hs
        rw [Int.abs_eq_natAbs, Int.abs_eq_natAbs] at heq
        omega
    · next hge =>
      obtain rfl : p = best := Option.some.inj hbest
      simp only [Int.abs_eq_natAbs] at hge
      refine ⟨hpmem, fun s hs ↦ ?_, fun s hs heq ↦ ?_⟩
      · have := hside s hs
        rw [Int.abs_eq_natAbs, Int.abs_eq_natAbs]
        omega
      · have := hside s hs
        rw [Int.abs_eq_natAbs, Int.abs_eq_natAbs] at heq
        omega

theorem StreamCursor.Brackets.eq_nil_of_nearestOf {cursor : StreamCursor R}
    {samples : List (StreamSample R)} {target : ℤ} (h : cursor.Brackets samples target)
    (hnone : nearestOf target (cursor.prev.toList ++ cursor.pending.toList) = none) :
    samples = [] := by
  obtain ⟨hp, hq⟩ := List.append_eq_nil_iff.1 (nearestOf_eq_none hnone)
  refine List.eq_nil_iff_forall_not_mem.2 fun s hs ↦ ?_
  have hbefore := h.pending_eq_none (Option.toList_eq_nil_iff.1 hq) s hs
  have hafter := h.prev_eq_none (Option.toList_eq_nil_iff.1 hp) s hs
  omega

variable [PyFloat R]

/-- What the strategy answers from around a target. -/
theorem StreamEntry.AnswersAt.nearestAt {stream : StreamRuntime R} {samples : List (StreamSample R)}
    {target : ℤ} {entry : StreamEntry R} (h : entry.AnswersAt stream samples target)
    (hstrategy : stream.strategy = .nearest) (hsorted : InTimeOrder samples) :
    NearestAt samples stream.toleranceUs target entry := by
  obtain ⟨-, cursor, outcome, hbrackets, halign, hresult⟩ := h
  rw [hstrategy] at halign
  have halign := Except.ok.inj halign
  rw [alignNearest] at halign
  dsimp only at halign
  split at halign
  · next hnone =>
    obtain ⟨hrecord, rfl⟩ := Prod.mk.inj halign
    rw [hbrackets.eq_nil_of_nearestOf hnone]
    refine ⟨hresult ▸ rfl, ⟨fun h ↦ ?_, ?_⟩, fun h ↦ ?_, fun _ ↦ hrecord.symm⟩
    · rw [hresult] at h
      cases h
    · rintro ⟨s, hs, -⟩
      exact absurd hs List.not_mem_nil
    · rw [hresult] at h
      cases h
  · next best hbest =>
    have hnearest := hbrackets.isNearest hsorted hbest
    split at halign
    · next hout =>
      obtain ⟨hrecord, rfl⟩ := Prod.mk.inj halign
      refine ⟨hresult ▸ rfl, ⟨fun h ↦ ?_, ?_⟩, fun h ↦ ?_, fun _ ↦ hrecord.symm⟩
      · rw [hresult] at h
        cases h
      · rintro ⟨s, hs, hle⟩
        exact absurd ((hnearest.minimal s hs).trans hle) (not_le.2 hout)
      · rw [hresult] at h
        cases h
    · next hout =>
      obtain ⟨hrecord, rfl⟩ := Prod.mk.inj halign
      refine ⟨hresult ▸ rfl, ⟨fun _ ↦ ⟨best, hnearest.mem, not_lt.1 hout⟩, fun _ ↦ hresult ▸ rfl⟩,
        fun _ ↦ ⟨best, hnearest, hrecord.symm, hresult ▸ rfl⟩, fun h ↦ ?_⟩
      rw [hresult] at h
      cases h

/-- **Streaming nearest alignment is optimal over the whole stream.** In a run over targets that do
not go backward every row carries, for a stream with the nearest strategy, a match if and only if some
sample of the stream lies within tolerance, and then the nearest sample of the stream, the earliest
one in a tie. If all streams can be aligned there is a row for each target. -/
theorem nearest_alignment_optimal (streams : List (StreamRuntime R)) {targets : List (Target R)}
    (htargets : TargetsInOrder targets) {j : ℕ} {stream : StreamRuntime R}
    (hstream : streams[j]? = some stream) (hstrategy : stream.strategy = .nearest)
    {samples : List (StreamSample R)} (hcursor : stream.cursor = some (.ofSamples samples))
    (hsorted : InTimeOrder samples) :
    let rows := iterRows targets streams
    ((∀ s ∈ streams, s.CanAlign) → rows.raised = none ∧ rows.yields.length = targets.length) ∧
      List.Forall₂ (fun target row ↦ row.targetEpochUs = target.1 ∧ (stream.AlignsAt target →
        ∃ entry, row.entries[j]? = some entry ∧ entry.name = stream.name ∧
          NearestAt samples stream.toleranceUs target.1 entry))
        (targets.take rows.yields.length) rows.yields := by
  refine ⟨iterRows_total targets, ?_⟩
  refine (iterRows_answered streams htargets hstream hcursor hsorted).imp fun target row h ↦ ?_
  refine ⟨h.1, fun haligns ↦ ?_⟩
  obtain ⟨entry, hentry, hanswers⟩ := h.2 haligns
  exact ⟨entry, hentry, hanswers.name, hanswers.nearestAt hstrategy hsorted⟩

/-- Targets before, between and after the samples, one of them as far from one sample as from the
next. -/
theorem nearest_alignment_optimal_gauge :
    let targets : List (Target ℚ) := [(-9, none), (5, none), (10, none), (25, none), (44, none)]
    let rows := iterRows targets [gaugeStream .nearest]
    ((∀ s ∈ [gaugeStream .nearest], s.CanAlign) →
      rows.raised = none ∧ rows.yields.length = targets.length) ∧
      List.Forall₂ (fun target row ↦ row.targetEpochUs = target.1 ∧
        ((gaugeStream .nearest).AlignsAt target → ∃ entry, row.entries[0]? = some entry ∧
          entry.name = (gaugeStream .nearest).name ∧
          NearestAt gaugeSamples (gaugeStream .nearest).toleranceUs target.1 entry))
        (targets.take rows.yields.length) rows.yields :=
  nearest_alignment_optimal [gaugeStream .nearest] (by unfold TargetsInOrder; decide) rfl rfl rfl
    (by unfold InTimeOrder gaugeSamples; decide)

end Synchronization

end ForgeData
