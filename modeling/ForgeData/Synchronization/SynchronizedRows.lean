import ForgeData.Synchronization.AlignedStreams

/-!
# Synchronized rows

What a row is for its target: one entry for each stream, in the order of the streams, each as the
stream's strategy answers from the samples around the target. As long as the targets do not go
backward, `iter_rows` yields one row for each target and does not raise.
-/

namespace ForgeData

namespace Synchronization

open Python

section

variable {R : Type} (options : SyncOptions) (reference : Option Str)

/-! ## Streams between targets -/

/-- The runtime of a stream after some targets. -/
structure StreamRuntime.Runs (reached : List ℤ) (p : Str × LoadedStream R) (stream : StreamRuntime R) :
    Prop where
  name : stream.name = p.1
  schema : stream.schema = p.2.schema
  strategy : stream.strategy = options.strategies p.1
  isReference : stream.isReference = true ↔ reference = some p.1
  cursor : reference ≠ some p.1 → ∃ cursor, stream.cursor = some cursor ∧
    cursor.Covers (samplesOf (options.corrected p.1 p.2)) reached

/-- A stream of which a time lies in the range. -/
def InRange (records : List (TypedRecord R)) (t : ℤ) : Prop :=
  (∃ a ∈ records, a.epochUs ≤ t) ∧ ∃ b ∈ records, t ≤ b.epochUs

/-- The entry of a stream in the row of a target. -/
structure StreamEntry.IsFor (target : Target R) (p : Str × LoadedStream R) (entry : StreamEntry R) :
    Prop where
  name : entry.name = p.1
  delta_nonneg : ∀ d ∈ entry.result.deltaMs, 0 ≤ d
  carries : reference = some p.1 → entry.record = target.2 ∧
    entry.result = { matched := true, method := .reference, deltaMs := some 0 }
  method : reference ≠ some p.1 → entry.result.method = (options.strategies p.1).method
  linear_matched : reference ≠ some p.1 → options.strategies p.1 = .linear →
    InRange (options.corrected p.1 p.2) target.1 → entry.result.matched = true
  nearest_data : reference ≠ some p.1 → options.strategies p.1 = .nearest →
    InRange (options.corrected p.1 p.2) target.1 → entry.result.reason ≠ some .noData

/-- The row of a target. -/
structure SyncRow.IsFor (items : List (Str × LoadedStream R)) (target : Target R) (row : SyncRow R) :
    Prop where
  targetEpochUs : row.targetEpochUs = target.1
  entries : List.Forall₂ (StreamEntry.IsFor options reference target) items row.entries

variable {options reference}

theorem pairwise_samplesOf {records : List (TypedRecord R)} (h : Nondecreasing records) :
    (samplesOf records).Pairwise fun x y ↦ x.epochUs ≤ y.epochUs := by
  rw [samplesOf, List.pairwise_map]
  exact h

theorem isTyped_of_mem_samplesOf {name : Str} {loaded : LoadedStream R} {x : StreamSample R}
    (hx : x ∈ samplesOf (options.corrected name loaded)) : IsTyped loaded.schema x.record := by
  obtain ⟨record, hrecord, rfl⟩ := List.mem_map.mp hx
  obtain ⟨anchor, heq⟩ := exists_applyStreamCorrection_eq_map loaded.records (options.corrections name)
  rw [SyncOptions.corrected, heq] at hrecord
  obtain ⟨original, horiginal, rfl⟩ := List.mem_map.mp hrecord
  exact loaded.typed original horiginal

theorem InRange.exists_samples {records : List (TypedRecord R)} {t : ℤ} (h : InRange records t) :
    (∃ x ∈ samplesOf records, x.epochUs ≤ t) ∧ ∃ y ∈ samplesOf records, t ≤ y.epochUs := by
  obtain ⟨⟨a, ha, hat⟩, b, hb, htb⟩ := h
  exact ⟨⟨_, List.mem_map_of_mem ha, hat⟩, _, List.mem_map_of_mem hb, htb⟩

/-! ## One target -/

section Step

variable {reached : List ℤ} {target : Target R} {p : Str × LoadedStream R} {stream : StreamRuntime R}

theorem AnswersFor.linear_matched {cursor : StreamCursor R} {outcome : AlignmentOutcome}
    {records : List (TypedRecord R)} {t : ℤ}
    (hanswer : AnswersFor .linear (cursor.advanceTo t) t outcome)
    (hcovers : cursor.Covers (samplesOf records) reached) (hsorted : Nondecreasing records)
    (hreached : ∀ u ∈ reached, u ≤ t) (hrange : InRange records t) : outcome.matched = true := by
  obtain ⟨⟨x, hx, hxt⟩, y, hy, hty⟩ := hrange.exists_samples
  have hpairwise := pairwise_samplesOf hsorted
  have hprev := hcovers.prev_ne_none hpairwise hx hxt
  by_contra hunmatched
  obtain ⟨hne, hmissing⟩ := hanswer.linear rfl (Bool.eq_false_of_not_eq_true hunmatched)
  have hpending := hmissing.resolve_left hprev
  obtain ⟨z, hz⟩ := Option.ne_none_iff_exists'.mp hprev
  exact hne z hz (hcovers.prev_eq_target hreached hpairwise hy hty hpending z hz)

theorem AnswersFor.nearest_data {cursor : StreamCursor R} {outcome : AlignmentOutcome}
    {records : List (TypedRecord R)} {t : ℤ}
    (hanswer : AnswersFor .nearest (cursor.advanceTo t) t outcome)
    (hcovers : cursor.Covers (samplesOf records) reached) (hsorted : Nondecreasing records)
    (hrange : InRange records t) : outcome.reason ≠ some .noData := by
  obtain ⟨⟨x, hx, hxt⟩, -⟩ := hrange.exists_samples
  intro hreason
  exact hcovers.prev_ne_none (pairwise_samplesOf hsorted) hx hxt (hanswer.nearest rfl hreason)

theorem AlignmentOutcome.result_matched (outcome : AlignmentOutcome) :
    outcome.result.matched = outcome.matched := by
  rw [AlignmentOutcome.result]
  split <;> rfl

theorem AlignmentOutcome.result_method (outcome : AlignmentOutcome) :
    outcome.result.method = outcome.method := by
  rw [AlignmentOutcome.result]
  split <;> rfl

theorem AlignmentOutcome.mem_result_deltaMs {outcome : AlignmentOutcome} {d : ℚ}
    (h : d ∈ outcome.result.deltaMs) : d ∈ outcome.deltaMs := by
  rw [AlignmentOutcome.result] at h
  split at h
  · exact h
  · exact absurd h nofun

theorem AlignmentOutcome.reason_of_result {outcome : AlignmentOutcome} {reason : UnmatchedReason}
    (h : outcome.result.reason = some reason) : outcome.reason = some reason := by
  rw [AlignmentOutcome.result] at h
  split at h
  · exact absurd h nofun
  · exact h

variable [PyFloat R]

/-- A stream with a cursor at the next target. -/
theorem StreamRuntime.Runs.exists_alignCursor (h : stream.Runs options reference reached p)
    (hscale : 0 < (options.corrections p.1).scale) (htargets : ∀ t ∈ reached, t ≤ target.1)
    (hp : reference ≠ some p.1) : ∃ stream' entry, alignStream target stream = .ok (stream', entry) ∧
      stream'.Runs options reference (reached ++ [target.1]) p ∧
      entry.IsFor options reference target p := by
  obtain ⟨cursor, hcursor, hcovers⟩ := h.cursor hp
  have hsorted := p.2.nondecreasing.applyStreamCorrection hscale
  have hadvanced := hcovers.advanceTo target.1
  obtain ⟨record, outcome, halign, hanswer⟩ := exists_align (R := R) stream.strategy
    (cursor.advanceTo target.1)
    { targetEpochUs := target.1, toleranceUs := stream.toleranceUs, schema := stream.schema }
    (fun x hx ↦ h.schema ▸ isTyped_of_mem_samplesOf (hadvanced.mem_of_mem_prev hx))
    (fun x hx ↦ h.schema ▸ isTyped_of_mem_samplesOf (hadvanced.mem_of_mem_pending hx))
  have hnot : stream.isReference = false := by
    rw [← Bool.not_eq_true, h.isReference]
    exact hp
  refine ⟨{ stream with cursor := some (cursor.advanceTo target.1) },
    ⟨stream.name, record, outcome.result⟩, ?_, ?_, ?_⟩
  · rw [alignStream, hnot, hcursor]
    dsimp only
    rw [halign]
    rfl
  · exact ⟨h.name, h.schema, h.strategy, h.isReference, fun _ ↦ ⟨_, rfl, hadvanced⟩⟩
  · rw [h.strategy] at hanswer
    refine ⟨h.name, fun d hd ↦ hanswer.delta_nonneg d (outcome.mem_result_deltaMs hd),
      fun hreference ↦ absurd hreference hp, fun _ ↦ ?_, fun _ hlinear hrange ↦ ?_,
      fun _ hnearest hrange hreason ↦ ?_⟩
    · rw [outcome.result_method, hanswer.method]
    · rw [hlinear] at hanswer
      rw [outcome.result_matched]
      exact hanswer.linear_matched hcovers hsorted htargets hrange
    · rw [hnearest] at hanswer
      exact hanswer.nearest_data hcovers hsorted hrange (outcome.reason_of_result hreason)

theorem StreamRuntime.Runs.alignReference (h : stream.Runs options reference reached p)
    {record : Fields R} (hrecord : target.2 = some record) (hp : reference = some p.1) :
    ∃ entry, alignStream target stream = .ok (stream, entry) ∧
      stream.Runs options reference (reached ++ [target.1]) p ∧
      entry.IsFor options reference target p := by
  have hreference : stream.isReference = true := h.isReference.mpr hp
  refine ⟨⟨stream.name, some record, { matched := true, method := .reference, deltaMs := some 0 }⟩,
    ?_, ?_, ?_⟩
  · rw [alignStream, hreference, hrecord]
  · exact ⟨h.name, h.schema, h.strategy, h.isReference, fun hne ↦ absurd hp hne⟩
  · refine ⟨h.name, fun d hd ↦ ?_, fun _ ↦ ⟨hrecord.symm, rfl⟩, fun hne ↦ absurd hp hne,
      fun hne ↦ absurd hp hne, fun hne ↦ absurd hp hne⟩
    exact (Option.some.inj hd) ▸ le_refl _

theorem StreamRuntime.Runs.exists_alignStream (h : stream.Runs options reference reached p)
    (hscale : 0 < (options.corrections p.1).scale) (htargets : ∀ t ∈ reached, t ≤ target.1)
    (hrecord : reference = some p.1 → ∃ record, target.2 = some record) :
    ∃ aligned, alignStream target stream = .ok aligned ∧
      aligned.1.Runs options reference (reached ++ [target.1]) p ∧
      aligned.2.IsFor options reference target p := by
  by_cases hp : reference = some p.1
  · obtain ⟨record, hrecord⟩ := hrecord hp
    obtain ⟨entry, halign, hruns, hentry⟩ := h.alignReference hrecord hp
    exact ⟨(stream, entry), halign, hruns, hentry⟩
  · obtain ⟨stream', entry, halign, hruns, hentry⟩ := h.exists_alignCursor hscale htargets hp
    exact ⟨(stream', entry), halign, hruns, hentry⟩

theorem exists_buildRow {items : List (Str × LoadedStream R)} {streams : List (StreamRuntime R)}
    (h : List.Forall₂ (fun p stream ↦ StreamRuntime.Runs options reference reached p stream)
      items streams)
    (hscale : ∀ p ∈ items, 0 < (options.corrections p.1).scale)
    (htargets : ∀ t ∈ reached, t ≤ target.1)
    (hrecord : reference ≠ none → ∃ record, target.2 = some record) :
    ∃ streams' row, buildRow target streams = .ok (streams', row) ∧
      List.Forall₂ (fun p stream ↦ StreamRuntime.Runs options reference (reached ++ [target.1]) p stream)
        items streams' ∧
      row.IsFor options reference items target := by
  obtain ⟨aligned, hmap, hruns, hentries⟩ : ∃ aligned, streams.mapM (alignStream target) = .ok aligned ∧
      List.Forall₂ (fun p stream ↦
        StreamRuntime.Runs options reference (reached ++ [target.1]) p stream)
        items (aligned.map Prod.fst) ∧
      List.Forall₂ (StreamEntry.IsFor options reference target) items (aligned.map Prod.snd) := by
    induction h with
    | nil => exact ⟨[], rfl, .nil, .nil⟩
    | @cons p stream items streams hp _ ih =>
      obtain ⟨hfirst, hrest⟩ := List.forall_mem_cons.mp hscale
      obtain ⟨aligned, halign, hruns, hentry⟩ := hp.exists_alignStream hfirst htargets
        fun hreference ↦ hrecord (hreference ▸ Option.some_ne_none _)
      obtain ⟨rest, hmap, hrunsRest, hentries⟩ := ih hrest
      refine ⟨aligned :: rest, ?_, .cons hruns hrunsRest, .cons hentry hentries⟩
      rw [List.mapM_cons, halign, hmap]
      rfl
  refine ⟨_, ⟨target.1, aligned.map Prod.snd⟩, ?_, hruns, rfl, hentries⟩
  rw [buildRow, hmap]
  rfl

end Step

/-! ## All targets -/

/-- The targets do not go backward, and carry the records of the reference stream if there is one. -/
structure Targets (reference : Option Str) (targets : List (Target R)) : Prop where
  nondecreasing : targets.Pairwise fun s t ↦ s.1 ≤ t.1
  records : reference ≠ none → ∀ target ∈ targets, ∃ record, target.2 = some record

theorem map_targetEpochUs {items : List (Str × LoadedStream R)} {targets : List (Target R)}
    {rows : List (SyncRow R)}
    (h : List.Forall₂ (fun target row ↦ SyncRow.IsFor options reference items target row) targets rows) :
    rows.map SyncRow.targetEpochUs = targets.map Prod.fst := by
  induction h with
  | nil => rfl
  | cons hrow _ ih => rw [List.map_cons, List.map_cons, hrow.targetEpochUs, ih]

variable [PyFloat R]

theorem iterRows_cons {target : Target R} {targets : List (Target R)}
    {streams streams' : List (StreamRuntime R)} {row : SyncRow R}
    (h : buildRow target streams = .ok (streams', row)) :
    iterRows (target :: targets) streams = (iterRows targets streams').prepend [row] := by
  rw [iterRows, Gen.loop, h]
  rfl

/-- **One row for each target.** -/
theorem exists_iterRows {items : List (Str × LoadedStream R)} {streams : List (StreamRuntime R)}
    {targets : List (Target R)} {reached : List ℤ}
    (h : List.Forall₂ (fun p stream ↦ StreamRuntime.Runs options reference reached p stream)
      items streams)
    (hscale : ∀ p ∈ items, 0 < (options.corrections p.1).scale)
    (htargets : Targets reference targets)
    (hreached : ∀ t ∈ reached, ∀ target ∈ targets, t ≤ target.1) :
    ∃ rows, iterRows targets streams = ⟨rows, none⟩ ∧
      List.Forall₂ (fun target row ↦ SyncRow.IsFor options reference items target row) targets rows := by
  induction targets generalizing reached streams with
  | nil => exact ⟨[], rfl, .nil⟩
  | cons target targets ih =>
    obtain ⟨hfirst, hrest⟩ := List.pairwise_cons.mp htargets.nondecreasing
    obtain ⟨streams', row, hbuild, hruns, hrow⟩ := exists_buildRow h hscale
      (fun t ht ↦ hreached t ht target List.mem_cons_self)
      (fun hne ↦ htargets.records hne target List.mem_cons_self)
    have hnext : ∀ t ∈ reached ++ [target.1], ∀ later ∈ targets, t ≤ later.1 := by
      intro t ht later hlater
      rcases List.mem_append.mp ht with ht | ht
      · exact hreached t ht later (List.mem_cons_of_mem _ hlater)
      · rw [List.mem_singleton.mp ht]
        exact hfirst later hlater
    have hrecords : reference ≠ none → ∀ later ∈ targets, ∃ record, later.2 = some record :=
      fun hne later hlater ↦ htargets.records hne later (List.mem_cons_of_mem _ hlater)
    obtain ⟨rows, hrows, hall⟩ := ih hruns ⟨hrest, hrecords⟩ hnext
    refine ⟨row :: rows, ?_, .cons hrow hall⟩
    rw [iterRows_cons hbuild, hrows]
    rfl

end

end Synchronization

end ForgeData
