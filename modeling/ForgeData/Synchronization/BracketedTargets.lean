import ForgeData.Synchronization.SynchronizedRows

/-!
# Streams around a target

Over targets that do not go backward a stream's cursor stands around each target in turn: it has
consumed the samples up to the target, and the others are still to come. Whatever the other streams
do, the entry of a stream in a row is what its strategy answers from there.
-/

namespace ForgeData

namespace Synchronization

open Python

variable {R : Type}

/-! ## The cursor at a target -/

/-- Samples in time order; several may carry one timestamp. -/
def InTimeOrder (samples : List (StreamSample R)) : Prop :=
  samples.Pairwise fun x y ↦ x.epochUs ≤ y.epochUs

/-- The cursor stands at the target: the samples up to it are consumed, the others are to come. -/
structure StreamCursor.Brackets (cursor : StreamCursor R) (samples : List (StreamSample R))
    (target : ℤ) : Prop where
  exists_consumed : ∃ consumed, samples = consumed ++ cursor.upcoming ∧
    cursor.prev = consumed.getLast? ∧ (∀ x ∈ consumed, x.epochUs ≤ target) ∧
    ∀ x ∈ cursor.upcoming, target < x.epochUs

theorem StreamCursor.Covers.brackets {cursor : StreamCursor R} {samples : List (StreamSample R)}
    {reached : List ℤ} (h : cursor.Covers samples reached) (hsorted : InTimeOrder samples)
    {target : ℤ} (htargets : ∀ t ∈ reached, t ≤ target) :
    (cursor.advanceTo target).Brackets samples target := by
  obtain ⟨consumed, hsamples, hprev, hreached⟩ := h.advanceTo target
  refine ⟨consumed, hsamples, hprev, fun x hx ↦ ?_, fun x hx ↦ ?_⟩
  · obtain ⟨t, ht, hxt⟩ := hreached x hx
    rcases List.mem_append.1 ht with ht | ht
    · exact hxt.trans (htargets t ht)
    · rwa [List.mem_singleton.1 ht] at hxt
  · have hupcoming : InTimeOrder (cursor.advanceTo target).upcoming :=
      hsorted.sublist (hsamples ▸ List.sublist_append_right _ _)
    rw [StreamCursor.advanceTo, advanceFrom_eq] at hx hupcoming
    dsimp only at hx hupcoming
    rcases hdrop : cursor.upcoming.dropWhile (StreamSample.reaches target) with _ | ⟨first, rest⟩
    · rw [hdrop] at hx
      cases hx
    · have hfirst : target < first.epochUs := by
        have hhead := List.head?_dropWhile_not (StreamSample.reaches target) cursor.upcoming
        rw [hdrop] at hhead
        simpa [StreamSample.reaches] using hhead
      rw [hdrop] at hx hupcoming
      rcases List.mem_cons.1 hx with rfl | hx
      · exact hfirst
      · exact hfirst.trans_le ((List.pairwise_cons.1 hupcoming).1 x hx)

namespace StreamCursor.Brackets

variable {cursor : StreamCursor R} {samples : List (StreamSample R)} {target : ℤ}

theorem prev (h : cursor.Brackets samples target) (hsorted : InTimeOrder samples)
    {p : StreamSample R} (hp : cursor.prev = some p) :
    p ∈ samples ∧ p.epochUs ≤ target ∧ ∀ x ∈ samples, x.epochUs ≤ target → x.epochUs ≤ p.epochUs := by
  obtain ⟨consumed, rfl, hprev, hle, hlt⟩ := h
  rw [hprev] at hp
  obtain ⟨front, rfl⟩ := List.getLast?_eq_some_iff.1 hp
  have hmem : p ∈ front ++ [p] := List.mem_append_right _ (List.mem_singleton_self p)
  refine ⟨List.mem_append_left _ hmem, hle p hmem, fun x hx hxt ↦ ?_⟩
  rcases List.mem_append.1 hx with hx | hx
  · rcases List.mem_append.1 hx with hx | hx
    · have hfront := (List.pairwise_append.1 (List.pairwise_append.1 hsorted).1).2.2
      exact hfront x hx p (List.mem_singleton_self p)
    · rw [List.mem_singleton.1 hx]
  · exact absurd (hlt x hx) (not_lt.2 hxt)

theorem prev_eq_none (h : cursor.Brackets samples target) (hp : cursor.prev = none) :
    ∀ x ∈ samples, target < x.epochUs := by
  obtain ⟨consumed, rfl, hprev, -, hlt⟩ := h
  rw [hprev, List.getLast?_eq_none_iff] at hp
  rw [hp]
  exact hlt

theorem pending (h : cursor.Brackets samples target) (hsorted : InTimeOrder samples)
    {q : StreamSample R} (hq : cursor.pending = some q) :
    q ∈ samples ∧ target < q.epochUs ∧ ∀ x ∈ samples, target < x.epochUs → q.epochUs ≤ x.epochUs := by
  obtain ⟨consumed, rfl, -, hle, hlt⟩ := h
  obtain ⟨rest, hrest⟩ := List.head?_eq_some_iff.1 hq
  rw [hrest] at hlt hsorted ⊢
  refine ⟨List.mem_append_right _ List.mem_cons_self, hlt q List.mem_cons_self, fun x hx hxt ↦ ?_⟩
  rcases List.mem_append.1 hx with hx | hx
  · exact absurd hxt (not_lt.2 (hle x hx))
  · rcases List.mem_cons.1 hx with rfl | hx
    · exact le_refl _
    · exact (List.pairwise_cons.1 (List.pairwise_append.1 hsorted).2.1).1 x hx

theorem pending_eq_none (h : cursor.Brackets samples target) (hq : cursor.pending = none) :
    ∀ x ∈ samples, x.epochUs ≤ target := by
  obtain ⟨consumed, rfl, -, hle, -⟩ := h
  rw [List.head?_eq_none_iff.1 hq, List.append_nil]
  exact hle

theorem adjacent (h : cursor.Brackets samples target) {p q : StreamSample R}
    (hp : cursor.prev = some p) (hq : cursor.pending = some q) :
    ∃ front back, samples = front ++ p :: q :: back := by
  obtain ⟨consumed, rfl, hprev, -, -⟩ := h
  rw [hprev] at hp
  obtain ⟨front, rfl⟩ := List.getLast?_eq_some_iff.1 hp
  obtain ⟨back, hback⟩ := List.head?_eq_some_iff.1 hq
  exact ⟨front, back, by rw [hback, List.append_assoc, List.singleton_append]⟩

end StreamCursor.Brackets

/-! ## One stream in a run -/

/-- A new cursor over these samples. -/
def StreamCursor.ofSamples (samples : List (StreamSample R)) : StreamCursor R := ⟨none, samples⟩

theorem covers_ofSamples (samples : List (StreamSample R)) :
    (StreamCursor.ofSamples samples).Covers samples [] :=
  ⟨[], rfl, rfl, fun _ h ↦ absurd h List.not_mem_nil⟩

/-- What the strategy of a stream is told at a target. -/
def StreamRuntime.contextAt (stream : StreamRuntime R) (target : ℤ) : AlignmentContext where
  targetEpochUs := target
  toleranceUs := stream.toleranceUs
  schema := stream.schema

/-- The stream is aligned at this target: it has not given the target its own record. -/
def StreamRuntime.AlignsAt (stream : StreamRuntime R) (target : Target R) : Prop :=
  stream.isReference = true → target.2 = none

/-- The runtime of a stream over these samples, after some targets. -/
structure StreamRuntime.Continues (start : StreamRuntime R) (samples : List (StreamSample R))
    (reached : List ℤ) (stream : StreamRuntime R) : Prop where
  exists_cursor : ∃ cursor, stream = { start with cursor := some cursor } ∧
    cursor.Covers samples reached

variable [PyFloat R]

/-- The entry is what the strategy of the stream answers from around the target. -/
structure StreamEntry.AnswersAt (stream : StreamRuntime R) (samples : List (StreamSample R))
    (target : ℤ) (entry : StreamEntry R) : Prop where
  name : entry.name = stream.name
  exists_answer : ∃ cursor outcome, cursor.Brackets samples target ∧
    stream.strategy.align cursor (stream.contextAt target) = .ok (entry.record, outcome) ∧
    entry.result = outcome.result

/-- Aligning one stream: it either stays where it is, at a target with its own record, or answers from
a cursor advanced to the target. -/
theorem alignStream_cases {target : Target R} {stream stream' : StreamRuntime R}
    {entry : StreamEntry R} (h : alignStream target stream = .ok (stream', entry)) :
    (stream' = stream ∧ ¬stream.AlignsAt target) ∨
      ∃ cursor outcome, stream.cursor = some cursor ∧
        stream.strategy.align (cursor.advanceTo target.1) (stream.contextAt target.1)
          = .ok (entry.record, outcome) ∧ entry.result = outcome.result ∧ entry.name = stream.name ∧
        stream' = { stream with cursor := some (cursor.advanceTo target.1) } := by
  rw [alignStream] at h
  split at h
  · next hreference hrecord =>
    obtain ⟨rfl, rfl⟩ := Prod.mk.inj (Except.ok.inj h)
    refine .inl ⟨rfl, fun hnone ↦ ?_⟩
    rw [hnone hreference] at hrecord
    cases hrecord
  · split at h
    · cases h
    · next cursor hcursor =>
      obtain ⟨⟨record, outcome⟩, halign, hret⟩ := bind_eq_ok_iff.1 h
      obtain ⟨rfl, rfl⟩ := Prod.mk.inj (Except.ok.inj hret)
      exact .inr ⟨cursor, outcome, hcursor, halign, rfl, rfl, rfl⟩

theorem StreamRuntime.Continues.alignStream {start stream stream' : StreamRuntime R}
    {samples : List (StreamSample R)} {reached : List ℤ} {target : Target R} {entry : StreamEntry R}
    (h : start.Continues samples reached stream) (hsorted : InTimeOrder samples)
    (htargets : ∀ t ∈ reached, t ≤ target.1)
    (halign : Synchronization.alignStream target stream = .ok (stream', entry)) :
    start.Continues samples (reached ++ [target.1]) stream' ∧
      (start.AlignsAt target → entry.AnswersAt start samples target.1) := by
  obtain ⟨cursor, rfl, hcovers⟩ := h
  rcases alignStream_cases halign with ⟨rfl, hown⟩ | ⟨cursor', outcome, hcursor, hanswer, hresult,
    hname, rfl⟩
  · refine ⟨⟨cursor, rfl, ?_⟩, fun h ↦ absurd h hown⟩
    obtain ⟨consumed, hsamples, hprev, hreached⟩ := hcovers
    refine ⟨consumed, hsamples, hprev, fun x hx ↦ ?_⟩
    obtain ⟨t, ht, hxt⟩ := hreached x hx
    exact ⟨t, List.mem_append_left _ ht, hxt⟩
  · obtain rfl := Option.some.inj hcursor
    exact ⟨⟨_, rfl, hcovers.advanceTo target.1⟩,
      fun _ ↦ ⟨hname, _, outcome, hcovers.brackets hsorted htargets, hanswer, hresult⟩⟩

/-- The targets of a run do not go backward. -/
def TargetsInOrder (targets : List (Target R)) : Prop :=
  targets.Pairwise fun s t ↦ s.1 ≤ t.1

/-- The row of a target, as far as the `j`-th stream is concerned. -/
def AnsweredRow (j : ℕ) (start : StreamRuntime R) (samples : List (StreamSample R))
    (target : Target R) (row : SyncRow R) : Prop :=
  row.targetEpochUs = target.1 ∧
    (start.AlignsAt target →
      ∃ entry, row.entries[j]? = some entry ∧ entry.AnswersAt start samples target.1)

theorem getElem?_of_mapM_eq_ok {α β ε : Type} {f : α → Except ε β} {l : List α} {bs : List β}
    (h : l.mapM f = .ok bs) {j : ℕ} {a : α} (ha : l[j]? = some a) :
    ∃ b, bs[j]? = some b ∧ f a = .ok b := by
  have hall := forall₂_of_mapM_eq_ok h
  obtain ⟨hj, rfl⟩ := List.getElem?_eq_some_iff.1 ha
  have hj' : j < bs.length := hall.length_eq ▸ hj
  exact ⟨bs[j], List.getElem?_eq_getElem hj', (List.forall₂_iff_get.1 hall).2 j hj hj'⟩

omit [PyFloat R] in
theorem TargetsInOrder.reached_le {pre : List (Target R)} {target : Target R}
    (h : TargetsInOrder (pre ++ [target])) : ∀ t ∈ pre.map Prod.fst, t ≤ target.1 := by
  intro t ht
  obtain ⟨earlier, hearlier, rfl⟩ := List.mem_map.1 ht
  exact (List.pairwise_append.1 h).2.2 earlier hearlier target (List.mem_singleton_self target)

/-- The `j`-th stream goes on as it started, and the rows so far carry its answers. -/
def AnsweredUpTo (j : ℕ) (start : StreamRuntime R) (samples : List (StreamSample R))
    (pre : List (Target R)) (streams : List (StreamRuntime R)) (rows : List (SyncRow R)) : Prop :=
  TargetsInOrder pre →
    (∃ stream, streams[j]? = some stream ∧ start.Continues samples (pre.map Prod.fst) stream) ∧
      List.Forall₂ (AnsweredRow j start samples) pre rows

theorem AnsweredUpTo.step {j : ℕ} {start : StreamRuntime R} {samples : List (StreamSample R)}
    (hsorted : InTimeOrder samples) {pre : List (Target R)} {streams streams' : List (StreamRuntime R)}
    {rows out : List (SyncRow R)} {target : Target R}
    (h : AnsweredUpTo j start samples pre streams rows)
    (hstep : (do
      let (streams, row) ← buildRow target streams
      return (streams, [row]) : Except SynchronizationError _) = .ok (streams', out)) :
    AnsweredUpTo j start samples (pre ++ [target]) streams' (rows ++ out) := by
  intro htargets
  obtain ⟨⟨stream, hstream, hcontinues⟩, hrows⟩ := h (List.pairwise_append.1 htargets).1
  obtain ⟨⟨streams₁, row⟩, hbuild, hret⟩ := bind_eq_ok_iff.1 hstep
  obtain ⟨rfl, rfl⟩ := Prod.mk.inj (Except.ok.inj hret)
  obtain ⟨aligned, hmap, hrow⟩ := bind_eq_ok_iff.1 hbuild
  obtain ⟨rfl, rfl⟩ := Prod.mk.inj (Except.ok.inj hrow)
  obtain ⟨⟨stream', entry⟩, hentry, halign⟩ := getElem?_of_mapM_eq_ok hmap hstream
  obtain ⟨hnext, hanswer⟩ := hcontinues.alignStream hsorted htargets.reached_le halign
  have hrow : AnsweredRow j start samples target ⟨target.1, aligned.map Prod.snd⟩ :=
    ⟨rfl, fun haligns ↦ ⟨entry, by rw [List.getElem?_map, hentry]; rfl, hanswer haligns⟩⟩
  refine ⟨⟨stream', ?_, ?_⟩, List.rel_append hrows (.cons hrow .nil)⟩
  · rw [List.getElem?_map, hentry]
    rfl
  · rw [List.map_append]
    exact hnext

/-- **The answers of one stream in a run.** Every row yielded carries the answer of the stream's
strategy from around the row's target, whatever the other streams are. -/
theorem iterRows_answered (streams : List (StreamRuntime R)) {targets : List (Target R)}
    (htargets : TargetsInOrder targets) {j : ℕ} {start : StreamRuntime R}
    (hstart : streams[j]? = some start) {samples : List (StreamSample R)}
    (hcursor : start.cursor = some (.ofSamples samples)) (hsorted : InTimeOrder samples) :
    List.Forall₂ (AnsweredRow j start samples)
      (targets.take (iterRows targets streams).yields.length) (iterRows targets streams).yields := by
  have hinit : AnsweredUpTo j start samples [] streams [] := fun _ ↦
    ⟨⟨start, hstart, _, by rw [← hcursor], covers_ofSamples samples⟩, .nil⟩
  rcases Gen.loop_cases (fun h hstep ↦ AnsweredUpTo.step hsorted h hstep) hinit targets with
    ⟨last, rows, h, heq⟩ | ⟨pre, target, rest, last, rows, e, rfl, h, -, heq⟩
  · have hrows := (h htargets).2
    rw [iterRows, heq, List.append_nil, ← hrows.length_eq, List.take_length]
    exact hrows
  · have hrows := (h (List.pairwise_append.1 htargets).1).2
    rw [iterRows, heq, ← hrows.length_eq, List.take_left']
    · exact hrows
    · rfl

/-! ## Runs that do not raise -/

/-- The stream can be aligned: it has a cursor, and typed samples to come if it is interpolated. -/
def StreamRuntime.CanAlign (stream : StreamRuntime R) : Prop :=
  ∃ cursor, stream.cursor = some cursor ∧ (stream.strategy = .linear →
    ∀ x ∈ cursor.prev.toList ++ cursor.upcoming, IsTyped stream.schema x.record)

omit [PyFloat R] in
theorem mem_of_mem_advanceTo {cursor : StreamCursor R} {target : ℤ} {x : StreamSample R}
    (hx : x ∈ (cursor.advanceTo target).prev.toList ++ (cursor.advanceTo target).upcoming) :
    x ∈ cursor.prev.toList ++ cursor.upcoming := by
  rw [StreamCursor.advanceTo, advanceFrom_eq] at hx
  dsimp only at hx
  rcases List.mem_append.1 hx with hx | hx
  · rw [Option.mem_toList, Option.or_eq_some_iff] at hx
    rcases hx with hx | ⟨-, hx⟩
    · have hmem := List.takeWhile_sublist _ |>.subset (List.mem_of_getLast? hx)
      exact List.mem_append_right _ hmem
    · exact List.mem_append_left _ (Option.mem_toList.2 hx)
  · exact List.mem_append_right _ ((List.dropWhile_sublist _).subset hx)

theorem StreamRuntime.CanAlign.exists_alignStream {stream : StreamRuntime R} (h : stream.CanAlign)
    (target : Target R) :
    ∃ aligned, alignStream target stream = .ok aligned ∧ aligned.1.CanAlign := by
  obtain ⟨cursor, hcursor, htyped⟩ := h
  by_cases hown : stream.AlignsAt target
  · have hanswer : ∃ answer, stream.strategy.align (cursor.advanceTo target.1)
        (stream.contextAt target.1) = .ok answer := by
      rcases hstrategy : stream.strategy with _ | _
      · exact ⟨_, rfl⟩
      · have htyped' : ∀ x ∈ (cursor.advanceTo target.1).prev.toList ++
            (cursor.advanceTo target.1).upcoming, IsTyped stream.schema x.record :=
          fun x hx ↦ htyped hstrategy x (mem_of_mem_advanceTo hx)
        have hprev : ∀ x ∈ (cursor.advanceTo target.1).prev, IsTyped stream.schema x.record :=
          fun x hx ↦ htyped' x (List.mem_append_left _ (Option.mem_toList.2 hx))
        have hpending : ∀ x ∈ (cursor.advanceTo target.1).pending,
            IsTyped stream.schema x.record :=
          fun x hx ↦ htyped' x (List.mem_append_right _ (List.mem_of_mem_head? hx))
        obtain ⟨record, outcome, halign, -⟩ :
            ∃ record outcome, alignLinear (cursor.advanceTo target.1)
              (stream.contextAt target.1) = .ok (record, outcome) ∧ _ :=
          exists_alignLinear hprev hpending
        exact ⟨_, halign⟩
    obtain ⟨answer, hanswer⟩ := hanswer
    refine ⟨({ stream with cursor := some (cursor.advanceTo target.1) },
      ⟨stream.name, answer.1, answer.2.result⟩), ?_, _, rfl, fun hlinear x hx ↦ ?_⟩
    · rw [alignStream]
      split
      · next hreference hrecord =>
        rw [hown hreference] at hrecord
        cases hrecord
      · rw [hcursor]
        exact bind_eq_ok_iff.2 ⟨answer, hanswer, rfl⟩
    · exact htyped hlinear x (mem_of_mem_advanceTo hx)
  · obtain ⟨hreference, hrecord⟩ := Classical.not_imp.1 hown
    obtain ⟨record, hrecord⟩ := Option.ne_none_iff_exists'.1 hrecord
    refine ⟨(stream, ⟨stream.name, some record,
      { matched := true, method := .reference, deltaMs := some 0 }⟩), ?_, cursor, hcursor, htyped⟩
    rw [alignStream, hreference, hrecord]

/-- A run raises nothing if every stream can be aligned: it yields a row for each target. -/
theorem iterRows_total (targets : List (Target R)) {streams : List (StreamRuntime R)}
    (h : ∀ stream ∈ streams, stream.CanAlign) :
    (iterRows targets streams).raised = none ∧
      (iterRows targets streams).yields.length = targets.length := by
  induction targets generalizing streams with
  | nil => exact ⟨rfl, rfl⟩
  | cons target targets ih =>
    obtain ⟨aligned, hmap⟩ := exists_mapM_eq_ok fun stream hstream ↦
      ((h stream hstream).exists_alignStream target).imp fun _ h ↦ h.1
    have hbuild : buildRow target streams
        = .ok (aligned.map Prod.fst, ⟨target.1, aligned.map Prod.snd⟩) :=
      bind_eq_ok_iff.2 ⟨aligned, hmap, rfl⟩
    have hnext : ∀ stream ∈ aligned.map Prod.fst, stream.CanAlign := by
      intro stream' hstream'
      obtain ⟨a, ha, rfl⟩ := List.mem_map.1 hstream'
      obtain ⟨stream, hstream, halign⟩ := exists_of_forall₂_right (forall₂_of_mapM_eq_ok hmap) ha
      obtain ⟨a', ha', hcan⟩ := (h stream hstream).exists_alignStream target
      rw [Except.ok.inj (halign.symm.trans ha')]
      exact hcan
    obtain ⟨hraised, hlength⟩ := ih hnext
    rw [iterRows_cons hbuild]
    exact ⟨hraised, congrArg Nat.succ hlength⟩

/-- Four samples of one number; two of them carry the same timestamp. -/
def gaugeSamples : List (StreamSample ℚ) :=
  [(0, 4), (10, 6), (10, 8), (40, 2)].map fun p ↦ ⟨p.1, [(Str.ofString "level", .float p.2)]⟩

/-- A stream over them, which the given strategy aligns. -/
def gaugeStream (strategy : AlignmentStrategy) : StreamRuntime ℚ where
  name := Str.ofString "gauge"
  schema := ⟨Str.ofString "gauge", Str.ofString "1.0.0",
    .ofPairs [(Str.ofString "level", ⟨.float, true, false⟩)], false⟩
  strategy := strategy
  cursor := some (.ofSamples gaugeSamples)
  toleranceUs := 8
  isReference := false

end Synchronization

end ForgeData
