import ForgeData.Synchronization.BracketedTargets
import Mathlib.Tactic.Linarith
import Mathlib.Tactic.Positivity

/-!
# Linear interpolation over a whole stream

A cursor around the target holds two samples strictly before and after it, unless a sample carries the
target itself or the target lies outside the stream. So the fraction of the way between the two is
strictly between zero and one: nothing is extrapolated, and nothing is divided by zero.
-/

namespace ForgeData

namespace Synchronization

open Python

/-! ## One field -/

/-- What the interpolation makes of the values `x₀` and `x₁` of a field between the samples `p` and
`q`. -/
structure InterpolatedValue (toleranceUs target : ℤ) (p q : StreamSample ℚ) (type : FieldType)
    (x₀ x₁ v : Value ℚ) : Prop where
  numeric_none : FieldType.isNumeric type = true → (v = .none ↔ x₀ = .none ∨ x₁ = .none)
  numeric_between : FieldType.isNumeric type = true → v ≠ .none → ∃ a b c, number? x₀ = some a ∧
    number? x₁ = some b ∧ v = .float c ∧ min a b ≤ c ∧ c ≤ max a b
  other_before : FieldType.isNumeric type = false → |target - p.epochUs| ≤ |target - q.epochUs| →
    v = if |target - p.epochUs| ≤ toleranceUs then x₀ else .none
  other_after : FieldType.isNumeric type = false → |target - q.epochUs| < |target - p.epochUs| →
    v = if |target - q.epochUs| ≤ toleranceUs then x₁ else .none

theorem interpolate_between (a b : ℚ) {s d : ℤ} (hs : 0 < s) (hsd : s < d) :
    min a b ≤ a + (b - a) * ((s : ℚ) / d) ∧ a + (b - a) * ((s : ℚ) / d) ≤ max a b := by
  have hd : (0 : ℚ) < d := by exact_mod_cast hs.trans hsd
  have hf₀ : 0 ≤ (s : ℚ) / d := div_nonneg (by exact_mod_cast hs.le) hd.le
  have hf₁ : (s : ℚ) / d ≤ 1 := (div_le_one hd).2 (by exact_mod_cast hsd.le)
  generalize (s : ℚ) / d = f at hf₀ hf₁
  rcases le_total a b with hab | hab
  · rw [min_eq_left hab, max_eq_right hab]
    constructor <;> nlinarith
  · rw [min_eq_right hab, max_eq_left hab]
    constructor <;> nlinarith

theorem difference?_eq_some {x₀ x₁ : Value ℚ} {d : ℚ} (h : difference? x₀ x₁ = some d) :
    ∃ a b, number? x₀ = some a ∧ number? x₁ = some b ∧ d = b - a := by
  rw [difference?] at h
  split at h
  · next m n hm hn =>
    have hnumber {x : Value ℚ} {k : ℤ} (hk : integral? x = some k) : number? x = some (k : ℚ) := by
      cases x with
      | int | bool =>
        cases hk
        rfl
      | _ => cases hk
    refine ⟨m, n, hnumber hm, hnumber hn, ?_⟩
    rw [← Option.some.inj h]
    exact Int.cast_sub n m
  · rcases hb : number? x₁ with _ | b
    · rw [hb] at h
      cases h
    · rcases ha : number? x₀ with _ | a
      · rw [ha, hb] at h
        cases h
      · rw [ha, hb] at h
        exact ⟨a, b, rfl, rfl, (Option.some.inj h).symm⟩

theorem interpolateNumber_eq_ok {x₀ x₁ v : Value ℚ} {fraction : ℚ}
    (h : interpolateNumber x₀ x₁ fraction = .ok v) :
    (v = .none ∧ (x₀ = .none ∨ x₁ = .none)) ∨
      ∃ a b, number? x₀ = some a ∧ number? x₁ = some b ∧ v = .float (a + (b - a) * fraction) := by
  unfold interpolateNumber at h
  split at h
  · exact .inl ⟨(Except.ok.inj h).symm, .inl rfl⟩
  · exact .inl ⟨(Except.ok.inj h).symm, .inr rfl⟩
  · split at h
    · next a d ha hd =>
      obtain ⟨a', b, ha', hb, rfl⟩ := difference?_eq_some hd
      obtain rfl := Option.some.inj (ha.symm.trans ha')
      exact .inr ⟨a, b, ha, hb, (Except.ok.inj h).symm⟩
    · cases h

theorem interpolateField_eq_ok {context : AlignmentContext} {p q : StreamSample ℚ}
    (hp : p.epochUs < context.targetEpochUs) (hq : context.targetEpochUs < q.epochUs)
    {field : Str × FieldDefinition} {result : Str × Value ℚ}
    (h : interpolateField context p q field = .ok result) :
    result.1 = field.1 ∧ InterpolatedValue context.toleranceUs context.targetEpochUs p q field.2.type
      (p.record.get field.1) (q.record.get field.1) result.2 := by
  rw [interpolateField] at h
  dsimp only at h
  split at h
  · next hnumeric =>
    obtain ⟨v, hv, hret⟩ := bind_eq_ok_iff.1 h
    obtain rfl := Except.ok.inj hret
    refine ⟨rfl, fun _ ↦ ?_, fun _ hne ↦ ?_, fun hother ↦ ?_, fun hother ↦ ?_⟩
    · rcases interpolateNumber_eq_ok hv with ⟨rfl, hnone⟩ | ⟨a, b, ha, hb, rfl⟩
      · exact ⟨fun _ ↦ hnone, fun _ ↦ rfl⟩
      · refine ⟨fun heq ↦ ?_, fun hnull ↦ ?_⟩
        · cases heq
        · rcases hnull with hnull | hnull
          · cases (hnull ▸ ha)
          · cases (hnull ▸ hb)
    · rcases interpolateNumber_eq_ok hv with ⟨rfl, -⟩ | ⟨a, b, ha, hb, rfl⟩
      · exact absurd rfl hne
      · exact ⟨a, b, _, ha, hb, rfl, interpolate_between a b (by omega) (by omega)⟩
    · rw [hnumeric] at hother
      cases hother
    · rw [hnumeric] at hother
      cases hother
  · next hother =>
    obtain rfl := Except.ok.inj h
    refine ⟨rfl, fun hnumeric ↦ absurd hnumeric hother, fun hnumeric ↦ absurd hnumeric hother,
      fun _ hle ↦ ?_, fun _ hlt ↦ ?_⟩
    · rw [if_pos hle]
    · rw [if_neg (not_le.2 hlt)]

/-! ## One target -/

/-- The fields of a schema that are interpolated: all but the timestamp. -/
def interpolatedFields (schema : SchemaDefinition) (timestampField : Str) :
    List (Str × FieldDefinition) :=
  schema.fields.items.filter (·.1 ≠ timestampField)

/-- The record between two samples: it has exactly the interpolated fields, each with its value. -/
structure InterpolatedRecord (stream : StreamRuntime ℚ) (target : ℤ) (p q : StreamSample ℚ)
    (record : Fields ℚ) : Prop where
  fields : record.map Prod.fst
    = (interpolatedFields stream.schema (stream.contextAt target).timestampField).map Prod.fst
  values : ∀ field ∈ interpolatedFields stream.schema (stream.contextAt target).timestampField,
    InterpolatedValue stream.toleranceUs target p q field.2.type (p.record.get field.1)
      (q.record.get field.1) (record.get field.1)

theorem Fields.get_of_mem {record : Fields ℚ} (hnodup : (record.map Prod.fst).Nodup)
    {p : Str × Value ℚ} (hp : p ∈ record) : record.get p.1 = p.2 := by
  obtain ⟨front, back, rfl⟩ := List.append_of_mem hp
  rw [Fields.get, List.lookup_append]
  have hfront : List.lookup p.1 front = none := by
    refine List.lookup_eq_none_iff.2 fun q hq ↦ ?_
    rw [List.map_append, List.map_cons, List.nodup_append] at hnodup
    have hne := hnodup.2.2 q.1 (List.mem_map_of_mem hq) p.1 List.mem_cons_self
    simpa using hne.symm
  rw [hfront, List.lookup_cons_self]
  rfl

theorem InterpolatedRecord.of_mapM {stream : StreamRuntime ℚ} {target : ℤ} {p q : StreamSample ℚ}
    (hp : p.epochUs < target) (hq : target < q.epochUs) {record : Fields ℚ}
    (h : (interpolatedFields stream.schema (stream.contextAt target).timestampField).mapM
      (interpolateField (stream.contextAt target) p q) = .ok record) :
    InterpolatedRecord stream target p q record := by
  have hall : List.Forall₂ (fun field result ↦ result.1 = field.1 ∧
      InterpolatedValue stream.toleranceUs target p q field.2.type (p.record.get field.1)
        (q.record.get field.1) result.2)
      (interpolatedFields stream.schema (stream.contextAt target).timestampField) record :=
    (forall₂_of_mapM_eq_ok h).imp fun _ _ hresult ↦ interpolateField_eq_ok hp hq hresult
  have hnames : record.map Prod.fst
      = (interpolatedFields stream.schema (stream.contextAt target).timestampField).map Prod.fst := by
    have heq : List.Forall₂ Eq (record.map Prod.fst)
        ((interpolatedFields stream.schema (stream.contextAt target).timestampField).map Prod.fst) := by
      rw [List.forall₂_map_left_iff, List.forall₂_map_right_iff]
      exact hall.flip.imp fun _ _ hfield ↦ hfield.1
    rwa [List.forall₂_eq_eq_eq] at heq
  have hnodup : (record.map Prod.fst).Nodup := by
    rw [hnames]
    exact stream.schema.fields.nodup.sublist (List.filter_sublist.map _)
  refine ⟨hnames, fun field hfield ↦ ?_⟩
  obtain ⟨result, hresult, hname, hvalue⟩ := exists_of_forall₂_right hall.flip hfield
  rw [← hname, Fields.get_of_mem hnodup hresult]
  rw [← hname] at hvalue
  exact hvalue

/-- The target lies between the first and the last timestamp of the stream. -/
def Spans (samples : List (StreamSample ℚ)) (target : ℤ) : Prop :=
  ∃ first ∈ samples.head?, ∃ last ∈ samples.getLast?, first.epochUs ≤ target ∧ target ≤ last.epochUs

theorem spans_iff {samples : List (StreamSample ℚ)} (hsorted : InTimeOrder samples) {target : ℤ} :
    Spans samples target ↔
      (∃ s ∈ samples, s.epochUs ≤ target) ∧ ∃ s ∈ samples, target ≤ s.epochUs := by
  constructor
  · rintro ⟨first, hfirst, last, hlast, hle, hge⟩
    exact ⟨⟨first, List.mem_of_mem_head? hfirst, hle⟩, last, List.mem_of_getLast? hlast, hge⟩
  · rintro ⟨⟨s, hs, hle⟩, s', hs', hge⟩
    have hne : samples ≠ [] := List.ne_nil_of_mem hs
    refine ⟨samples.head hne, List.head?_eq_some_head hne, samples.getLast hne,
      List.getLast?_eq_some_getLast hne, ?_, ?_⟩
    · obtain ⟨first, rest, rfl⟩ := List.exists_cons_of_ne_nil hne
      rcases List.mem_cons.1 hs with rfl | hs
      · exact hle
      · exact ((List.pairwise_cons.1 hsorted).1 s hs).trans hle
    · obtain ⟨front, last, rfl⟩ := List.eq_nil_or_concat' samples |>.resolve_left hne
      rw [List.getLast_append_singleton]
      rcases List.mem_append.1 hs' with hs' | hs'
      · exact hge.trans ((List.pairwise_append.1 hsorted).2.2 s' hs' last (List.mem_singleton_self _))
      · rwa [← List.mem_singleton.1 hs']

/-- What the linear strategy reports of a stream at a target. -/
structure LinearAt (stream : StreamRuntime ℚ) (samples : List (StreamSample ℚ)) (target : ℤ)
    (entry : StreamEntry ℚ) : Prop where
  method : entry.result.method = .linear
  matched_iff : entry.result.matched = true ↔ Spans samples target
  verbatim : (∃ s ∈ samples, s.epochUs = target) →
    ∃ s ∈ samples, s.epochUs = target ∧ entry.record = some s.record
  interpolated : entry.result.matched = true → (¬∃ s ∈ samples, s.epochUs = target) →
    ∃ front p q back record, samples = front ++ p :: q :: back ∧ p.epochUs < target ∧
      target < q.epochUs ∧ entry.record = some record ∧ InterpolatedRecord stream target p q record
  unmatched : entry.result.matched = false → entry.record = none

/-- What the strategy answers from around a target. -/
theorem StreamEntry.AnswersAt.linearAt {stream : StreamRuntime ℚ} {samples : List (StreamSample ℚ)}
    {target : ℤ} {entry : StreamEntry ℚ} (h : entry.AnswersAt stream samples target)
    (hstrategy : stream.strategy = .linear) (hsorted : InTimeOrder samples) :
    LinearAt stream samples target entry := by
  obtain ⟨-, cursor, outcome, hbrackets, halign, hresult⟩ := h
  rw [hstrategy] at halign
  change alignLinear cursor (stream.contextAt target) = _ at halign
  rw [alignLinear] at halign
  dsimp only at halign
  split at halign
  · -- The sample before carries the target.
    next _ _ sample hfilter =>
    obtain ⟨hprev, htarget⟩ := Option.filter_eq_some_iff.1 hfilter
    obtain ⟨hmem, -, -⟩ := hbrackets.prev hsorted hprev
    have htarget : sample.epochUs = target := of_decide_eq_true htarget
    obtain ⟨hrecord, rfl⟩ := Prod.mk.inj (Except.ok.inj halign)
    have hspans : Spans samples target :=
      (spans_iff hsorted).2 ⟨⟨sample, hmem, htarget.le⟩, sample, hmem, htarget.ge⟩
    refine ⟨hresult ▸ rfl, ⟨fun _ ↦ hspans, fun _ ↦ hresult ▸ rfl⟩,
      fun _ ↦ ⟨sample, hmem, htarget, hrecord.symm⟩, fun _ hnone ↦ absurd ⟨sample, hmem, htarget⟩ hnone,
      fun hunmatched ↦ ?_⟩
    rw [hresult] at hunmatched
    cases hunmatched
  · -- The pending sample lies after the target.
    next sample _ hfilter =>
    obtain ⟨hpending, htarget⟩ := Option.filter_eq_some_iff.1 hfilter
    obtain ⟨-, hlt, -⟩ := hbrackets.pending hsorted hpending
    exact absurd (of_decide_eq_true htarget) hlt.ne'
  · next hfilter _ =>
    have hnone : ¬∃ s ∈ samples, s.epochUs = target := by
      rintro ⟨s, hs, htarget⟩
      rcases hprev : cursor.prev with _ | p
      · exact absurd (hbrackets.prev_eq_none hprev s hs) (by omega)
      · obtain ⟨-, hle, hlast⟩ := hbrackets.prev hsorted hprev
        have hp : p.epochUs = target := le_antisymm hle (htarget ▸ hlast s hs htarget.le)
        exact Option.filter_eq_none_iff.1 hfilter p hprev (decide_eq_true hp)
    split at halign
    · next p q hprev hpending =>
      obtain ⟨hpmem, hple, -⟩ := hbrackets.prev hsorted hprev
      obtain ⟨hqmem, hlt, -⟩ := hbrackets.pending hsorted hpending
      have hplt : p.epochUs < target := lt_of_le_of_ne hple fun h ↦ hnone ⟨p, hpmem, h⟩
      obtain ⟨front, back, hsamples⟩ := hbrackets.adjacent hprev hpending
      obtain ⟨record, hmap, hret⟩ := bind_eq_ok_iff.1 halign
      obtain ⟨hrecord, rfl⟩ := Prod.mk.inj (Except.ok.inj hret)
      have hspans : Spans samples target :=
        (spans_iff hsorted).2 ⟨⟨p, hpmem, hple⟩, q, hqmem, hlt.le⟩
      refine ⟨hresult ▸ rfl, ⟨fun _ ↦ hspans, fun _ ↦ hresult ▸ rfl⟩, fun h ↦ absurd h hnone,
        fun _ _ ↦ ⟨front, p, q, back, record, hsamples, hplt, hlt, hrecord.symm,
          .of_mapM hplt hlt hmap⟩, fun hunmatched ↦ ?_⟩
      rw [hresult] at hunmatched
      cases hunmatched
    · next hmissing =>
      obtain ⟨hrecord, rfl⟩ := Prod.mk.inj (Except.ok.inj halign)
      have hout : ¬Spans samples target := by
        rw [spans_iff hsorted]
        rintro ⟨⟨s, hs, hle⟩, s', hs', hge⟩
        rcases hprev : cursor.prev with _ | p
        · exact absurd (hbrackets.prev_eq_none hprev s hs) (not_lt.2 hle)
        · rcases hpending : cursor.pending with _ | q
          · have hle' := hbrackets.pending_eq_none hpending s' hs'
            exact hnone ⟨s', hs', le_antisymm hle' hge⟩
          · exact hmissing p q hprev hpending
      refine ⟨hresult ▸ rfl, ⟨fun hmatched ↦ ?_, fun h ↦ absurd h hout⟩, fun h ↦ absurd h hnone,
        fun hmatched ↦ ?_, fun _ ↦ hrecord.symm⟩
      · rw [hresult] at hmatched
        cases hmatched
      · rw [hresult] at hmatched
        cases hmatched

/-- **Linear interpolation never extrapolates.** In a run over targets that do not go backward every
row carries, for a stream with the linear strategy, a match if and only if the target lies within the
stream: a sample verbatim where one carries the target, and otherwise the values between two adjacent
samples, strictly before and after it. If all streams can be aligned there is a row for each
target. -/
theorem linear_never_extrapolates (streams : List (StreamRuntime ℚ)) {targets : List (Target ℚ)}
    (htargets : TargetsInOrder targets) {j : ℕ} {stream : StreamRuntime ℚ}
    (hstream : streams[j]? = some stream) (hstrategy : stream.strategy = .linear)
    {samples : List (StreamSample ℚ)} (hcursor : stream.cursor = some (.ofSamples samples))
    (hsorted : InTimeOrder samples) :
    let rows := iterRows targets streams
    ((∀ s ∈ streams, s.CanAlign) → rows.raised = none ∧ rows.yields.length = targets.length) ∧
      List.Forall₂ (fun target row ↦ row.targetEpochUs = target.1 ∧ (stream.AlignsAt target →
        ∃ entry, row.entries[j]? = some entry ∧ entry.name = stream.name ∧
          LinearAt stream samples target.1 entry))
        (targets.take rows.yields.length) rows.yields := by
  refine ⟨iterRows_total targets, ?_⟩
  refine (iterRows_answered streams htargets hstream hcursor hsorted).imp fun target row h ↦ ?_
  refine ⟨h.1, fun haligns ↦ ?_⟩
  obtain ⟨entry, hentry, hanswers⟩ := h.2 haligns
  exact ⟨entry, hentry, hanswers.name, hanswers.linearAt hstrategy hsorted⟩

/-- Targets before the first sample, between two samples, at two samples of one timestamp, and after
the last one. -/
theorem linear_never_extrapolates_gauge :
    let targets : List (Target ℚ) := [(-9, none), (5, none), (10, none), (25, none), (44, none)]
    let rows := iterRows targets [gaugeStream .linear]
    ((∀ s ∈ [gaugeStream .linear], s.CanAlign) →
      rows.raised = none ∧ rows.yields.length = targets.length) ∧
      List.Forall₂ (fun target row ↦ row.targetEpochUs = target.1 ∧
        ((gaugeStream .linear).AlignsAt target → ∃ entry, row.entries[0]? = some entry ∧
          entry.name = (gaugeStream .linear).name ∧
          LinearAt (gaugeStream .linear) gaugeSamples target.1 entry))
        (targets.take rows.yields.length) rows.yields :=
  linear_never_extrapolates [gaugeStream .linear] (by unfold TargetsInOrder; decide) rfl rfl rfl
    (by unfold InTimeOrder gaugeSamples; decide)

end Synchronization

end ForgeData
