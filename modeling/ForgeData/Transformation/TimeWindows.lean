import ForgeData.Transformation.Windowing

/-!
# What the time-window iterator yields

Window `k` covers the rows whose timestamp lies in `[first + k * stride, first + k * stride +
duration)`, where `first` is the first row's timestamp. The iterator collects rows in a dictionary
and closes a window as soon as a row at or past its end has been seen; since timestamps do not
decrease, no later row belongs to a window that has been passed.

## The invariant

After the input `pre`, the dictionary holds exactly the rows of the windows that have not been
passed yet, and the windows yielded are exactly the nonempty ones that have been, by increasing
index. A dictionary without empty values is determined by the rows it holds under each index, so
everything is said through `rowsAt`.
-/

namespace ForgeData

open Python

variable {ρ : Type} {durationUs strideUs first : ℤ}

/-! ## The dictionary of open windows -/

/-- The rows collected under an index, none if the index is absent. -/
def rowsAt (openWindows : Dict ℤ (OpenRows ρ)) (k : ℤ) : List (RowItem ρ) :=
  ((openWindows.get? k).map Subtype.val).getD []

theorem rowsAt_empty (k : ℤ) : rowsAt (.empty : Dict ℤ (OpenRows ρ)) k = [] := rfl

theorem rowsAt_eq_nil_iff {d : Dict ℤ (OpenRows ρ)} {k : ℤ} : rowsAt d k = [] ↔ d.get? k = none := by
  rcases h : d.get? k with _ | ⟨rows, hrows⟩
  · simp [rowsAt, h]
  · simp [rowsAt, h, hrows]

theorem mem_keys_iff_rowsAt {d : Dict ℤ (OpenRows ρ)} {k : ℤ} : k ∈ d.keys ↔ rowsAt d k ≠ [] := by
  rw [Ne, rowsAt_eq_nil_iff, Dict.get?_eq_none_iff, not_not]

theorem rowsAt_erase (d : Dict ℤ (OpenRows ρ)) (k k' : ℤ) :
    rowsAt (d.erase k) k' = if k' = k then [] else rowsAt d k' := by
  rw [rowsAt, Dict.get?_erase]
  split <;> rfl

theorem rowsAt_appendRow (item : RowItem ρ) (d : Dict ℤ (OpenRows ρ)) (k k' : ℤ) :
    rowsAt (appendRow item d k) k' = if k' = k then rowsAt d k ++ [item] else rowsAt d k' := by
  rcases h : d.get? k with _ | rows
  · rw [appendRow, h]
    by_cases hk : k' = k <;> simp [rowsAt, hk, h]
  · rw [appendRow, h]
    by_cases hk : k' = k <;> simp [rowsAt, hk, h]

theorem rowsAt_foldl_appendRow (item : RowItem ρ) {indices : List ℤ} (hnd : indices.Nodup)
    (d : Dict ℤ (OpenRows ρ)) (k : ℤ) :
    rowsAt (indices.foldl (appendRow item) d) k
      = if k ∈ indices then rowsAt d k ++ [item] else rowsAt d k := by
  induction indices generalizing d with
  | nil => simp
  | cons i indices ih =>
    obtain ⟨hi, hnd⟩ := List.nodup_cons.1 hnd
    rw [List.foldl_cons, ih hnd, rowsAt_appendRow]
    by_cases hk : k = i
    · subst hk
      simp [hi]
    · simp [hk]

/-! ## Which windows cover a timestamp -/

theorem mem_windowsForTimestamp (hstride : 0 < strideUs) {relUs k : ℤ} :
    k ∈ windowsForTimestamp relUs durationUs strideUs ↔
      0 ≤ k ∧ k * strideUs ≤ relUs ∧ relUs < k * strideUs + durationUs := by
  simp only [windowsForTimestamp, List.mem_filter, mem_range, decide_eq_true_eq]
  refine ⟨fun h ↦ ⟨(le_max_left ..).trans h.1.1, h.2⟩, fun ⟨h0, hlo, hhi⟩ ↦ ⟨⟨?_, ?_⟩, hlo, hhi⟩⟩
  · exact max_le h0 (Int.ediv_lt_of_lt_mul hstride (by omega)).le
  · exact Int.lt_add_one_of_le (Int.le_ediv_of_mul_le hstride hlo)

theorem nodup_windowsForTimestamp (relUs : ℤ) :
    (windowsForTimestamp relUs durationUs strideUs).Nodup := (nodup_range ..).filter _

/-! ## Popping windows -/

/-- The four components of a window. -/
def WindowItem.toTuple (w : WindowItem ρ) : ℤ × ℤ × ℤ × List (RowItem ρ) :=
  (w.windowIndex, w.startEpochUs, w.endEpochUs, w.rows)

/-- Popping distinct indices that are all there yields their windows in that order. -/
theorem popWindows_snd {indices : List ℤ} (hnd : indices.Nodup) {d : Dict ℤ (OpenRows ρ)}
    (hmem : ∀ k ∈ indices, rowsAt d k ≠ []) :
    (popWindows durationUs strideUs first indices d).2.map WindowItem.toTuple
      = indices.map fun k ↦
        (k, first + k * strideUs, first + k * strideUs + durationUs, rowsAt d k) := by
  induction indices generalizing d with
  | nil => rfl
  | cons i indices ih =>
    obtain ⟨hi, hnd⟩ := List.nodup_cons.1 hnd
    rcases h : d.get? i with _ | rows
    · exact absurd (rowsAt_eq_nil_iff.2 h) (hmem i (List.mem_cons_self ..))
    · have hne {k : ℤ} (hk : k ∈ indices) : rowsAt (d.erase i) k = rowsAt d k := by
        rw [rowsAt_erase, if_neg (ne_of_mem_of_not_mem hk hi)]
      rw [popWindows, h]
      simp only [List.map_cons]
      rw [ih hnd fun k hk ↦ hne hk ▸ hmem k (List.mem_cons_of_mem _ hk)]
      refine congrArg₂ _ ?_ (List.map_congr_left fun k hk ↦ by rw [hne hk])
      simp [timeWindow, WindowItem.toTuple, rowsAt, h]

theorem rowsAt_popWindows_fst (indices : List ℤ) (d : Dict ℤ (OpenRows ρ)) (k : ℤ) :
    rowsAt (popWindows durationUs strideUs first indices d).1 k
      = if k ∈ indices then [] else rowsAt d k := by
  induction indices generalizing d with
  | nil => simp [popWindows]
  | cons i indices ih =>
    rcases h : d.get? i with _ | rows
    · rw [popWindows, h]
      simp only [ih, List.mem_cons]
      by_cases hk : k = i
      · subst hk
        simp [rowsAt_eq_nil_iff.2 h]
      · simp [hk]
    · rw [popWindows, h]
      simp only [ih, rowsAt_erase, List.mem_cons]
      by_cases hk : k = i <;> simp [hk]

theorem insertionSort_pairwise_lt {l : List ℤ} (hnd : l.Nodup) :
    (l.insertionSort (· ≤ ·)).Pairwise (· < ·) := by
  have hle := l.pairwise_insertionSort (· ≤ ·)
  have hnd' : (l.insertionSort (· ≤ ·)).Nodup := (l.perm_insertionSort (· ≤ ·)).nodup_iff.2 hnd
  exact hle.imp₂ (fun _ _ h hne ↦ lt_of_le_of_ne h hne) hnd'

/-! ## The invariant -/

/-- The rows of window `k`: those with a timestamp in its half-open interval, in source order. -/
def bucket (durationUs strideUs first : ℤ) (rows : List (RowItem ρ)) (k : ℤ) : List (RowItem ρ) :=
  rows.filter fun r ↦
    first + k * strideUs ≤ r.epochUs ∧ r.epochUs < first + k * strideUs + durationUs

/-- Some row lies at or past the end of window `k`. -/
def Passed (durationUs strideUs first : ℤ) (rows : List (RowItem ρ)) (k : ℤ) : Prop :=
  ∃ r ∈ rows, first + k * strideUs + durationUs ≤ r.epochUs

instance (rows : List (RowItem ρ)) (k : ℤ) : Decidable (Passed durationUs strideUs first rows k) :=
  inferInstanceAs (Decidable (∃ r ∈ rows, _))

/-- Window `k` as it should be yielded. -/
def windowSpec (durationUs strideUs first : ℤ) (rows : List (RowItem ρ)) (k : ℤ) :
    ℤ × ℤ × ℤ × List (RowItem ρ) :=
  (k, first + k * strideUs, first + k * strideUs + durationUs,
    bucket durationUs strideUs first rows k)

/-- The windows yielded are those with indices `ks`, by increasing index. -/
structure YieldsWindows (durationUs strideUs first : ℤ) (rows : List (RowItem ρ))
    (P : ℤ → Prop) (ys : List (WindowItem ρ)) : Prop where
  /-- The indices increase, and are the nonempty windows that satisfy `P`. -/
  indices : ∃ ks : List ℤ,
    ys.map WindowItem.toTuple = ks.map (windowSpec durationUs strideUs first rows) ∧
      ks.Pairwise (· < ·) ∧
      ∀ k, k ∈ ks ↔ 0 ≤ k ∧ bucket durationUs strideUs first rows k ≠ [] ∧ P k

/-- **The invariant** of the loop of `iter_time_windows`, after the input `pre`. -/
structure TimeInv (durationUs strideUs first : ℤ) (pre : List (RowItem ρ)) (s : TimeState ρ)
    (ys : List (WindowItem ρ)) : Prop where
  firstSeen : s.firstEpochUs = pre.head?.map fun _ ↦ first
  lastSeen : s.lastEpochUs = pre.getLast?.map RowItem.epochUs
  ordered : NondecreasingTime pre
  opened : ∀ k, rowsAt s.openWindows k
    = if 0 ≤ k ∧ ¬ Passed durationUs strideUs first pre k
      then bucket durationUs strideUs first pre k else []
  yields : YieldsWindows durationUs strideUs first pre (Passed durationUs strideUs first pre) ys

theorem TimeInv.init : TimeInv durationUs strideUs first ([] : List (RowItem ρ)) .init [] where
  firstSeen := rfl
  lastSeen := rfl
  ordered := List.Pairwise.nil
  opened := fun k ↦ by simp [TimeState.init, rowsAt_empty, bucket]
  yields := ⟨[], rfl, List.Pairwise.nil, fun k ↦ by simp [bucket]⟩

theorem bucket_concat (pre : List (RowItem ρ)) (item : RowItem ρ) (k : ℤ) :
    bucket durationUs strideUs first (pre ++ [item]) k
      = if first + k * strideUs ≤ item.epochUs ∧
          item.epochUs < first + k * strideUs + durationUs
        then bucket durationUs strideUs first pre k ++ [item]
        else bucket durationUs strideUs first pre k := by
  rw [bucket, List.filter_append]
  split <;> simp_all [bucket]

theorem bucket_concat_of_passed {pre : List (RowItem ρ)} {item : RowItem ρ} {k : ℤ}
    (hle : ∀ r ∈ pre, r.epochUs ≤ item.epochUs) (hk : Passed durationUs strideUs first pre k) :
    bucket durationUs strideUs first (pre ++ [item]) k
      = bucket durationUs strideUs first pre k := by
  obtain ⟨r, hr, hend⟩ := hk
  rw [bucket_concat, if_neg fun h ↦ by have := hle r hr; omega]

theorem passed_concat_iff {pre : List (RowItem ρ)} {item : RowItem ρ} {k : ℤ}
    (hle : ∀ r ∈ pre, r.epochUs ≤ item.epochUs) :
    Passed durationUs strideUs first (pre ++ [item]) k ↔
      first + k * strideUs + durationUs ≤ item.epochUs := by
  constructor
  · rintro ⟨r, hr, hend⟩
    rcases List.mem_append.1 hr with hr | hr
    · exact hend.trans (hle r hr)
    · rwa [← List.mem_singleton.1 hr]
  · exact fun h ↦ ⟨item, by simp, h⟩

theorem lt_of_passed (hstride : 0 < strideUs) {rows : List (RowItem ρ)} {j k : ℤ}
    (hj : Passed durationUs strideUs first rows j) (hk : ¬ Passed durationUs strideUs first rows k) :
    j < k := by
  by_contra hjk
  obtain ⟨r, hr, hend⟩ := hj
  have hmul : k * strideUs ≤ j * strideUs := Int.mul_le_mul_of_nonneg_right (by omega) hstride.le
  exact hk ⟨r, hr, by omega⟩

/-- Yielding further windows, all of which lie after the ones already yielded. -/
theorem YieldsWindows.append {pre rows : List (RowItem ρ)} {P Q : ℤ → Prop}
    {ys zs : List (WindowItem ρ)} (hstride : 0 < strideUs)
    (h : YieldsWindows durationUs strideUs first pre (Passed durationUs strideUs first pre) ys)
    (hbucket : ∀ k, Passed durationUs strideUs first pre k →
      bucket durationUs strideUs first rows k = bucket durationUs strideUs first pre k)
    {ks : List ℤ} (hzs : zs.map WindowItem.toTuple = ks.map (windowSpec durationUs strideUs first rows))
    (hks : ks.Pairwise (· < ·))
    (hmem : ∀ k, k ∈ ks ↔ 0 ≤ k ∧ bucket durationUs strideUs first rows k ≠ [] ∧
      ¬ Passed durationUs strideUs first pre k ∧ P k)
    (hQ : ∀ k, Q k ↔ Passed durationUs strideUs first pre k ∨ P k) :
    YieldsWindows durationUs strideUs first rows Q (ys ++ zs) := by
  obtain ⟨js, hys, hjs, hmemj⟩ := h.indices
  refine ⟨js ++ ks, ?_, ?_, fun k ↦ ?_⟩
  · rw [List.map_append, List.map_append, hys, hzs]
    refine congrArg (· ++ _) (List.map_congr_left fun k hk ↦ ?_)
    rw [windowSpec, windowSpec, hbucket k ((hmemj k).1 hk).2.2]
  · exact List.pairwise_append.2 ⟨hjs, hks, fun j hj k hk ↦
      lt_of_passed hstride ((hmemj j).1 hj).2.2 ((hmem k).1 hk).2.2.1⟩
  · rw [List.mem_append, hmemj, hmem, hQ]
    by_cases hk : Passed durationUs strideUs first pre k
    · simp [hk, hbucket k hk]
    · simp [hk]

/-- What the dictionary holds once the newest row has been added to the windows that cover it. -/
theorem TimeInv.rowsAt_collectRow (hstride : 0 < strideUs) {pre : List (RowItem ρ)}
    {s : TimeState ρ} {ys : List (WindowItem ρ)} {item : RowItem ρ}
    (h : TimeInv durationUs strideUs first pre s ys)
    (hle : ∀ r ∈ pre, r.epochUs ≤ item.epochUs) (k : ℤ) :
    rowsAt (collectRow durationUs strideUs first item s.openWindows) k
      = if 0 ≤ k ∧ ¬ Passed durationUs strideUs first pre k
        then bucket durationUs strideUs first (pre ++ [item]) k else [] := by
  have hcover : k ∈ windowsForTimestamp (item.epochUs - first) durationUs strideUs ↔ 0 ≤ k ∧
      first + k * strideUs ≤ item.epochUs ∧
      item.epochUs < first + k * strideUs + durationUs := by
    rw [mem_windowsForTimestamp hstride]
    omega
  simp only [collectRow, rowsAt_foldl_appendRow item (nodup_windowsForTimestamp _), hcover,
    h.opened, bucket_concat]
  by_cases hk : 0 ≤ k ∧ ¬ Passed durationUs strideUs first pre k
  · simp [hk]
  · have hout : ¬ (0 ≤ k ∧ first + k * strideUs ≤ item.epochUs ∧
        item.epochUs < first + k * strideUs + durationUs) := fun ⟨h0, hlo, hhi⟩ ↦
      hk ⟨h0, fun ⟨r, hr, hend⟩ ↦ by have := hle r hr; omega⟩
    rw [if_neg hk, if_neg hk, if_neg hout]

theorem mem_sortedCloseable {relUs k : ℤ} {d : Dict ℤ (OpenRows ρ)} :
    k ∈ sortedCloseable durationUs strideUs relUs d ↔
      rowsAt d k ≠ [] ∧ k * strideUs + durationUs ≤ relUs := by
  rw [sortedCloseable, List.mem_insertionSort, List.mem_filter, mem_keys_iff_rowsAt,
    decide_eq_true_eq]

theorem pairwise_sortedCloseable {relUs : ℤ} {d : Dict ℤ (OpenRows ρ)} :
    (sortedCloseable durationUs strideUs relUs d).Pairwise (· < ·) :=
  insertionSort_pairwise_lt (d.keys_nodup.filter _)

/-- **The step lemma**: one pass through the loop body preserves the invariant. -/
theorem TimeInv.step (hstride : 0 < strideUs) {pre : List (RowItem ρ)} {s s' : TimeState ρ}
    {ys out : List (WindowItem ρ)} {item : RowItem ρ}
    (hfirst : s.firstEpochUs.getD item.epochUs = first)
    (h : TimeInv durationUs strideUs first pre s ys)
    (hstep : timeStep durationUs strideUs s item = .ok (s', out)) :
    TimeInv durationUs strideUs first (pre ++ [item]) s' (ys ++ out) := by
  obtain ⟨hlast, hadv⟩ := map_checkRowOrder_eq_ok_iff.1 hstep
  have hordered := h.ordered.concat item (h.lastSeen ▸ hlast)
  have hle : ∀ r ∈ pre, r.epochUs ≤ item.epochUs := fun r hr ↦
    (List.pairwise_append.1 hordered).2.2 r hr item (List.mem_singleton_self item)
  -- a window passed by an earlier row is passed by this one, as the times do not decrease
  have hpassed : ∀ k, Passed durationUs strideUs first pre k →
      first + k * strideUs + durationUs ≤ item.epochUs :=
    fun k ⟨r, hr, hend⟩ ↦ hend.trans (hle r hr)
  have hopen := h.rowsAt_collectRow hstride hle
  simp only [timeAdvance, hfirst] at hadv
  obtain ⟨rfl, rfl⟩ := Prod.mk.inj hadv
  clear hadv hstep
  generalize collectRow durationUs strideUs first item s.openWindows = d at hopen
  -- the windows closed now: not empty, not passed before, and ended at the time of the row
  have hcl : ∀ k, k ∈ sortedCloseable durationUs strideUs (item.epochUs - first) d ↔ 0 ≤ k ∧
      bucket durationUs strideUs first (pre ++ [item]) k ≠ [] ∧
      ¬ Passed durationUs strideUs first pre k ∧
      first + k * strideUs + durationUs ≤ item.epochUs := fun k ↦ by
    have hrel : k * strideUs + durationUs ≤ item.epochUs - first ↔
        first + k * strideUs + durationUs ≤ item.epochUs := by omega
    rw [mem_sortedCloseable, hopen, hrel]
    by_cases hk : 0 ≤ k ∧ ¬ Passed durationUs strideUs first pre k
    · simp [hk]
    · rw [if_neg hk]
      exact ⟨fun h' ↦ absurd rfl h'.1, fun h' ↦ absurd ⟨h'.1, h'.2.2.1⟩ hk⟩
  exact {
    firstSeen := by rcases pre <;> rfl
    lastSeen := by simp
    ordered := hordered
    opened := fun k ↦ by
      simp only [rowsAt_popWindows_fst, hcl, hopen, passed_concat_iff hle]
      by_cases hend : first + k * strideUs + durationUs ≤ item.epochUs
      · by_cases hk : 0 ≤ k ∧ ¬ Passed durationUs strideUs first pre k
        · by_cases hb : bucket durationUs strideUs first (pre ++ [item]) k = [] <;>
            simp [hk, hb, hend]
        · simp [hk, hend]
      · simp [hend, mt (hpassed k) hend]
    yields := by
      refine h.yields.append hstride (fun k ↦ bucket_concat_of_passed hle) ?_
        pairwise_sortedCloseable hcl fun k ↦ ?_
      · rw [popWindows_snd (pairwise_sortedCloseable.imp ne_of_lt)
          fun k hk ↦ (mem_sortedCloseable.1 hk).1]
        refine List.map_congr_left fun k hk ↦ ?_
        obtain ⟨h0, -, hp, -⟩ := (hcl k).1 hk
        rw [hopen, if_pos ⟨h0, hp⟩, windowSpec]
      · rw [passed_concat_iff hle]
        exact ⟨.inr, fun h' ↦ h'.elim (hpassed k) id⟩ }

/-! ## Whole runs -/

/-- The first row's timestamp, from which the windows are counted. -/
def firstEpoch (rows : List (RowItem ρ)) : ℤ := (rows.head?.map RowItem.epochUs).getD 0

/-- The windows still open at the end follow those already yielded. -/
theorem TimeInv.finish (hstride : 0 < strideUs) {rows : List (RowItem ρ)} {s : TimeState ρ}
    {ys : List (WindowItem ρ)}
    (h : TimeInv durationUs strideUs (firstEpoch rows) rows s ys) (dropIncomplete : Bool) :
    YieldsWindows durationUs strideUs (firstEpoch rows) rows
      (fun k ↦ dropIncomplete = true → Passed durationUs strideUs (firstEpoch rows) rows k)
      (ys ++ timeFinish durationUs strideUs dropIncomplete s) := by
  cases dropIncomplete with
  | true => simpa [timeFinish] using h.yields
  | false =>
    have hfirst : s.firstEpochUs.getD 0 = firstEpoch rows := by
      rw [h.firstSeen, firstEpoch]
      rcases rows <;> rfl
    -- at the end the windows still open are those that no row has passed
    have hmem : ∀ k, k ∈ s.openWindows.keys.insertionSort (· ≤ ·) ↔ 0 ≤ k ∧
        bucket durationUs strideUs (firstEpoch rows) rows k ≠ [] ∧
        ¬ Passed durationUs strideUs (firstEpoch rows) rows k ∧ True := fun k ↦ by
      rw [List.mem_insertionSort, mem_keys_iff_rowsAt, h.opened]
      by_cases hk : 0 ≤ k ∧ ¬ Passed durationUs strideUs (firstEpoch rows) rows k
      · simp [hk]
      · rw [if_neg hk]
        exact ⟨fun h' ↦ absurd rfl h', fun h' ↦ absurd ⟨h'.1, h'.2.2.1⟩ hk⟩
    have hsorted := insertionSort_pairwise_lt s.openWindows.keys_nodup
    refine h.yields.append hstride (fun _ _ ↦ rfl) ?_ hsorted hmem fun k ↦ by simp
    rw [timeFinish, if_neg Bool.false_ne_true, hfirst, popWindows_snd (hsorted.imp ne_of_lt)
      fun k hk ↦ mem_keys_iff_rowsAt.1 ((List.mem_insertionSort _).1 hk)]
    refine List.map_congr_left fun k hk ↦ ?_
    obtain ⟨h0, -, hp, -⟩ := (hmem k).1 hk
    rw [h.opened, if_pos ⟨h0, hp⟩, windowSpec]

/-- The loop either yields exactly the nonempty windows, or stops at a timestamp that decreases. -/
theorem iterTimeWindows_cases (rows : List (RowItem ρ)) (hduration : 0 < durationUs)
    (hstride : 0 < strideUs) (dropIncomplete : Bool) :
    (∃ ws, iterTimeWindows rows durationUs strideUs dropIncomplete = ⟨ws, none⟩ ∧
        NondecreasingTime rows ∧
        YieldsWindows durationUs strideUs (firstEpoch rows) rows
          (fun k ↦ dropIncomplete = true → Passed durationUs strideUs (firstEpoch rows) rows k)
          ws) ∨
      (¬ NondecreasingTime rows ∧ ∃ ys message,
        iterTimeWindows rows durationUs strideUs dropIncomplete
          = ⟨ys, some (.nonMonotonicRowOrder message)⟩) := by
  rw [iterTimeWindows, if_neg (by omega), if_neg (by omega)]
  -- the first time is known only from the first row on, so the invariant holds for any before
  let I (pre : List (RowItem ρ)) (s : TimeState ρ) (ys : List (WindowItem ρ)) : Prop :=
    ∀ first, (∀ r ∈ pre.head?, first = r.epochUs) → TimeInv durationUs strideUs first pre s ys
  have hI {pre s ys a s' out} (h : I pre s ys)
      (hstep : timeStep durationUs strideUs s a = .ok (s', out)) :
      I (pre ++ [a]) s' (ys ++ out) := fun first hfirst ↦ by
    cases pre with
    | nil =>
      have hs := h first (by simp)
      exact hs.step hstride (by rw [hs.firstSeen]; exact (hfirst a rfl).symm) hstep
    | cons r pre =>
      have hs := h first (by simpa using hfirst r rfl)
      exact hs.step hstride (by rw [hs.firstSeen]; rfl) hstep
  have hfirst (pre : List (RowItem ρ)) : ∀ r ∈ pre.head?, firstEpoch pre = r.epochUs :=
    fun r hr ↦ by rw [firstEpoch, hr]; rfl
  have hinit : I [] .init [] := fun first _ ↦ .init
  rcases Gen.loop_cases hI hinit rows with
    ⟨s, ys, h, hloop⟩ | ⟨pre, item, rest, s, ys, e, rfl, h, herr, hloop⟩
  · have hs := h _ (hfirst rows)
    exact .inl ⟨_, hloop, hs.ordered, hs.finish hstride dropIncomplete⟩
  · refine .inr ⟨fun hmono ↦ ?_, ?_⟩
    -- only the check of the order raises
    swap
    · rw [timeStep] at herr
      rcases hcheck : checkRowOrder s.lastEpochUs item with e' | u
      · rw [hcheck] at herr
        cases herr
        obtain ⟨message, rfl⟩ := exists_of_checkRowOrder_eq_error hcheck
        exact ⟨ys, message, hloop⟩
      · rw [hcheck] at herr
        cases herr
    have hok : ∀ t, s.lastEpochUs = some t → t ≤ item.epochUs := fun t ht ↦ by
      rw [(h _ (hfirst pre)).lastSeen, Option.map_eq_some_iff] at ht
      obtain ⟨x, hx, rfl⟩ := ht
      exact (List.pairwise_append.1 hmono).2.2 x (List.mem_of_getLast? hx) item
        (List.mem_cons_self ..)
    rw [timeStep, (checkRowOrder_eq_ok_iff (u := ())).2 hok] at herr
    cases herr

/-! ## The specification -/

/-- Some timestamp is smaller than the one right before it. -/
def TimeDecreases (rows : List (RowItem ρ)) : Prop :=
  ∃ pre a b post, rows = pre ++ a :: b :: post ∧ b.epochUs < a.epochUs

/-- The last row's timestamp. -/
def finalEpoch (rows : List (RowItem ρ)) : ℤ := (rows.getLast?.map RowItem.epochUs).getD 0

/-- It is enough to compare neighbours. -/
theorem nondecreasingTime_iff {rows : List (RowItem ρ)} :
    NondecreasingTime rows ↔ ¬ TimeDecreases rows := by
  constructor
  · rintro hmono ⟨pre, a, b, post, rfl, hlt⟩
    have htail := (List.pairwise_append.1 hmono).2.1
    have hle := (List.pairwise_cons.1 htail).1 b List.mem_cons_self
    omega
  · intro hsteps
    have htrans : IsTrans (RowItem ρ) fun a b ↦ a.epochUs ≤ b.epochUs :=
      ⟨fun _ _ _ hab hbc ↦ hab.trans hbc⟩
    apply List.isChain_iff_pairwise.1
    rw [List.isChain_iff_getElem]
    intro i hi
    by_contra hlt
    refine hsteps ⟨rows.take i, rows[i], rows[i + 1], rows.drop (i + 2), ?_, not_le.1 hlt⟩
    rw [List.getElem_cons_drop, List.getElem_cons_drop, List.take_append_drop]

theorem passed_iff_le_finalEpoch {rows : List (RowItem ρ)} (hmono : NondecreasingTime rows)
    (hrows : rows ≠ []) (k : ℤ) :
    Passed durationUs strideUs first rows k ↔
      first + k * strideUs + durationUs ≤ finalEpoch rows := by
  obtain ⟨pre, item, rfl⟩ := (List.eq_nil_or_concat' rows).resolve_left hrows
  have hle : ∀ r ∈ pre, r.epochUs ≤ item.epochUs := fun r hr ↦
    (List.pairwise_append.1 hmono).2.2 r hr item (List.mem_singleton_self item)
  rw [passed_concat_iff hle, finalEpoch, List.getLast?_concat]
  rfl

theorem YieldsWindows.congr {rows : List (RowItem ρ)} {P Q : ℤ → Prop} {ys : List (WindowItem ρ)}
    (h : YieldsWindows durationUs strideUs first rows P ys)
    (hPQ : ∀ k, bucket durationUs strideUs first rows k ≠ [] → (P k ↔ Q k)) :
    YieldsWindows durationUs strideUs first rows Q ys := by
  obtain ⟨ks, hys, hks, hmem⟩ := h.indices
  refine ⟨ks, hys, hks, fun k ↦ ?_⟩
  rw [hmem k]
  exact and_congr_right fun _ ↦ and_congr_right fun hk ↦ hPQ k hk

/-- **Time windows meet their specification.** The iterator raises exactly if a timestamp decreases.
Otherwise it yields, by increasing index, the windows that contain a row, each with its rows in
source order; if incomplete windows are dropped, only those that end by the time of the last row. -/
theorem iterTimeWindows_exact (rows : List (RowItem ρ)) (hduration : 0 < durationUs)
    (hstride : 0 < strideUs) (dropIncomplete : Bool) :
    (TimeDecreases rows → ∃ message, (iterTimeWindows rows durationUs strideUs dropIncomplete).raised
        = some (.nonMonotonicRowOrder message)) ∧
      (¬ TimeDecreases rows →
        (iterTimeWindows rows durationUs strideUs dropIncomplete).raised = none ∧
        YieldsWindows durationUs strideUs (firstEpoch rows) rows
          (fun k ↦ dropIncomplete = true →
            k * strideUs + durationUs ≤ finalEpoch rows - firstEpoch rows)
          (iterTimeWindows rows durationUs strideUs dropIncomplete).yields) := by
  rcases iterTimeWindows_cases rows hduration hstride dropIncomplete with
    ⟨ws, heq, hmono, hws⟩ | ⟨hmono, ys, message, heq⟩
  · refine ⟨fun hdecreases ↦ absurd hdecreases (nondecreasingTime_iff.1 hmono), fun _ ↦ ?_⟩
    rw [heq]
    refine ⟨rfl, hws.congr fun k hk ↦ ?_⟩
    have hrows : rows ≠ [] := by
      rintro rfl
      exact hk rfl
    rw [passed_iff_le_finalEpoch hmono hrows]
    constructor
    · intro h hdrop
      have := h hdrop
      omega
    · intro h hdrop
      have := h hdrop
      omega
  · rw [nondecreasingTime_iff, not_not] at hmono
    rw [heq]
    exact ⟨fun _ ↦ ⟨message, rfl⟩, fun hkeeps ↦ absurd hmono hkeeps⟩

/-- Four rows half a second apart, windows of a second: a row on a boundary opens the next window. -/
theorem iterTimeWindows_exact_boundary :
    let rows : List (RowItem Unit) :=
      [⟨0, 0, ()⟩, ⟨1, 500000, ()⟩, ⟨2, 1000000, ()⟩, ⟨3, 1500000, ()⟩]
    (TimeDecreases rows → ∃ message,
        (iterTimeWindows rows 1000000 1000000 true).raised = some (.nonMonotonicRowOrder message)) ∧
      (¬ TimeDecreases rows → (iterTimeWindows rows 1000000 1000000 true).raised = none ∧
        YieldsWindows 1000000 1000000 (firstEpoch rows) rows
          (fun k ↦ true = true → k * 1000000 + 1000000 ≤ finalEpoch rows - firstEpoch rows)
          (iterTimeWindows rows 1000000 1000000 true).yields) :=
  iterTimeWindows_exact _ (by decide) (by decide) true

/-! ## Order of the windows yielded -/

/-- Of two nonempty windows the earlier one starts no later in the source: a row of the later
window that came before the first row of the earlier one would belong to the earlier one. -/
theorem bucket_head_le {rows : List (RowItem ρ)} (hrows : IncreasingIndices rows)
    (hmono : NondecreasingTime rows) (hstride : 0 < strideUs) {j k : ℤ} (hjk : j ≤ k)
    (hj : bucket durationUs strideUs first rows j ≠ [])
    (hk : bucket durationUs strideUs first rows k ≠ []) :
    ((bucket durationUs strideUs first rows j).head hj).rowIndex
      ≤ ((bucket durationUs strideUs first rows k).head hk).rowIndex := by
  have hmul : j * strideUs ≤ k * strideUs := Int.mul_le_mul_of_nonneg_right hjk hstride.le
  generalize ha : (bucket durationUs strideUs first rows j).head hj = a
  generalize hb : (bucket durationUs strideUs first rows k).head hk = b
  have haj : a ∈ bucket durationUs strideUs first rows j := ha ▸ List.head_mem hj
  have hbk : b ∈ bucket durationUs strideUs first rows k := hb ▸ List.head_mem hk
  simp only [bucket, List.mem_filter, decide_eq_true_eq] at haj hbk
  by_contra hlt
  -- `b` precedes `a` in the source, so its timestamp is at most that of `a`.
  have hab : b.epochUs ≤ a.epochUs := by
    obtain ⟨i, hi, rfl⟩ := List.getElem_of_mem haj.1
    obtain ⟨i', hi', rfl⟩ := List.getElem_of_mem hbk.1
    rcases Nat.lt_trichotomy i' i with h | rfl | h
    · exact List.pairwise_iff_getElem.1 hmono i' i hi' hi h
    · exact le_refl _
    · exact absurd (List.pairwise_iff_getElem.1 hrows i i' hi hi' h) (by omega)
  have hbj : b ∈ bucket durationUs strideUs first rows j := by
    simp only [bucket, List.mem_filter, decide_eq_true_eq]
    exact ⟨hbk.1, by omega, by omega⟩
  have hle := IncreasingIndices.head_le (List.Pairwise.sublist List.filter_sublist hrows) hj hbj
  exact hlt (ha ▸ hle)

/-- Time windows arrive ordered by their first row. -/
theorem iterTimeWindows_ordered {rows : List (RowItem ρ)} (hrows : IncreasingIndices rows)
    (hduration : 0 < durationUs) (hstride : 0 < strideUs) {dropIncomplete : Bool}
    (hraised : (iterTimeWindows rows durationUs strideUs dropIncomplete).raised = none) :
    OrderedWindows (iterTimeWindows rows durationUs strideUs dropIncomplete).yields := by
  rcases iterTimeWindows_cases rows hduration hstride dropIncomplete with
    ⟨ws, heq, hmono, hws⟩ | ⟨-, ys, e, heq⟩
  · rw [heq]
    obtain ⟨ks, htuples, hks, -⟩ := hws.indices
    have hrowsOf {i : ℕ} (hi : i < ws.length) : ∃ hi' : i < ks.length,
        ws[i].rows = bucket durationUs strideUs (firstEpoch rows) rows ks[i] := by
      have hlen : ws.length = ks.length := by simpa using congrArg List.length htuples
      refine ⟨hlen ▸ hi, ?_⟩
      have := congrArg (fun l ↦ (l[i]?).map fun t ↦ t.2.2.2) htuples
      simpa [hi, hlen ▸ hi, WindowItem.toTuple, windowSpec] using this
    refine ⟨List.pairwise_iff_getElem.2 fun i j hi hj hij ↦ ?_, fun w hw ↦ ?_⟩
    · obtain ⟨hi', hrowsi⟩ := hrowsOf hi
      obtain ⟨hj', hrowsj⟩ := hrowsOf hj
      simp only [WindowItem.firstRow, hrowsi, hrowsj]
      exact bucket_head_le hrows hmono hstride
        (List.pairwise_iff_getElem.1 hks i j hi' hj' hij).le _ _
    · obtain ⟨i, hi, rfl⟩ := List.getElem_of_mem hw
      obtain ⟨hi', hrowsi⟩ := hrowsOf hi
      exact WindowItem.first_le_last hrows (hrowsi ▸ List.filter_sublist)
  · rw [heq] at hraised
    cases hraised

end ForgeData
