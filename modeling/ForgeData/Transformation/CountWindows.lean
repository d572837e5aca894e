import ForgeData.Transformation.Windowing

/-!
# What the count-window iterator yields

Window `k` covers the rows `[k * stride, k * stride + size)`. The iterator only keeps a short
buffer, and when `stride > size` it skips rows between windows, so what it has buffered is described
relative to the whole input consumed so far: after `n` rows and `m` windows

* the buffer is the input without its first `m * stride` rows,
* the number of rows still to be skipped is `m * stride - n`,
* window `m` is not complete yet, and all earlier ones are.
-/

namespace ForgeData

open Python

variable {ρ : Type} {size stride : ℕ}

/-- The rows `[k * stride, k * stride + size)`. -/
def windowRows (rows : List (RowItem ρ)) (size stride k : ℕ) : List (RowItem ρ) :=
  (rows.drop (k * stride)).take size

/-- **The invariant** of the loop of `iter_count_windows`, after the input `pre`. -/
structure CountInv (size stride : ℕ) (pre : List (RowItem ρ)) (s : CountState ρ)
    (ys : List (WindowItem ρ)) : Prop where
  last : s.lastEpochUs = pre.getLast?.map RowItem.epochUs
  ordered : NondecreasingTime pre
  buffer : s.buffer = pre.drop (s.windowIndex * stride)
  skip : s.skipRemaining = s.windowIndex * stride - pre.length
  pending : pre.length < s.windowIndex * stride + size
  full : ∀ k < s.windowIndex, k * stride + size ≤ pre.length
  yields : ys.map (fun w ↦ (w.windowIndex, w.rows))
    = (List.range s.windowIndex).map fun k : ℕ ↦ ((k : ℤ), windowRows pre size stride k)

theorem CountInv.init (hsize : 0 < size) : CountInv size stride ([] : List (RowItem ρ)) .init [] where
  last := rfl
  ordered := List.Pairwise.nil
  buffer := by simp [CountState.init]
  skip := by simp [CountState.init]
  pending := by simpa [CountState.init] using hsize
  full := fun k hk ↦ absurd hk (Nat.not_lt_zero k)
  yields := rfl

theorem windowRows_append {pre : List (RowItem ρ)} {k : ℕ} (hk : k * stride + size ≤ pre.length)
    (more : List (RowItem ρ)) :
    windowRows (pre ++ more) size stride k = windowRows pre size stride k := by
  rw [windowRows, windowRows, List.drop_append_of_le_length (by omega),
    List.take_append_of_le_length (by rw [List.length_drop]; omega)]

theorem map_windowRows_append {pre : List (RowItem ρ)} {m : ℕ}
    (h : ∀ k < m, k * stride + size ≤ pre.length) (more : List (RowItem ρ)) :
    ((List.range m).map fun k : ℕ ↦ ((k : ℤ), windowRows (pre ++ more) size stride k))
      = (List.range m).map fun k : ℕ ↦ ((k : ℤ), windowRows pre size stride k) :=
  List.map_congr_left fun k hk ↦ by rw [windowRows_append (h k (List.mem_range.1 hk))]

/-- **The step lemma**: one pass through the loop body preserves the invariant. -/
theorem CountInv.step (hsize : 0 < size) (hstride : 0 < stride)
    {pre : List (RowItem ρ)} {s s' : CountState ρ} {ys out : List (WindowItem ρ)}
    {item : RowItem ρ} (h : CountInv size stride pre s ys)
    (hstep : countStep size stride s item = .ok (s', out)) :
    CountInv size stride (pre ++ [item]) s' (ys ++ out) := by
  obtain ⟨hlast, hadv⟩ := map_checkRowOrder_eq_ok_iff.1 hstep
  have hordered := h.ordered.concat item (h.last ▸ hlast)
  have hskip := h.skip
  have hpending := h.pending
  have hlen : (pre ++ [item]).length = pre.length + 1 := by simp
  have hyields := h.yields.trans (map_windowRows_append h.full [item]).symm
  by_cases hpos : 0 < s.skipRemaining
  · -- The row lies in the gap before window `m`.
    rw [countAdvance, if_pos hpos] at hadv
    obtain ⟨rfl, rfl⟩ := Prod.mk.inj hadv
    exact {
      last := by simp
      ordered := hordered
      buffer := by
        dsimp only
        rw [h.buffer, List.drop_eq_nil_of_le (by omega), List.drop_eq_nil_of_le (by omega)]
      skip := by dsimp only; omega
      pending := by dsimp only; omega
      full := fun k hk ↦ by rw [hlen]; have := h.full k hk; omega
      yields := by simpa using hyields }
  have hbuffer : s.buffer ++ [item] = (pre ++ [item]).drop (s.windowIndex * stride) := by
    rw [h.buffer, List.drop_append_of_le_length (by omega)]
  have hbufferLen : (s.buffer ++ [item]).length = pre.length + 1 - s.windowIndex * stride := by
    rw [hbuffer, List.length_drop, hlen]
  by_cases hfull : (s.buffer ++ [item]).length = size
  · -- The row completes window `m`.
    rw [countAdvance, if_neg hpos, if_pos hfull] at hadv
    obtain ⟨rfl, rfl⟩ := Prod.mk.inj hadv
    have hmul : (s.windowIndex + 1) * stride = s.windowIndex * stride + stride := by
      rw [Nat.add_mul, Nat.one_mul]
    exact {
      last := by simp
      ordered := hordered
      buffer := by
        dsimp only
        rw [hbuffer, List.drop_drop, hmul]
        rcases Nat.le_total stride size with hle | hle
        · rw [Nat.min_eq_left hle]
        · rw [Nat.min_eq_right hle, List.drop_eq_nil_of_le (by omega),
            List.drop_eq_nil_of_le (by omega)]
      skip := by
        dsimp only
        rw [hmul, hlen]
        split <;> omega
      pending := by dsimp only; rw [hlen, hmul]; omega
      full := fun k hk ↦ by
        rw [hlen]
        rcases Nat.lt_succ_iff_lt_or_eq.1 hk with hk | rfl
        · have := h.full k hk
          omega
        · omega
      yields := by
        rw [List.map_append, hyields, List.range_succ, List.map_append]
        refine congrArg _ ?_
        simp only [List.map_cons, List.map_nil, bufferWindow, windowRows]
        rw [hbuffer, List.take_of_length_le (by rw [← hbuffer]; omega)] }
  · -- Window `m` needs more rows.
    rw [countAdvance, if_neg hpos, if_neg hfull] at hadv
    obtain ⟨rfl, rfl⟩ := Prod.mk.inj hadv
    exact {
      last := by simp
      ordered := hordered
      buffer := hbuffer
      skip := by dsimp only; omega
      pending := by dsimp only; omega
      full := fun k hk ↦ by rw [hlen]; have := h.full k hk; omega
      yields := by simpa using hyields }

/-- The loop either runs to its end, with the invariant, or stops at a timestamp that decreases. -/
theorem iterCountWindows_cases (rows : List (RowItem ρ)) {size stride : ℤ} (hsize : 0 < size)
    (hstride : 0 < stride) (dropIncomplete : Bool) :
    (∃ s ys, CountInv size.toNat stride.toNat rows s ys ∧
        iterCountWindows rows size stride dropIncomplete
          = ⟨ys ++ countFinish dropIncomplete s, none⟩) ∨
      (¬ NondecreasingTime rows ∧
        ∃ ys e, iterCountWindows rows size stride dropIncomplete = ⟨ys, some e⟩) := by
  have hsize' : 0 < size.toNat := by omega
  have hstride' : 0 < stride.toNat := by omega
  rw [iterCountWindows, if_neg (by omega), if_neg (by omega)]
  rcases Gen.loop_cases (CountInv.step hsize' hstride') (CountInv.init hsize') rows with
    ⟨s, ys, h, hloop⟩ | ⟨pre, item, rest, s, ys, e, rfl, h, herr, hloop⟩
  · exact .inl ⟨s, ys, h, hloop⟩
  · refine .inr ⟨fun hmono ↦ ?_, ys, e, hloop⟩
    have hok : ∀ t, s.lastEpochUs = some t → t ≤ item.epochUs := fun t ht ↦ by
      rw [h.last, Option.map_eq_some_iff] at ht
      obtain ⟨x, hx, rfl⟩ := ht
      exact (List.pairwise_append.1 hmono).2.2 x (List.mem_of_getLast? hx) item
        (List.mem_cons_self ..)
    rw [countStep, (checkRowOrder_eq_ok_iff (u := ())).2 hok] at herr
    cases herr

/-! ## The windows yielded, exactly -/

/-- The partial window at the end of the stream, after `m` full windows: what is left of the rows
from row `m * stride` on, unless incomplete windows are dropped. -/
def partialWindow (rows : List (RowItem ρ)) (stride m : ℕ) (dropIncomplete : Bool) :
    List (ℤ × List (RowItem ρ)) :=
  if rows.drop (m * stride) ≠ [] ∧ dropIncomplete = false then [(m, rows.drop (m * stride))] else []

theorem CountInv.full_iff {rows : List (RowItem ρ)} {s : CountState ρ} {ys : List (WindowItem ρ)}
    (h : CountInv size stride rows s ys) (k : ℕ) :
    k < s.windowIndex ↔ k * stride + size ≤ rows.length := by
  constructor
  · exact h.full k
  · intro hfits
    by_contra hge
    have hmul : s.windowIndex * stride ≤ k * stride := Nat.mul_le_mul_right _ (Nat.le_of_not_lt hge)
    have := h.pending
    omega

theorem CountInv.map_countFinish {rows : List (RowItem ρ)} {s : CountState ρ}
    {ys : List (WindowItem ρ)} (h : CountInv size stride rows s ys) (dropIncomplete : Bool) :
    (countFinish dropIncomplete s).map (fun w ↦ (w.windowIndex, w.rows))
      = partialWindow rows stride s.windowIndex dropIncomplete := by
  rw [partialWindow, ← h.buffer, countFinish]
  split <;> rfl

theorem countAdvance_times {s : CountState ρ} {item : RowItem ρ} {w : WindowItem ρ}
    (hw : w ∈ (countAdvance size stride s item).2) :
    w.startEpochUs = w.firstRow.epochUs ∧ w.endEpochUs = w.lastRow.epochUs := by
  rw [countAdvance] at hw
  split at hw
  · cases hw
  · split at hw
    · rw [List.mem_singleton.1 hw]
      exact ⟨rfl, rfl⟩
    · cases hw

theorem countFinish_times {s : CountState ρ} {dropIncomplete : Bool} {w : WindowItem ρ}
    (hw : w ∈ countFinish dropIncomplete s) :
    w.startEpochUs = w.firstRow.epochUs ∧ w.endEpochUs = w.lastRow.epochUs := by
  rw [countFinish] at hw
  split at hw
  · rw [List.mem_singleton.1 hw]
    exact ⟨rfl, rfl⟩
  · cases hw

theorem countStep_times {s s' : CountState ρ} {item : RowItem ρ} {ys out : List (WindowItem ρ)}
    (h : ∀ w ∈ ys, w.startEpochUs = w.firstRow.epochUs ∧ w.endEpochUs = w.lastRow.epochUs)
    (hstep : countStep size stride s item = .ok (s', out)) :
    ∀ w ∈ ys ++ out, w.startEpochUs = w.firstRow.epochUs ∧ w.endEpochUs = w.lastRow.epochUs := by
  intro w hw
  rcases List.mem_append.1 hw with hw | hw
  · exact h w hw
  · obtain ⟨-, hadv⟩ := map_checkRowOrder_eq_ok_iff.1 hstep
    have hout : (countAdvance size stride s item).2 = out := congrArg Prod.snd hadv
    rw [← hout] at hw
    exact countAdvance_times hw

theorem iterCountWindows_times (rows : List (RowItem ρ)) (size stride : ℤ) (dropIncomplete : Bool) :
    ∀ w ∈ (iterCountWindows rows size stride dropIncomplete).yields,
      w.startEpochUs = w.firstRow.epochUs ∧ w.endEpochUs = w.lastRow.epochUs := by
  intro w hw
  rw [iterCountWindows] at hw
  split at hw
  · cases hw
  · split at hw
    · cases hw
    · have hnil : ∀ w ∈ ([] : List (WindowItem ρ)),
          w.startEpochUs = w.firstRow.epochUs ∧ w.endEpochUs = w.lastRow.epochUs :=
        fun _ h ↦ absurd h List.not_mem_nil
      rcases Gen.loop_cases (I := fun _ _ ys ↦ ∀ w ∈ ys,
          w.startEpochUs = w.firstRow.epochUs ∧ w.endEpochUs = w.lastRow.epochUs)
        (fun h hstep ↦ countStep_times h hstep) hnil rows with
        ⟨s, ys, h, hloop⟩ | ⟨-, -, -, s, ys, e, -, h, -, hloop⟩
      · rw [hloop] at hw
        rcases List.mem_append.1 hw with hw | hw
        · exact h w hw
        · exact countFinish_times hw
      · rw [hloop] at hw
        exact h w hw

/-- Without gaps between the windows every row lies in a full window or is left over. -/
theorem exists_window_of_index {rows : List (RowItem ρ)} (hstride : 0 < stride)
    (hle : stride ≤ size) (m : ℕ) {i : ℕ} (hi : i < rows.length) :
    ∃ v ∈ ((List.range m).map fun k : ℕ ↦ ((k : ℤ), windowRows rows size stride k))
        ++ partialWindow rows stride m false,
      ∃ j : ℕ, v.1 * stride + j = i ∧ v.2[j]? = some rows[i] := by
  have hdiv : i / stride * stride ≤ i := Nat.div_mul_le_self i stride
  have hmod : i < i / stride * stride + stride := by
    have := Nat.lt_div_mul_add hstride (a := i)
    omega
  rcases Nat.lt_or_ge (i / stride) m with hlt | hge
  · refine ⟨(((i / stride : ℕ) : ℤ), windowRows rows size stride (i / stride)),
      List.mem_append_left _ (List.mem_map.2 ⟨i / stride, List.mem_range.2 hlt, rfl⟩),
      i - i / stride * stride, ?_, ?_⟩
    · dsimp only
      omega
    · rw [windowRows, List.getElem?_take_of_lt (by omega), List.getElem?_drop,
        Nat.add_sub_cancel' hdiv, List.getElem?_eq_getElem hi]
  · have hmul : m * stride ≤ i := (Nat.mul_le_mul_right _ hge).trans hdiv
    have hne : rows.drop (m * stride) ≠ [] := by
      rw [Ne, List.drop_eq_nil_iff]
      omega
    refine ⟨((m : ℤ), rows.drop (m * stride)), List.mem_append_right _ ?_, i - m * stride, ?_, ?_⟩
    · rw [partialWindow, if_pos ⟨hne, rfl⟩]
      exact List.mem_singleton_self _
    · dsimp only
      omega
    · rw [List.getElem?_drop, Nat.add_sub_cancel' hmul, List.getElem?_eq_getElem hi]

/-- **Count windows meet their specification.** Over a stream in time order the iterator yields the
full windows that fit, numbered from zero, and then what is left of the rows, if anything is and
incomplete windows are kept. Without gaps between the windows every row is covered. -/
theorem iterCountWindows_exact (rows : List (RowItem ρ)) (hmono : NondecreasingTime rows)
    (hsize : 1 ≤ size) (hstride : 1 ≤ stride) (dropIncomplete : Bool) :
    let windows := iterCountWindows rows size stride dropIncomplete
    windows.raised = none ∧
      (∃ m : ℕ, (∀ k, k < m ↔ k * stride + size ≤ rows.length) ∧
        windows.yields.map (fun w ↦ (w.windowIndex, w.rows))
          = ((List.range m).map fun k : ℕ ↦ ((k : ℤ), windowRows rows size stride k))
            ++ partialWindow rows stride m dropIncomplete) ∧
      (∀ w ∈ windows.yields,
        w.startEpochUs = w.firstRow.epochUs ∧ w.endEpochUs = w.lastRow.epochUs) ∧
      (stride ≤ size → dropIncomplete = false → ∀ i (hi : i < rows.length),
        ∃ w ∈ windows.yields, ∃ j : ℕ,
          w.windowIndex * stride + j = i ∧ w.rows[j]? = some rows[i]) := by
  intro windows
  have htimes := iterCountWindows_times rows size stride dropIncomplete
  have hsize' : (0 : ℤ) < size := by omega
  have hstride' : (0 : ℤ) < stride := by omega
  rcases iterCountWindows_cases rows hsize' hstride' dropIncomplete with ⟨s, ys, h, heq⟩ | ⟨hdecreases, -⟩
  · rw [Int.toNat_natCast, Int.toNat_natCast] at h
    have hyields : windows.yields.map (fun w ↦ (w.windowIndex, w.rows))
        = ((List.range s.windowIndex).map fun k : ℕ ↦ ((k : ℤ), windowRows rows size stride k))
          ++ partialWindow rows stride s.windowIndex dropIncomplete := by
      rw [show windows = _ from heq, List.map_append, h.yields, h.map_countFinish]
    refine ⟨congrArg Gen.raised heq, ⟨s.windowIndex, h.full_iff, hyields⟩, htimes, ?_⟩
    rintro hle rfl i hi
    obtain ⟨v, hv, j, hj, hget⟩ := exists_window_of_index hstride hle s.windowIndex hi
    rw [← hyields] at hv
    obtain ⟨w, hw, rfl⟩ := List.mem_map.1 hv
    exact ⟨w, hw, j, hj, hget⟩
  · exact absurd hmono hdecreases

/-- Five rows, windows of three rows every two: two full windows and the last row on its own. -/
theorem iterCountWindows_exact_overlap :
    let rows : List (RowItem Unit) :=
      [⟨0, 0, ()⟩, ⟨1, 10, ()⟩, ⟨2, 10, ()⟩, ⟨3, 20, ()⟩, ⟨4, 30, ()⟩]
    let windows := iterCountWindows rows (3 : ℕ) (2 : ℕ) false
    windows.raised = none ∧
      (∃ m : ℕ, (∀ k, k < m ↔ k * 2 + 3 ≤ rows.length) ∧
        windows.yields.map (fun w ↦ (w.windowIndex, w.rows))
          = ((List.range m).map fun k : ℕ ↦ ((k : ℤ), windowRows rows 3 2 k))
            ++ partialWindow rows 2 m false) ∧
      (∀ w ∈ windows.yields,
        w.startEpochUs = w.firstRow.epochUs ∧ w.endEpochUs = w.lastRow.epochUs) ∧
      (2 ≤ 3 → false = false → ∀ i (hi : i < rows.length),
        ∃ w ∈ windows.yields, ∃ j : ℕ,
          w.windowIndex * (2 : ℕ) + j = i ∧ w.rows[j]? = some rows[i]) :=
  iterCountWindows_exact _ (by unfold NondecreasingTime; decide) (by decide) (by decide) false

/-! ## Order of the windows yielded -/

/-- Every window yielded, the partial one at the end included, starts at row `i * stride` when it
is the `i`-th. -/
theorem CountInv.rows_getElem {rows : List (RowItem ρ)} {s : CountState ρ}
    {ys : List (WindowItem ρ)} (h : CountInv size stride rows s ys) (dropIncomplete : Bool) (i : ℕ)
    (hi : i < (ys ++ countFinish dropIncomplete s).length) :
    ∃ n, (ys ++ countFinish dropIncomplete s)[i].rows = (rows.drop (i * stride)).take n := by
  have hlen : ys.length = s.windowIndex := by simpa using congrArg List.length h.yields
  rcases Nat.lt_or_ge i ys.length with hlt | hge
  · refine ⟨size, ?_⟩
    have hget := congrArg (fun l ↦ (l[i]?).map Prod.snd) h.yields
    rw [List.getElem_append_left hlt]
    simpa [hlt, hlen ▸ hlt, windowRows] using hget
  · rw [List.getElem_append_right hge]
    rw [List.length_append] at hi
    by_cases hbuf : s.buffer ≠ [] ∧ dropIncomplete = false
    · have hfin : countFinish dropIncomplete s = [bufferWindow s.windowIndex s.buffer hbuf.1] :=
        dif_pos hbuf
      rw [hfin, List.length_singleton] at hi
      obtain rfl : i = s.windowIndex := by omega
      refine ⟨(rows.drop (s.windowIndex * stride)).length, ?_⟩
      rw [List.take_length, ← h.buffer]
      simp [hfin, hlen, bufferWindow]
    · rw [countFinish, dif_neg hbuf, List.length_nil] at hi
      omega

theorem firstRow_eq_getElem {w : WindowItem ρ} {rows : List (RowItem ρ)} {i n : ℕ}
    (h : w.rows = (rows.drop i).take n) :
    ∃ hi : i < rows.length, w.firstRow = rows[i] := by
  have hne : (rows.drop i).take n ≠ [] := h ▸ w.nonempty
  have hi : i < rows.length := by
    by_contra hi
    exact hne (by rw [List.drop_eq_nil_of_le (by omega), List.take_nil])
  refine ⟨hi, ?_⟩
  simp only [WindowItem.firstRow, h]
  rw [List.head_take, List.head_drop]

/-- Count windows arrive ordered by their first row. -/
theorem iterCountWindows_ordered {rows : List (RowItem ρ)} (hrows : IncreasingIndices rows)
    {size stride : ℤ} (hsize : 0 < size) (hstride : 0 < stride) {dropIncomplete : Bool}
    (hraised : (iterCountWindows rows size stride dropIncomplete).raised = none) :
    OrderedWindows (iterCountWindows rows size stride dropIncomplete).yields := by
  rcases iterCountWindows_cases rows hsize hstride dropIncomplete with
    ⟨s, ys, h, heq⟩ | ⟨-, ys, e, heq⟩
  · rw [heq]
    refine ⟨List.pairwise_iff_getElem.2 fun i j hi hj hij ↦ ?_, fun w hw ↦ ?_⟩
    · obtain ⟨n, hn⟩ := h.rows_getElem dropIncomplete i hi
      obtain ⟨m, hm⟩ := h.rows_getElem dropIncomplete j hj
      obtain ⟨hi', hfirst⟩ := firstRow_eq_getElem hn
      obtain ⟨hj', hfirst'⟩ := firstRow_eq_getElem hm
      rw [hfirst, hfirst']
      have hlt : i * stride.toNat < j * stride.toNat :=
        Nat.mul_lt_mul_of_pos_right hij (by omega)
      exact (List.pairwise_iff_getElem.1 hrows _ _ hi' hj' hlt).le
    · obtain ⟨i, hi, rfl⟩ := List.getElem_of_mem hw
      obtain ⟨n, hn⟩ := h.rows_getElem dropIncomplete i hi
      refine WindowItem.first_le_last hrows ?_
      rw [hn]
      exact (List.take_sublist _ _).trans (List.drop_sublist _ _)
  · rw [heq] at hraised
    cases hraised

end ForgeData
