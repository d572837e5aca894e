import ForgeData.Python.Dict
import ForgeData.Python.Generator
import Mathlib.Data.List.Sort

/-!
# Streaming windows over an ordered row stream

The two window iterators of the transformation stage. Both are generators driven by one `for` loop
over the rows, so each is a `Gen.loop` of its own step function and closing part.

* Count windows keep a buffer of at most `size` rows; window `k` covers the rows
  `[k * stride, k * stride + size)`.
* Time windows keep a dictionary from window index to the rows seen so far; window `k` covers the
  half-open time interval `[first + k * stride, first + k * stride + duration)`.

Both refuse rows whose timestamp is smaller than the one before.
-/

namespace ForgeData

open Python

/-- A row of the stream: its index, its timestamp in microseconds, and the row itself. -/
structure RowItem (ρ : Type) where
  rowIndex : ℤ
  epochUs : ℤ
  row : ρ
  deriving DecidableEq, Repr

/-- A window: its index, its start and end times, and the rows it covers, at least one. -/
structure WindowItem (ρ : Type) where
  windowIndex : ℤ
  startEpochUs : ℤ
  endEpochUs : ℤ
  rows : List (RowItem ρ)
  nonempty : rows ≠ []

inductive WindowError where
  | invalidWindowConfiguration (message : String)
  | nonMonotonicRowOrder (message : String)
  deriving DecidableEq, Repr

section

variable {ρ : Type}

namespace WindowItem

/-- The first row of a window. -/
def firstRow (w : WindowItem ρ) : RowItem ρ := w.rows.head w.nonempty

/-- The last row of a window. -/
def lastRow (w : WindowItem ρ) : RowItem ρ := w.rows.getLast w.nonempty

end WindowItem

/-- The check both iterators make on entry to the loop body: the timestamps must not decrease. -/
def checkRowOrder (lastEpochUs : Option ℤ) (item : RowItem ρ) : Except WindowError Unit :=
  match lastEpochUs with
  | none => .ok ()
  | some last =>
    if item.epochUs < last then
      .error (.nonMonotonicRowOrder
        s!"Row {item.rowIndex} has timestamp epoch_us={item.epochUs} which is earlier than the previous row's epoch_us={last}")
    else .ok ()

/-! ## Count windows -/

/-- The local variables of `iter_count_windows`. -/
structure CountState (ρ : Type) where
  buffer : List (RowItem ρ)
  skipRemaining : ℕ
  windowIndex : ℕ
  lastEpochUs : Option ℤ

/-- A window over the whole buffer: it starts and ends with the timestamps of its outer rows. -/
def bufferWindow (windowIndex : ℕ) (buffer : List (RowItem ρ)) (h : buffer ≠ []) :
    WindowItem ρ where
  windowIndex := windowIndex
  startEpochUs := (buffer.head h).epochUs
  endEpochUs := (buffer.getLast h).epochUs
  rows := buffer
  nonempty := h

/-- The loop body of `iter_count_windows` once the order check has passed. -/
def countAdvance (size stride : ℕ) (s : CountState ρ) (item : RowItem ρ) :
    CountState ρ × List (WindowItem ρ) :=
  if 0 < s.skipRemaining then
    ({ buffer := s.buffer
       skipRemaining := s.skipRemaining - 1
       windowIndex := s.windowIndex
       lastEpochUs := some item.epochUs }, [])
  else if (s.buffer ++ [item]).length = size then
    ({ buffer := (s.buffer ++ [item]).drop (min stride size)
       skipRemaining := if size < stride then stride - size else s.skipRemaining
       windowIndex := s.windowIndex + 1
       lastEpochUs := some item.epochUs },
      [bufferWindow s.windowIndex (s.buffer ++ [item]) (by simp)])
  else
    ({ buffer := s.buffer ++ [item]
       skipRemaining := s.skipRemaining
       windowIndex := s.windowIndex
       lastEpochUs := some item.epochUs }, [])

/-- One pass through the loop body of `iter_count_windows`. -/
def countStep (size stride : ℕ) (s : CountState ρ) (item : RowItem ρ) :
    Except WindowError (CountState ρ × List (WindowItem ρ)) :=
  (checkRowOrder s.lastEpochUs item).map fun _ ↦ countAdvance size stride s item

/-- After the loop of `iter_count_windows`: the rows left over, unless they are to be dropped. -/
def countFinish (dropIncomplete : Bool) (s : CountState ρ) : List (WindowItem ρ) :=
  if h : s.buffer ≠ [] ∧ dropIncomplete = false then [bufferWindow s.windowIndex s.buffer h.1]
  else []

def CountState.init : CountState ρ := ⟨[], 0, 0, none⟩

def iterCountWindows (rows : List (RowItem ρ)) (size stride : ℤ) (dropIncomplete : Bool) :
    Gen WindowError (WindowItem ρ) :=
  if size ≤ 0 then
    ⟨[], some (.invalidWindowConfiguration "window.size must be > 0")⟩
  else if stride ≤ 0 then
    ⟨[], some (.invalidWindowConfiguration "window.stride must be > 0")⟩
  else
    .loop (countStep size.toNat stride.toNat) (countFinish dropIncomplete) .init rows

/-! ## Time windows -/

/-- The indices of the windows that cover the relative time `relUs`. -/
def windowsForTimestamp (relUs durationUs strideUs : ℤ) : List ℤ :=
  let highestIdx := relUs / strideUs
  let lowestIdx := max 0 ((relUs - durationUs) / strideUs)
  (range lowestIdx (highestIdx + 1)).filter fun idx ↦
    idx * strideUs ≤ relUs ∧ relUs < idx * strideUs + durationUs

/-- The rows collected for a window that is still open; there is always at least one. -/
abbrev OpenRows (ρ : Type) := { rows : List (RowItem ρ) // rows ≠ [] }

/-- The local variables of `iter_time_windows`. -/
structure TimeState (ρ : Type) where
  openWindows : Dict ℤ (OpenRows ρ)
  firstEpochUs : Option ℤ
  lastEpochUs : Option ℤ

/-- `open_windows.setdefault(idx, []).append(item)`. -/
def appendRow (item : RowItem ρ) (openWindows : Dict ℤ (OpenRows ρ)) (idx : ℤ) :
    Dict ℤ (OpenRows ρ) :=
  match openWindows.get? idx with
  | none => openWindows.set idx ⟨[item], List.cons_ne_nil _ _⟩
  | some rows => openWindows.set idx ⟨rows.1 ++ [item], by simp⟩

/-- Window `idx` with the rows collected for it. -/
def timeWindow (durationUs strideUs first idx : ℤ) (rows : OpenRows ρ) : WindowItem ρ where
  windowIndex := idx
  startEpochUs := first + idx * strideUs
  endEpochUs := first + idx * strideUs + durationUs
  rows := rows.1
  nonempty := rows.2

/-- `for idx in ..: yield idx, start, end, open_windows.pop(idx)`. -/
def popWindows (durationUs strideUs first : ℤ) :
    List ℤ → Dict ℤ (OpenRows ρ) → Dict ℤ (OpenRows ρ) × List (WindowItem ρ)
  | [], openWindows => (openWindows, [])
  | idx :: indices, openWindows =>
    match openWindows.get? idx with
    -- Never taken: the indices popped were read off the dictionary's own keys.
    | none => popWindows durationUs strideUs first indices openWindows
    | some rows =>
      let (rest, windows) := popWindows durationUs strideUs first indices (openWindows.erase idx)
      (rest, timeWindow durationUs strideUs first idx rows :: windows)

/-- The dictionary once `item` has been added to every window that covers it. -/
def collectRow (durationUs strideUs first : ℤ) (item : RowItem ρ)
    (openWindows : Dict ℤ (OpenRows ρ)) : Dict ℤ (OpenRows ρ) :=
  (windowsForTimestamp (item.epochUs - first) durationUs strideUs).foldl (appendRow item)
    openWindows

/-- `sorted(closeable)`: the open windows that end at or before the relative time `relUs`. -/
def sortedCloseable (durationUs strideUs relUs : ℤ) (openWindows : Dict ℤ (OpenRows ρ)) : List ℤ :=
  (openWindows.keys.filter fun idx ↦ idx * strideUs + durationUs ≤ relUs).insertionSort (· ≤ ·)

/-- The loop body of `iter_time_windows` once the order check has passed. -/
def timeAdvance (durationUs strideUs : ℤ) (s : TimeState ρ) (item : RowItem ρ) :
    TimeState ρ × List (WindowItem ρ) :=
  let first := s.firstEpochUs.getD item.epochUs
  let openWindows := collectRow durationUs strideUs first item s.openWindows
  let closeable := sortedCloseable durationUs strideUs (item.epochUs - first) openWindows
  let popped := popWindows durationUs strideUs first closeable openWindows
  (⟨popped.1, some first, some item.epochUs⟩, popped.2)

/-- One pass through the loop body of `iter_time_windows`. -/
def timeStep (durationUs strideUs : ℤ) (s : TimeState ρ) (item : RowItem ρ) :
    Except WindowError (TimeState ρ × List (WindowItem ρ)) :=
  (checkRowOrder s.lastEpochUs item).map fun _ ↦ timeAdvance durationUs strideUs s item

/-- After the loop of `iter_time_windows`: the windows still open, unless they are to be dropped. -/
def timeFinish (durationUs strideUs : ℤ) (dropIncomplete : Bool) (s : TimeState ρ) :
    List (WindowItem ρ) :=
  if dropIncomplete then []
  else
    (popWindows durationUs strideUs (s.firstEpochUs.getD 0)
      (s.openWindows.keys.insertionSort (· ≤ ·)) s.openWindows).2

def TimeState.init : TimeState ρ := ⟨.empty, none, none⟩

def iterTimeWindows (rows : List (RowItem ρ)) (durationUs strideUs : ℤ) (dropIncomplete : Bool) :
    Gen WindowError (WindowItem ρ) :=
  if durationUs ≤ 0 then
    ⟨[], some (.invalidWindowConfiguration "window.duration_ms must be > 0")⟩
  else if strideUs ≤ 0 then
    ⟨[], some (.invalidWindowConfiguration "window.stride_ms must be > 0")⟩
  else
    .loop (timeStep durationUs strideUs) (timeFinish durationUs strideUs dropIncomplete) .init rows

/-! ## The order check -/

/-- Timestamps never decrease along the stream. -/
def NondecreasingTime (rows : List (RowItem ρ)) : Prop :=
  rows.Pairwise fun a b ↦ a.epochUs ≤ b.epochUs

theorem checkRowOrder_eq_ok_iff {last : Option ℤ} {item : RowItem ρ} {u : Unit} :
    checkRowOrder last item = .ok u ↔ ∀ t, last = some t → t ≤ item.epochUs := by
  rcases last with _ | t
  · simp [checkRowOrder]
  · by_cases h : item.epochUs < t
    · simp [checkRowOrder, h]
    · simp [checkRowOrder, h, Int.not_lt.1 h]

theorem exists_of_checkRowOrder_eq_error {last : Option ℤ} {item : RowItem ρ} {e : WindowError}
    (h : checkRowOrder last item = .error e) : ∃ message, e = .nonMonotonicRowOrder message := by
  rcases last with _ | t
  · cases h
  · rw [checkRowOrder] at h
    split at h
    · cases h
      exact ⟨_, rfl⟩
    · cases h

theorem map_checkRowOrder_eq_ok_iff {α : Type} {last : Option ℤ} {item : RowItem ρ} {a b : α} :
    (checkRowOrder last item).map (fun _ ↦ a) = .ok b ↔
      (∀ t, last = some t → t ≤ item.epochUs) ∧ a = b := by
  rw [← checkRowOrder_eq_ok_iff (u := ())]
  rcases checkRowOrder last item with e | u <;> simp [Except.map]

theorem NondecreasingTime.concat {pre : List (RowItem ρ)} (h : NondecreasingTime pre)
    (item : RowItem ρ)
    (hlast : ∀ t, pre.getLast?.map RowItem.epochUs = some t → t ≤ item.epochUs) :
    NondecreasingTime (pre ++ [item]) := by
  refine List.pairwise_append.2 ⟨h, List.pairwise_singleton _ _, fun a ha b hb ↦ ?_⟩
  rw [List.mem_singleton.1 hb]
  rcases List.eq_nil_or_concat' pre with rfl | ⟨l, x, rfl⟩
  · cases ha
  · have hx : x.epochUs ≤ item.epochUs := hlast _ (by simp)
    rcases List.mem_append.1 ha with hl | hl
    · exact ((List.pairwise_append.1 h).2.2 a hl x (List.mem_singleton_self x)).trans hx
    · rwa [List.mem_singleton.1 hl]

/-! ## Source ranges -/

/-- The rows carry increasing indices, as the stream numbers them. -/
def IncreasingIndices (rows : List (RowItem ρ)) : Prop :=
  rows.Pairwise fun a b ↦ a.rowIndex < b.rowIndex

/-- What the packaging stage relies on: the windows arrive ordered by their first source row, and
no window ends before it starts. Nothing is said about the order of their last rows. -/
structure OrderedWindows (windows : List (WindowItem ρ)) : Prop where
  starts : windows.Pairwise fun v w ↦ v.firstRow.rowIndex ≤ w.firstRow.rowIndex
  ranges : ∀ w ∈ windows, w.firstRow.rowIndex ≤ w.lastRow.rowIndex

theorem IncreasingIndices.head_le {rows : List (RowItem ρ)} (h : IncreasingIndices rows)
    (hne : rows ≠ []) {a : RowItem ρ} (ha : a ∈ rows) :
    (rows.head hne).rowIndex ≤ a.rowIndex := by
  rcases rows with _ | ⟨b, rows⟩
  · exact absurd rfl hne
  · rcases List.mem_cons.1 ha with rfl | ha
    · exact le_refl _
    · exact ((List.pairwise_cons.1 h).1 a ha).le

theorem WindowItem.first_le_last {w : WindowItem ρ} {rows : List (RowItem ρ)}
    (h : IncreasingIndices rows) (hw : w.rows.Sublist rows) :
    w.firstRow.rowIndex ≤ w.lastRow.rowIndex :=
  IncreasingIndices.head_le (h.sublist hw) w.nonempty (List.getLast_mem w.nonempty)

end

end ForgeData
