import ForgeData.Synchronization.SynchronizedRows

/-!
# The window of the fixed-rate mode

The first pass reads the range of every corrected stream, and the timeline covers the intersection of
these ranges. A target therefore lies in the range of every stream, which is all that the strategies
need in order to answer: a linear stream is matched at every target, and a nearest one has data there.
-/

namespace ForgeData

namespace Synchronization

open Python

variable {R : Type}

/-- The first and the last timestamp of a stream that is in order bound its range. -/
theorem exists_streamRange {options : SyncOptions} {p : Str × LoadedStream R}
    (hscale : 0 < (options.corrections p.1).scale) (hrecords : p.2.records ≠ []) :
    ∃ range, streamRange options p = .ok range ∧
      ∀ t, range.1 ≤ t ∧ t ≤ range.2 ↔ InRange (options.corrected p.1 p.2) t := by
  have hsorted : Nondecreasing (options.corrected p.1 p.2) :=
    p.2.nondecreasing.applyStreamCorrection hscale
  have hne : options.corrected p.1 p.2 ≠ [] := by
    intro hnil
    have hlength := length_applyStreamCorrection p.2.records (options.corrections p.1)
    rw [← SyncOptions.corrected, hnil] at hlength
    exact hrecords (List.length_eq_zero_iff.mp hlength.symm)
  rw [streamRange]
  generalize options.corrected p.1 p.2 = records at hsorted hne
  obtain ⟨front, last, rfl⟩ := (List.eq_nil_or_concat' records).resolve_left hne
  obtain ⟨first, hfirst⟩ : ∃ first, (front ++ [last]).head? = some first :=
    Option.ne_none_iff_exists'.mp (mt List.head?_eq_none_iff.mp hne)
  have hlast : (front ++ [last]).getLast? = some last := List.getLast?_concat
  have hmem : first ∈ front ++ [last] := List.mem_of_mem_head? hfirst
  -- the corrected stream is still in order, so its ends are its extremes
  have hfirst_le : ∀ r ∈ front ++ [last], first.epochUs ≤ r.epochUs := by
    obtain ⟨rest, hrest⟩ := List.head?_eq_some_iff.mp hfirst
    rw [hrest] at hsorted ⊢
    intro r hr
    rcases List.mem_cons.mp hr with rfl | hr
    · exact le_refl _
    · exact (List.pairwise_cons.mp hsorted).1 r hr
  have hle_last : ∀ r ∈ front ++ [last], r.epochUs ≤ last.epochUs := by
    intro r hr
    rcases List.mem_append.mp hr with hr | hr
    · exact (List.pairwise_append.mp hsorted).2.2 r hr last (List.mem_singleton_self last)
    · rw [List.mem_singleton.mp hr]
  refine ⟨(first.epochUs, last.epochUs), by rw [hfirst, hlast], fun t ↦ ⟨?_, ?_⟩⟩
  · rintro ⟨hge, hle⟩
    exact ⟨⟨first, hmem, hge⟩, last, List.mem_append_right _ (List.mem_singleton_self last), hle⟩
  · rintro ⟨⟨a, ha, hat⟩, b, hb, htb⟩
    exact ⟨(hfirst_le a ha).trans hat, htb.trans (hle_last b hb)⟩

/-- The ranges of all streams, and the interval they have in common. -/
theorem exists_commonInterval {options : SyncOptions} {items : List (Str × LoadedStream R)}
    (hitems : items ≠ []) (hscale : ∀ p ∈ items, 0 < (options.corrections p.1).scale)
    (hrecords : ∀ p ∈ items, p.2.records ≠ []) :
    ∃ ranges start stop, items.mapM (streamRange options) = .ok ranges ∧
      intersectionInterval ranges = .ok (start, stop) ∧
      ∀ t, start ≤ t ∧ t ≤ stop ↔ ∀ p ∈ items, InRange (options.corrected p.1 p.2) t := by
  obtain ⟨ranges, hranges⟩ := exists_mapM_eq_ok fun p hp ↦
    (exists_streamRange (hscale p hp) (hrecords p hp)).imp fun _ h ↦ h.1
  have hforall := forall₂_of_mapM_eq_ok hranges
  have hne : ranges ≠ [] := by
    rintro rfl
    exact hitems (List.forall₂_nil_right_iff.mp hforall)
  obtain ⟨start, stop, hinterval⟩ := exists_intersectionInterval hne
  refine ⟨ranges, start, stop, hranges, hinterval, fun t ↦ ?_⟩
  refine (intersectionInterval_eq_ok hinterval t).trans ?_
  clear hinterval hne hranges hitems
  induction hforall with
  | nil => simp
  | @cons p range items ranges hp _ ih =>
    obtain ⟨range', hrange', hiff⟩ := exists_streamRange (hscale p List.mem_cons_self)
      (hrecords p List.mem_cons_self)
    obtain rfl := Except.ok.inj (hp.symm.trans hrange')
    rw [List.forall_mem_cons, List.forall_mem_cons, hiff t,
      ih (fun q hq ↦ hscale q (List.mem_cons_of_mem _ hq))
        (fun q hq ↦ hrecords q (List.mem_cons_of_mem _ hq))]

theorem runs_alignedRuntime (options : SyncOptions) (items : List (Str × LoadedStream R)) :
    List.Forall₂ (fun p stream ↦ StreamRuntime.Runs options none [] p stream) items
      (items.map (alignedRuntime options)) := by
  rw [List.forall₂_map_right_iff, List.forall₂_same]
  exact fun p _ ↦ ⟨rfl, rfl, rfl, ⟨nofun, nofun⟩, fun _ ↦ ⟨_, rfl, covers_ofRecords _⟩⟩

section Window

variable [PyFloat R]

/-- What the fixed-rate mode promises of the entry of a stream. -/
structure StreamEntry.CoversTarget (options : SyncOptions) (p : Str × LoadedStream R)
    (entry : StreamEntry R) : Prop where
  name : entry.name = p.1
  linear : options.strategies p.1 = .linear → entry.result.matched = true
  nearest : options.strategies p.1 = .nearest → entry.result.reason ≠ some .noData

/-- **The fixed-rate mode is total on its window.** Of nonempty streams and corrections with positive
scales, the targets are the multiples of the period within the range that all streams have in common;
every target has its row; a linear stream is matched in every row, and a nearest one is never without
data. Without a common range there is no row. -/
theorem fixedRate_total_on_window (options : SyncOptions) (loadedStreams : Dict Str (LoadedStream R))
    (frequencyHz : ℚ) (period : Period) (hstreams : loadedStreams.items ≠ [])
    (hscale : ∀ p ∈ loadedStreams.items, 0 < (options.corrections p.1).scale)
    (hrecords : ∀ p ∈ loadedStreams.items, p.2.records ≠ [])
    (hperiod : fixedRatePeriodUs frequencyHz options.maxFrequencyHz = .ok period) :
    ∃ (start stop : ℤ) (targets : List ℤ) (streams : List (StreamRuntime R)) (rows : List (SyncRow R)),
      buildFixedRateInputs options loadedStreams frequencyHz = .ok (targets.map (·, none), streams) ∧
      (∀ t, start ≤ t ∧ t ≤ stop ↔
        ∀ p ∈ loadedStreams.items, InRange (options.corrected p.1 p.2) t) ∧
      (∀ t, t ∈ targets ↔ ∃ k : ℕ, t = start + k * period.1 ∧ t ≤ stop) ∧
      targets.Pairwise (· < ·) ∧
      iterRows (targets.map (·, none)) streams = ⟨rows, none⟩ ∧
      rows.map SyncRow.targetEpochUs = targets ∧
      (∀ row ∈ rows,
        List.Forall₂ (StreamEntry.CoversTarget options) loadedStreams.items row.entries) ∧
      ((∀ t, ¬∀ p ∈ loadedStreams.items, InRange (options.corrected p.1 p.2) t) → rows = []) := by
  obtain ⟨ranges, start, stop, hranges, hinterval, hwindow⟩ :=
    exists_commonInterval hstreams hscale hrecords
  have hpairwise := pairwise_fixedRateTimeline start stop period
  have htargets : Targets (R := R) none ((fixedRateTimeline start stop period).map (·, none)) :=
    ⟨List.pairwise_map.mpr (hpairwise.imp le_of_lt), fun hne ↦ absurd rfl hne⟩
  obtain ⟨rows, hrows, hall⟩ := exists_iterRows (runs_alignedRuntime options loadedStreams.items) hscale
    htargets (fun t ht ↦ absurd ht List.not_mem_nil)
  have hmap : rows.map SyncRow.targetEpochUs = fixedRateTimeline start stop period := by
    rw [map_targetEpochUs hall, List.map_map]
    exact List.map_id _
  refine ⟨start, stop, fixedRateTimeline start stop period, _, rows, ?_, hwindow,
    fun t ↦ mem_fixedRateTimeline, hpairwise, hrows, hmap, ?_, ?_⟩
  · rw [buildFixedRateInputs, hperiod, hranges]
    dsimp only [bind, Except.bind]
    rw [hinterval]
    rfl
  -- a target within the common range lies within the range of every stream
  · intro row hrow
    obtain ⟨target, htarget, hfor⟩ := exists_of_forall₂_right hall hrow
    obtain ⟨t, ht, rfl⟩ := List.mem_map.mp htarget
    have hrange := (hwindow t).mp (mem_Icc_of_mem_fixedRateTimeline ht)
    refine List.forall₂_iff_get.mpr ⟨hfor.entries.length_eq, fun i hi hi' ↦ ?_⟩
    have hentry := (List.forall₂_iff_get.mp hfor.entries).2 i hi hi'
    have hstream := hrange _ (List.get_mem loadedStreams.items ⟨i, hi⟩)
    exact ⟨hentry.name, fun hlinear ↦ hentry.linear_matched nofun hlinear hstream,
      fun hnearest ↦ hentry.nearest_data nofun hnearest hstream⟩
  · intro hnone
    have hempty : fixedRateTimeline start stop period = [] := by
      refine List.eq_nil_iff_forall_not_mem.mpr fun t ht ↦ hnone t ?_
      exact (hwindow t).mp (mem_Icc_of_mem_fixedRateTimeline ht)
    rw [hempty] at hmap
    exact List.map_eq_nil_iff.mp hmap

end Window

/-- A stream of records without fields. -/
def tickStream (ticks : List ℤ) (h : ticks.Pairwise (· ≤ ·)) : LoadedStream ℚ where
  schema := ⟨Str.ofString "tick", Str.ofString "1.0.0", .empty, false⟩
  recordsWritten := ticks.length
  records := ticks.map fun t ↦ ⟨0, t, []⟩
  nondecreasing := List.pairwise_map.mpr h
  typed := fun record hrecord ↦ by
    obtain ⟨t, -, rfl⟩ := List.mem_map.mp hrecord
    exact fun p hp ↦ absurd hp List.not_mem_nil

/-- Two clocks, the second one an offset of three milliseconds behind. -/
def tickOptions : SyncOptions where
  reference := .fixedRate 200
  strategies := fun name ↦ if name = Str.ofString "a" then .linear else .nearest
  corrections := fun name ↦ if name = Str.ofString "a" then {} else { offsetMs := 3 }
  toleranceMs := 1
  maxFrequencyHz := 1000

def tickStreams : Dict Str (LoadedStream ℚ) :=
  .ofPairs [(Str.ofString "a", tickStream [0, 20000] (by decide)),
    (Str.ofString "b", tickStream [0, 4000, 12000] (by decide))]

theorem fixedRate_total_on_window_ticks : ∃ (start stop : ℤ) (targets : List ℤ)
    (streams : List (StreamRuntime ℚ)) (rows : List (SyncRow ℚ)),
      buildFixedRateInputs tickOptions tickStreams 200 = .ok (targets.map (·, none), streams) ∧
      (∀ t, t ∈ targets ↔ ∃ k : ℕ, t = start + k * 5000 ∧ t ≤ stop) ∧
      iterRows (targets.map (·, none)) streams = ⟨rows, none⟩ ∧
      rows.map SyncRow.targetEpochUs = targets := by
  obtain ⟨start, stop, targets, streams, rows, hbuild, -, htargets, -, hrows, hmap, -, -⟩ :=
    fixedRate_total_on_window tickOptions tickStreams 200 ⟨5000, by decide⟩ (by decide +kernel)
      (by decide +kernel) (by decide +kernel) (by decide +kernel)
  exact ⟨start, stop, targets, streams, rows, hbuild, htargets, hrows, hmap⟩

end Synchronization

end ForgeData
