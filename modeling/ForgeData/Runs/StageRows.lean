import ForgeData.Runs.OperationEffects
import Mathlib.Data.List.Perm.Subperm

/-!
# The stage rows of a run

The rows of one run among all stage rows, how they are created, and how an update changes them. When
the planned stages are pairwise different every one of them has a row of its own under its id; when
a stage is planned twice, the ids remember only the later row.
-/

namespace ForgeData

open Python Interleaving

namespace RunDb

variable {db db' : RunDb} {r x y : String}

/-- The row with id `x`, if it belongs to run `r`. -/
def stageRow (db : RunDb) (r x : String) : Option StageRow :=
  (db.stageRuns.get? x).filter fun row ↦ row.runId = r

theorem stageRow_eq_some_iff {row : StageRow} :
    db.stageRow r x = some row ↔ db.stageRuns.get? x = some row ∧ row.runId = r := by
  rw [stageRow, Option.filter_eq_some_iff, decide_eq_true_eq]

theorem stageRow_congr (h : db'.stageRuns = db.stageRuns) : db'.stageRow = db.stageRow := by
  funext r x
  rw [stageRow, stageRow, h]

theorem stageRow_updateStageRun {f : StageRow → StageRow} (hf : ∀ row, (f row).runId = row.runId) :
    (db.updateStageRun x f).stageRow r y
      = if y = x then (db.stageRow r y).map f else db.stageRow r y := by
  rw [stageRow, updateStageRun, Dict.get?_modify]
  split
  · rw [stageRow]
    rcases db.stageRuns.get? y with _ | row
    · rfl
    · by_cases hrow : row.runId = r <;> simp [Option.filter, hf, hrow]
  · rfl

/-- The number of stage rows of a run. -/
def countStageRows (db : RunDb) (r : String) : ℕ :=
  db.stageRuns.items.countP fun p ↦ p.2.runId = r

end RunDb

/-- The row that is created for a planned stage. -/
def pendingRow (r : String) (stage : StageName) : StageRow :=
  { runId := r, stage := stage.text, status := .pending }

/-- What the creation of the rows has achieved after the stages in `done`. -/
structure Inserted (r : String) (done : List StageName) (db : RunDb) (ids : Dict StageName String) :
    Prop where
  row : ∀ stage ∈ done, ∃ x, ids.get? stage = some x ∧ db.stageRow r x = some (pendingRow r stage)
  only : ∀ x row, db.stageRow r x = some row → ∃ stage ∈ done, row = pendingRow r stage
  own : done.Nodup → ∀ x row, db.stageRow r x = some row → ∃ stage ∈ done, ids.get? stage = some x
  present : ∀ stage x, ids.get? stage = some x → x ∈ db.stageRuns.keys
  injective : ∀ stage stage' x, ids.get? stage = some x → ids.get? stage' = some x → stage = stage'
  keys : ids.keys ⊆ done
  count : db.countStageRows r = done.length

namespace Inserted

variable {r x : String} {done : List StageName} {db db' : RunDb} {ids : Dict StageName String}
  {stage : StageName}

theorem init (h : ∀ x, db.stageRow r x = none) : Inserted r [] db Dict.empty where
  row := List.forall_mem_nil _
  only x row hrow := nomatch (h x).symm.trans hrow
  own _ x row hrow := nomatch (h x).symm.trans hrow
  present _ _ hid := nomatch hid
  injective _ _ _ hid := nomatch hid
  keys := List.nil_subset _
  count := by
    rw [List.length_nil, RunDb.countStageRows, List.countP_eq_zero]
    rintro ⟨x, row⟩ hmem hrow
    have hsome : db.stageRow r x = some row :=
      RunDb.stageRow_eq_some_iff.2 ⟨Dict.get?_eq_some_iff.2 hmem, of_decide_eq_true hrow⟩
    exact nomatch (h x).symm.trans hsome

/-- **One more row.** -/
theorem step (hI : Inserted r done db ids)
    (hcreate : db.createStageRun x (pendingRow r stage) = some db') :
    Inserted r (done ++ [stage]) db' (ids.set stage x) := by
  rw [RunDb.createStageRun] at hcreate
  split at hcreate
  · cases hcreate
  next hfree =>
  split at hcreate
  swap
  · cases hcreate
  cases hcreate
  -- the id is new, so the row is added at the end and hides no other
  have hfresh : x ∉ db.stageRuns.keys := by
    rwa [Dict.contains, Bool.not_eq_true, Option.isSome_eq_false_iff, Option.isNone_iff_eq_none,
      Dict.get?_eq_none_iff] at hfree
  have hget : ∀ y, RunDb.stageRow { db with stageRuns := db.stageRuns.set x (pendingRow r stage) } r y
      = if y = x then some (pendingRow r stage) else db.stageRow r y := fun y ↦ by
    rw [RunDb.stageRow, Dict.get?_set]
    split
    · simp [Option.filter, pendingRow]
    · rfl
  have hold : ∀ s y, ids.get? s = some y → y ≠ x := fun s y hy heq ↦
    hfresh (heq ▸ hI.present s y hy)
  refine ⟨fun s hs ↦ ?_, fun y row hrow ↦ ?_, fun hnodup y row hrow ↦ ?_, fun s y hy ↦ ?_,
    fun s s' y hy hy' ↦ ?_, fun s hs ↦ ?_, ?_⟩
  · by_cases hstage : s = stage
    · subst hstage
      exact ⟨x, Dict.get?_set_self .., by rw [hget, if_pos rfl]⟩
    · obtain ⟨y, hid, hrow⟩ := hI.row s ((List.mem_append.1 hs).resolve_right fun h ↦
        hstage (List.mem_singleton.1 h))
      refine ⟨y, by rw [Dict.get?_set_of_ne _ hstage, hid], ?_⟩
      rw [hget, if_neg (hold s y hid), hrow]
  -- a row of this run is the new one, or one of those before
  · rw [hget] at hrow
    split at hrow
    · exact ⟨stage, List.mem_append_right _ (List.mem_singleton_self _), (Option.some.inj hrow).symm⟩
    · obtain ⟨s, hs, heq⟩ := hI.only y row hrow
      exact ⟨s, List.mem_append_left _ hs, heq⟩
  · rw [hget] at hrow
    split at hrow
    · next hy =>
      rw [hy]
      exact ⟨stage, List.mem_append_right _ (List.mem_singleton_self _), Dict.get?_set_self ..⟩
    · rw [List.nodup_append] at hnodup
      obtain ⟨s, hs, hid⟩ := hI.own hnodup.1 y row hrow
      have hne : s ≠ stage := hnodup.2.2 s hs stage (List.mem_singleton_self _)
      exact ⟨s, List.mem_append_left _ hs, by rw [Dict.get?_set_of_ne _ hne, hid]⟩
  · rw [Dict.keys_set, if_neg hfresh, List.mem_append, List.mem_singleton]
    rw [Dict.get?_set] at hy
    split at hy
    · exact .inr (Option.some.inj hy).symm
    · exact .inl (hI.present s y hy)
  -- two stages with one id: the new id belongs to the new stage only
  · rw [Dict.get?_set] at hy hy'
    split at hy <;> split at hy'
    · next h h' => rw [h, h']
    · exact absurd (Option.some.inj hy).symm (hold s' y hy')
    · exact absurd (Option.some.inj hy').symm (hold s y hy)
    · exact hI.injective s s' y hy hy'
  · rw [Dict.keys_set] at hs
    split at hs
    · exact List.mem_append_left _ (hI.keys hs)
    · exact (List.mem_append.1 hs).elim (fun h ↦ List.mem_append_left _ (hI.keys h))
        (List.mem_append_right _)
  · rw [RunDb.countStageRows, Dict.items_set_of_notMem hfresh, List.countP_append,
      ← RunDb.countStageRows, hI.count, List.length_append]
    simp [pendingRow]

end Inserted

theorem inserted_insertStageRuns {r : String} {fresh : ℕ → String} {stages done : List StageName}
    {n : ℕ} {db db' : RunDb} {ids ids' : Dict StageName String} (hI : Inserted r done db ids)
    (h : RunDb.insertStageRuns r fresh stages n db ids = some (db', ids')) :
    Inserted r (done ++ stages) db' ids' := by
  induction stages generalizing done n db ids with
  | nil =>
    cases h
    rwa [List.append_nil]
  | cons stage stages ih =>
    rw [RunDb.insertStageRuns] at h
    split at h
    · cases h
    · next db₁ hcreate =>
      rw [List.append_cons]
      exact ih (hI.step hcreate) h

/-- Different identifiers, none of them taken: all rows of an existing run are inserted. -/
theorem exists_insertStageRuns {r : String} (stages : List StageName)
    (ids : Dict StageName String) {fresh : ℕ → String} (hinj : Function.Injective fresh) {n : ℕ}
    {db : RunDb} (hrun : db.pipelineRuns.contains r = true)
    (hfree : ∀ m, n ≤ m → "stagerun_" ++ fresh m ∉ db.stageRuns.keys) :
    ∃ db' ids', RunDb.insertStageRuns r fresh stages n db ids = some (db', ids') := by
  induction stages generalizing n db ids with
  | nil => exact ⟨db, ids, rfl⟩
  | cons stage stages ih =>
    have hn := hfree n (Nat.le_refl n)
    have htaken : db.stageRuns.contains ("stagerun_" ++ fresh n) = false := by
      rw [Dict.contains, Dict.get?_eq_none_iff.2 hn, Option.isSome_none]
    rw [RunDb.insertStageRuns, RunDb.createStageRun, htaken, hrun]
    refine ih _ hrun fun m hm ↦ ?_
    rw [Dict.keys_set, if_neg hn, List.mem_append, List.mem_singleton, not_or,
      String.append_right_inj, hinj.eq_iff]
    exact ⟨hfree m (by omega), by omega⟩

/-- **What `_create_all_stage_runs` achieves** for a run without stage rows. -/
theorem inserted_createAllStageRuns {r : String} {fresh : ℕ → String} {stages : List StageName}
    {db db' : RunDb} {ids : Dict StageName String} (hnone : ∀ x, db.stageRow r x = none)
    (h : db.createAllStageRuns r stages fresh = (.ok ids, db')) : Inserted r stages db' ids := by
  rw [RunDb.createAllStageRuns] at h
  split at h
  · cases h
  · next heq =>
    cases h
    exact inserted_insertStageRuns (Inserted.init hnone) heq

theorem eq_of_createAllStageRuns_eq_error {r : String} {fresh : ℕ → String}
    {stages : List StageName} {db db' : RunDb} {e : RunError}
    (h : db.createAllStageRuns r stages fresh = (.error e, db')) : db' = db := by
  rw [RunDb.createAllStageRuns] at h
  split at h
  · cases h
    rfl
  · cases h

/-- When a stage is planned twice, one of the rows is under no id. -/
theorem Inserted.exists_orphan {r : String} {stages : List StageName} {db : RunDb}
    {ids : Dict StageName String} (hI : Inserted r stages db ids) (hdup : ¬ stages.Nodup) :
    ∃ x row, db.stageRow r x = some row ∧ row.status = .pending ∧
      ∀ stage, ids.get? stage ≠ some x := by
  by_contra hall
  -- every row of the run is under some id, so there are at most as many rows as ids
  have hrows : (db.stageRuns.items.filter fun p ↦ p.2.runId = r).map Prod.fst ⊆ ids.values := by
    intro x hx
    obtain ⟨⟨x, row⟩, hp, rfl⟩ := List.mem_map.1 hx
    obtain ⟨hmem, hr⟩ := List.mem_filter.1 hp
    have hrow : db.stageRow r x = some row :=
      RunDb.stageRow_eq_some_iff.2 ⟨Dict.get?_eq_some_iff.2 hmem, of_decide_eq_true hr⟩
    obtain ⟨_, _, heq⟩ := hI.only x row hrow
    by_contra hnot
    refine hall ⟨x, row, hrow, by rw [heq]; rfl, fun stage hid ↦ hnot ?_⟩
    exact List.mem_map.2 ⟨(stage, x), Dict.get?_eq_some_iff.1 hid, rfl⟩
  have hle := (List.subperm_of_subset
    (db.stageRuns.nodup.sublist (List.filter_sublist.map Prod.fst)) hrows).length_le
  rw [List.length_map, ← List.countP_eq_length_filter, ← RunDb.countStageRows, hI.count,
    Dict.values, List.length_map] at hle
  -- as many ids as stages: then the stages are the keys, and pairwise different
  have hperm := (List.subperm_of_subset ids.keys_nodup hI.keys).perm_of_length_le
    (by rwa [Dict.keys, List.length_map])
  exact hdup (hperm.nodup_iff.1 ids.keys_nodup)

end ForgeData
