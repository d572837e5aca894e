import ForgeData.FileSystem.Tree
import Mathlib.Tactic.Common

/-!
# Pruning a tree

Removing several directories one after the other keeps the nodes that are below none of them, and their
order.
-/

namespace FileSystem

namespace Tree

variable {N B : Type} [DecidableEq N] (t : Tree N B)

/-- The tree with the nodes whose paths are kept. -/
def prune (keep : Path N → Bool) : Tree N B where
  items := t.items.filter fun e ↦ keep e.1
  nodup := t.nodup.sublist (List.filter_sublist.map Prod.fst)

theorem get?_prune (keep : Path N → Bool) (p : Path N) :
    (t.prune keep).get? p = if keep p then t.get? p else none := by
  ext node
  rw [Python.Dict.get?_eq_some_iff, prune, List.mem_filter]
  split
  · next hkeep => exact ⟨fun h ↦ Python.Dict.get?_eq_some_iff.mpr h.1,
      fun h ↦ ⟨Python.Dict.get?_eq_some_iff.mp h, hkeep⟩⟩
  · next hkeep => exact ⟨fun h ↦ absurd h.2 hkeep, fun h ↦ (Option.some_ne_none node h.symm).elim⟩

theorem prune_eq_self {keep : Path N → Bool} (h : ∀ p, t.get? p ≠ none → keep p = true) :
    t.prune keep = t := by
  apply Python.Dict.ext
  refine List.filter_eq_self.mpr fun e he ↦ h e.1 ?_
  rw [Python.Dict.get?_eq_some_iff.mpr he]
  exact Option.some_ne_none _

omit [DecidableEq N] in
theorem prune_prune (keep keep' : Path N → Bool) :
    (t.prune keep).prune keep' = t.prune fun p ↦ keep p && keep' p := by
  apply Python.Dict.ext
  refine List.filter_filter.trans (List.filter_congr fun e _ ↦ ?_)
  exact Bool.and_comm ..

theorem removeTree_eq_prune (p : Path N) : t.removeTree p = t.prune fun q ↦ !(decide (p <+: q)) := by
  apply Python.Dict.ext
  refine List.filter_congr fun e _ ↦ ?_
  exact decide_not

omit [DecidableEq N] in
theorem keys_prune (keep : Path N → Bool) : (t.prune keep).keys = t.keys.filter keep := by
  rw [Python.Dict.keys, Python.Dict.keys, prune, List.filter_map]
  rfl

theorem map_below (p : Path N) :
    (t.below p).map (p ++ ·) = t.keys.filter fun q ↦ p <+: q ∧ q ≠ p := by
  rw [below, List.map_map]
  refine (List.map_congr_left fun q hq ↦ ?_).trans (List.map_id _)
  rw [List.mem_filter, decide_eq_true_eq] at hq
  obtain ⟨r, rfl⟩ := hq.2.1
  rw [Function.comp_apply, List.drop_left, id]

theorem map_below_prune (keep : Path N → Bool) (p : Path N) :
    ((t.prune keep).below p).map (p ++ ·) = ((t.below p).map (p ++ ·)).filter keep := by
  rw [map_below, map_below, keys_prune, List.filter_filter, List.filter_filter]
  refine List.filter_congr fun q _ ↦ ?_
  exact Bool.and_comm ..

theorem isDir_prune (keep : Path N → Bool) {p : Path N} (hp : keep p = true) :
    (t.prune keep).isDir p = t.isDir p := by
  rw [isDir, isDir, get?_prune, if_pos hp]

end Tree

end FileSystem
