import ForgeData.Graph.Reachability
import Mathlib.Algebra.BigOperators.Group.List.Basic
import Mathlib.Algebra.GroupWithZero.Nat
import Mathlib.Data.List.Basic
import Mathlib.Data.List.Dedup
import Mathlib.Tactic.Common

/-!
# Topological orders

Kahn's algorithm. Every node carries the number of arrows that still lead into it from nodes that have
not been put out. A node without such arrows waits in a queue; the node taken from the queue is put
out, and the numbers of its children are counted down, once for each arrow.

The order put out repeats no node, and every node comes after the nodes that an arrow leads from.
-/

namespace Graph

variable {κ : Type*} [DecidableEq κ]

/-- The variables of the loop. -/
structure Kahn (κ : Type*) where
  queue : List κ
  order : List κ
  inDegree : κ → ℤ

/-- Count a child down, and let it wait in the queue when nothing is left. -/
def countDown (st : Kahn κ) (child : κ) : Kahn κ :=
  { st with
    queue := if st.inDegree child - 1 = 0 then st.queue ++ [child] else st.queue
    inDegree := fun k ↦ if k = child then st.inDegree child - 1 else st.inDegree k }

/-- The loop. -/
def kahn (children : κ → List κ) : ℕ → Kahn κ → Option (List κ)
  | 0, _ => none
  | fuel + 1, st =>
    match st.queue with
    | [] => some st.order
    | x :: queue =>
      kahn children fuel
        ((children x).foldl countDown { st with queue := queue, order := st.order ++ [x] })

/-! ## Counting down -/

/-- What counting down some children does: the queue grows by those whose number reaches zero. -/
theorem exists_foldl_countDown (l : List κ) (st : Kahn κ) : ∃ new,
    l.foldl countDown st
      = ⟨st.queue ++ new, st.order, fun k ↦ st.inDegree k - l.count k⟩ ∧
    new.Nodup ∧ ∀ k, k ∈ new ↔ 0 < st.inDegree k ∧ st.inDegree k ≤ l.count k := by
  induction l generalizing st with
  | nil => exact ⟨[], by simp, List.nodup_nil, fun k ↦ by simp⟩
  | cons c l ih =>
    obtain ⟨new, hfold, hnodup, hmem⟩ := ih (countDown st c)
    rw [List.foldl_cons, hfold]
    -- the child enters the queue at the step that brings its number to zero, and never again
    by_cases hc : st.inDegree c - 1 = 0
    · refine ⟨c :: new, ?_, List.nodup_cons.2 ⟨fun hcn ↦ ?_, hnodup⟩, fun k ↦ ?_⟩
      · simp only [countDown, if_pos hc, List.append_assoc, List.singleton_append, List.count_cons]
        congr 1
        funext k
        by_cases hk : k = c
        · simp [hk]
          omega
        · simp [hk, Ne.symm hk]
      · have hpos := ((hmem c).1 hcn).1
        simp only [countDown, if_true] at hpos
        omega
      · rw [List.mem_cons, hmem]
        by_cases hk : k = c
        · subst hk
          simp only [countDown, List.count_cons_self, true_or, true_iff]
          omega
        · simp [countDown, hk, Ne.symm hk]
    · refine ⟨new, ?_, hnodup, fun k ↦ ?_⟩
      · simp only [countDown, if_neg hc, List.count_cons]
        congr 1
        funext k
        by_cases hk : k = c
        · simp [hk]
          omega
        · simp [hk, Ne.symm hk]
      · rw [hmem]
        by_cases hk : k = c
        · subst hk
          simp only [countDown, if_true, List.count_cons_self]
          omega
        · simp [countDown, hk, Ne.symm hk]

/-! ## The invariant -/

/-- The arrows into a node from those of the nodes that have not been put out. -/
def waiting (children : κ → List κ) (nodes order : List κ) (k : κ) : ℕ :=
  ((nodes.filter (· ∉ order)).map fun p ↦ (children p).count k).sum

/-- What the loop keeps. -/
structure Sorting (children : κ → List κ) (nodes : List κ) (st : Kahn κ) : Prop where
  nodup : (st.order ++ st.queue).Nodup
  mem : ∀ k ∈ st.order ++ st.queue, k ∈ nodes
  inDegree : ∀ k ∈ nodes, st.inDegree k = waiting children nodes st.order k
  released : ∀ k ∈ nodes, st.inDegree k = 0 ↔ k ∈ st.order ++ st.queue
  sorted : ∀ pre k post, st.order = pre ++ k :: post → ∀ p ∈ nodes, k ∈ children p → p ∈ pre

variable {children : κ → List κ} {nodes : List κ} {st : Kahn κ} {order : List κ}

theorem sorting_start {queue : List κ} {inDegree : κ → ℤ} (hqueue : queue.Nodup)
    (hmem : ∀ k, k ∈ queue ↔ k ∈ nodes ∧ inDegree k = 0)
    (hdegree : ∀ k ∈ nodes, inDegree k = ((nodes.map fun p ↦ (children p).count k).sum : ℕ)) :
    Sorting children nodes ⟨queue, [], inDegree⟩ where
  nodup := hqueue
  mem k hk := ((hmem k).1 hk).1
  inDegree k hk := by
    rw [waiting, List.filter_eq_self.2 fun p _ ↦ by simp]
    exact hdegree k hk
  released k hk := by
    rw [List.nil_append, hmem]
    exact ⟨fun h ↦ ⟨hk, h⟩, And.right⟩
  sorted pre k post h := by simp at h

/-- Counted over all nodes, the entries of a list are those that are nodes. -/
theorem sum_count_eq (hnodes : nodes.Nodup) (l : List κ) :
    (nodes.map fun p ↦ l.count p).sum = (l.filter (· ∈ nodes)).length := by
  induction l with
  | nil => simp
  | cons x l ih =>
    have hcount : ∀ nodes : List κ, nodes.Nodup →
        (nodes.map fun p ↦ (x :: l).count p).sum
          = (nodes.map fun p ↦ l.count p).sum + if x ∈ nodes then 1 else 0 := by
      intro nodes hnodes
      induction nodes with
      | nil => simp
      | cons y nodes ih =>
        obtain ⟨hy, hnodes⟩ := List.nodup_cons.1 hnodes
        rw [List.map_cons, List.sum_cons, ih hnodes, List.map_cons, List.sum_cons, List.count_cons]
        by_cases hxy : x = y
        · subst hxy
          simp [hy]
          omega
        · simp [hxy]
          omega
    rw [hcount nodes hnodes, ih, List.filter_cons]
    by_cases hx : x ∈ nodes <;> simp [hx]

theorem waiting_append (hnodes : nodes.Nodup) {x : κ} (hx : x ∈ nodes) (hout : x ∉ order) (k : κ) :
    waiting children nodes order k
      = (children x).count k + waiting children nodes (order ++ [x]) k := by
  have hperm : (nodes.filter (· ∉ order)).Perm (x :: nodes.filter (· ∉ order ++ [x])) := by
    refine (List.perm_ext_iff_of_nodup (hnodes.filter _)
      (List.nodup_cons.2 ⟨by simp, hnodes.filter _⟩)).2 fun y ↦ ?_
    by_cases hy : y = x
    · simp [hy, hx, hout]
    · simp [hy]
  rw [waiting, (hperm.map _).sum_eq, List.map_cons, List.sum_cons, waiting]

theorem mem_of_waiting_eq_zero (hnodes : nodes.Nodup) {k p : κ}
    (h : waiting children nodes order k = 0) (hp : p ∈ nodes) (hkp : k ∈ children p) :
    p ∈ order := by
  by_contra hout
  have hcount := List.count_pos_iff.2 hkp
  rw [waiting_append hnodes hp hout] at h
  omega

theorem Sorting.next (hJ : Sorting children nodes st) (hnodes : nodes.Nodup)
    (hchildren : ∀ p ∈ nodes, ∀ c ∈ children p, c ∈ nodes) {x : κ} {queue : List κ}
    (hqueue : st.queue = x :: queue) :
    Sorting children nodes
      ((children x).foldl countDown { st with queue := queue, order := st.order ++ [x] }) := by
  obtain ⟨new, hfold, hnew, hmem⟩ :=
    exists_foldl_countDown (children x) { st with queue := queue, order := st.order ++ [x] }
  have hold : st.order ++ st.queue = st.order ++ [x] ++ queue := by simp [hqueue]
  have hnodup := hold ▸ hJ.nodup
  have hin := hold ▸ hJ.mem
  have hx : x ∈ nodes := hin x (by simp)
  have hout : x ∉ st.order := fun h ↦ by
    rw [List.append_assoc] at hnodup
    exact (List.nodup_append.1 hnodup).2.2 x h x (by simp) rfl
  -- the node taken from the queue waits for nothing
  have hzero : waiting children nodes st.order x = 0 := by
    have h := hJ.inDegree x hx
    rw [(hJ.released x hx).2 (by simp [hqueue])] at h
    omega
  have hnewNodes : ∀ k ∈ new, k ∈ nodes := fun k hk ↦ by
    have hle := (hmem k).1 hk
    exact hchildren x hx k (List.count_pos_iff.1 (by simp only at hle; omega))
  -- and whatever is released now was still waiting, so it is neither placed nor queued
  have hfresh : ∀ k ∈ new, k ∉ st.order ++ [x] ++ queue := fun k hk hkold ↦ by
    have hpos : 0 < st.inDegree k := ((hmem k).1 hk).1
    have h := (hJ.released k (hnewNodes k hk)).2 (hold ▸ hkold)
    omega
  have hdegree : ∀ k ∈ nodes,
      st.inDegree k - (children x).count k = waiting children nodes (st.order ++ [x]) k :=
    fun k hk ↦ by
      rw [hJ.inDegree k hk, waiting_append hnodes hx hout]
      push_cast
      omega
  rw [hfold]
  constructor
  · rw [← List.append_assoc]
    exact List.nodup_append.2 ⟨hnodup, hnew, fun a ha b hb hab ↦ hfresh b hb (hab ▸ ha)⟩
  · intro k hk
    rw [← List.append_assoc] at hk
    exact (List.mem_append.1 hk).elim (hin k) (hnewNodes k)
  · exact hdegree
  · intro k hk
    rw [← List.append_assoc, List.mem_append, hmem, ← hold, ← hJ.released k hk]
    have hleft : 0 ≤ st.inDegree k - (children x).count k := by
      rw [hdegree k hk]
      omega
    simp only
    omega
  -- the order is respected: the new last node has all its parents before it
  · intro pre k post horder p hp hkp
    rcases List.append_eq_append_iff.1 horder with ⟨l, hpre, hpost⟩ | ⟨l, hpre, hpost⟩
    · rcases l with _ | ⟨y, l⟩
      · rw [List.nil_append, List.cons.injEq] at hpost
        obtain ⟨rfl, rfl⟩ := hpost
        rw [List.append_nil] at hpre
        subst hpre
        exact mem_of_waiting_eq_zero hnodes hzero hp hkp
      · simp at hpost
    · rcases l with _ | ⟨y, l⟩
      · rw [List.nil_append, List.cons.injEq] at hpost
        obtain ⟨rfl, rfl⟩ := hpost
        rw [List.append_nil] at hpre
        subst hpre
        exact mem_of_waiting_eq_zero hnodes hzero hp hkp
      · rw [List.cons_append, List.cons.injEq] at hpost
        obtain ⟨rfl, -⟩ := hpost
        exact hJ.sorted pre k l hpre p hp hkp

/-- **The order that is put out** repeats no node, contains only nodes, and lists the parents among
the nodes before their children. -/
theorem Sorting.of_kahn (hJ : Sorting children nodes st) (hnodes : nodes.Nodup)
    (hchildren : ∀ p ∈ nodes, ∀ c ∈ children p, c ∈ nodes) {fuel : ℕ}
    (h : kahn children fuel st = some order) :
    order.Nodup ∧ (∀ k ∈ order, k ∈ nodes) ∧
      ∀ pre k post, order = pre ++ k :: post → ∀ p ∈ nodes, k ∈ children p → p ∈ pre := by
  induction fuel generalizing st with
  | zero => cases h
  | succ fuel ih =>
    rw [kahn] at h
    split at h
    · next hqueue =>
      cases h
      have hnodup := hJ.nodup
      have hmem := hJ.mem
      rw [hqueue, List.append_nil] at hnodup hmem
      exact ⟨hnodup, hmem, hJ.sorted⟩
    · next x queue hqueue => exact ih (hJ.next hnodes hchildren hqueue) h

/-- **The loop comes to an end** within as many passes as there are nodes, and one. -/
theorem Sorting.exists_kahn (hJ : Sorting children nodes st) (hnodes : nodes.Nodup)
    (hchildren : ∀ p ∈ nodes, ∀ c ∈ children p, c ∈ nodes) {fuel : ℕ}
    (hfuel : nodes.length < fuel + st.order.length) : ∃ order, kahn children fuel st = some order := by
  induction fuel generalizing st with
  | zero =>
    have hle : st.order.length ≤ nodes.length :=
      (List.subperm_of_subset (List.nodup_append.1 hJ.nodup).1 fun k hk ↦
        hJ.mem k (List.mem_append_left _ hk)).length_le
    omega
  | succ fuel ih =>
    rw [kahn]
    split
    · exact ⟨_, rfl⟩
    · next x queue hqueue =>
      have horder : ((children x).foldl countDown
          { st with queue := queue, order := st.order ++ [x] }).order = st.order ++ [x] := by
        obtain ⟨new, hfold, -⟩ :=
          exists_foldl_countDown (children x) { st with queue := queue, order := st.order ++ [x] }
        rw [hfold]
      refine ih (hJ.next hnodes hchildren hqueue) ?_
      rw [horder, List.length_append, List.length_singleton]
      omega

/-- When the queue is empty, a node that has not been put out has a parent that has not either. -/
theorem Sorting.exists_parent (hJ : Sorting children nodes st) (hqueue : st.queue = []) {k : κ}
    (hk : k ∈ nodes) (hout : k ∉ st.order) : ∃ p ∈ nodes, p ∉ st.order ∧ k ∈ children p := by
  have hwaiting : waiting children nodes st.order k ≠ 0 := by
    intro hzero
    have hdegree : st.inDegree k = 0 := by
      rw [hJ.inDegree k hk, hzero]
      rfl
    have hin := (hJ.released k hk).1 hdegree
    rw [hqueue, List.append_nil] at hin
    exact hout hin
  by_contra! hparents
  apply hwaiting
  apply List.sum_eq_zero
  intro n hn
  obtain ⟨p, hp, rfl⟩ := List.mem_map.1 hn
  obtain ⟨hp, hpout⟩ := List.mem_filter.1 hp
  rw [decide_eq_true_eq] at hpout
  exact List.count_eq_zero.2 (hparents p hp hpout)

/-- **Without loops every node is put out**: otherwise one could walk from parent to parent among the
nodes that are left, and there are only finitely many of them. -/
theorem Sorting.mem_of_kahn (hJ : Sorting children nodes st) (hnodes : nodes.Nodup)
    (hchildren : ∀ p ∈ nodes, ∀ c ∈ children p, c ∈ nodes)
    (hacyclic : Acyclic fun p c ↦ c ∈ children p) {fuel : ℕ}
    (h : kahn children fuel st = some order) {k : κ} (hk : k ∈ nodes) : k ∈ order := by
  induction fuel generalizing st with
  | zero => cases h
  | succ fuel ih =>
    rw [kahn] at h
    split at h
    · next hqueue =>
      cases h
      have hparent : ∀ c ∈ {c | c ∈ nodes ∧ c ∉ st.order}, ∃ p ∈ {c | c ∈ nodes ∧ c ∉ st.order},
          c ∈ children p := by
        rintro c ⟨hc, hout⟩
        obtain ⟨p, hp, hpout, hpc⟩ := hJ.exists_parent hqueue hc hout
        exact ⟨p, ⟨hp, hpout⟩, hpc⟩
      have hfinite : {c | c ∈ nodes ∧ c ∉ st.order}.Finite :=
        (List.finite_toSet nodes).subset fun c hc ↦ hc.1
      by_contra hout
      exact hacyclic.notMem_of_forall_exists hfinite hparent ⟨hk, hout⟩
    · next x queue hqueue => exact ih (hJ.next hnodes hchildren hqueue) h

end Graph
