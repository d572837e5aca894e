import Mathlib.Data.List.Flatten
import Mathlib.Logic.Relation
import Mathlib.Order.Basic
import Mathlib.Order.Lattice
import Mathlib.Tactic.Common

/-!
# Overlapping intervals in one pass

Elements with an inclusive interval each, in the order of their starts. A sweep puts each element into
the newest block if some interval of the block reaches its start, and otherwise opens a new block. The
blocks are the connected components of the overlap relation: what comes later than a block starts
beyond all of it.
-/

namespace Graph

open Relation

variable {α β τ : Type*} [LinearOrder τ]

section Sweep

variable (start stop : α → τ)

/-- Two inclusive intervals meet. -/
def Overlap (a b : α) : Prop := start a ≤ stop b ∧ start b ≤ stop a

/-- Two elements of the list whose intervals meet. -/
def OverlapIn (l : List α) (a b : α) : Prop := a ∈ l ∧ b ∈ l ∧ Overlap start stop a b

/-- The blocks, the newest first, after one more element. -/
def sweepStep (blocks : List (List α)) (a : α) : List (List α) :=
  match blocks with
  | b :: done => if ∃ x ∈ b, start a ≤ stop x then (b ++ [a]) :: done else [a] :: b :: done
  | [] => [[a]]

/-- The blocks of a list, the newest first. -/
def sweepBack (l : List α) : List (List α) := l.foldl (sweepStep start stop) []

/-- The blocks of a list, in order. -/
def sweep (l : List α) : List (List α) := (sweepBack start stop l).reverse

end Sweep

variable {start stop : α → τ}

theorem sweepStep_cons (b : List α) (done : List (List α)) (a : α) :
    sweepStep start stop (b :: done) a
      = if ∃ x ∈ b, start a ≤ stop x then (b ++ [a]) :: done else [a] :: b :: done := rfl

theorem Overlap.symm {a b : α} (h : Overlap start stop a b) : Overlap start stop b a := ⟨h.2, h.1⟩

theorem OverlapIn.symm {l : List α} {a b : α} (h : OverlapIn start stop l a b) :
    OverlapIn start stop l b a :=
  ⟨h.2.1, h.1, h.2.2.symm⟩

theorem OverlapIn.mono {l l' : List α} (hsub : l ⊆ l') {a b : α} (h : OverlapIn start stop l a b) :
    OverlapIn start stop l' a b :=
  ⟨hsub h.1, hsub h.2.1, h.2.2⟩

theorem flatten_sweep (l : List α) : (sweep start stop l).flatten = l := by
  suffices h : ∀ blocks : List (List α),
      (l.foldl (sweepStep start stop) blocks).reverse.flatten = blocks.reverse.flatten ++ l by
    rw [sweep, sweepBack, h, List.reverse_nil, List.flatten_nil, List.nil_append]
  induction l with
  | nil => exact fun blocks ↦ (List.append_nil _).symm
  | cons a l ih =>
    intro blocks
    rw [List.foldl_cons, ih]
    rcases blocks with _ | ⟨b, done⟩
    · rfl
    · rw [sweepStep_cons]
      split <;> simp

theorem ne_nil_of_mem_sweepStep {blocks : List (List α)} (h : ∀ b ∈ blocks, b ≠ []) (a : α) :
    ∀ b ∈ sweepStep start stop blocks a, b ≠ [] := by
  intro b' hb'
  rcases blocks with _ | ⟨b, done⟩
  · rw [List.mem_singleton.1 hb']
    exact List.cons_ne_nil _ _
  · rw [sweepStep_cons] at hb'
    split at hb'
    · rcases List.mem_cons.1 hb' with rfl | hb'
      · simp
      · exact h b' (List.mem_cons_of_mem _ hb')
    · rcases List.mem_cons.1 hb' with rfl | hb'
      · exact List.cons_ne_nil _ _
      · exact h b' hb'

/-- Sweeping commutes with a map. -/
theorem sweepBack_map (f : β → α) (l : List β) :
    sweepBack start stop (l.map f) = (sweepBack (start ∘ f) (stop ∘ f) l).map (List.map f) := by
  suffices h : ∀ blocks : List (List β),
      (l.map f).foldl (sweepStep start stop) (blocks.map (List.map f))
        = (l.foldl (sweepStep (start ∘ f) (stop ∘ f)) blocks).map (List.map f) from h []
  induction l with
  | nil => exact fun blocks ↦ rfl
  | cons a l ih =>
    intro blocks
    rw [List.map_cons, List.foldl_cons, List.foldl_cons, ← ih]
    congr 1
    rcases blocks with _ | ⟨b, done⟩
    · rfl
    · rw [List.map_cons, sweepStep_cons, sweepStep_cons]
      by_cases h : ∃ x ∈ b, (start ∘ f) a ≤ (stop ∘ f) x
      · have h' : ∃ x ∈ b.map f, start (f a) ≤ stop x := by simpa using h
        rw [if_pos h', if_pos h]
        simp
      · have h' : ¬∃ x ∈ b.map f, start (f a) ≤ stop x := by simpa using h
        rw [if_neg h', if_neg h]
        simp

theorem sweep_map (f : β → α) (l : List β) :
    sweep start stop (l.map f) = (sweep (start ∘ f) (stop ∘ f) l).map (List.map f) := by
  rw [sweep, sweepBack_map, sweep, List.map_reverse]

/-! ## Blocks are components -/

/-- The blocks of the elements so far, the newest first: none is empty, each is connected, and each
lies beyond the ones before. -/
structure Swept (start stop : α → τ) (l : List α) (blocks : List (List α)) : Prop where
  flatten : blocks.reverse.flatten = l
  nonempty : ∀ b ∈ blocks, b ≠ []
  separated : blocks.Pairwise fun later earlier ↦ ∀ x ∈ earlier, ∀ y ∈ later, stop x < start y
  connected : ∀ b ∈ blocks, ∀ x ∈ b, ∀ y ∈ b, ReflTransGen (OverlapIn start stop l) x y

theorem Swept.mem {l : List α} {blocks : List (List α)} (h : Swept start stop l blocks) {a : α} :
    a ∈ l ↔ ∃ b ∈ blocks, a ∈ b := by
  rw [← h.flatten]
  simp

theorem reflTransGen_overlapIn_mono {l l' : List α} (hsub : l ⊆ l') {a b : α}
    (h : ReflTransGen (OverlapIn start stop l) a b) : ReflTransGen (OverlapIn start stop l') a b :=
  ReflTransGen.mono (fun _ _ hab ↦ hab.mono hsub) a b h

/-- **The step lemma.** -/
theorem Swept.step {l : List α} {blocks : List (List α)} (h : Swept start stop l blocks) {a : α}
    (hstarts : ∀ x ∈ l, start x ≤ start a) (ha : start a ≤ stop a) :
    Swept start stop (l ++ [a]) (sweepStep start stop blocks a) := by
  have hsub : l ⊆ l ++ [a] := fun x hx ↦ List.mem_append_left _ hx
  have hmem : a ∈ l ++ [a] := List.mem_append_right _ (List.mem_singleton_self a)
  have hself : ∀ x ∈ [a], ∀ y ∈ [a], ReflTransGen (OverlapIn start stop (l ++ [a])) x y := by
    intro x hx y hy
    rw [List.mem_singleton.1 hx, List.mem_singleton.1 hy]
  obtain ⟨hflatten, hnonempty, hseparated, hconnected⟩ := h
  have hconnected' : ∀ b ∈ blocks, ∀ x ∈ b, ∀ y ∈ b,
      ReflTransGen (OverlapIn start stop (l ++ [a])) x y :=
    fun b hb x hx y hy ↦ reflTransGen_overlapIn_mono hsub (hconnected b hb x hx y hy)
  have hstarts' : ∀ b ∈ blocks, ∀ x ∈ b, start x ≤ start a := by
    intro b hb x hx
    refine hstarts x ?_
    rw [← hflatten]
    exact List.mem_flatten.2 ⟨b, List.mem_reverse.2 hb, hx⟩
  rcases blocks with _ | ⟨b, done⟩
  · refine ⟨?_, ?_, List.pairwise_singleton _ _, ?_⟩
    · rw [← hflatten]
      rfl
    · intro b hb
      rw [List.mem_singleton.1 hb]
      exact List.cons_ne_nil _ _
    · intro b hb
      rw [List.mem_singleton.1 hb]
      exact hself
  obtain ⟨hbefore, hdone⟩ := List.pairwise_cons.1 hseparated
  have hb : b ∈ b :: done := List.mem_cons_self
  obtain ⟨y₀, hy₀⟩ := List.exists_mem_of_ne_nil b (hnonempty b hb)
  -- What lies before the newest block ends before the new element starts.
  have hearlier : ∀ e ∈ done, ∀ x ∈ e, stop x < start a := fun e he x hx ↦
    (hbefore e he x hx y₀ hy₀).trans_le (hstarts' b hb y₀ hy₀)
  rw [sweepStep_cons]
  split
  · next hjoin =>
    obtain ⟨x₀, hx₀, hreach⟩ := hjoin
    have hx₀l : x₀ ∈ l := by
      rw [← hflatten]
      exact List.mem_flatten.2 ⟨b, List.mem_reverse.2 hb, hx₀⟩
    have hover : OverlapIn start stop (l ++ [a]) x₀ a :=
      ⟨hsub hx₀l, hmem, (hstarts x₀ hx₀l).trans ha, hreach⟩
    refine ⟨?_, ?_, ?_, ?_⟩
    · rw [← hflatten]
      simp
    · intro b' hb'
      rcases List.mem_cons.1 hb' with rfl | hb'
      · simp
      · exact hnonempty b' (List.mem_cons_of_mem _ hb')
    · refine List.pairwise_cons.2 ⟨fun e he x hx y hy ↦ ?_, hdone⟩
      rcases List.mem_append.1 hy with hy | hy
      · exact hbefore e he x hx y hy
      · rw [List.mem_singleton.1 hy]
        exact hearlier e he x hx
    · intro b' hb'
      rcases List.mem_cons.1 hb' with rfl | hb'
      · intro x hx y hy
        rcases List.mem_append.1 hx with hx | hx <;> rcases List.mem_append.1 hy with hy | hy
        · exact hconnected' b hb x hx y hy
        · rw [List.mem_singleton.1 hy]
          exact (hconnected' b hb x hx x₀ hx₀).tail hover
        · rw [List.mem_singleton.1 hx]
          exact (hconnected' b hb x₀ hx₀ y hy).head hover.symm
        · exact hself x hx y hy
      · exact hconnected' b' (List.mem_cons_of_mem _ hb')
  · next hopen =>
    have hbeyond : ∀ x ∈ b, stop x < start a := fun x hx ↦ not_le.1 fun hle ↦ hopen ⟨x, hx, hle⟩
    refine ⟨?_, ?_, ?_, ?_⟩
    · rw [← hflatten]
      simp
    · intro b' hb'
      rcases List.mem_cons.1 hb' with rfl | hb'
      · exact List.cons_ne_nil _ _
      · exact hnonempty b' hb'
    · refine List.pairwise_cons.2 ⟨fun e he x hx y hy ↦ ?_, hseparated⟩
      rw [List.mem_singleton.1 hy]
      rcases List.mem_cons.1 he with rfl | he
      · exact hbeyond x hx
      · exact hearlier e he x hx
    · intro b' hb'
      rcases List.mem_cons.1 hb' with rfl | hb'
      · exact hself
      · exact hconnected' b' hb'

/-- **The run lemma**, for elements in the order of their starts. -/
theorem swept_sweepBack {l : List α} (hsorted : l.Pairwise fun a b ↦ start a ≤ start b)
    (hvalid : ∀ a ∈ l, start a ≤ stop a) : Swept start stop l (sweepBack start stop l) := by
  suffices h : ∀ rest pre : List α, l = pre ++ rest → ∀ blocks, Swept start stop pre blocks →
      Swept start stop l (rest.foldl (sweepStep start stop) blocks) from
    h l [] rfl [] ⟨rfl, List.forall_mem_nil _, List.Pairwise.nil, List.forall_mem_nil _⟩
  intro rest
  induction rest with
  | nil =>
    intro pre heq blocks h
    rw [heq, List.append_nil]
    exact h
  | cons a rest ih =>
    intro pre heq blocks h
    have hpre : ∀ x ∈ pre, start x ≤ start a := by
      rw [heq] at hsorted
      exact fun x hx ↦ (List.pairwise_append.1 hsorted).2.2 x hx a List.mem_cons_self
    have ha : a ∈ l := by
      rw [heq]
      exact List.mem_append_right _ List.mem_cons_self
    exact ih (pre ++ [a]) (by rw [heq, List.append_assoc, List.singleton_append]) _
      (h.step hpre (hvalid a ha))

/-- **Blocks are components**: what is connected to an element of a block is the block. -/
theorem Swept.mem_iff {l : List α} {blocks : List (List α)} (h : Swept start stop l blocks)
    {b : List α} (hb : b ∈ blocks) {x y : α} (hx : x ∈ b) :
    y ∈ b ↔ ReflTransGen (OverlapIn start stop l) x y := by
  refine ⟨h.connected b hb x hx y, fun hxy ↦ ?_⟩
  induction hxy with
  | refl => exact hx
  | @tail z w _ hzw ih =>
    obtain ⟨b', hb', hw⟩ := h.mem.1 hzw.2.1
    obtain ⟨i, hi, rfl⟩ := List.getElem_of_mem hb
    obtain ⟨j, hj, rfl⟩ := List.getElem_of_mem hb'
    rcases Nat.lt_trichotomy i j with hij | rfl | hij
    · exact absurd hzw.2.2.1
        (not_le.2 (List.pairwise_iff_getElem.1 h.separated i j hi hj hij w hw z ih))
    · exact hw
    · exact absurd hzw.2.2.2
        (not_le.2 (List.pairwise_iff_getElem.1 h.separated j i hj hi hij z ih w hw))

end Graph
