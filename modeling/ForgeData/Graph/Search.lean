import ForgeData.Graph.Reachability
import Mathlib.Algebra.GroupWithZero.Nat
import Mathlib.Data.List.Nodup
import Mathlib.Data.List.Perm.Subperm

/-!
# Searching a graph

Two iterative searches over a finite graph that is given by a function from nodes to their
successors.

* `search` looks for a goal with a stack; a node is marked when it is taken from the stack, so it may
  lie there several times.
* `bfs` collects what it can reach with a queue; a node is marked when it is put into the queue. It
  follows labelled arrows, remembers the arrows it has seen, and can be told to stop at a depth.

Both loops are bounded by fuel. That the fuel suffices is shown against a finite universe that is
closed under successors: for `search` every round takes one entry from the stack and every node puts
its successors there once, for `bfs` every node enters the queue once.
-/

namespace Graph

open Relation

/-! ## Looking for a goal -/

section

variable {κ : Type*} [DecidableEq κ]

/-- The loop of the search: the top of the stack is the head of the list. -/
def search (next : κ → List κ) (goal : κ) : ℕ → List κ → List κ → Option Bool
  | 0, _, _ => none
  | _ + 1, [], _ => some false
  | fuel + 1, x :: stack, visited =>
    if x = goal then some true
    else if x ∈ visited then search next goal fuel stack visited
    else search next goal fuel ((next x).reverse ++ stack) (x :: visited)

variable {next : κ → List κ} {goal : κ}

/-- A found goal can be reached from the stack. -/
theorem exists_reach_of_search {fuel : ℕ} {stack visited : List κ}
    (h : search next goal fuel stack visited = some true) :
    ∃ x ∈ stack, ReflTransGen (fun a b ↦ b ∈ next a) x goal := by
  induction fuel generalizing stack visited with
  | zero => cases h
  | succ fuel ih =>
    cases stack with
    | nil => cases h
    | cons x stack =>
      rw [search] at h
      split at h
      · next hx => exact ⟨x, List.mem_cons_self .., hx ▸ .refl⟩
      · split at h
        · obtain ⟨y, hy, hreach⟩ := ih h
          exact ⟨y, List.mem_cons_of_mem x hy, hreach⟩
        · obtain ⟨y, hy, hreach⟩ := ih h
          rcases List.mem_append.1 hy with hy | hy
          · exact ⟨x, List.mem_cons_self .., .head (List.mem_reverse.1 hy) hreach⟩
          · exact ⟨y, List.mem_cons_of_mem x hy, hreach⟩

/-- A search that ends without the goal has closed the marked nodes under successors: its invariant
is that the successors of marked nodes are marked or on the stack. -/
theorem exists_closed_of_search {fuel : ℕ} {stack visited : List κ}
    (h : search next goal fuel stack visited = some false) (hgoal : goal ∉ visited)
    (hinv : ∀ x ∈ visited, ∀ y ∈ next x, y ∈ visited ∨ y ∈ stack) :
    ∃ S : Set κ, (∀ x ∈ stack, x ∈ S) ∧ (∀ x ∈ S, ∀ y ∈ next x, y ∈ S) ∧ goal ∉ S := by
  suffices hsuff : ∃ S : Set κ, (∀ x ∈ visited, x ∈ S) ∧ (∀ x ∈ stack, x ∈ S) ∧
      (∀ x ∈ S, ∀ y ∈ next x, y ∈ S) ∧ goal ∉ S by
    obtain ⟨S, -, hrest⟩ := hsuff
    exact ⟨S, hrest⟩
  induction fuel generalizing stack visited with
  | zero => cases h
  | succ fuel ih =>
    cases stack with
    | nil =>
      -- nothing is left on the stack, so the marked nodes themselves are closed
      refine ⟨{x | x ∈ visited}, fun _ hx ↦ hx, List.forall_mem_nil _, fun x hx y hy ↦ ?_, hgoal⟩
      exact (hinv x hx y hy).resolve_right List.not_mem_nil
    | cons x stack =>
      rw [search] at h
      split at h
      · cases h
      next hx =>
      split at h
      · next hmem =>
        obtain ⟨S, hvis, hstack, hrest⟩ := ih h hgoal fun z hz y hy ↦ by
          rcases hinv z hz y hy with hy | hy
          · exact .inl hy
          · rcases List.mem_cons.1 hy with rfl | hy
            · exact .inl hmem
            · exact .inr hy
        exact ⟨S, hvis, fun z hz ↦ (List.mem_cons.1 hz).elim (fun h ↦ h ▸ hvis x hmem) (hstack z),
          hrest⟩
      -- a node marked now has all its successors pushed
      · obtain ⟨S, hvis, hstack, hrest⟩ := ih h
          (fun hmem ↦ (List.mem_cons.1 hmem).elim (fun heq ↦ hx heq.symm) hgoal) fun z hz y hy ↦ by
            rcases List.mem_cons.1 hz with rfl | hz
            · exact .inr (List.mem_append_left _ (List.mem_reverse.2 hy))
            · rcases hinv z hz y hy with hy | hy
              · exact .inl (List.mem_cons_of_mem x hy)
              · rcases List.mem_cons.1 hy with rfl | hy
                · exact .inl (List.mem_cons_self ..)
                · exact .inr (List.mem_append_right _ hy)
        refine ⟨S, fun z hz ↦ hvis z (List.mem_cons_of_mem x hz), fun z hz ↦ ?_, hrest⟩
        rcases List.mem_cons.1 hz with rfl | hz
        · exact hvis z (List.mem_cons_self ..)
        · exact hstack z (List.mem_append_right _ hz)

/-- **A search that ends is exact.** -/
theorem search_eq_some_iff {fuel : ℕ} {start : κ} {found : Bool}
    (h : search next goal fuel [start] [] = some found) :
    found = true ↔ ReflTransGen (fun a b ↦ b ∈ next a) start goal := by
  refine ⟨fun hfound ↦ ?_, fun hreach ↦ ?_⟩
  · subst hfound
    obtain ⟨x, hx, hreach⟩ := exists_reach_of_search h
    rwa [List.mem_singleton.1 hx] at hreach
  · by_contra hfound
    rw [Bool.not_eq_true] at hfound
    subst hfound
    obtain ⟨S, hstart, hclosed, hgoal⟩ := exists_closed_of_search h List.not_mem_nil
      (List.forall_mem_nil _)
    exact hgoal (mem_of_closed hclosed (hstart start (List.mem_singleton_self _)) hreach)

/-- The number of successors that unmarked nodes of the universe may still put on the stack. -/
def pending (next : κ → List κ) (U visited : List κ) : ℕ :=
  ((U.filter (· ∉ visited)).map fun x ↦ (next x).length).sum

theorem pending_cons {U visited : List κ} {x : κ} (hU : U.Nodup) (hx : x ∈ U)
    (hvisited : x ∉ visited) :
    pending next U visited = (next x).length + pending next U (x :: visited) := by
  have hperm : (U.filter (· ∉ visited)).Perm (x :: U.filter (· ∉ x :: visited)) := by
    refine (List.perm_ext_iff_of_nodup (hU.filter _) ?_).2 fun y ↦ ?_
    · rw [List.nodup_cons]
      exact ⟨by simp, hU.filter _⟩
    · simp only [List.mem_filter, List.mem_cons, decide_eq_true_eq, not_or]
      by_cases hyx : y = x
      · subst hyx
        simp [hx, hvisited]
      · simp [hyx]
  rw [pending, (hperm.map _).sum_nat, List.map_cons, List.sum_cons, ← pending]

/-- If every arrow leaves one node only, the nodes have no more successors than there are arrows. -/
theorem pending_nil_le {ε : Type*} {U : List κ} (hU : U.Nodup) (source : ε → κ) {l : List ε}
    (hnext : ∀ x, (next x).length = (l.filter (source · = x)).length) :
    pending next U [] ≤ l.length := by
  suffices hsuff : ∀ l : List ε, (U.map fun x ↦ (l.filter (source · = x)).length).sum ≤ l.length by
    simpa [pending, hnext] using hsuff l
  clear hnext
  induction U with
  | nil => exact fun _ ↦ Nat.zero_le _
  | cons x U ih =>
    intro l
    obtain ⟨hx, hU⟩ := List.nodup_cons.1 hU
    have hrest : ∀ y ∈ U, l.filter (source · = y)
        = (l.filter (source · ≠ x)).filter (source · = y) := fun y hy ↦ by
      rw [List.filter_filter]
      refine List.filter_congr fun e _ ↦ ?_
      by_cases he : source e = y
      · simp [he, show y ≠ x from fun heq ↦ hx (heq ▸ hy)]
      · simp [he]
    have hsplit := List.length_eq_length_filter_add (l := l) (fun e ↦ decide (source e = x))
    have hle := ih hU (l.filter (source · ≠ x))
    rw [List.map_cons, List.sum_cons, List.map_congr_left fun y hy ↦ by rw [hrest y hy]]
    simp only [ne_eq, decide_not] at hle ⊢
    omega

/-- **The fuel suffices** if it exceeds what is on the stack and what may still get there. -/
theorem exists_search_eq_some {U : List κ} (hU : U.Nodup)
    (hclosed : ∀ x ∈ U, ∀ y ∈ next x, y ∈ U) {fuel : ℕ} {stack visited : List κ}
    (hstack : ∀ x ∈ stack, x ∈ U) (hfuel : stack.length + pending next U visited < fuel) :
    ∃ found, search next goal fuel stack visited = some found := by
  induction fuel generalizing stack visited with
  | zero => omega
  | succ fuel ih =>
    cases stack with
    | nil => exact ⟨false, rfl⟩
    | cons x stack =>
      rw [List.length_cons] at hfuel
      have hx := hstack x (List.mem_cons_self ..)
      have hrest : ∀ y ∈ stack, y ∈ U := fun y hy ↦ hstack y (List.mem_cons_of_mem x hy)
      rw [search]
      split
      · exact ⟨true, rfl⟩
      split
      · exact ih hrest (by omega)
      · next hvisited =>
        refine ih (fun y hy ↦ ?_) ?_
        · rcases List.mem_append.1 hy with hy | hy
          · exact hclosed x hx y (List.mem_reverse.1 hy)
          · exact hrest y hy
        · rw [pending_cons hU hx hvisited] at hfuel
          rw [List.length_append, List.length_reverse]
          omega

end

/-! ## Collecting what can be reached -/

/-- The variables of the loop: the queue with the depths, the marked nodes and the seen arrows. -/
structure Bfs (κ ε : Type*) where
  frontier : List (κ × ℕ)
  seen : List κ
  arrows : List ε

section

variable {κ ε : Type*} [DecidableEq κ] [DecidableEq ε]

/-- Follow one arrow from a node at the given depth. -/
def follow (target : ε → κ) (depth : ℕ) (st : Bfs κ ε) (e : ε) : Bfs κ ε where
  frontier := if target e ∈ st.seen then st.frontier else st.frontier ++ [(target e, depth + 1)]
  seen := if target e ∈ st.seen then st.seen else st.seen ++ [target e]
  arrows := if e ∈ st.arrows then st.arrows else st.arrows ++ [e]

/-- The loop: nodes at the maximal depth are not expanded. -/
def bfs (arrows : κ → List ε) (target : ε → κ) (maxDepth : Option ℕ) :
    ℕ → Bfs κ ε → Option (Bfs κ ε)
  | 0, _ => none
  | fuel + 1, st =>
    match st.frontier with
    | [] => some st
    | (x, depth) :: rest =>
      if ∃ d ∈ maxDepth, d ≤ depth then bfs arrows target maxDepth fuel { st with frontier := rest }
      else bfs arrows target maxDepth fuel
        ((arrows x).foldl (follow target depth) { st with frontier := rest })

/-- The start of a collection. -/
def Bfs.start (root : κ) : Bfs κ ε := ⟨[(root, 0)], [root], []⟩

variable {arrows : κ → List ε} {target : ε → κ} {root x : κ} {depth : ℕ}

/-- What following some arrows adds: the same new nodes to the queue and to the marked nodes, and
the arrows. -/
structure Followed (target : ε → κ) (l : List ε) (st st' : Bfs κ ε) (new : List κ) : Prop where
  seen : st'.seen = st.seen ++ new
  frontier : st'.frontier.map Prod.fst = st.frontier.map Prod.fst ++ new
  fresh : ∀ y ∈ new, y ∉ st.seen ∧ ∃ e ∈ l, target e = y
  nodup : new.Nodup
  targets : ∀ e ∈ l, target e ∈ st'.seen
  arrows : ∀ e, e ∈ st'.arrows ↔ e ∈ st.arrows ∨ e ∈ l

theorem exists_followed (target : ε → κ) (depth : ℕ) (l : List ε) (st : Bfs κ ε) :
    ∃ new, Followed target l st (l.foldl (follow target depth) st) new := by
  induction l generalizing st with
  | nil =>
    exact ⟨[], ⟨(List.append_nil _).symm, (List.append_nil _).symm, List.forall_mem_nil _,
      List.nodup_nil, List.forall_mem_nil _, fun e ↦ (or_iff_left List.not_mem_nil).symm⟩⟩
  | cons e l ih =>
    obtain ⟨new, hseen, hfrontier, hfresh, hnodup, htargets, harrows⟩ :=
      ih (follow target depth st e)
    -- an edge is collected whether or not its target has been seen
    have harrows' : ∀ e', e' ∈ ((e :: l).foldl (follow target depth) st).arrows ↔
        e' ∈ st.arrows ∨ e' ∈ e :: l := fun e' ↦ by
      rw [List.foldl_cons, harrows, follow, List.mem_cons]
      dsimp only
      split
      · next he => exact ⟨Or.imp_right .inr, fun h ↦ h.elim .inl fun h ↦ h.elim
          (fun heq ↦ .inl (heq ▸ he)) .inr⟩
      · rw [List.mem_append, List.mem_singleton, or_assoc]
    rw [List.foldl_cons] at harrows' ⊢
    by_cases he : target e ∈ st.seen
    · have hseen₁ : (follow target depth st e).seen = st.seen := if_pos he
      have hfrontier₁ : (follow target depth st e).frontier = st.frontier := if_pos he
      rw [hseen₁] at hseen hfresh
      rw [hfrontier₁] at hfrontier
      refine ⟨new, hseen, hfrontier, fun y hy ↦ ?_, hnodup, fun e' he' ↦ ?_, harrows'⟩
      · obtain ⟨hold, e', he', heq⟩ := hfresh y hy
        exact ⟨hold, e', List.mem_cons_of_mem e he', heq⟩
      · rcases List.mem_cons.1 he' with rfl | he'
        · rw [hseen]
          exact List.mem_append_left _ he
        · exact htargets e' he'
    · have hseen₁ : (follow target depth st e).seen = st.seen ++ [target e] := if_neg he
      have hfrontier₁ : (follow target depth st e).frontier
          = st.frontier ++ [(target e, depth + 1)] := if_neg he
      rw [hseen₁] at hseen hfresh
      rw [hfrontier₁] at hfrontier
      -- the target counts as seen from here on, so it is not found twice
      have hnew : target e ∉ new := fun hmem ↦
        (hfresh _ hmem).1 (List.mem_append_right _ (List.mem_singleton_self _))
      refine ⟨target e :: new, ?_, ?_, fun y hy ↦ ?_, List.nodup_cons.2 ⟨hnew, hnodup⟩,
        fun e' he' ↦ ?_, harrows'⟩
      · rw [List.append_cons]
        exact hseen
      · rw [List.append_cons]
        simpa using hfrontier
      · rcases List.mem_cons.1 hy with rfl | hy
        · exact ⟨he, e, List.mem_cons_self .., rfl⟩
        · obtain ⟨hold, e', he', heq⟩ := hfresh y hy
          exact ⟨fun h ↦ hold (List.mem_append_left _ h), e', List.mem_cons_of_mem e he', heq⟩
      · rcases List.mem_cons.1 he' with rfl | he'
        · rw [hseen]
          simp
        · exact htargets e' he'

/-- An arrow leads from the one node to the other. -/
def Arrow (arrows : κ → List ε) (target : ε → κ) (a b : κ) : Prop := ∃ e ∈ arrows a, target e = b

/-- What the loop keeps: marked nodes can be reached, and the arrows of those that are no longer in
the queue have been followed. -/
structure Collecting (arrows : κ → List ε) (target : ε → κ) (root : κ) (st : Bfs κ ε) : Prop where
  start : root ∈ st.seen
  nodup : st.seen.Nodup
  sound : ∀ y ∈ st.seen, ReflTransGen (Arrow arrows target) root y
  queued : ∀ y ∈ st.frontier.map Prod.fst, y ∈ st.seen
  closed : ∀ x ∈ st.seen, x ∈ st.frontier.map Prod.fst ∨
    ∀ e ∈ arrows x, target e ∈ st.seen ∧ e ∈ st.arrows
  arrowsOf : ∀ e ∈ st.arrows, ∃ x ∈ st.seen, e ∈ arrows x

omit [DecidableEq κ] [DecidableEq ε] in
theorem collecting_start : Collecting arrows target root (Bfs.start root) where
  start := List.mem_singleton_self _
  nodup := List.nodup_singleton _
  sound _ hy := List.mem_singleton.1 hy ▸ .refl
  queued _ hy := hy
  closed _ hx := .inl hx
  arrowsOf := List.forall_mem_nil _

/-- **Expanding the first node of the queue** keeps the invariant. -/
theorem Collecting.expand {st : Bfs κ ε} {rest : List (κ × ℕ)}
    (hJ : Collecting arrows target root st) (hfrontier : st.frontier = (x, depth) :: rest) :
    Collecting arrows target root
      ((arrows x).foldl (follow target depth) { st with frontier := rest }) := by
  obtain ⟨new, hseen, hqueue, hfresh, hnodup, htargets, harrows⟩ :=
    exists_followed target depth (arrows x) { st with frontier := rest }
  have hx : x ∈ st.seen := hJ.queued x (by rw [hfrontier]; exact List.mem_cons_self ..)
  have hold : ∀ y ∈ st.seen, y ∈ ((arrows x).foldl (follow target depth)
      { st with frontier := rest }).seen := fun y hy ↦ by
    rw [hseen]
    exact List.mem_append_left _ hy
  refine ⟨hold _ hJ.start, ?_, fun y hy ↦ ?_, fun y hy ↦ ?_, fun y hy ↦ ?_, fun e he ↦ ?_⟩
  · rw [hseen]
    exact List.nodup_append.2 ⟨hJ.nodup, hnodup, fun y hy z hz heq ↦ (hfresh z hz).1 (heq ▸ hy)⟩
  · rw [hseen] at hy
    rcases List.mem_append.1 hy with hy | hy
    · exact hJ.sound y hy
    · obtain ⟨-, e, he, heq⟩ := hfresh y hy
      exact (hJ.sound x hx).tail ⟨e, he, heq⟩
  · rw [hqueue] at hy
    rw [hseen]
    rcases List.mem_append.1 hy with hy | hy
    · refine List.mem_append_left _ (hJ.queued y ?_)
      rw [hfrontier]
      exact List.mem_cons_of_mem x hy
    · exact List.mem_append_right _ hy
  · rw [hqueue]
    by_cases hyx : y = x
    · subst hyx
      exact .inr fun e he ↦ ⟨htargets e he, (harrows e).2 (.inr he)⟩
    · rw [hseen] at hy
      rcases List.mem_append.1 hy with hy | hy
      · rcases hJ.closed y hy with hqueued | hdone
        · rw [hfrontier, List.map_cons, List.mem_cons] at hqueued
          exact .inl (List.mem_append_left _ (hqueued.resolve_left hyx))
        · exact .inr fun e he ↦ ⟨hold _ (hdone e he).1, (harrows e).2 (.inl (hdone e he).2)⟩
      · exact .inl (List.mem_append_right _ hy)
  · rcases (harrows e).1 he with he | he
    · obtain ⟨y, hy, hey⟩ := hJ.arrowsOf e he
      exact ⟨y, hold y hy, hey⟩
    · exact ⟨x, hold x hx, he⟩

theorem Collecting.bfs {fuel : ℕ} {st st' : Bfs κ ε} (hJ : Collecting arrows target root st)
    (h : bfs arrows target none fuel st = some st') :
    Collecting arrows target root st' ∧ st'.frontier = [] := by
  induction fuel generalizing st with
  | zero => cases h
  | succ fuel ih =>
    rw [Graph.bfs] at h
    split at h
    · next hnil =>
      obtain rfl := Option.some.inj h
      exact ⟨hJ, hnil⟩
    · next y depth rest hcons =>
      rw [if_neg (by simp)] at h
      exact ih (hJ.expand hcons) h

/-- **A collection that ends is exact.** -/
theorem mem_seen_iff_of_bfs {fuel : ℕ} {st : Bfs κ ε}
    (h : bfs arrows target none fuel (Bfs.start root) = some st) (y : κ) :
    y ∈ st.seen ↔ ReflTransGen (Arrow arrows target) root y := by
  obtain ⟨hJ, hnil⟩ := collecting_start.bfs h
  refine ⟨hJ.sound y, fun hreach ↦ ?_⟩
  refine mem_of_closed (S := {y | y ∈ st.seen}) (fun x hx z hz ↦ ?_) hJ.start hreach
  obtain ⟨e, he, rfl⟩ := hz
  rcases hJ.closed x hx with hqueued | hdone
  · rw [hnil] at hqueued
    cases hqueued
  · exact (hdone e he).1

/-- The nodes of the universe that are not marked yet. -/
def unseen (U seen : List κ) : ℕ := (U.filter (· ∉ seen)).length

/-- Marking new nodes of the universe uses them up. -/
theorem unseen_append {U seen new : List κ} (hnew : new.Nodup)
    (hfresh : ∀ y ∈ new, y ∈ U ∧ y ∉ seen) :
    new.length + unseen U (seen ++ new) ≤ unseen U seen := by
  have hsplit : (U.filter (· ∉ seen)).length
      = ((U.filter (· ∉ seen)).filter (· ∈ new)).length
        + ((U.filter (· ∉ seen)).filter (· ∉ new)).length := by
    simpa [List.countP_eq_length_filter] using
      List.length_eq_countP_add_countP (fun y ↦ decide (y ∈ new)) (l := U.filter (· ∉ seen))
  have hsub : new ⊆ (U.filter (· ∉ seen)).filter (· ∈ new) := fun y hy ↦ by
    simpa [hy] using hfresh y hy
  have hle := (List.subperm_of_subset hnew hsub).length_le
  have hrest : ((U.filter (· ∉ seen)).filter (· ∉ new)).length = unseen U (seen ++ new) := by
    rw [unseen, List.filter_filter]
    congr 1
    refine List.filter_congr fun y _ ↦ ?_
    simp [Bool.and_comm]
  rw [← hrest]
  unfold unseen
  omega

/-- **The fuel suffices** if it exceeds what is in the queue and what may still get there. -/
theorem exists_bfs_eq_some {U : List κ} {maxDepth : Option ℕ}
    (hU : ∀ x ∈ U, ∀ e ∈ arrows x, target e ∈ U) {fuel : ℕ} {st : Bfs κ ε}
    (hqueue : ∀ p ∈ st.frontier, p.1 ∈ U)
    (hfuel : st.frontier.length + unseen U st.seen < fuel) :
    ∃ st', bfs arrows target maxDepth fuel st = some st' := by
  induction fuel generalizing st with
  | zero => omega
  | succ fuel ih =>
    rw [bfs]
    split
    · exact ⟨st, rfl⟩
    next y depth rest hcons =>
    have hrest : ∀ p ∈ rest, p.1 ∈ U := fun p hp ↦ hqueue p (hcons ▸ List.mem_cons_of_mem _ hp)
    rw [hcons, List.length_cons] at hfuel
    split
    · exact ih hrest (by dsimp only; omega)
    · obtain ⟨new, hseen, hq, hfresh, hnodup, -, -⟩ :=
        exists_followed target depth (arrows y) { st with frontier := rest }
      have hy : y ∈ U := hqueue (y, depth) (hcons ▸ List.mem_cons_self ..)
      have hnew : ∀ z ∈ new, z ∈ U ∧ z ∉ st.seen := fun z hz ↦ by
        obtain ⟨hold, e, he, rfl⟩ := hfresh z hz
        exact ⟨hU y hy e he, hold⟩
      refine ih (fun p hp ↦ ?_) ?_
      · have hp' := List.mem_map_of_mem (f := Prod.fst) hp
        rw [hq] at hp'
        rcases List.mem_append.1 hp' with hp' | hp'
        · obtain ⟨p', hp'', heq⟩ := List.mem_map.1 hp'
          exact heq ▸ hrest p' hp''
        · exact (hnew _ hp').1
      · have hlen := congrArg List.length hq
        rw [List.length_map, List.length_append, List.length_map] at hlen
        have hle := unseen_append (U := U) hnodup hnew
        rw [hlen, hseen]
        dsimp only at hle ⊢
        omega

end

end Graph
