import ForgeData.Graph.Search

/-!
# Breadth-first search and distances

A breadth-first search that stops at a depth must not give a node a depth that is too large: what lies
behind the node would be cut off. The queue is kept in the order of the depths, so when a node of
depth `n` is expanded everything at a smaller distance has been expanded before, and a node first met
there is at distance `n + 1` exactly.
-/

namespace Graph

open Relation

section

variable {κ : Type*} {E E' : κ → κ → Prop} {a b c : κ} {m n : ℕ}

/-- A path of `n` arrows leads from `a` to the node. -/
inductive Path (E : κ → κ → Prop) (a : κ) : ℕ → κ → Prop
  | refl : Path E a 0 a
  | tail {n : ℕ} {b c : κ} : Path E a n b → E b c → Path E a (n + 1) c

/-- The shortest path to the node has `n` arrows. -/
structure IsDist (E : κ → κ → Prop) (a : κ) (n : ℕ) (b : κ) : Prop where
  path : Path E a n b
  le : ∀ m, Path E a m b → n ≤ m

theorem Path.head (h : E a b) (hpath : Path E b n c) : Path E a (n + 1) c := by
  induction hpath with
  | refl => exact .tail .refl h
  | tail _ hstep ih => exact .tail ih hstep

theorem Path.swap (h : Path E a n b) : Path (Function.swap E) b n a := by
  induction h with
  | refl => exact .refl
  | tail _ hstep ih => exact ih.head hstep

theorem isDist_swap : IsDist (Function.swap E) b n a ↔ IsDist E a n b :=
  ⟨fun h ↦ ⟨h.path.swap, fun m hm ↦ h.le m hm.swap⟩,
    fun h ↦ ⟨h.path.swap, fun m hm ↦ h.le m hm.swap⟩⟩

theorem isDist_congr (h : ∀ a b, E a b ↔ E' a b) : IsDist E a n b ↔ IsDist E' a n b := by
  rw [show E = E' from funext fun a ↦ funext fun b ↦ propext (h a b)]

theorem IsDist.unique (h : IsDist E a n b) (h' : IsDist E a m b) : n = m :=
  Nat.le_antisymm (h.le m h'.path) (h'.le n h.path)

theorem isDist_self : IsDist E a 0 a := ⟨.refl, fun m _ ↦ Nat.zero_le m⟩

theorem Path.exists_isDist (h : Path E a n b) : ∃ m ≤ n, IsDist E a m b := by
  classical
  have hex : ∃ m, Path E a m b := ⟨n, h⟩
  exact ⟨Nat.find hex, Nat.find_min' hex h, Nat.find_spec hex, fun m hm ↦ Nat.find_min' hex hm⟩

theorem exists_isDist_iff : (∃ n, IsDist E a n b) ↔ ReflTransGen E a b := by
  constructor
  · rintro ⟨n, h, -⟩
    induction h with
    | refl => exact .refl
    | tail _ hstep ih => exact ih.tail hstep
  · intro h
    have hpath : ∃ n, Path E a n b := by
      induction h with
      | refl => exact ⟨0, .refl⟩
      | tail _ hstep ih =>
        obtain ⟨n, hn⟩ := ih
        exact ⟨n + 1, hn.tail hstep⟩
    obtain ⟨n, hn⟩ := hpath
    obtain ⟨m, -, hm⟩ := hn.exists_isDist
    exact ⟨m, hm⟩

end

section

variable {κ ε : Type*} [DecidableEq κ] [DecidableEq ε] {arrows : κ → List ε} {target : ε → κ}
  {root : κ} {maxDepth : Option ℕ}

/-- What following arrows puts into the queue is one deeper. -/
theorem exists_more_frontier (target : ε → κ) (depth : ℕ) (l : List ε) (st : Bfs κ ε) :
    ∃ more, (l.foldl (follow target depth) st).frontier = st.frontier ++ more ∧
      ∀ p ∈ more, p.2 = depth + 1 := by
  induction l generalizing st with
  | nil => exact ⟨[], (List.append_nil _).symm, List.forall_mem_nil _⟩
  | cons e l ih =>
    obtain ⟨more, hmore, hdepth⟩ := ih (follow target depth st e)
    rw [List.foldl_cons, hmore, follow]
    dsimp only
    split
    · exact ⟨more, rfl, hdepth⟩
    · refine ⟨(target e, depth + 1) :: more, by rw [List.append_assoc, List.singleton_append],
        fun p hp ↦ ?_⟩
      rcases List.mem_cons.1 hp with rfl | hp
      · rfl
      · exact hdepth p hp

/-- **The invariant** of a search up to a depth: the queue holds distances, in order, that differ by one
at most, and every marked node outside of it is no deeper than the queue and has been expanded. -/
structure Layered (arrows : κ → List ε) (target : ε → κ) (maxDepth : Option ℕ) (root : κ)
    (st : Bfs κ ε) : Prop where
  start : root ∈ st.seen
  nodup : st.seen.Nodup
  dist : ∀ x ∈ st.seen, ∃ n, IsDist (Arrow arrows target) root n x ∧ ∀ d ∈ maxDepth, n ≤ d
  queued : ∀ p ∈ st.frontier, p.1 ∈ st.seen ∧ IsDist (Arrow arrows target) root p.2 p.1
  ordered : st.frontier.Pairwise fun p q ↦ p.2 ≤ q.2
  close : ∀ p ∈ st.frontier, ∀ q ∈ st.frontier, q.2 ≤ p.2 + 1
  done : ∀ x ∈ st.seen, x ∈ st.frontier.map Prod.fst ∨
    ∀ n, IsDist (Arrow arrows target) root n x →
      (∀ p ∈ st.frontier, n ≤ p.2) ∧
        ((∀ d ∈ maxDepth, n < d) → ∀ e ∈ arrows x, target e ∈ st.seen ∧ e ∈ st.arrows)
  arrowsOf : ∀ e ∈ st.arrows, ∃ x n, e ∈ arrows x ∧ IsDist (Arrow arrows target) root n x ∧
    ∀ d ∈ maxDepth, n < d

omit [DecidableEq κ] [DecidableEq ε] in
theorem layered_start : Layered arrows target maxDepth root (Bfs.start root) where
  start := List.mem_singleton_self _
  nodup := List.nodup_singleton _
  dist x hx := ⟨0, List.mem_singleton.1 hx ▸ isDist_self, fun d _ ↦ Nat.zero_le d⟩
  queued p hp := by
    rw [List.mem_singleton.1 hp]
    exact ⟨List.mem_singleton_self _, isDist_self⟩
  ordered := List.pairwise_singleton _ _
  close p hp q hq := by
    rw [List.mem_singleton.1 hp, List.mem_singleton.1 hq]
    exact Nat.le_succ 0
  done x hx := .inl hx
  arrowsOf := List.forall_mem_nil _

omit [DecidableEq κ] [DecidableEq ε] in
/-- Everything at a distance below the queue is marked. -/
theorem Layered.mem_seen {st : Bfs κ ε} (hJ : Layered arrows target maxDepth root st) {m : ℕ}
    (hqueue : ∀ p ∈ st.frontier, m ≤ p.2) (hmax : ∀ d ∈ maxDepth, m ≤ d) {j : ℕ} (hj : j ≤ m) {x : κ}
    (hx : IsDist (Arrow arrows target) root j x) : x ∈ st.seen := by
  induction j generalizing x with
  | zero =>
    rcases hx with ⟨hpath, -⟩
    cases hpath
    exact hJ.start
  | succ j ih =>
    obtain ⟨hpath, hle⟩ := hx
    rcases hpath with _ | ⟨hpath, e, he, rfl⟩
    rename_i w
    have hw : IsDist (Arrow arrows target) root j w := by
      refine ⟨hpath, fun k hk ↦ ?_⟩
      have := hle (k + 1) (hk.tail ⟨e, he, rfl⟩)
      omega
    rcases hJ.done w (ih (by omega) hw) with hqueued | hdone
    · obtain ⟨p, hp, rfl⟩ := List.mem_map.1 hqueued
      have hdepth := (hJ.queued p hp).2.unique hw
      have := hqueue p hp
      omega
    · refine ((hdone j hw).2 (fun d hd ↦ ?_) e he).1
      have := hmax d hd
      omega

variable {st : Bfs κ ε} {x : κ} {depth : ℕ} {rest : List (κ × ℕ)}

omit [DecidableEq κ] [DecidableEq ε] in
theorem Layered.first_le (hJ : Layered arrows target maxDepth root st)
    (hfrontier : st.frontier = (x, depth) :: rest) : ∀ p ∈ st.frontier, depth ≤ p.2 := by
  have hordered := hJ.ordered
  rw [hfrontier] at hordered ⊢
  intro p hp
  rcases List.mem_cons.1 hp with rfl | hp
  · exact Nat.le_refl _
  · exact (List.pairwise_cons.1 hordered).1 p hp

omit [DecidableEq κ] [DecidableEq ε] in
/-- A node at the maximal depth leaves the queue unexpanded. -/
theorem Layered.skip (hJ : Layered arrows target maxDepth root st)
    (hfrontier : st.frontier = (x, depth) :: rest) (hmax : ∃ d ∈ maxDepth, d ≤ depth) :
    Layered arrows target maxDepth root { st with frontier := rest } := by
  have hfirst := hJ.first_le hfrontier
  have hsub : ∀ p ∈ rest, p ∈ st.frontier := fun p hp ↦ by
    rw [hfrontier]
    exact List.mem_cons_of_mem _ hp
  refine ⟨hJ.start, hJ.nodup, hJ.dist, fun p hp ↦ hJ.queued p (hsub p hp), ?_,
    fun p hp q hq ↦ hJ.close p (hsub p hp) q (hsub q hq), fun y hy ↦ ?_, hJ.arrowsOf⟩
  · have hordered := hJ.ordered
    rw [hfrontier] at hordered
    exact (List.pairwise_cons.1 hordered).2
  · rcases hJ.done y hy with hqueued | hdone
    · rw [hfrontier, List.map_cons, List.mem_cons] at hqueued
      rcases hqueued with rfl | hqueued
      · have hx := (hJ.queued (y, depth) (hfrontier ▸ List.mem_cons_self ..)).2
        refine .inr fun n hn ↦ ⟨fun p hp ↦ ?_, fun hlt ↦ ?_⟩
        · exact hn.unique hx ▸ hfirst p (hsub p hp)
        · obtain ⟨d, hd, hle⟩ := hmax
          have heq := hn.unique hx
          have hnd := hlt d hd
          dsimp only at heq
          omega
      · exact .inl hqueued
    · exact .inr fun n hn ↦ ⟨fun p hp ↦ (hdone n hn).1 p (hsub p hp), (hdone n hn).2⟩

/-- **Expanding the first node of the queue** gives the new nodes their distance. -/
theorem Layered.expand (hJ : Layered arrows target maxDepth root st)
    (hfrontier : st.frontier = (x, depth) :: rest) (hmax : ∀ d ∈ maxDepth, depth < d) :
    Layered arrows target maxDepth root
      ((arrows x).foldl (follow target depth) { st with frontier := rest }) := by
  obtain ⟨new, hseen, hqueue, hfresh, hnodup, htargets, harrows⟩ :=
    exists_followed target depth (arrows x) { st with frontier := rest }
  obtain ⟨more, hmore, hdepth⟩ :=
    exists_more_frontier target depth (arrows x) { st with frontier := rest }
  have hfirst := hJ.first_le hfrontier
  have hsub : ∀ p ∈ rest, p ∈ st.frontier := fun p hp ↦ by
    rw [hfrontier]
    exact List.mem_cons_of_mem _ hp
  have hhead : (x, depth) ∈ st.frontier := by
    rw [hfrontier]
    exact List.mem_cons_self ..
  obtain ⟨hxseen, hx⟩ := hJ.queued (x, depth) hhead
  have hnames : more.map Prod.fst = new := by
    rw [hmore, List.map_append] at hqueue
    exact List.append_cancel_left hqueue
  have hold : ∀ y ∈ st.seen, y ∈ ((arrows x).foldl (follow target depth)
      { st with frontier := rest }).seen := fun y hy ↦ by
    rw [hseen]
    exact List.mem_append_left _ hy
  -- A shorter path to a new node would have marked it before.
  have hnew : ∀ y ∈ new, IsDist (Arrow arrows target) root (depth + 1) y := by
    intro y hy
    obtain ⟨hunseen, e, he, rfl⟩ := hfresh y hy
    refine ⟨hx.path.tail ⟨e, he, rfl⟩, fun k hk ↦ ?_⟩
    by_contra hlt
    obtain ⟨j, hj, hdist⟩ := hk.exists_isDist
    exact hunseen (hJ.mem_seen hfirst (fun d hd ↦ (hmax d hd).le) (by omega) hdist)
  have hle : ∀ p ∈ rest ++ more, depth ≤ p.2 ∧ p.2 ≤ depth + 1 := by
    intro p hp
    rcases List.mem_append.1 hp with hp | hp
    · exact ⟨hfirst p (hsub p hp), hJ.close (x, depth) hhead p (hsub p hp)⟩
    · rw [hdepth p hp]
      omega
  refine ⟨hold _ hJ.start, ?_, fun y hy ↦ ?_, fun p hp ↦ ?_, ?_, fun p hp q hq ↦ ?_, fun y hy ↦ ?_,
    fun e he ↦ ?_⟩
  · rw [hseen]
    exact List.nodup_append.2 ⟨hJ.nodup, hnodup, fun y hy z hz heq ↦ (hfresh z hz).1 (heq ▸ hy)⟩
  · rw [hseen] at hy
    rcases List.mem_append.1 hy with hy | hy
    · exact hJ.dist y hy
    · exact ⟨depth + 1, hnew y hy, hmax⟩
  · rw [hmore] at hp
    rcases List.mem_append.1 hp with hp | hp
    · exact ⟨hold _ (hJ.queued p (hsub p hp)).1, (hJ.queued p (hsub p hp)).2⟩
    · have hpnew : p.1 ∈ new := hnames ▸ List.mem_map_of_mem hp
      rw [hseen, hdepth p hp]
      exact ⟨List.mem_append_right _ hpnew, hnew p.1 hpnew⟩
  · rw [hmore]
    have hordered := hJ.ordered
    rw [hfrontier] at hordered
    refine List.pairwise_append.2 ⟨(List.pairwise_cons.1 hordered).2, ?_, fun p hp q hq ↦ ?_⟩
    · exact List.pairwise_of_forall_mem_list fun p hp q hq ↦ by rw [hdepth p hp, hdepth q hq]
    · rw [hdepth q hq]
      exact (hle p (List.mem_append_left _ hp)).2
  · rw [hmore] at hp hq
    have := hle p hp
    have := hle q hq
    omega
  · rw [hmore, List.map_append, hnames]
    by_cases hyx : y = x
    · subst hyx
      refine .inr fun n hn ↦ ⟨fun p hp ↦ ?_, fun _ e he ↦ ⟨htargets e he, (harrows e).2 (.inr he)⟩⟩
      rw [hn.unique hx]
      exact (hle p hp).1
    · rw [hseen] at hy
      rcases List.mem_append.1 hy with hy | hy
      · rcases hJ.done y hy with hqueued | hdone
        · rw [hfrontier, List.map_cons, List.mem_cons] at hqueued
          exact .inl (List.mem_append_left _ (hqueued.resolve_left hyx))
        · refine .inr fun n hn ↦ ⟨fun p hp ↦ ?_, fun hlt e he ↦ ?_⟩
          · exact ((hdone n hn).1 _ hhead).trans (hle p hp).1
          · obtain ⟨htarget, harrow⟩ := (hdone n hn).2 hlt e he
            exact ⟨hold _ htarget, (harrows e).2 (.inl harrow)⟩
      · exact .inl (List.mem_append_right _ hy)
  · rcases (harrows e).1 he with he | he
    · exact hJ.arrowsOf e he
    · exact ⟨x, depth, he, hx, hmax⟩

/-- A search keeps the invariant to its end. -/
theorem Layered.bfs {fuel : ℕ} {st' : Bfs κ ε} (hJ : Layered arrows target maxDepth root st)
    (h : bfs arrows target maxDepth fuel st = some st') :
    Layered arrows target maxDepth root st' ∧ st'.frontier = [] := by
  induction fuel generalizing st with
  | zero => cases h
  | succ fuel ih =>
    rw [Graph.bfs] at h
    split at h
    · next hnil =>
      obtain rfl := Option.some.inj h
      exact ⟨hJ, hnil⟩
    · next y depth rest hcons =>
      split at h
      · next hmax => exact ih (hJ.skip hcons hmax) h
      · next hmax =>
        refine ih (hJ.expand hcons fun d hd ↦ ?_) h
        by_contra hle
        exact hmax ⟨d, hd, not_lt.1 hle⟩

/-- **A search that ends has marked what lies within the depth.** -/
theorem mem_seen_iff_of_bfs_depth {fuel : ℕ}
    (h : bfs arrows target maxDepth fuel (Bfs.start root) = some st) (y : κ) :
    y ∈ st.seen ↔ ∃ n, IsDist (Arrow arrows target) root n y ∧ ∀ d ∈ maxDepth, n ≤ d := by
  obtain ⟨hJ, hnil⟩ := layered_start.bfs h
  refine ⟨hJ.dist y, fun ⟨n, hn, hmax⟩ ↦ hJ.mem_seen (m := n) (fun p hp ↦ ?_) hmax le_rfl hn⟩
  rw [hnil] at hp
  cases hp

theorem mem_arrows_iff_of_bfs_depth {fuel : ℕ}
    (h : bfs arrows target maxDepth fuel (Bfs.start root) = some st) (e : ε) :
    e ∈ st.arrows ↔ ∃ x n, e ∈ arrows x ∧ IsDist (Arrow arrows target) root n x ∧
      ∀ d ∈ maxDepth, n < d := by
  obtain ⟨hJ, hnil⟩ := layered_start.bfs h
  refine ⟨hJ.arrowsOf e, fun ⟨x, n, he, hn, hmax⟩ ↦ ?_⟩
  have hx : x ∈ st.seen := (mem_seen_iff_of_bfs_depth h x).2 ⟨n, hn, fun d hd ↦ (hmax d hd).le⟩
  rcases hJ.done x hx with hqueued | hdone
  · rw [hnil] at hqueued
    cases hqueued
  · exact ((hdone n hn).2 hmax e he).2

end

end Graph
