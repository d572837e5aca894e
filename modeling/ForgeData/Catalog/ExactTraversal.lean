import ForgeData.Catalog.Impact
import ForgeData.Graph.Distance

/-!
# What a traversal returns

For every direction and every maximal depth: the artifacts whose distance from the root is at most the
depth, and the stored edges that leave one at a smaller distance. Distances against the edges are the
same, so an artifact is found downstream of another if and only if the other is found upstream of it.
-/

namespace ForgeData

open Python Graph Relation

variable {db : CatalogDb} {root k : ArtifactKey} {maxDepth : Option ℕ} {e : EdgeRow}

namespace CatalogDb

/-! ## One direction -/

theorem mem_seen_upstream_depth_iff :
    k ∈ (db.collect db.getParents EdgeRow.parent maxDepth root).seen ↔
      ∃ n, IsDist db.Edge k n root ∧ ∀ d ∈ maxDepth, n ≤ d := by
  rw [mem_seen_iff_of_bfs_depth (bfs_upstream root maxDepth)]
  refine exists_congr fun n ↦ and_congr_left fun _ ↦ ?_
  rw [← isDist_swap]
  exact isDist_congr fun _ _ ↦ arrow_getParents_iff

theorem mem_seen_downstream_depth_iff :
    k ∈ (db.collect db.getChildren EdgeRow.child maxDepth root).seen ↔
      ∃ n, IsDist db.Edge root n k ∧ ∀ d ∈ maxDepth, n ≤ d := by
  rw [mem_seen_iff_of_bfs_depth (bfs_downstream root maxDepth)]
  exact exists_congr fun n ↦ and_congr_left fun _ ↦ isDist_congr fun _ _ ↦ arrow_getChildren_iff

theorem mem_arrows_upstream_iff :
    e ∈ (db.collect db.getParents EdgeRow.parent maxDepth root).arrows ↔
      e ∈ db.lineageEdges ∧ ∃ n, IsDist db.Edge e.child n root ∧ ∀ d ∈ maxDepth, n < d := by
  rw [mem_arrows_iff_of_bfs_depth (bfs_upstream root maxDepth)]
  constructor
  · rintro ⟨x, n, he, hn, hmax⟩
    obtain ⟨hstored, rfl⟩ := mem_getParents.1 he
    refine ⟨hstored, n, ?_, hmax⟩
    rw [← isDist_swap]
    exact (isDist_congr fun _ _ ↦ arrow_getParents_iff).1 hn
  · rintro ⟨he, n, hn, hmax⟩
    refine ⟨e.child, n, mem_getParents.2 ⟨he, rfl⟩, ?_, hmax⟩
    rw [← isDist_swap] at hn
    exact (isDist_congr fun _ _ ↦ arrow_getParents_iff).2 hn

theorem mem_arrows_downstream_iff :
    e ∈ (db.collect db.getChildren EdgeRow.child maxDepth root).arrows ↔
      e ∈ db.lineageEdges ∧ ∃ n, IsDist db.Edge root n e.parent ∧ ∀ d ∈ maxDepth, n < d := by
  rw [mem_arrows_iff_of_bfs_depth (bfs_downstream root maxDepth)]
  constructor
  · rintro ⟨x, n, he, hn, hmax⟩
    obtain ⟨hstored, rfl⟩ := mem_getChildren.1 he
    exact ⟨hstored, n, (isDist_congr fun _ _ ↦ arrow_getChildren_iff).1 hn, hmax⟩
  · rintro ⟨he, n, hn, hmax⟩
    exact ⟨e.parent, n, mem_getChildren.2 ⟨he, rfl⟩,
      (isDist_congr fun _ _ ↦ arrow_getChildren_iff).2 hn, hmax⟩

/-! ## Traversals -/

end CatalogDb

/-- The keys of the nodes of a traversal. -/
def Traversal.keys (t : Traversal) : List ArtifactKey := t.nodes.map Prod.fst

/-- A traversal is exact for a distance from the root: it has the artifacts within the depth and the
edges that leave one below it, each once. -/
structure Traversal.IsExact (t : Traversal) (db : CatalogDb) (maxDepth : Option ℕ)
    (dist : ℕ → ArtifactKey → Prop) (source : EdgeRow → ArtifactKey) : Prop where
  keys_nodup : t.keys.Nodup
  edges_nodup : t.edges.Nodup
  rows : ∀ p ∈ t.nodes, db.getArtifact p.1 = some p.2
  mem_keys_iff : ∀ k, k ∈ t.keys ↔ ∃ n, dist n k ∧ ∀ d ∈ maxDepth, n ≤ d
  mem_edges_iff : ∀ e, e ∈ t.edges ↔
    e ∈ db.lineageEdges ∧ ∃ n, dist n (source e) ∧ ∀ d ∈ maxDepth, n < d

namespace CatalogDb

theorem registered_of_isDist {a b : ArtifactKey} {n : ℕ} (h : IsDist db.Edge a n b) :
    db.Registered a ↔ db.Registered b := by
  rcases eq_or_transGen_of_reflTransGen (exists_isDist_iff.1 ⟨n, h⟩) with rfl | htrans
  · exact Iff.rfl
  · obtain ⟨ha, hb⟩ := registered_of_transGen htrans
    exact iff_of_true ha hb

theorem keys_filterMap_nodup {l : List ArtifactKey} (h : l.Nodup) :
    ((l.filterMap fun k ↦ (db.getArtifact k).map fun row ↦ (k, row)).map Prod.fst).Nodup := by
  refine List.Nodup.sublist ?_ h
  induction l with
  | nil => exact List.Sublist.refl _
  | cons k l ih =>
    have htail := ih (List.nodup_cons.1 h).2
    rw [List.filterMap_cons]
    rcases db.getArtifact k with _ | row
    · exact htail.cons k
    · exact htail.cons_cons _

theorem traverse_nodup (db : CatalogDb) (root : ArtifactKey) (direction : Direction)
    (maxDepth : Option ℕ) :
    (db.traverse root direction maxDepth).keys.Nodup ∧
      (db.traverse root direction maxDepth).edges.Nodup ∧
      ∀ p ∈ (db.traverse root direction maxDepth).nodes, db.getArtifact p.1 = some p.2 := by
  refine ⟨?_, ?_, fun p hp ↦ ?_⟩
  · exact ((perm_sortedBy _ _).map Prod.fst).nodup_iff.2 (keys_filterMap_nodup (List.nodup_dedup _))
  · exact (perm_sortedBy _ _).nodup_iff.2 (List.nodup_dedup _)
  · obtain ⟨k, -, hk⟩ := List.mem_filterMap.1 (mem_sortedBy.1 hp)
    obtain ⟨row, hrow, rfl⟩ := Option.map_eq_some_iff.1 hk
    exact hrow

/-- What a search has marked, where it is part of a traversal. -/
theorem mem_keys_traverse_iff {direction : Direction} :
    k ∈ (db.traverse root direction maxDepth).keys ↔ db.Registered k ∧
      (k = root ∨
        direction ≠ .downstream ∧ k ∈ (db.collect db.getParents EdgeRow.parent maxDepth root).seen ∨
        direction ≠ .upstream ∧ k ∈ (db.collect db.getChildren EdgeRow.child maxDepth root).seen) := by
  have hkeys : k ∈ (db.traverse root direction maxDepth).keys ↔ db.Registered k ∧
      (k ∈ (if direction = .downstream then Bfs.start root
          else db.collect db.getParents EdgeRow.parent maxDepth root).seen ∨
        k ∈ (if direction = .upstream then Bfs.start root
          else db.collect db.getChildren EdgeRow.child maxDepth root).seen) := by
    simp only [Traversal.keys, traverse, List.mem_map, mem_sortedBy, List.mem_filterMap,
      Option.map_eq_some_iff, List.mem_dedup, List.mem_append, registered_iff]
    constructor
    · rintro ⟨p, ⟨k', hk', row, hrow, rfl⟩, rfl⟩
      exact ⟨⟨row, hrow⟩, hk'⟩
    · rintro ⟨⟨row, hrow⟩, hk⟩
      exact ⟨(k, row), ⟨k, hk, row, hrow, rfl⟩, rfl⟩
  have hstart : k ∈ (Bfs.start root : Bfs ArtifactKey EdgeRow).seen ↔ k = root := List.mem_singleton
  have hups : k = root → k ∈ (db.collect db.getParents EdgeRow.parent maxDepth root).seen := by
    rintro rfl
    exact mem_seen_upstream_depth_iff.2 ⟨0, isDist_self, fun d _ ↦ Nat.zero_le d⟩
  rw [hkeys]
  refine and_congr_right fun _ ↦ ?_
  cases direction with
  | upstream => simp [hstart, or_comm]
  | downstream => simp [hstart]
  | both =>
    simp only [reduceCtorEq, if_false, ne_eq, not_false_eq_true, true_and]
    exact ⟨.inr, fun h ↦ h.elim (fun hk ↦ .inl (hups hk)) id⟩

theorem mem_edges_traverse_iff {direction : Direction} :
    e ∈ (db.traverse root direction maxDepth).edges ↔
      direction ≠ .downstream ∧ e ∈ (db.collect db.getParents EdgeRow.parent maxDepth root).arrows ∨
        direction ≠ .upstream ∧
          e ∈ (db.collect db.getChildren EdgeRow.child maxDepth root).arrows := by
  have hstart : e ∉ (Bfs.start root : Bfs ArtifactKey EdgeRow).arrows := List.not_mem_nil
  simp only [traverse, mem_sortedBy, List.mem_dedup, List.mem_append]
  cases direction <;> simp [hstart]

/-! ## Exactness -/

theorem traverse_upstream_isExact (hroot : db.Registered root) (maxDepth : Option ℕ) :
    (db.traverse root .upstream maxDepth).IsExact db maxDepth
      (fun n k ↦ IsDist db.Edge k n root) EdgeRow.child := by
  obtain ⟨hkeys, hedges, hrows⟩ := traverse_nodup db root .upstream maxDepth
  refine ⟨hkeys, hedges, hrows, fun k ↦ ?_, fun e ↦ ?_⟩
  · rw [mem_keys_traverse_iff]
    constructor
    · rintro ⟨-, rfl | ⟨-, hk⟩ | ⟨hne, -⟩⟩
      · exact ⟨0, isDist_self, fun d _ ↦ Nat.zero_le d⟩
      · exact mem_seen_upstream_depth_iff.1 hk
      · exact absurd rfl hne
    · rintro ⟨n, hn, hmax⟩
      exact ⟨(registered_of_isDist hn).2 hroot,
        .inr (.inl ⟨nofun, mem_seen_upstream_depth_iff.2 ⟨n, hn, hmax⟩⟩)⟩
  · rw [mem_edges_traverse_iff, mem_arrows_upstream_iff]
    simp

theorem traverse_downstream_isExact (hroot : db.Registered root) (maxDepth : Option ℕ) :
    (db.traverse root .downstream maxDepth).IsExact db maxDepth
      (fun n k ↦ IsDist db.Edge root n k) EdgeRow.parent := by
  obtain ⟨hkeys, hedges, hrows⟩ := traverse_nodup db root .downstream maxDepth
  refine ⟨hkeys, hedges, hrows, fun k ↦ ?_, fun e ↦ ?_⟩
  · rw [mem_keys_traverse_iff]
    constructor
    · rintro ⟨-, rfl | ⟨hne, -⟩ | ⟨-, hk⟩⟩
      · exact ⟨0, isDist_self, fun d _ ↦ Nat.zero_le d⟩
      · exact absurd rfl hne
      · exact mem_seen_downstream_depth_iff.1 hk
    · rintro ⟨n, hn, hmax⟩
      exact ⟨(registered_of_isDist hn).1 hroot,
        .inr (.inr ⟨nofun, mem_seen_downstream_depth_iff.2 ⟨n, hn, hmax⟩⟩)⟩
  · rw [mem_edges_traverse_iff, mem_arrows_downstream_iff]
    simp

theorem exists_isDist_none_iff {dist : ℕ → Prop} :
    (∃ n, dist n ∧ ∀ d ∈ (none : Option ℕ), n ≤ d) ↔ ∃ n, dist n := by
  simp

/-- **Traversals are exact.** Both searches come to an end. Upstream and downstream a traversal
returns exactly the artifacts within the depth and the edges that leave one below it, each once; in
both directions it returns the union. Downstream of `x` is what `x` is upstream of. -/
theorem traverse_exact (db : CatalogDb) (root : ArtifactKey) (hroot : db.Registered root)
    (maxDepth : Option ℕ) :
    ((∃ st, bfs db.getParents EdgeRow.parent maxDepth (2 * db.lineageEdges.length + 2)
        (Bfs.start root) = some st) ∧
      ∃ st, bfs db.getChildren EdgeRow.child maxDepth (2 * db.lineageEdges.length + 2)
        (Bfs.start root) = some st) ∧
    (db.traverse root .upstream maxDepth).IsExact db maxDepth
      (fun n k ↦ IsDist db.Edge k n root) EdgeRow.child ∧
    (db.traverse root .downstream maxDepth).IsExact db maxDepth
      (fun n k ↦ IsDist db.Edge root n k) EdgeRow.parent ∧
    ((db.traverse root .both maxDepth).keys.Nodup ∧ (db.traverse root .both maxDepth).edges.Nodup ∧
      (∀ k, k ∈ (db.traverse root .both maxDepth).keys ↔
        k ∈ (db.traverse root .upstream maxDepth).keys ∨
          k ∈ (db.traverse root .downstream maxDepth).keys) ∧
      ∀ e, e ∈ (db.traverse root .both maxDepth).edges ↔
        e ∈ (db.traverse root .upstream maxDepth).edges ∨
          e ∈ (db.traverse root .downstream maxDepth).edges) ∧
    (maxDepth = none →
      (∀ k, k ∈ (db.traverse root .upstream maxDepth).keys ↔ db.Upstream k root) ∧
      (∀ k, k ∈ (db.traverse root .downstream maxDepth).keys ↔ db.Upstream root k) ∧
      (∀ e, e ∈ (db.traverse root .upstream maxDepth).edges ↔
        e ∈ db.lineageEdges ∧ db.Upstream e.child root) ∧
      ∀ e, e ∈ (db.traverse root .downstream maxDepth).edges ↔
        e ∈ db.lineageEdges ∧ db.Upstream root e.parent) ∧
    ∀ x, db.Registered x → (x ∈ (db.traverse root .downstream maxDepth).keys ↔
      root ∈ (db.traverse x .upstream maxDepth).keys) := by
  have hups := traverse_upstream_isExact hroot maxDepth
  have hdowns := traverse_downstream_isExact hroot maxDepth
  obtain ⟨hkeys, hedges, -⟩ := traverse_nodup db root .both maxDepth
  refine ⟨⟨⟨_, bfs_upstream root maxDepth⟩, _, bfs_downstream root maxDepth⟩, hups, hdowns,
    ⟨hkeys, hedges, fun k ↦ ?_, fun e ↦ ?_⟩, ?_, fun x hx ↦ ?_⟩
  · simp only [mem_keys_traverse_iff, ne_eq, reduceCtorEq, not_false_eq_true, not_true_eq_false,
      true_and, false_and, false_or, or_false]
    tauto
  · simp only [mem_edges_traverse_iff, ne_eq, reduceCtorEq, not_false_eq_true, not_true_eq_false,
      true_and, false_and, false_or, or_false]
  -- without a depth bound a distance exists exactly if there is a path
  · rintro rfl
    refine ⟨fun k ↦ ?_, fun k ↦ ?_, fun e ↦ ?_, fun e ↦ ?_⟩
    · rw [hups.mem_keys_iff, exists_isDist_none_iff, exists_isDist_iff, Upstream]
    · rw [hdowns.mem_keys_iff, exists_isDist_none_iff, exists_isDist_iff, Upstream]
    · rw [hups.mem_edges_iff, Upstream, ← exists_isDist_iff]
      simp
    · rw [hdowns.mem_edges_iff, Upstream, ← exists_isDist_iff]
      simp
  · rw [hdowns.mem_keys_iff, (traverse_upstream_isExact hx maxDepth).mem_keys_iff]

/-- Two ways lead from the transformation to the package, one of them over the report, and one way
leads back. -/
def loopDb : CatalogDb :=
  { empty with
    artifacts := .ofPairs [(⟨.transformation, "t"⟩, plainRow .transformation),
      (⟨.qc, "q"⟩, plainRow .qc), (packageKey "p", plainRow .package)]
    lineageEdges := [⟨⟨.transformation, "t"⟩, ⟨.qc, "q"⟩, .qcOf⟩,
      ⟨⟨.qc, "q"⟩, packageKey "p", .approvedByQc⟩,
      ⟨⟨.transformation, "t"⟩, packageKey "p", .packagedFrom⟩,
      ⟨packageKey "p", ⟨.transformation, "t"⟩, .transformedFrom⟩]
    edges_nodup := by decide
    edges_registered := by decide }

/-- One step up from the package of a loop, one step down from it, and the whole loop. -/
theorem traverse_exact_loop :
    (loopDb.traverse (packageKey "p") .upstream (some 1)).IsExact loopDb (some 1)
      (fun n k ↦ IsDist loopDb.Edge k n (packageKey "p")) EdgeRow.child ∧
    (loopDb.traverse (packageKey "p") .downstream (some 1)).IsExact loopDb (some 1)
      (fun n k ↦ IsDist loopDb.Edge (packageKey "p") n k) EdgeRow.parent ∧
    ∀ k, k ∈ (loopDb.traverse (packageKey "p") .upstream none).keys ↔
      loopDb.Upstream k (packageKey "p") := by
  have hroot : loopDb.Registered (packageKey "p") := by decide
  obtain ⟨-, hups, hdowns, -⟩ := traverse_exact loopDb (packageKey "p") hroot (some 1)
  obtain ⟨-, -, -, -, hall, -⟩ := traverse_exact loopDb (packageKey "p") hroot none
  exact ⟨hups, hdowns, (hall rfl).1⟩

end CatalogDb

end ForgeData
