import ForgeData.Catalog.Repository
import ForgeData.Graph.Search
import Mathlib.Data.List.Dedup

/-!
# Walking the lineage graph

The two walks over the edge table, instances of the searches of `Graph.Search`: the check whether one
more edge would close a cycle, and the collection of everything upstream or downstream of an
artifact. Both come to an end on every edge table, cyclic ones included, and both are exact.
-/

namespace ForgeData

open Python Graph Relation

namespace CatalogDb

variable (db : CatalogDb)

/-- Some edge leads from the first artifact to the second. -/
def Edge (p c : ArtifactKey) : Prop := ∃ e ∈ db.lineageEdges, e.parent = p ∧ e.child = c

/-- The first artifact lies upstream of the second, or is the same. -/
def Upstream (a b : ArtifactKey) : Prop := ReflTransGen db.Edge a b

/-- `would_create_cycle`. A round of the loop takes an entry from the stack, and every edge puts one
there at most once. -/
def wouldCreateCycle (parent child : ArtifactKey) : Bool :=
  if parent = child then true
  else (search (fun k ↦ (db.getChildren k).map EdgeRow.child) parent
    (db.lineageEdges.length + 2) [child] []).getD false

/-! ## Traversal -/

end CatalogDb

inductive Direction where
  | upstream
  | downstream
  | both
  deriving DecidableEq, Repr

/-- The result of `traverse`. -/
structure Traversal where
  nodes : List (ArtifactKey × ArtifactRow)
  edges : List EdgeRow

/-- The order of the edges of a traversal. -/
def EdgeRow.byKeys (e : EdgeRow) : (ℕ ×ₗ String ×ₗ String) ×ₗ (ℕ ×ₗ String ×ₗ String) ×ₗ String :=
  toLex (sortKey e.parent, toLex (sortKey e.child, e.relationship.text))

namespace CatalogDb

variable (db : CatalogDb)

/-- The inner function `bfs`. Every artifact enters the queue at most once, and each but the root is
an end of an edge. -/
def collect (getRelated : ArtifactKey → List EdgeRow) (other : EdgeRow → ArtifactKey)
    (maxDepth : Option ℕ) (root : ArtifactKey) : Bfs ArtifactKey EdgeRow :=
  (bfs getRelated other maxDepth (2 * db.lineageEdges.length + 2) (Bfs.start root)).getD
    (Bfs.start root)

/-- `traverse`. -/
def traverse (root : ArtifactKey) (direction : Direction) (maxDepth : Option ℕ) : Traversal :=
  let ups := if direction = .downstream then Bfs.start root
    else db.collect db.getParents EdgeRow.parent maxDepth root
  let downs := if direction = .upstream then Bfs.start root
    else db.collect db.getChildren EdgeRow.child maxDepth root
  { nodes := sortedBy (fun n ↦ sortKey n.1) ((ups.seen ++ downs.seen).dedup.filterMap fun k ↦
      (db.getArtifact k).map fun row ↦ (k, row))
    edges := sortedBy EdgeRow.byKeys (ups.arrows ++ downs.arrows).dedup }

/-- The loop of `impact_analysis` over the nodes: the counts by type, and the ids of the packages. -/
def countImpact (root : ArtifactKey) (acc : Dict String ℕ × List String)
    (node : ArtifactKey × ArtifactRow) : Dict String ℕ × List String :=
  if node.1 = root then acc
  else (acc.1.set node.1.artifactType.text (acc.1.getD node.1.artifactType.text 0 + 1),
    if node.1.artifactType = .package then acc.2 ++ [node.1.artifactId] else acc.2)

/-- The result of the loop. -/
def impactCounts (k : ArtifactKey) : Dict String ℕ × List String :=
  (db.traverse k .downstream none).nodes.foldl (countImpact k) (Dict.empty, [])

/-- The versions that `impact_analysis` counts. -/
def impactVersions (k : ArtifactKey) : List ((String × String) × VersionRow) :=
  db.listDatasetVersionsForPackages (db.impactCounts k).2

/-- `impact_analysis`. -/
def impactAnalysis (k : ArtifactKey) : Dict String ℕ :=
  (db.impactCounts k).1.set "dataset_versions" (db.impactVersions k).length

/-! ## The edges of an artifact -/

variable {db} {k p c : ArtifactKey} {e : EdgeRow}

@[simp] theorem mem_getParents : e ∈ db.getParents k ↔ e ∈ db.lineageEdges ∧ e.child = k := by
  simp [getParents]

@[simp] theorem mem_getChildren : e ∈ db.getChildren k ↔ e ∈ db.lineageEdges ∧ e.parent = k := by
  simp [getChildren]

theorem registered_iff : db.Registered k ↔ ∃ row, db.getArtifact k = some row :=
  Dict.mem_keys_iff

theorem getArtifact_eq_none_iff : db.getArtifact k = none ↔ ¬ db.Registered k :=
  Dict.get?_eq_none_iff

theorem registered_of_edge (h : db.Edge p c) : db.Registered p ∧ db.Registered c := by
  obtain ⟨e, he, rfl, rfl⟩ := h
  exact db.edges_registered e he

theorem registered_of_transGen (h : TransGen db.Edge p c) : db.Registered p ∧ db.Registered c := by
  obtain ⟨x, hpx, -⟩ := TransGen.head'_iff.1 h
  obtain ⟨y, -, hyc⟩ := TransGen.tail'_iff.1 h
  exact ⟨(registered_of_edge hpx).1, (registered_of_edge hyc).2⟩

theorem mem_children_iff :
    c ∈ (db.getChildren p).map EdgeRow.child ↔ db.Edge p c := by
  simp only [List.mem_map, mem_getChildren, Edge, and_assoc]

theorem arrow_getParents_iff : Arrow db.getParents EdgeRow.parent c p ↔ db.Edge p c := by
  simp only [Arrow, mem_getParents, Edge, and_assoc, and_comm]

theorem arrow_getChildren_iff : Arrow db.getChildren EdgeRow.child p c ↔ db.Edge p c := by
  simp only [Arrow, mem_getChildren, Edge, and_assoc]

/-- Both ends of every edge. -/
def ends (db : CatalogDb) : List ArtifactKey :=
  db.lineageEdges.map EdgeRow.parent ++ db.lineageEdges.map EdgeRow.child

theorem mem_ends (he : e ∈ db.lineageEdges) : e.parent ∈ db.ends ∧ e.child ∈ db.ends :=
  ⟨List.mem_append_left _ (List.mem_map_of_mem he), List.mem_append_right _ (List.mem_map_of_mem he)⟩

/-! ## The check for cycles -/

theorem exists_search_eq_some (db : CatalogDb) (p c : ArtifactKey) :
    ∃ found, search (fun k ↦ (db.getChildren k).map EdgeRow.child) p
      (db.lineageEdges.length + 2) [c] [] = some found := by
  refine Graph.exists_search_eq_some (U := (c :: db.ends).dedup) (List.nodup_dedup _)
    (fun x _ y hy ↦ ?_) (fun x hx ↦ ?_) ?_
  · obtain ⟨e, he, -, rfl⟩ := mem_children_iff.1 hy
    exact List.mem_dedup.2 (List.mem_cons_of_mem c (mem_ends he).2)
  · rw [List.mem_singleton.1 hx]
    exact List.mem_dedup.2 (List.mem_cons_self ..)
  · have hle : pending (fun k ↦ (db.getChildren k).map EdgeRow.child) (c :: db.ends).dedup []
        ≤ db.lineageEdges.length :=
      pending_nil_le (List.nodup_dedup _) EdgeRow.parent fun x ↦ by
        rw [List.length_map, getChildren, (perm_sortedBy _ _).length_eq]
    rw [List.length_singleton]
    omega

/-- **The check for cycles is exact.** -/
theorem wouldCreateCycle_iff : db.wouldCreateCycle p c = true ↔ db.Upstream c p := by
  rw [wouldCreateCycle]
  split
  · next h => exact ⟨fun _ ↦ h ▸ .refl, fun _ ↦ rfl⟩
  · obtain ⟨found, hfound⟩ := exists_search_eq_some db p c
    rw [hfound, Option.getD_some, search_eq_some_iff hfound]
    exact reflTransGen_congr fun _ _ ↦ mem_children_iff

/-! ## Traversals -/

variable {root : ArtifactKey} {maxDepth : Option ℕ}

/-- A collection along the edges comes to an end. -/
theorem bfs_eq_some_collect {getRelated : ArtifactKey → List EdgeRow} {other : EdgeRow → ArtifactKey}
    (hrel : ∀ k, ∀ e ∈ getRelated k, other e ∈ db.ends) (root : ArtifactKey)
    (maxDepth : Option ℕ) :
    bfs getRelated other maxDepth (2 * db.lineageEdges.length + 2) (Bfs.start root)
      = some (db.collect getRelated other maxDepth root) := by
  have hfuel : (Bfs.start root : Bfs ArtifactKey EdgeRow).frontier.length
      + unseen (root :: db.ends) (Bfs.start root : Bfs ArtifactKey EdgeRow).seen
      < 2 * db.lineageEdges.length + 2 := by
    have hle : unseen (root :: db.ends) [root] ≤ db.ends.length := by
      rw [unseen, List.filter_cons_of_neg (by simp)]
      exact List.length_filter_le ..
    have hends : db.ends.length = 2 * db.lineageEdges.length := by
      rw [ends, List.length_append, List.length_map, List.length_map]
      omega
    change 1 + unseen (root :: db.ends) [root] < _
    omega
  have hbfs : ∃ st, bfs getRelated other maxDepth (2 * db.lineageEdges.length + 2)
      (Bfs.start root) = some st := by
    refine exists_bfs_eq_some (U := root :: db.ends)
      (fun x _ e he ↦ List.mem_cons_of_mem root (hrel x e he)) (fun p hp ↦ ?_) hfuel
    rw [List.mem_singleton.1 hp]
    exact List.mem_cons_self ..
  obtain ⟨st, hst⟩ := hbfs
  rw [collect, hst, Option.getD_some]

theorem bfs_upstream (root : ArtifactKey) (maxDepth : Option ℕ) :
    bfs db.getParents EdgeRow.parent maxDepth (2 * db.lineageEdges.length + 2) (Bfs.start root)
      = some (db.collect db.getParents EdgeRow.parent maxDepth root) :=
  bfs_eq_some_collect (fun _ _ he ↦ (mem_ends (mem_getParents.1 he).1).1) root maxDepth

theorem bfs_downstream (root : ArtifactKey) (maxDepth : Option ℕ) :
    bfs db.getChildren EdgeRow.child maxDepth (2 * db.lineageEdges.length + 2) (Bfs.start root)
      = some (db.collect db.getChildren EdgeRow.child maxDepth root) :=
  bfs_eq_some_collect (fun _ _ he ↦ (mem_ends (mem_getChildren.1 he).1).2) root maxDepth

theorem mem_seen_upstream_iff :
    k ∈ (db.collect db.getParents EdgeRow.parent none root).seen ↔ db.Upstream k root := by
  rw [mem_seen_iff_of_bfs (bfs_upstream root none), ← reflTransGen_swap, Upstream]
  exact reflTransGen_congr fun _ _ ↦ arrow_getParents_iff

theorem mem_seen_downstream_iff :
    k ∈ (db.collect db.getChildren EdgeRow.child none root).seen ↔ db.Upstream root k := by
  rw [mem_seen_iff_of_bfs (bfs_downstream root none), Upstream]
  exact reflTransGen_congr fun _ _ ↦ arrow_getChildren_iff

theorem mem_nodes_upstream_iff {row : ArtifactRow} :
    (k, row) ∈ (db.traverse root .upstream none).nodes
      ↔ db.getArtifact k = some row ∧ db.Upstream k root := by
  simp only [traverse, mem_sortedBy, List.mem_filterMap, List.mem_dedup, List.mem_append,
    reduceCtorEq, if_false, if_true, mem_seen_upstream_iff, Option.map_eq_some_iff, Prod.mk.injEq]
  constructor
  · rintro ⟨k', hk', row', hrow, rfl, rfl⟩
    exact ⟨hrow, hk'.elim id fun h ↦ List.mem_singleton.1 h ▸ .refl⟩
  · rintro ⟨hrow, hup⟩
    exact ⟨k, .inl hup, row, hrow, rfl, rfl⟩

theorem mem_nodes_downstream_iff {row : ArtifactRow} :
    (k, row) ∈ (db.traverse root .downstream none).nodes
      ↔ db.getArtifact k = some row ∧ db.Upstream root k := by
  simp only [traverse, mem_sortedBy, List.mem_filterMap, List.mem_dedup, List.mem_append,
    reduceCtorEq, if_false, if_true, mem_seen_downstream_iff, Option.map_eq_some_iff, Prod.mk.injEq]
  constructor
  · rintro ⟨k', hk', row', hrow, rfl, rfl⟩
    exact ⟨hrow, hk'.elim (fun h ↦ List.mem_singleton.1 h ▸ .refl) id⟩
  · rintro ⟨hrow, hdown⟩
    exact ⟨k, .inr hdown, row, hrow, rfl, rfl⟩

end CatalogDb

end ForgeData
