-- What a projection shows: the nodes nearest to its root, the edges between them, and whether
-- something of the filtered graph is left out.
import Traqen.FeatureGraphPath

open Js

namespace Traqen.FeatureGraph

open BreadthFirst
open OrderedMap (keyed_nil keyed_set get? get?_mem)

/-! ## Nodes stand under their ids -/

/-- The nodes of a graph as its map holds them. -/
structure Named (nodes : Nodes) : Prop where
  keyed : OrderedMap.Keyed nodes
  named : ∀ e ∈ nodes, e.2.id = e.1

theorem named_nil : Named [] := ⟨keyed_nil, by simp⟩

theorem named_set {nodes : Nodes} (h : Named nodes) {id : String} {node : GraphNode}
    (hid : node.id = id) : Named (OrderedMap.set nodes id node) := by
  refine ⟨keyed_set h.keyed id node, fun e he => ?_⟩
  rcases OrderedMap.mem_set_iff.mp he with rfl | ⟨hold, -⟩
  · exact hid
  · exact h.named e hold

theorem named_filter {nodes : Nodes} (h : Named nodes) (p : String × GraphNode → Bool) :
    Named (nodes.filter p) :=
  ⟨h.keyed.sublist (List.filter_sublist.map _), fun e he => h.named e (List.mem_filter.mp he).1⟩

/-- What every turn of a loop keeps, the loop keeps. -/
theorem foldlM_named {β : Type} {f : Nodes × Edges → β → Except Failure (Nodes × Edges)}
    (hf : ∀ graph x graph', Named graph.1 → f graph x = .ok graph' → Named graph'.1)
    {xs : List β} {graph graph' : Nodes × Edges} (hgraph : Named graph.1)
    (h : xs.foldlM f graph = .ok graph') : Named graph'.1 := by
  induction xs generalizing graph with
  | nil =>
    cases h
    exact hgraph
  | cons x xs ih =>
    rw [List.foldlM_cons] at h
    obtain ⟨middle, hx, hrest⟩ := bind_ok h
    exact ih (hf graph x middle hgraph hx) hrest

theorem foldl_named {β : Type} {f : Nodes × Edges → β → Nodes × Edges}
    (hf : ∀ graph x, Named graph.1 → Named (f graph x).1) {xs : List β} {graph : Nodes × Edges}
    (hgraph : Named graph.1) : Named (xs.foldl f graph).1 := by
  induction xs generalizing graph with
  | nil => exact hgraph
  | cons x xs ih => exact ih (hf graph x hgraph)

section Building

variable {sha256 : String → String} {metadata : List (Option Json × Metadata)}
  {snapshotManifestId featureId type relation sourceId : String} {nodes nodes' : Nodes}
  {graph graph' : Nodes × Edges}

theorem addGraphNode_named {reference : Reference} {provenance status : Option Json}
    (hnodes : Named nodes)
    (h : addGraphNode metadata nodes reference provenance status = .ok nodes') :
    Named nodes' := by
  unfold addGraphNode at h
  obtain ⟨id, -, h⟩ := bind_ok h
  obtain ⟨type, -, h⟩ := bind_ok h
  dsimp only at h
  cases hget : get? nodes id with
  | none =>
    simp only [hget] at h
    cases h
    exact named_set hnodes rfl
  | some existing =>
    simp only [hget] at h
    split at h
    · cases h
    · cases h
      exact named_set hnodes (hnodes.named _ (get?_mem hget))

variable (hgraph : Named graph.1)
include hgraph

theorem addSegment_named {segment : Segment}
    (h : addSegment metadata snapshotManifestId graph segment = .ok graph') :
    Named graph'.1 := by
  unfold addSegment at h
  obtain ⟨nodes, hsource, h⟩ := bind_ok h
  obtain ⟨nodes', htarget, h⟩ := bind_ok h
  cases h
  exact addGraphNode_named (addGraphNode_named hgraph hsource) htarget

theorem addChain_named {chain : TraceChain}
    (h : addChain sha256 metadata snapshotManifestId graph chain = .ok graph') :
    Named graph'.1 := by
  unfold addChain at h
  obtain ⟨middle, hsegments, h⟩ := bind_ok h
  cases h
  have hmiddle : Named middle.1 :=
    foldlM_named (fun _ _ _ hnamed hx => addSegment_named hnamed hx) hgraph hsegments
  refine foldl_named (fun _ _ hnamed => ?_) (foldl_named (fun _ _ hnamed => ?_) hmiddle)
  · exact named_set hnamed rfl
  · exact named_set hnamed rfl

theorem addMember_named {record : Json}
    (h : addMember sha256 metadata snapshotManifestId featureId type relation graph record =
      .ok graph') : Named graph'.1 := by
  unfold addMember at h
  obtain ⟨nodes, hnode, h⟩ := bind_ok h
  cases h
  exact addGraphNode_named hgraph hnode

theorem addImplementation_named {reference : FactReference}
    (h : addImplementation sha256 metadata snapshotManifestId sourceId graph reference =
      .ok graph') : Named graph'.1 := by
  unfold addImplementation at h
  split at h
  · cases h
    exact hgraph
  · obtain ⟨nodes, hnode, h⟩ := bind_ok h
    cases h
    exact addGraphNode_named hgraph hnode

theorem addTransition_named {transition : Transition}
    (h : addTransition sha256 metadata snapshotManifestId graph transition = .ok graph') :
    Named graph'.1 := by
  unfold addTransition at h
  obtain ⟨nodes, hnode, h⟩ := bind_ok h
  have hnodes : Named nodes := addGraphNode_named hgraph hnode
  exact foldlM_named (fun _ _ _ hnamed hx => addImplementation_named hnamed hx) hnodes h

theorem addDesignElement_named {element : DesignElement}
    (h : addDesignElement sha256 metadata snapshotManifestId featureId graph element =
      .ok graph') : Named graph'.1 := by
  unfold addDesignElement at h
  obtain ⟨middle, hmember, h⟩ := bind_ok h
  exact foldlM_named (fun _ _ _ hnamed hx => addImplementation_named hnamed hx)
    (addMember_named hgraph hmember) h

theorem addProcess_named {processModel : ProcessModel}
    (h : addProcess sha256 metadata snapshotManifestId featureId graph processModel =
      .ok graph') : Named graph'.1 := by
  unfold addProcess at h
  obtain ⟨first, hactors, h⟩ := bind_ok h
  obtain ⟨second, hstates, h⟩ := bind_ok h
  obtain ⟨third, htransitions, h⟩ := bind_ok h
  have hfirst := foldlM_named (fun _ _ _ hnamed hx => addMember_named hnamed hx) hgraph hactors
  have hsecond := foldlM_named (fun _ _ _ hnamed hx => addMember_named hnamed hx) hfirst hstates
  have hthird :=
    foldlM_named (fun _ _ _ hnamed hx => addTransition_named hnamed hx) hsecond htransitions
  exact foldlM_named (fun _ _ _ hnamed hx => addDesignElement_named hnamed hx) hthird h

omit hgraph

theorem addFeature_named (hnodes : Named nodes)
    (h : addFeature metadata nodes featureId = .ok nodes') : Named nodes' := by
  unfold addFeature at h
  split at h
  · cases h
    exact hnodes
  · exact addGraphNode_named hnodes h

theorem buildCompleteGraph_named {traceability : Traceability} {complete : CompleteGraph}
    (h : buildCompleteGraph sha256 traceability = .ok complete) : Named complete.nodes := by
  unfold buildCompleteGraph at h
  obtain ⟨snapshotManifestId, -, h⟩ := bind_ok h
  obtain ⟨chains, hchains, h⟩ := bind_ok h
  obtain ⟨featureId, -, h⟩ := bind_ok h
  obtain ⟨nodes, hfeature, h⟩ := bind_ok h
  obtain ⟨graph, hprocess, h⟩ := bind_ok h
  cases h
  have hnamed := foldlM_named (fun _ _ _ hnamed hx => addChain_named hnamed hx) named_nil hchains
  have hnodes : Named nodes := addFeature_named hnamed hfeature
  exact foldlM_named (fun _ _ _ hnamed hx => addProcess_named hnamed hx) hnodes hprocess

end Building

/-! ## Distances -/

section Distances

variable {localeCompare : String → String → Ordering} {edges : List GraphEdge} {a b id : String}
  {item : Neighbour} {root : String} {depth d : Nat} {queue : List String}

/-- The undirected graph is the one where every direction is permitted. -/
theorem mem_undirectedAdjacency : item ∈ neighbours (undirectedAdjacency localeCompare edges) id ↔
    item.edge ∈ edges ∧ Permits .ANY item.edge id item.nodeId := by
  unfold undirectedAdjacency
  have hadd : (fun (adjacency : Adjacency) (edge : GraphEdge) =>
      add (add adjacency edge.source edge.target edge) edge.target edge.source edge) =
      addEdge .ANY := rfl
  rw [neighbours_map (fun items => items.insertionSort _) rfl, List.mem_insertionSort, hadd,
    mem_neighbours_foldl]
  simp [neighbours, get?]

theorem linked_iff : Joined .ANY edges a b ↔
    b ∈ (neighbours (undirectedAdjacency localeCompare edges) a).map (·.nodeId) := by
  rw [List.mem_map]
  constructor
  · rintro ⟨edge, hmem, h⟩
    exact ⟨⟨b, edge⟩, mem_undirectedAdjacency.mpr ⟨hmem, h⟩, rfl⟩
  · rintro ⟨item, hmem, rfl⟩
    exact ⟨item.edge, mem_undirectedAdjacency.mp hmem⟩

/-- The loop over the neighbours takes up the ids of a worklist. -/
theorem discover_enqueue (currentDepth : Nat) (distances : Distances) (queue : List String)
    (items : List Neighbour) : ∃ fresh : List String,
      discover currentDepth (distances, queue) items =
        (distances ++ fresh.map fun id => (id, currentDepth + 1), queue ++ fresh) ∧
      Worklist.enqueue (distances.map (·.1), queue) (items.map (·.nodeId)) =
        (distances.map (·.1) ++ fresh, queue ++ fresh) := by
  induction items generalizing distances queue with
  | nil => exact ⟨[], by simp [discover], by simp [Worklist.enqueue]⟩
  | cons neighbor items ih =>
    unfold discover
    rw [List.map_cons]
    unfold Worklist.enqueue
    cases hget : get? distances neighbor.nodeId with
    | some found =>
      have hmem : neighbor.nodeId ∈ distances.map (·.1) :=
        List.mem_map.mpr ⟨_, get?_mem hget, rfl⟩
      rw [if_pos (by rfl), if_pos hmem]
      exact ih distances queue
    | none =>
      have hmem : neighbor.nodeId ∉ distances.map (·.1) := by
        rw [List.mem_map]
        rintro ⟨e, he, hkey⟩
        exact OrderedMap.get?_eq_none.mp hget e he hkey
      rw [if_neg (by simp), if_neg hmem, OrderedMap.set_of_new hget]
      obtain ⟨fresh, hdiscover, henqueue⟩ :=
        ih (distances ++ [(neighbor.nodeId, currentDepth + 1)]) (queue ++ [neighbor.nodeId])
      rw [List.map_append] at henqueue
      exact ⟨neighbor.nodeId :: fresh, by simpa using hdiscover, by simpa using henqueue⟩

/-- The search comes to an end with every distance up to the depth. -/
theorem measure_layered (localeCompare : String → String → Ordering) (fuel : Nat)
    {done todo : Distances} (h : Layered (Joined .ANY edges) root depth done todo)
    (hfuel : todo.length + Worklist.missing (ends edges) ((done ++ todo).map (·.1)) ≤ fuel) :
    ∃ distances, measure (undirectedAdjacency localeCompare edges) depth fuel
        (done ++ todo, todo.map (·.1)) = some distances ∧
      Layered (Joined .ANY edges) root depth distances [] := by
  induction fuel generalizing done todo with
  | zero =>
    obtain rfl : todo = [] := List.length_eq_zero_iff.mp (by omega)
    rw [List.append_nil]
    exact ⟨done, rfl, h⟩
  | succ fuel ih =>
    cases todo with
    | nil =>
      rw [List.append_nil]
      exact ⟨done, rfl, h⟩
    | cons x todo =>
      have hget : get? (done ++ x :: todo) x.1 = some x.2 :=
        OrderedMap.get?_of_mem h.keyed (by simp)
      rw [List.map_cons]
      unfold measure
      simp only [hget]
      simp only [List.length_cons] at hfuel
      by_cases hdepth : depth ≤ x.2
      · rw [if_pos hdepth]
        have hkeys : done ++ x :: todo = done ++ [x] ++ todo := by simp
        rw [hkeys] at hfuel ⊢
        exact ih (h.drop hdepth) (by omega)
      · rw [if_neg hdepth]
        obtain ⟨fresh, hdiscover, henqueue⟩ := discover_enqueue x.2 (done ++ x :: todo)
          (todo.map (·.1)) (neighbours (undirectedAdjacency localeCompare edges) x.1)
        obtain ⟨added, heq, hsub, hnew, hnodup, hall⟩ := Worklist.enqueue_spec
          ((done ++ x :: todo).map (·.1)) (todo.map (·.1))
          ((neighbours (undirectedAdjacency localeCompare edges) x.1).map (·.nodeId))
        obtain rfl : fresh = added := by
          rw [henqueue] at heq
          exact List.append_cancel_left (Prod.mk.inj heq).1
        have hjoined : ∀ b ∈ fresh, Joined .ANY edges x.1 b := fun b hb =>
          linked_iff.mpr (hsub b hb)
        have hexpand := h.expand (by omega) hnodup hjoined hnew fun b hb =>
          List.mem_append.mp (hall b (linked_iff.mp hb))
        have hless := Worklist.missing_append (fun b hb => (hjoined b hb).mem_ends) hnew hnodup
        have hfound : (done ++ x :: todo) ++ fresh.map (fun id => (id, x.2 + 1)) =
            done ++ [x] ++ (todo ++ fresh.map fun id => (id, x.2 + 1)) := by simp
        have hqueue : todo.map (·.1) ++ fresh =
            (todo ++ fresh.map fun id => (id, x.2 + 1)).map (·.1) := by
          rw [List.map_append, map_fst_fresh]
        rw [hdiscover, hfound, hqueue]
        apply ih hexpand
        rw [← hfound, List.map_append, map_fst_fresh, List.length_append, List.length_map]
        omega

theorem measure_ends (localeCompare : String → String → Ordering) (edges : List GraphEdge)
    (root : String) (depth : Nat) : ∃ distances,
      measure (undirectedAdjacency localeCompare edges) depth (searchFuel edges)
        ([(root, 0)], [root]) = some distances ∧
      Layered (Joined .ANY edges) root depth distances [] :=
  measure_layered localeCompare (searchFuel edges) (layered_start _ root depth)
    (enough_fuel edges _)

end Distances

/-! ## The order of the ids -/

/-- What `localeCompare` promises as a comparison function. -/
structure Collates (localeCompare : String → String → Ordering) : Prop where
  total : ∀ a b, localeCompare a b ≠ .gt ∨ localeCompare b a ≠ .gt
  trans : ∀ a b c, localeCompare a b ≠ .gt → localeCompare b c ≠ .gt → localeCompare a c ≠ .gt

section Order

variable {localeCompare : String → String → Ordering} {a b c : String × Nat}

theorem nearer_iff : nearer localeCompare a b ↔
    a.2 < b.2 ∨ a.2 = b.2 ∧ localeCompare a.1 b.1 ≠ .gt := by
  unfold nearer
  rcases Nat.lt_trichotomy a.2 b.2 with h | h | h
  · simp [Nat.compare_eq_lt.mpr h, h]
  · simp [h]
  · have hgt : compare a.2 b.2 = .gt := Nat.compare_eq_gt.mpr h
    simp only [hgt, Ordering.then, ne_eq, not_true_eq_false, false_iff]
    omega

theorem nearer_total (h : Collates localeCompare) (a b : String × Nat) :
    nearer localeCompare a b ∨ nearer localeCompare b a := by
  rw [nearer_iff, nearer_iff]
  rcases Nat.lt_trichotomy a.2 b.2 with hlt | heq | hgt
  · exact Or.inl (Or.inl hlt)
  · rcases h.total a.1 b.1 with hab | hba
    · exact Or.inl (Or.inr ⟨heq, hab⟩)
    · exact Or.inr (Or.inr ⟨heq.symm, hba⟩)
  · exact Or.inr (Or.inl hgt)

theorem nearer_trans (h : Collates localeCompare) (hab : nearer localeCompare a b)
    (hbc : nearer localeCompare b c) : nearer localeCompare a c := by
  rw [nearer_iff] at *
  rcases hab with hab | ⟨hab, hle⟩
  · rcases hbc with hbc | ⟨hbc, -⟩
    · exact Or.inl (by omega)
    · exact Or.inl (by omega)
  · rcases hbc with hbc | ⟨hbc, hle'⟩
    · exact Or.inl (by omega)
    · exact Or.inr ⟨by omega, h.trans _ _ _ hle hle'⟩

theorem sorted_ids (h : Collates localeCompare) (distances : Distances) :
    (distances.insertionSort (nearer localeCompare)).Pairwise (nearer localeCompare) := by
  have : Std.Total (nearer localeCompare) := ⟨nearer_total h⟩
  have : IsTrans _ (nearer localeCompare) := ⟨fun _ _ _ => nearer_trans h⟩
  exact List.pairwise_insertionSort _ _

/-- What does not come after a member of the front of a sorted list is in the front too. -/
theorem mem_take_of_sorted {α : Type} {r : α → α → Prop} {xs : List α} (h : xs.Pairwise r)
    {n : Nat} {x y : α} (hy : y ∈ xs.take n) (hx : x ∈ xs) (hyx : ¬ r y x) : x ∈ xs.take n := by
  rw [← List.take_append_drop n xs] at h hx
  rcases List.mem_append.mp hx with hx | hx
  · exact hx
  · exact absurd ((List.pairwise_append.mp h).2.2 y hy x hx) hyx

end Order

/-! ## The projection -/

/-- Two nodes of a graph with an edge between them. -/
def CompleteGraph.Linked (graph : CompleteGraph) : String → String → Prop :=
  Joined .ANY (graph.edges.map (·.2))

/-- Its edges join nodes of its own. -/
def CompleteGraph.Joins (graph : CompleteGraph) : Prop :=
  ∀ e ∈ graph.edges, e.2.source ∈ graph.nodes.map (·.1) ∧ e.2.target ∈ graph.nodes.map (·.1)

/-- The nodes of a graph within a depth of its center, the nearest first. -/
structure Ranking (localeCompare : String → String → Ordering) (graph : CompleteGraph)
    (depth : Nat) (within : List (String × Nat)) : Prop where
  keyed : (within.map (·.1)).Nodup
  mem : ∀ id d, (id, d) ∈ within ↔
    id ∈ graph.nodes.map (·.1) ∧ Distance graph.Linked graph.center d id ∧ d ≤ depth
  sorted : within.Pairwise (nearer localeCompare)

/-- What a projection says about its filtered graph is so. -/
structure Shows (localeCompare : String → String → Ordering) (graph : CompleteGraph)
    (depth limit : Nat) (nodes : List GraphNode) (edges : List GraphEdge) (truncated : Bool) :
    Prop where
  nearest : ∃ within, Ranking localeCompare graph depth within ∧
    List.Forall₂ (fun e node => (e.1, node) ∈ graph.nodes) (within.take limit) nodes
  edges : ∀ edge, edge ∈ edges ↔ edge ∈ graph.edges.map (·.2) ∧
    edge.source ∈ nodes.map (·.id) ∧ edge.target ∈ nodes.map (·.id)
  connected : ∀ node ∈ nodes, Relation.ReflTransGen (fun a b => graph.Linked a b ∧
    a ∈ nodes.map (·.id) ∧ b ∈ nodes.map (·.id)) graph.center node.id
  truncated : truncated = false ↔ ∀ e ∈ graph.nodes, e.1 ∈ nodes.map (·.id)

section Projection

variable {localeCompare : String → String → Ordering} {graph : CompleteGraph}
  {depth limit : Nat} {distances : Distances} {id : String}

theorem joins_linked (h : graph.Joins) {a b : String} (hlinked : graph.Linked a b) :
    a ∈ graph.nodes.map (·.1) ∧ b ∈ graph.nodes.map (·.1) := by
  obtain ⟨edge, hmem, hpermits⟩ := hlinked
  obtain ⟨e, he, rfl⟩ := List.mem_map.mp hmem
  rcases hpermits with ⟨-, rfl, rfl⟩ | ⟨-, rfl, rfl⟩
  · exact h e he
  · exact (h e he).symm

/-- Where the center is a node, everything that is found is one. -/
theorem found_known (hjoins : graph.Joins) (hcenter : graph.center ∈ graph.nodes.map (·.1))
    {d : Nat} (h : Walk graph.Linked graph.center d id) : id ∈ graph.nodes.map (·.1) := by
  cases h with
  | start => exact hcenter
  | step _ hlinked => exact (joins_linked hjoins hlinked).2

/-- Where it is none, nothing is found but the center. -/
theorem found_center (hjoins : graph.Joins) (hcenter : graph.center ∉ graph.nodes.map (·.1))
    {d : Nat} (h : Walk graph.Linked graph.center d id) : d = 0 ∧ id = graph.center := by
  induction h with
  | start => exact ⟨rfl, rfl⟩
  | step _ hlinked ih =>
    rw [ih.2] at hlinked
    exact absurd (joins_linked hjoins hlinked).1 hcenter

/-- The nodes of known ids, one for each. -/
theorem nodes_of_known {nodes : Nodes} {ids : List String}
    (hids : ∀ id ∈ ids, id ∈ nodes.map (·.1)) :
    List.Forall₂ (fun id node => (id, node) ∈ nodes) ids
      (ids.filterMap (get? nodes)) := by
  induction ids with
  | nil => exact .nil
  | cons id ids ih =>
    have hrest := ih fun other hother => hids other (List.mem_cons_of_mem id hother)
    obtain ⟨⟨key, node⟩, hmem, rfl⟩ := List.mem_map.mp (hids id List.mem_cons_self)
    cases hget : get? nodes key with
    | none => exact absurd rfl (OrderedMap.get?_eq_none.mp hget _ hmem)
    | some found =>
      rw [List.filterMap_cons_some hget]
      exact .cons (get?_mem hget) hrest

theorem ids_of_nodes {nodes : Nodes} (hnamed : Named nodes) {ids : List String}
    {found : List GraphNode} (h : List.Forall₂ (fun id node => (id, node) ∈ nodes) ids found) :
    found.map (·.id) = ids := by
  induction h with
  | nil => rfl
  | cons hmem _ ih => rw [List.map_cons, ih, hnamed.named _ hmem]

variable (hcollates : Collates localeCompare) (hnamed : Named graph.nodes)
  (hjoins : graph.Joins) (hlayered : Layered graph.Linked graph.center depth distances [])

include hlayered in
theorem mem_ranked {e : String × Nat} : e ∈ distances.insertionSort (nearer localeCompare) ↔
    Distance graph.Linked graph.center e.2 e.1 ∧ e.2 ≤ depth := by
  rw [List.mem_insertionSort]
  exact hlayered.mem_iff

include hlayered in
theorem ranked_keys : ((distances.insertionSort (nearer localeCompare)).map (·.1)).Nodup := by
  rw [((List.perm_insertionSort _ distances).map (·.1)).nodup_iff]
  simpa using hlayered.keyed

include hcollates hjoins hlayered in
theorem ranking_of_center (hcenter : graph.center ∈ graph.nodes.map (·.1)) :
    Ranking localeCompare graph depth (distances.insertionSort (nearer localeCompare)) where
  keyed := ranked_keys hlayered
  mem id d := by
    rw [mem_ranked hlayered]
    exact ⟨fun h => ⟨found_known hjoins hcenter h.1.1, h⟩, fun h => h.2⟩
  sorted := sorted_ids hcollates distances

include hcollates hlayered in
/-- The way from the root to a selected id goes by selected ids. -/
theorem connected_selected {d : Nat}
    (h : (id, d) ∈ (distances.insertionSort (nearer localeCompare)).take limit) :
    Relation.ReflTransGen (fun a b => graph.Linked a b ∧
      a ∈ ((distances.insertionSort (nearer localeCompare)).take limit).map (·.1) ∧
      b ∈ ((distances.insertionSort (nearer localeCompare)).take limit).map (·.1))
      graph.center id := by
  induction d generalizing id with
  | zero =>
    have hzero := (mem_ranked hlayered).mp (List.mem_of_mem_take h)
    cases hzero.1.1
    exact .refl
  | succ d ih =>
    obtain ⟨hdistance, hdepth⟩ := (mem_ranked hlayered).mp (List.mem_of_mem_take h)
    obtain ⟨a, ha, hlinked⟩ := hdistance.pred
    have hfound : (a, d) ∈ distances.insertionSort (nearer localeCompare) :=
      (mem_ranked hlayered).mpr ⟨ha, by simp only at hdepth ⊢; omega⟩
    have hbefore : ¬ nearer localeCompare (id, d + 1) (a, d) := by
      rw [nearer_iff]
      simp only
      omega
    have hmem := mem_take_of_sorted (sorted_ids hcollates distances) h hfound hbefore
    exact (ih hmem).tail ⟨hlinked, List.mem_map.mpr ⟨_, hmem, rfl⟩, List.mem_map.mpr ⟨_, h, rfl⟩⟩

include hnamed hlayered in
/-- The flag, where every id that is found is one of the nodes. -/
theorem truncated_iff
    (hknown : ∀ e ∈ distances.insertionSort (nearer localeCompare), e.1 ∈ graph.nodes.map (·.1)) :
    (((distances.insertionSort (nearer localeCompare)).take limit).map (·.1)).length ≥
        graph.nodes.length ∧
      (distances.insertionSort (nearer localeCompare)).length ≤ limit ↔
    ∀ e ∈ graph.nodes,
      e.1 ∈ ((distances.insertionSort (nearer localeCompare)).take limit).map (·.1) := by
  set ranked := distances.insertionSort (nearer localeCompare) with hranked
  have hkeys : (ranked.map (·.1)).Nodup := ranked_keys hlayered
  have hnodup : ((ranked.take limit).map (·.1)).Nodup :=
    hkeys.sublist ((List.take_sublist limit ranked).map _)
  have hsubset : (ranked.take limit).map (·.1) ⊆ graph.nodes.map (·.1) := by
    intro id hid
    obtain ⟨e, he, rfl⟩ := List.mem_map.mp hid
    exact hknown e (List.mem_of_mem_take he)
  constructor
  · rintro ⟨hlength, -⟩ e he
    have hperm := (hnodup.subperm hsubset).perm_of_length_le (by simpa using hlength)
    exact hperm.mem_iff.mpr (List.mem_map_of_mem he)
  · intro hall
    have hcover : graph.nodes.map (·.1) ⊆ (ranked.take limit).map (·.1) := by
      intro id hid
      obtain ⟨e, he, rfl⟩ := List.mem_map.mp hid
      exact hall e he
    have hle := (List.Nodup.subperm hnamed.keyed hcover).length_le
    have hall' : ranked.map (·.1) ⊆ graph.nodes.map (·.1) := by
      intro id hid
      obtain ⟨e, he, rfl⟩ := List.mem_map.mp hid
      exact hknown e he
    have hle' := (hkeys.subperm hall').length_le
    simp only [List.length_map, List.length_take] at hle hle' ⊢
    omega

/-- What the search of a projection makes of the distances. -/
def boundedOf (localeCompare : String → String → Ordering) (graph : CompleteGraph) (limit : Nat)
    (ranked : List (String × Nat)) : Bounded :=
  let selectedIds := (ranked.take limit).map (·.1)
  { nodes := selectedIds.filterMap (get? graph.nodes)
    edges := (graph.edges.map (·.2)).filter fun edge =>
      selectedIds.contains edge.source && selectedIds.contains edge.target
    truncated := selectedIds.length < graph.nodes.length || ranked.length > limit
    availableExpansions := availableExpansions localeCompare graph selectedIds }

theorem boundedBreadthFirst_eq (localeCompare : String → String → Ordering)
    (graph : CompleteGraph) (depth limit : Nat) : ∃ distances,
    boundedBreadthFirst localeCompare graph depth limit =
      some (boundedOf localeCompare graph limit
        (distances.insertionSort (nearer localeCompare))) ∧
    Layered graph.Linked graph.center depth distances [] := by
  obtain ⟨distances, hmeasure, hlayered⟩ :=
    measure_ends localeCompare (graph.edges.map (·.2)) graph.center depth
  refine ⟨distances, ?_, hlayered⟩
  unfold boundedBreadthFirst
  simp only [hmeasure, Option.bind_eq_bind, Option.bind_some]
  rfl

include hcollates hnamed hjoins hlayered in
/-- The root is a node of the filtered graph: the projection shows what it says. -/
theorem shows_of_center (hcenter : graph.center ∈ graph.nodes.map (·.1)) :
    let bounded := boundedOf localeCompare graph limit
      (distances.insertionSort (nearer localeCompare))
    Shows localeCompare graph depth limit bounded.nodes bounded.edges bounded.truncated := by
  intro bounded
  have hranking := ranking_of_center hcollates hjoins hlayered hcenter
  have hknown : ∀ e ∈ distances.insertionSort (nearer localeCompare),
      e.1 ∈ graph.nodes.map (·.1) := fun e he => ((hranking.mem e.1 e.2).mp he).1
  have hselected : ∀ id ∈ ((distances.insertionSort (nearer localeCompare)).take limit).map (·.1),
      id ∈ graph.nodes.map (·.1) := by
    intro id hid
    obtain ⟨e, he, rfl⟩ := List.mem_map.mp hid
    exact hknown e (List.mem_of_mem_take he)
  have hlisted := nodes_of_known hselected
  have hids : bounded.nodes.map (·.id) =
      ((distances.insertionSort (nearer localeCompare)).take limit).map (·.1) :=
    ids_of_nodes hnamed hlisted
  refine ⟨⟨_, hranking, List.forall₂_map_left_iff.mp hlisted⟩, ?_, ?_, ?_⟩
  · intro edge
    rw [hids]
    simp only [bounded, boundedOf, List.mem_filter, Bool.and_eq_true, List.contains_iff_mem]
  · intro node hnode
    rw [hids]
    have hmem : node.id ∈ bounded.nodes.map (·.id) := List.mem_map_of_mem hnode
    rw [hids] at hmem
    obtain ⟨⟨id, d⟩, he, heq⟩ := List.mem_map.mp hmem
    rw [← heq]
    exact connected_selected hcollates hlayered he
  · rw [hids, ← truncated_iff hnamed hlayered hknown]
    simp [bounded, boundedOf]

include hjoins hlayered in
/-- The root is none: it is all that is found. -/
theorem ranked_alone (hcenter : graph.center ∉ graph.nodes.map (·.1)) :
    distances.insertionSort (nearer localeCompare) = [(graph.center, 0)] := by
  have hsubset : distances.insertionSort (nearer localeCompare) ⊆ [(graph.center, 0)] := by
    intro e he
    obtain ⟨hzero, hid⟩ := found_center hjoins hcenter ((mem_ranked hlayered).mp he).1.1
    exact List.mem_singleton.mpr (Prod.ext hid hzero)
  have hroot : (graph.center, 0) ∈ distances.insertionSort (nearer localeCompare) :=
    (mem_ranked hlayered).mpr ⟨⟨.start, fun k _ => Nat.zero_le k⟩, Nat.zero_le depth⟩
  have hperm := ((ranked_keys hlayered).of_map.subperm hsubset).perm_of_length_le
    (List.length_pos_of_mem hroot)
  exact List.perm_singleton.mp hperm

include hjoins in
/-- Then nothing is shown. -/
theorem boundedOf_alone (hlimit : 1 ≤ limit) (hcenter : graph.center ∉ graph.nodes.map (·.1)) :
    let bounded := boundedOf localeCompare graph limit [(graph.center, 0)]
    bounded.nodes = [] ∧ bounded.edges = [] ∧
      bounded.truncated = decide (1 < graph.nodes.length) := by
  have htake : [(graph.center, 0)].take limit = [(graph.center, 0)] :=
    List.take_of_length_le hlimit
  have hget : get? graph.nodes graph.center = none := by
    refine OrderedMap.get?_eq_none.mpr fun e he heq => hcenter ?_
    exact List.mem_map.mpr ⟨e, he, heq⟩
  refine ⟨?_, ?_, ?_⟩
  · simp [boundedOf, htake, hget]
  · simp only [boundedOf, htake, List.map_cons, List.map_nil, List.filter_eq_nil_iff]
    intro edge hedge hends
    obtain ⟨e, he, rfl⟩ := List.mem_map.mp hedge
    have hsource : e.2.source = graph.center := by
      simpa using (Bool.and_eq_true_iff.mp hends).1
    exact hcenter (hsource ▸ (hjoins e he).1)
  · have hfew : ¬ 1 > limit := by omega
    simp [boundedOf, htake, hfew]

include hjoins hlayered in
/-- The flag of an empty projection is right but for a single node. -/
theorem shows_without_center (hlimit : 1 ≤ limit)
    (hcenter : graph.center ∉ graph.nodes.map (·.1)) :
    let bounded := boundedOf localeCompare graph limit
      (distances.insertionSort (nearer localeCompare))
    Shows localeCompare graph depth limit bounded.nodes bounded.edges bounded.truncated ↔
      graph.nodes.length ≠ 1 := by
  intro bounded
  obtain ⟨hnodes, hedges, htruncated⟩ := boundedOf_alone hjoins hlimit hcenter
  have hbounded : bounded = boundedOf localeCompare graph limit [(graph.center, 0)] := by
    rw [← ranked_alone hjoins hlayered hcenter]
  rw [hbounded, hnodes, hedges, htruncated]
  constructor
  · intro h hlength
    have hnone := h.truncated.mp (by simp [hlength])
    have hpos : 0 < graph.nodes.length := by omega
    obtain ⟨e, he⟩ := List.exists_mem_of_length_pos hpos
    simpa using hnone e he
  · intro hlength
    refine ⟨⟨[], ⟨by simp, fun id d => ?_, .nil⟩, by simp⟩, fun edge => ?_, by simp, ?_⟩
    · simp only [List.not_mem_nil, false_iff]
      rintro ⟨hid, ⟨hwalk, -⟩, -⟩
      exact hcenter ((found_center hjoins hcenter hwalk).2 ▸ hid)
    · simp
    · have hempty : graph.nodes.length ≤ 1 ↔ graph.nodes = [] := by
        rw [← List.length_eq_zero_iff]
        omega
      simp only [decide_eq_false_iff_not, not_lt, hempty, List.map_nil, List.not_mem_nil]
      exact List.eq_nil_iff_forall_not_mem

end Projection

/-! ## The whole call -/

section Call

variable {sha256 : String → String} {localeCompare : String → String → Ordering}
  {traceability : Traceability} {options : ProjectionOptions} {request : ProjectionRequest}

theorem positiveInteger_pos {value : Option Json} {fallback n maximum : Nat} {fieldName : String}
    (hfallback : 1 ≤ fallback)
    (h : positiveInteger value fallback fieldName maximum = .ok n) : 1 ≤ n := by
  unfold positiveInteger rangeError at h
  split at h
  · cases h
    exact hfallback
  · cases h
    exact hfallback
  · split at h
    · cases h
      omega
    · cases h
  · cases h

theorem readRoot_nodes {complete rooted : CompleteGraph} {rootNodeId : Option Json}
    (h : readRoot complete rootNodeId = .ok rooted) : rooted.nodes = complete.nodes := by
  unfold readRoot typeError at h
  split at h
  · cases h
    rfl
  · cases h
    rfl
  · obtain ⟨id, -, h⟩ := bind_ok h
    split at h
    · cases h
      rfl
    · cases h

theorem readProjection_ok (h : readProjection sha256 traceability options = .ok request) :
    1 ≤ request.limit ∧ Named request.complete.nodes := by
  unfold readProjection at h
  obtain ⟨view, -, h⟩ := bind_ok h
  obtain ⟨depth, -, h⟩ := bind_ok h
  obtain ⟨limit, hlimit, h⟩ := bind_ok h
  obtain ⟨nodeTypes, -, h⟩ := bind_ok h
  obtain ⟨relations, -, h⟩ := bind_ok h
  obtain ⟨complete, hcomplete, h⟩ := bind_ok h
  obtain ⟨rooted, hrooted, h⟩ := bind_ok h
  cases h
  exact ⟨positiveInteger_pos (by omega) hlimit,
    readRoot_nodes hrooted ▸ buildCompleteGraph_named hcomplete⟩

theorem filtered_joins (request : ProjectionRequest) : request.filtered.Joins := by
  have hknown : ∀ {nodes : Nodes} {id : String}, (get? nodes id).isSome = true →
      id ∈ nodes.map (·.1) := by
    intro nodes id hsome
    obtain ⟨node, hnode⟩ := Option.isSome_iff_exists.mp hsome
    exact List.mem_map.mpr ⟨_, get?_mem hnode, rfl⟩
  intro e he
  have hends := (List.mem_filter.mp he).2
  simp only [Bool.and_eq_true] at hends
  exact ⟨hknown hends.1.1, hknown hends.1.2⟩

theorem createFeatureGraphProjection_of {bounded : Bounded}
    (h : readProjection sha256 traceability options = .ok request)
    (hbounded : boundedBreadthFirst localeCompare request.filtered request.depth request.limit =
      some bounded) :
    createFeatureGraphProjection sha256 localeCompare traceability options = some (.ok {
      center := request.complete.center
      snapshotManifestId := request.complete.snapshotManifestId
      view := nullish options.view (.str "traceability")
      depth := request.depth
      nodes := bounded.nodes
      edges := bounded.edges
      truncated := bounded.truncated
      availableExpansions := bounded.availableExpansions }) := by
  unfold createFeatureGraphProjection
  simp only [h, hbounded, Option.bind_eq_bind, Option.bind_some]

/-- A projection shows what it says, unless its root is filtered out and one node is left. -/
theorem createFeatureGraphProjection_shows (hcollates : Collates localeCompare)
    (h : readProjection sha256 traceability options = .ok request) :
    ∃ projection,
      createFeatureGraphProjection sha256 localeCompare traceability options =
        some (.ok projection) ∧
      (Shows localeCompare request.filtered request.depth request.limit projection.nodes
          projection.edges projection.truncated ↔
        request.complete.center ∈ request.filtered.nodes.map (·.1) ∨
          request.filtered.nodes.length ≠ 1) := by
  obtain ⟨hlimit, hnamed⟩ := readProjection_ok h
  obtain ⟨distances, hbounded, hlayered⟩ :=
    boundedBreadthFirst_eq localeCompare request.filtered request.depth request.limit
  refine ⟨_, createFeatureGraphProjection_of h hbounded, ?_⟩
  · have hjoins := filtered_joins request
    have hfiltered : Named request.filtered.nodes := named_filter hnamed _
    by_cases hcenter : request.complete.center ∈ request.filtered.nodes.map (·.1)
    · exact iff_of_true (shows_of_center hcollates hfiltered hjoins hlayered hcenter)
        (Or.inl hcenter)
    · rw [or_iff_right hcenter]
      exact shows_without_center hjoins hlayered hlimit hcenter

end Call

/-! ## A root that the view leaves out -/

/-- A feature with an endpoint. -/
def endpointTrace : Traceability :=
  { feature := some (.obj [("id", .str "F")])
    snapshotManifest := some (.obj [("id", .str "S")])
    processModel := none
    processImplementationFacts := []
    claims := []
    traceChains := [{
      id := "C", claimId := "F", conflicts := [], gaps := []
      segments := [{
        id := "E"
        source := some (.obj [("id", .str "F"), ("type", .str "FEATURE")])
        target := some (.obj [("id", .str "P"), ("type", .str "ENDPOINT")])
        relation := "EXPOSES", provenance := none, status := none }] }] }

/-- The business view around the endpoint. -/
def endpointRoot : ProjectionOptions :=
  { view := some (.str "business"), depth := none, limit := none, nodeTypes := none
    relations := none, rootNodeId := some (.str "P") }

def textOrder (a b : String) : Ordering := compare a b

theorem textOrder_collates : Collates textOrder where
  total a b := by
    unfold textOrder
    rw [compare_le_iff_le, compare_le_iff_le]
    exact le_total a b
  trans a b c := by
    unfold textOrder
    rw [compare_le_iff_le, compare_le_iff_le, compare_le_iff_le]
    exact le_trans

def endpointNode (id type : String) : GraphNode :=
  { id, type, label := some (.str id), version := some .null, status := some (.str "ACTIVE")
    risk := some .null, provenance := some (.str "SERVER_DERIVED"), source := some .null
    details := some (.obj []) }

/-- What is asked for: the feature is the one node of the filtered graph. -/
def endpointRequest : ProjectionRequest :=
  { complete := {
      center := "P"
      snapshotManifestId := "S"
      nodes := [
        ("F", { endpointNode "F" "FEATURE" with
          provenance := some (.str "GOVERNED_BASELINE")
          details := some (.obj [("id", .str "F")]) }),
        ("P", endpointNode "P" "ENDPOINT")]
      edges := [("E", {
        id := "E", source := "F", target := "P", type := "EXPOSES", provenance := none
        status := none, snapshotManifestId := "S" })] }
    view := .business, depth := 1, limit := 30, nodeTypes := [], relations := [] }

theorem endpoint_request :
    readProjection (fun text => text) endpointTrace endpointRoot = .ok endpointRequest := by
  rfl

theorem endpoint_projection : ∃ projection,
    createFeatureGraphProjection (fun text => text) textOrder endpointTrace endpointRoot =
      some (.ok projection) ∧
    (Shows textOrder endpointRequest.filtered 1 30 projection.nodes projection.edges
        projection.truncated ↔
      "P" ∈ endpointRequest.filtered.nodes.map (·.1) ∨
        endpointRequest.filtered.nodes.length ≠ 1) :=
  createFeatureGraphProjection_shows textOrder_collates endpoint_request

/-- Nothing is shown, and nothing is said to be left out. -/
theorem unflagged : ¬ ∀ (traceability : Traceability) (options : ProjectionOptions)
    (request : ProjectionRequest) (projection : Projection),
    readProjection (fun text => text) traceability options = .ok request →
    createFeatureGraphProjection (fun text => text) textOrder traceability options =
      some (.ok projection) →
    Shows textOrder request.filtered request.depth request.limit projection.nodes
      projection.edges projection.truncated := by
  intro hall
  have hshows := hall endpointTrace endpointRoot endpointRequest
    { center := "P", snapshotManifestId := "S", view := .str "business", depth := 1, nodes := []
      edges := [], truncated := false, availableExpansions := [] } rfl rfl
  have hmem := hshows.truncated.mp rfl ("F", { endpointNode "F" "FEATURE" with
    provenance := some (.str "GOVERNED_BASELINE"), details := some (.obj [("id", .str "F")]) })
    (.head _)
  simp at hmem

end Traqen.FeatureGraph
