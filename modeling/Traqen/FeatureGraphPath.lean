-- The path query finds a shortest path: its search is breadth first, and the steps back from the
-- node it looks for are a walk of the least length.
import Traqen.FeatureGraph
import Traqen.Lib.BreadthFirst
import Traqen.Lib.Worklist

open Js

namespace Traqen.FeatureGraph

open BreadthFirst
open OrderedMap (get?_of_set get? ofList get?_mem)

/-! ## What leads on from a node -/

/-- An edge may be followed from one id to another. -/
def Permits (direction : Direction) (edge : GraphEdge) (a b : String) : Prop :=
  (direction ≠ .REVERSE ∧ edge.source = a ∧ edge.target = b) ∨
    (direction ≠ .FORWARD ∧ edge.target = a ∧ edge.source = b)

/-- One of the edges may be followed. -/
def Joined (direction : Direction) (edges : List GraphEdge) (a b : String) : Prop :=
  ∃ edge ∈ edges, Permits direction edge a b

section Adjacency

variable {adjacency : Adjacency} {a b source target id : String} {edge : GraphEdge}
  {item : Neighbour} {direction : Direction} {edges : List GraphEdge}

theorem mem_neighbours_add : item ∈ neighbours (add adjacency source target edge) id ↔
    item ∈ neighbours adjacency id ∨ id = source ∧ item = ⟨target, edge⟩ := by
  unfold add neighbours
  rw [get?_of_set]
  by_cases h : id = source
  · subst h
    simp
  · simp [h]

theorem mem_neighbours_addEdge : item ∈ neighbours (addEdge direction adjacency edge) id ↔
    item ∈ neighbours adjacency id ∨ item.edge = edge ∧ Permits direction edge id item.nodeId := by
  unfold addEdge Permits
  obtain ⟨nodeId, itemEdge⟩ := item
  cases direction <;>
    simp only [ne_eq, reduceCtorEq, not_false_eq_true, not_true_eq_false, if_true, if_false,
      mem_neighbours_add, Neighbour.mk.injEq, true_and, false_and, or_false, false_or] <;>
    grind

theorem mem_neighbours_foldl (edges : List GraphEdge) :
    item ∈ neighbours (edges.foldl (addEdge direction) adjacency) id ↔
      item ∈ neighbours adjacency id ∨
        item.edge ∈ edges ∧ Permits direction item.edge id item.nodeId := by
  induction edges generalizing adjacency with
  | nil => simp
  | cons edge edges ih =>
    rw [List.foldl_cons, ih, mem_neighbours_addEdge]
    constructor
    · rintro ((h | ⟨rfl, h⟩) | ⟨hmem, h⟩)
      · exact Or.inl h
      · exact Or.inr ⟨List.mem_cons_self, h⟩
      · exact Or.inr ⟨List.mem_cons_of_mem edge hmem, h⟩
    · rintro (h | ⟨hmem, h⟩)
      · exact Or.inl (Or.inl h)
      · rcases List.mem_cons.mp hmem with heq | hmem
        · exact Or.inl (Or.inr ⟨heq, heq ▸ h⟩)
        · exact Or.inr ⟨hmem, h⟩

/-- A sort of every list leaves what is in it. -/
theorem neighbours_map (f : List Neighbour → List Neighbour) (hnil : f [] = [])
    (adjacency : Adjacency) (id : String) :
    neighbours (adjacency.map fun (key, items) => (key, f items)) id =
      f (neighbours adjacency id) := by
  unfold neighbours get?
  rw [List.find?_map]
  have hkey : ((fun e : String × List Neighbour => decide (e.1 = id)) ∘
      fun (key, items) => (key, f items)) = fun e => decide (e.1 = id) := rfl
  rw [hkey]
  cases adjacency.find? fun e => decide (e.1 = id) with
  | none => simp [hnil]
  | some e => rfl

theorem mem_pathAdjacency {localeCompare : String → String → Ordering} :
    item ∈ neighbours (pathAdjacency localeCompare direction edges) id ↔
      item.edge ∈ edges ∧ Permits direction item.edge id item.nodeId := by
  unfold pathAdjacency
  rw [neighbours_map (fun items => items.insertionSort _) rfl, List.mem_insertionSort,
    mem_neighbours_foldl]
  simp [neighbours, get?]

theorem joined_iff {localeCompare : String → String → Ordering} :
    Joined direction edges a b ↔
      ∃ item ∈ neighbours (pathAdjacency localeCompare direction edges) a, item.nodeId = b := by
  constructor
  · rintro ⟨edge, hmem, h⟩
    exact ⟨⟨b, edge⟩, mem_pathAdjacency.mpr ⟨hmem, h⟩, rfl⟩
  · rintro ⟨item, hmem, rfl⟩
    exact ⟨item.edge, mem_pathAdjacency.mp hmem⟩

end Adjacency

/-! ## The steps back -/

/-- Ids that edges lead along. -/
inductive Chained (direction : Direction) (edges : List GraphEdge) :
    List String → List GraphEdge → Prop
  | single (a : String) : Chained direction edges [a] []
  | cons {a b : String} {edge : GraphEdge} {ids : List String} {path : List GraphEdge} :
      edge ∈ edges → Permits direction edge a b → Chained direction edges (b :: ids) path →
      Chained direction edges (a :: b :: ids) (edge :: path)

section Steps

variable {direction : Direction} {edges : List GraphEdge} {previous : Previous}
  {found : List (String × Nat)} {a b current : String} {d : Nat} {edge : GraphEdge}

theorem Chained.snoc {ids : List String} {path : List GraphEdge}
    (h : Chained direction edges (ids ++ [a]) path) (hmem : edge ∈ edges)
    (hpermits : Permits direction edge a b) :
    Chained direction edges (ids ++ [a, b]) (path ++ [edge]) := by
  generalize heq : ids ++ [a] = all at h
  induction h generalizing ids with
  | single c =>
    obtain ⟨rfl, hac⟩ : ids = [] ∧ a = c := by
      cases ids with
      | nil => simpa using heq
      | cons x xs => simp at heq
    subst hac
    exact .cons hmem hpermits (.single b)
  | @cons x y e rest path hm hp hrest ih =>
    cases ids with
    | nil => simp at heq
    | cons z zs =>
      obtain ⟨rfl, htail⟩ : z = x ∧ zs ++ [a] = y :: rest := by simpa using heq
      have hchain := ih htail
      cases zs with
      | nil =>
        obtain ⟨rfl, rfl⟩ : a = y ∧ rest = [] := by simpa using htail
        exact .cons hm hp hchain
      | cons w ws =>
        obtain ⟨rfl, -⟩ : w = y ∧ ws ++ [a] = rest := by simpa using htail
        exact .cons hm hp hchain

/-- Every id found has the step it was found by. -/
structure Tracked (direction : Direction) (edges : List GraphEdge) (previous : Previous)
    (found : List (String × Nat)) : Prop where
  keys : previous.map (·.1) = found.map (·.1)
  steps : ∀ a d, (a, d) ∈ found →
    (d = 0 ∧ get? previous a = some none) ∨
      ∃ p edge e, d = e + 1 ∧ get? previous a = some (some ⟨p, edge⟩) ∧
        (p, e) ∈ found ∧ edge ∈ edges ∧ Permits direction edge p a

theorem Previous.has_iff : previous.has a = true ↔ a ∈ previous.map (·.1) := by
  unfold Previous.has
  rw [Option.isSome_iff_ne_none, Ne, OrderedMap.get?_eq_none]
  simp

variable (h : Tracked direction edges previous found)
include h

theorem Tracked.has_iff : previous.has a = true ↔ a ∈ found.map (·.1) := by
  rw [Previous.has_iff, h.keys]

/-- The distances below that of an id found are there too. -/
theorem Tracked.below (hmem : (a, d) ∈ found) : ∀ k ≤ d, ∃ b, (b, k) ∈ found := by
  induction d generalizing a with
  | zero =>
    intro k hk
    obtain rfl : k = 0 := by omega
    exact ⟨a, hmem⟩
  | succ d ih =>
    intro k hk
    rcases Nat.lt_or_ge d k with hlt | hle
    · obtain rfl : k = d + 1 := by omega
      exact ⟨a, hmem⟩
    · rcases h.steps a (d + 1) hmem with ⟨hzero, -⟩ | ⟨p, edge, e, he, -, hp, -⟩
      · omega
      · obtain rfl : e = d := by omega
        exact ih hp k hle

/-- So there are more ids than steps back from any of them. -/
theorem Tracked.lt_length (hmem : (a, d) ∈ found) : d < previous.length := by
  have hsubset : List.range (d + 1) ⊆ found.map (·.2) := by
    intro k hk
    obtain ⟨b, hb⟩ := h.below hmem k (by simpa [Nat.lt_succ_iff] using hk)
    exact List.mem_map.mpr ⟨(b, k), hb, rfl⟩
  have hle := (List.nodup_range.subperm hsubset).length_le
  have hlength : previous.length = found.length := by
    simpa using congrArg List.length h.keys
  simp only [List.length_range, List.length_map] at hle
  omega

theorem Tracked.depthOf (hmem : (a, d) ∈ found)
    {fuel : Nat} (hfuel : d < fuel) : depthOf previous fuel a = some d := by
  induction d generalizing a fuel with
  | zero =>
    obtain ⟨fuel, rfl⟩ : ∃ n, fuel = n + 1 := ⟨fuel - 1, by omega⟩
    rcases h.steps a 0 hmem with ⟨-, hget⟩ | ⟨p, edge, e, he, -⟩
    · simp [FeatureGraph.depthOf, hget]
    · omega
  | succ d ih =>
    obtain ⟨fuel, rfl⟩ : ∃ n, fuel = n + 1 := ⟨fuel - 1, by omega⟩
    rcases h.steps a (d + 1) hmem with ⟨hzero, -⟩ | ⟨p, edge, e, he, hget, hp, -⟩
    · omega
    · obtain rfl : e = d := by omega
      have hrest : FeatureGraph.depthOf previous fuel p = some e := ih hp (by omega)
      simp [FeatureGraph.depthOf, hget, hrest]

/-- The steps back from an id found, the other way round, are a chain from the root. -/
theorem Tracked.trace {root : String}
    (hroot : ∀ b, (b, 0) ∈ found → b = root) (hmem : (a, d) ∈ found) {fuel : Nat}
    (hfuel : d < fuel) : ∃ ids path, trace previous fuel a = some (a :: ids, path) ∧
      path.length = d ∧ Chained direction edges (a :: ids).reverse path.reverse ∧
      (a :: ids).reverse.head? = some root := by
  induction d generalizing a fuel with
  | zero =>
    obtain ⟨fuel, rfl⟩ : ∃ n, fuel = n + 1 := ⟨fuel - 1, by omega⟩
    rcases h.steps a 0 hmem with ⟨-, hget⟩ | ⟨p, edge, e, he, -⟩
    · exact ⟨[], [], by simp [FeatureGraph.trace, hget], rfl, .single a, by simp [hroot a hmem]⟩
    · omega
  | succ d ih =>
    obtain ⟨fuel, rfl⟩ : ∃ n, fuel = n + 1 := ⟨fuel - 1, by omega⟩
    rcases h.steps a (d + 1) hmem with ⟨hzero, -⟩ | ⟨p, edge, e, he, hget, hp, hedge, hpermits⟩
    · omega
    · obtain rfl : e = d := by omega
      have hfuel' : e < fuel := by omega
      obtain ⟨ids, path, htrace, hlength, hchain, hhead⟩ := ih hp hfuel'
      refine ⟨p :: ids, edge :: path, by simp [FeatureGraph.trace, hget, htrace],
        by simp [hlength], ?_, ?_⟩
      · rw [List.reverse_cons] at hchain
        simpa using hchain.snoc hedge hpermits
      · rw [List.reverse_cons, List.head?_append, hhead]
        rfl

omit h

end Steps

/-! ## The search -/

section Search

variable {localeCompare : String → String → Ordering} {direction : Direction}
  {edges : List GraphEdge} {root toNodeId current : String} {maxDepth : Nat}

/-- The search holds what a breadth-first search holds. -/
structure Searching (direction : Direction) (edges : List GraphEdge) (root : String)
    (maxDepth : Nat) (previous : Previous) (queue : List String)
    (done todo : List (String × Nat)) : Prop where
  layered : Layered (Joined direction edges) root maxDepth done todo
  tracked : Tracked direction edges previous (done ++ todo)
  queued : todo.map (·.1) = queue

theorem searching_start (direction : Direction) (edges : List GraphEdge) (root : String)
    (maxDepth : Nat) :
    Searching direction edges root maxDepth [(root, none)] [root] [] [(root, 0)] where
  layered := layered_start _ root maxDepth
  tracked := ⟨rfl, fun a d h => by
    obtain ⟨rfl, rfl⟩ : a = root ∧ d = 0 := by simpa using h
    exact Or.inl ⟨rfl, by simp [get?]⟩⟩
  queued := rfl

theorem keys_set {previous : Previous} {a : String} (h : previous.has a = false)
    (step : Option Step) :
    (OrderedMap.set previous a step).map (·.1) = previous.map (·.1) ++ [a] := by
  rw [OrderedMap.set_of_new (by simpa [Previous.has] using h)]
  simp

/-- What the loop over the neighbours adds. -/
theorem visit_spec (current : String) (previous : Previous) (queue : List String)
    (items : List Neighbour) :
    ∃ fresh : List String,
      (visit current (previous, queue) items).2 = queue ++ fresh ∧
      (visit current (previous, queue) items).1.map (·.1) = previous.map (·.1) ++ fresh ∧
      fresh.Nodup ∧ (∀ b ∈ fresh, b ∉ previous.map (·.1)) ∧
      (∀ item ∈ items, item.nodeId ∈ previous.map (·.1) ++ fresh) ∧
      (∀ a ∈ previous.map (·.1), get? (visit current (previous, queue) items).1 a =
        get? previous a) ∧
      ∀ b ∈ fresh, ∃ edge, ⟨b, edge⟩ ∈ items ∧
        get? (visit current (previous, queue) items).1 b =
          some (some ⟨current, edge⟩) := by
  induction items generalizing previous queue with
  | nil => exact ⟨[], by simp [visit], by simp [visit], List.nodup_nil, by simp, by simp,
      fun _ _ => rfl, by simp⟩
  | cons next items ih =>
    unfold visit
    by_cases hnext : previous.has next.nodeId = true
    · rw [if_pos hnext]
      obtain ⟨fresh, hqueue, hkeys, hnodup, hnew, hall, hold, hsteps⟩ := ih previous queue
      refine ⟨fresh, hqueue, hkeys, hnodup, hnew, ?_, hold, ?_⟩
      · intro item hitem
        rcases List.mem_cons.mp hitem with rfl | hitem
        · exact List.mem_append_left _ (Previous.has_iff.mp hnext)
        · exact hall item hitem
      · intro b hb
        obtain ⟨edge, hmem, hget⟩ := hsteps b hb
        exact ⟨edge, List.mem_cons_of_mem next hmem, hget⟩
    · rw [if_neg hnext]
      have hhas : previous.has next.nodeId = false := by simpa using hnext
      have hout : next.nodeId ∉ previous.map (·.1) := fun h => hnext (Previous.has_iff.mpr h)
      obtain ⟨fresh, hqueue, hkeys, hnodup, hnew, hall, hold, hsteps⟩ :=
        ih (OrderedMap.set previous next.nodeId (some ⟨current, next.edge⟩))
          (queue ++ [next.nodeId])
      rw [keys_set hhas] at hkeys hnew hall hold
      refine ⟨next.nodeId :: fresh, ?_, ?_, ?_, ?_, ?_, ?_, ?_⟩
      · rw [hqueue]
        simp
      · rw [hkeys]
        simp
      · refine List.nodup_cons.mpr ⟨fun hmem => ?_, hnodup⟩
        exact hnew _ hmem (by simp)
      · intro b hb
        rcases List.mem_cons.mp hb with rfl | hb
        · exact hout
        · exact fun hmem => hnew b hb (List.mem_append_left _ hmem)
      · intro item hitem
        rcases List.mem_cons.mp hitem with rfl | hitem
        · simp
        · simpa using hall item hitem
      · intro a ha
        rw [hold a (List.mem_append_left _ ha), get?_of_set, if_neg]
        rintro rfl
        exact hout ha
      · intro b hb
        rcases List.mem_cons.mp hb with rfl | hb
        · refine ⟨next.edge, List.mem_cons_self, ?_⟩
          rw [hold _ (by simp), get?_of_set, if_pos rfl]
        · obtain ⟨edge, hmem, hget⟩ := hsteps b hb
          exact ⟨edge, List.mem_cons_of_mem next hmem, hget⟩

variable {previous : Previous} {queue : List String} {done todo : List (String × Nat)}
  {x : String × Nat}

/-- A turn that follows the head of the queue. -/
theorem Searching.follow (localeCompare : String → String → Ordering)
    (h : Searching direction edges root maxDepth previous (x.1 :: queue) done (x :: todo))
    (hx : x.2 < maxDepth) : ∃ fresh : List String,
      Searching direction edges root maxDepth
        (visit x.1 (previous, queue)
          (neighbours (pathAdjacency localeCompare direction edges) x.1)).1
        (visit x.1 (previous, queue)
          (neighbours (pathAdjacency localeCompare direction edges) x.1)).2
        (done ++ [x]) (todo ++ fresh.map fun b => (b, x.2 + 1)) ∧
      (FeatureGraph.visit x.1 (previous, queue)
          (neighbours (pathAdjacency localeCompare direction edges) x.1)).2 = queue ++ fresh ∧
      fresh.Nodup ∧ (∀ b ∈ fresh, b ∉ (done ++ x :: todo).map (·.1)) ∧
      ∀ b ∈ fresh, Joined direction edges x.1 b := by
  obtain ⟨fresh, hqueue, hkeys, hnodup, hnew, hall, hold, hsteps⟩ :=
    visit_spec x.1 previous queue
      (neighbours (pathAdjacency localeCompare direction edges) x.1)
  rw [h.tracked.keys] at hkeys hnew hall hold
  have hjoined : ∀ b ∈ fresh, Joined direction edges x.1 b := by
    intro b hb
    obtain ⟨edge, hmem, -⟩ := hsteps b hb
    exact joined_iff.mpr ⟨⟨b, edge⟩, hmem, rfl⟩
  have hfound : done ++ [x] ++ (todo ++ fresh.map fun b => (b, x.2 + 1)) =
      (done ++ x :: todo) ++ fresh.map fun b => (b, x.2 + 1) := by simp
  refine ⟨fresh, ⟨?_, ⟨?_, ?_⟩, ?_⟩, hqueue, hnodup, hnew, hjoined⟩
  · refine h.layered.expand hx hnodup hjoined hnew fun b hb => ?_
    obtain ⟨item, hmem, heq⟩ := joined_iff.mp hb
    exact heq ▸ List.mem_append.mp (hall item hmem)
  · rw [hkeys, hfound]
    symm
    rw [List.map_append, map_fst_fresh]
  · intro a d hmem
    rw [hfound] at hmem ⊢
    rcases List.mem_append.mp hmem with hmem | hmem
    · rw [hold a (List.mem_map_of_mem hmem)]
      rcases h.tracked.steps a d hmem with hzero | ⟨p, edge, e, he, hget, hp, hrest⟩
      · exact Or.inl hzero
      · exact Or.inr ⟨p, edge, e, he, hget, List.mem_append_left _ hp, hrest⟩
    · obtain ⟨b, hb, heq⟩ := List.mem_map.mp hmem
      cases heq
      obtain ⟨edge, hedge, hget⟩ := hsteps a hb
      obtain ⟨hmemEdge, hpermits⟩ := mem_pathAdjacency.mp hedge
      exact Or.inr ⟨x.1, edge, x.2, rfl, hget, List.mem_append_left _ (by simp), hmemEdge,
        hpermits⟩
  · rw [hqueue, List.map_append, map_fst_fresh, (List.cons.inj h.queued).2]

/-- A turn that leaves the head of the queue. -/
theorem Searching.skip
    (h : Searching direction edges root maxDepth previous (x.1 :: queue) done (x :: todo))
    (hx : maxDepth ≤ x.2) :
    Searching direction edges root maxDepth previous queue (done ++ [x]) todo where
  layered := h.layered.drop hx
  tracked := by simpa using h.tracked
  queued := (List.cons.inj h.queued).2

/-- The ids that an edge ends at. -/
def ends (edges : List GraphEdge) : List String :=
  edges.flatMap fun edge => [edge.source, edge.target]

theorem Joined.mem_ends {a b : String} (h : Joined direction edges a b) : b ∈ ends edges := by
  obtain ⟨edge, hmem, hpermits⟩ := h
  refine List.mem_flatMap.mpr ⟨edge, hmem, ?_⟩
  rcases hpermits with ⟨-, -, rfl⟩ | ⟨-, -, rfl⟩ <;> simp

/-- The search comes to an end, with the id it looks for or with an empty queue. -/
theorem search_ends (localeCompare : String → String → Ordering) (fuel : Nat)
    (h : Searching direction edges root maxDepth previous queue done todo)
    (hfuel : queue.length + Worklist.missing (ends edges) ((done ++ todo).map (·.1)) ≤ fuel) :
    ∃ previous' queue' done' todo',
      search (pathAdjacency localeCompare direction edges) toNodeId maxDepth fuel
        (previous, queue) = some previous' ∧
      Searching direction edges root maxDepth previous' queue' done' todo' ∧
      (previous'.has toNodeId = true ∨ queue' = []) := by
  induction fuel generalizing previous queue done todo with
  | zero =>
    obtain rfl : queue = [] := List.length_eq_zero_iff.mp (by omega)
    exact ⟨previous, [], done, todo, rfl, h, Or.inr rfl⟩
  | succ fuel ih =>
    cases queue with
    | nil => exact ⟨previous, [], done, todo, rfl, h, Or.inr rfl⟩
    | cons current queue =>
      cases todo with
      | nil => exact absurd h.queued (by simp)
      | cons x todo =>
        obtain rfl : x.1 = current := (List.cons.inj h.queued).1
        unfold search
        by_cases hto : previous.has toNodeId = true
        · rw [if_pos hto]
          exact ⟨previous, x.1 :: queue, done, x :: todo, rfl, h, Or.inl hto⟩
        · have hmem : (x.1, x.2) ∈ done ++ x :: todo := by simp
          have hlt := h.tracked.lt_length hmem
          rw [if_neg hto, h.tracked.depthOf hmem (Nat.lt_succ_of_lt hlt)]
          simp only [List.length_cons] at hfuel
          by_cases hdepth : maxDepth ≤ x.2
          · simp only [hdepth, if_true]
            apply ih (h.skip hdepth)
            simp only [List.append_assoc, List.cons_append, List.nil_append]
            omega
          · simp only [hdepth, if_false]
            obtain ⟨fresh, hnext, hqueue, hnodup, hnew, hjoined⟩ :=
              h.follow localeCompare (by omega)
            apply ih hnext
            have hless := Worklist.missing_append (fun b hb => (hjoined b hb).mem_ends) hnew hnodup
            have hkeys : (done ++ [x] ++ (todo ++ fresh.map fun b => (b, x.2 + 1))).map (·.1) =
                (done ++ x :: todo).map (·.1) ++ fresh := by
              simp [Function.comp_def]
            rw [hqueue, hkeys, List.length_append]
            omega

theorem length_ends (edges : List GraphEdge) : (ends edges).length = 2 * edges.length := by
  unfold ends
  induction edges with
  | nil => rfl
  | cons edge edges ih =>
    rw [List.flatMap_cons, List.length_append, ih, List.length_cons]
    simp only [List.length_cons, List.length_nil]
    omega

theorem enough_fuel (edges : List GraphEdge) (seen : List String) :
    1 + Worklist.missing (ends edges) seen ≤ searchFuel edges := by
  have hle := List.length_filter_le (fun id => id ∉ seen) (ends edges)
  have hlength := length_ends edges
  unfold Worklist.missing searchFuel
  omega

end Search

/-! ## The result -/

/-- What a result lists for an id: the node of it, or nothing for an id that no node has. -/
def Listed (graph : Graph) (id : String) : Option GraphNode → Prop
  | some node => node ∈ graph.nodes ∧ node.id = id
  | none => ∀ node ∈ graph.nodes, node.id ≠ id

/-- Every edge joins two nodes of the graph. -/
def Closed (graph : Graph) : Prop :=
  ∀ edge ∈ graph.edges, (∃ node ∈ graph.nodes, node.id = edge.source) ∧
    ∃ node ∈ graph.nodes, node.id = edge.target

/-- What the path query answers. -/
structure Shortest (graph : Graph) (query : PathQuery) (result : PathResult) : Prop where
  found : result.found = true ↔ ∃ n ≤ query.maxDepth,
    Walk (Joined query.direction graph.edges) query.fromNodeId n query.toNodeId
  path : result.found = true → ∃ ids : List String,
    Chained query.direction graph.edges ids result.edges ∧
      ids.head? = some query.fromNodeId ∧ ids.getLast? = some query.toNodeId ∧
      List.Forall₂ (Listed graph) ids result.nodes
  hops : result.found = true → result.hopCount = some result.edges.length ∧
    Distance (Joined query.direction graph.edges) query.fromNodeId result.edges.length
      query.toNodeId
  known : Closed graph → ∀ entry ∈ result.nodes, entry.isSome = true
  missing : result.found = false → result = PathResult.none

section Result

variable {localeCompare : String → String → Ordering} {graph : Graph} {query : PathQuery}
  {id : String}

theorem listed_nodesById (graph : Graph) (id : String) :
    Listed graph id (get? (nodesById graph) id) := by
  unfold nodesById
  cases hget : get? (ofList (graph.nodes.map fun node => (node.id, node))) id
    with
  | none =>
    intro node hnode heq
    obtain ⟨e, he, hkey⟩ := (OrderedMap.key_mem_ofList
      (graph.nodes.map fun node => (node.id, node)) id).mpr
      ⟨(node.id, node), List.mem_map_of_mem hnode, heq⟩
    exact OrderedMap.get?_eq_none.mp hget e he hkey
  | some node =>
    have hmem := OrderedMap.mem_of_mem_ofList (get?_mem hget)
    obtain ⟨other, hother, heq⟩ := List.mem_map.mp hmem
    cases heq
    exact ⟨hother, rfl⟩

theorem Listed.isSome {entry : Option GraphNode} (h : Listed graph id entry)
    (hid : ∃ node ∈ graph.nodes, node.id = id) : entry.isSome = true := by
  cases entry with
  | some node => rfl
  | none =>
    obtain ⟨node, hnode, heq⟩ := hid
    exact absurd heq (h node hnode)

/-- The ids of a chain in a closed graph are known, where the first one is. -/
theorem Chained.known {direction : Direction} {ids : List String} {path : List GraphEdge}
    (h : Chained direction graph.edges ids path) (hclosed : Closed graph)
    (hhead : ∀ a, ids.head? = some a → ∃ node ∈ graph.nodes, node.id = a) :
    ∀ a ∈ ids, ∃ node ∈ graph.nodes, node.id = a := by
  induction h with
  | single a => simpa using hhead
  | @cons a b edge ids path hmem hpermits _ ih =>
    have hb : ∃ node ∈ graph.nodes, node.id = b := by
      rcases hpermits with ⟨-, -, rfl⟩ | ⟨-, -, rfl⟩
      · exact (hclosed edge hmem).2
      · exact (hclosed edge hmem).1
    intro c hc
    rcases List.mem_cons.mp hc with rfl | hc
    · exact hhead c rfl
    · exact ih (by simpa using hb) c hc

/-- The search finds the id it looks for where there is a walk to it. -/
theorem searched (localeCompare : String → String → Ordering) (edges : List GraphEdge)
    (query : PathQuery) : ∃ previous queue done todo,
    search (pathAdjacency localeCompare query.direction edges) query.toNodeId query.maxDepth
      (searchFuel edges) ([(query.fromNodeId, none)], [query.fromNodeId]) = some previous ∧
    Searching query.direction edges query.fromNodeId query.maxDepth previous queue done todo ∧
    (previous.has query.toNodeId = true ↔ ∃ n ≤ query.maxDepth,
      Walk (Joined query.direction edges) query.fromNodeId n query.toNodeId) := by
  obtain ⟨previous, queue, done, todo, hsearch, hsearching, hstop⟩ :=
    search_ends localeCompare (searchFuel edges)
      (searching_start query.direction edges query.fromNodeId query.maxDepth) (enough_fuel edges _)
  refine ⟨previous, queue, done, todo, hsearch, hsearching, ?_⟩
  rw [hsearching.tracked.has_iff]
  constructor
  · intro hmem
    obtain ⟨⟨a, d⟩, hfound, rfl⟩ := List.mem_map.mp hmem
    exact ⟨d, hsearching.layered.within _ hfound, hsearching.layered.walks _ hfound⟩
  · rintro ⟨n, hn, hwalk⟩
    rcases hstop with hto | rfl
    · exact hsearching.tracked.has_iff.mp hto
    · obtain rfl : todo = [] := List.map_eq_nil_iff.mp hsearching.queued
      obtain ⟨e, -, hfound⟩ := hsearching.layered.reached hwalk hn (by simp)
      exact List.mem_map.mpr ⟨_, hfound, rfl⟩

/-- The nodes at both ends are known. -/
def Known (graph : Graph) (query : PathQuery) : Prop :=
  (∃ node ∈ graph.nodes, node.id = query.fromNodeId) ∧
    ∃ node ∈ graph.nodes, node.id = query.toNodeId

variable {previous : Previous} {ids : List String} {path : List GraphEdge}

/-- What the query makes of the search. -/
theorem findPath_of (hknown : Known graph query)
    (hsearch : search (pathAdjacency localeCompare query.direction graph.edges) query.toNodeId
      query.maxDepth (searchFuel graph.edges) ([(query.fromNodeId, none)], [query.fromNodeId]) =
      some previous) :
    findPath localeCompare graph query =
      if ¬ previous.has query.toNodeId then some .none
      else (trace previous (previous.length + 1) query.toNodeId).bind fun (ids, path) =>
        some { found := true
               nodes := ids.reverse.map (get? (nodesById graph))
               edges := path.reverse
               hopCount := some path.length } := by
  have hfrom := (listed_nodesById graph query.fromNodeId).isSome hknown.1
  have hto := (listed_nodesById graph query.toNodeId).isSome hknown.2
  unfold findPath
  simp only [hfrom, hto, not_true_eq_false, or_self, if_false, hsearch, Option.bind_eq_bind,
    Option.bind_some]

theorem listed_map (graph : Graph) (ids : List String) :
    List.Forall₂ (Listed graph) ids (ids.map (get? (nodesById graph))) := by
  rw [List.forall₂_map_right_iff, List.forall₂_same]
  exact fun id _ => listed_nodesById graph id

theorem findPath_shortest (localeCompare : String → String → Ordering)
    (hknown : Known graph query) :
    ∃ result, findPath localeCompare graph query = some result ∧ Shortest graph query result := by
  obtain ⟨previous, queue, done, todo, hsearch, hsearching, hwalk⟩ :=
    searched localeCompare graph.edges query
  rw [findPath_of hknown hsearch]
  by_cases hhas : previous.has query.toNodeId = true
  · obtain ⟨⟨a, d⟩, hfound, rfl⟩ := List.mem_map.mp (hsearching.tracked.has_iff.mp hhas)
    have hroot : ∀ b, (b, 0) ∈ done ++ todo → b = query.fromNodeId := by
      intro b hb
      have hzero := hsearching.layered.walks _ hb
      cases hzero
      rfl
    have hlt := hsearching.tracked.lt_length hfound
    obtain ⟨ids, path, htrace, rfl, hchain, hhead⟩ :=
      hsearching.tracked.trace hroot hfound (Nat.lt_succ_of_lt hlt)
    have hdistance := hsearching.layered.distance hfound
    rw [if_neg (not_not_intro hhas), htrace]
    refine ⟨_, rfl, ⟨by simpa using hwalk.mp hhas, fun _ => ?_, fun _ => ?_, ?_, by simp⟩⟩
    · exact ⟨_, hchain, hhead, by simp, listed_map graph _⟩
    · simpa using hdistance
    · intro hclosed entry hentry
      obtain ⟨id, hid, rfl⟩ := List.mem_map.mp hentry
      refine (listed_nodesById graph id).isSome (hchain.known hclosed ?_ id hid)
      intro b hb
      rw [hhead] at hb
      exact Option.some.inj hb ▸ hknown.1
  · rw [if_pos hhas]
    refine ⟨_, rfl, ⟨?_, by simp [PathResult.none], by simp [PathResult.none],
      by simp [PathResult.none], fun _ => rfl⟩⟩
    rw [← hwalk]
    simpa [PathResult.none] using hhas

/-- A path query between two known nodes ends with a shortest path, where there is one. -/
theorem queryFeatureGraphPath_shortest {input : PathInput}
    (h : readPathQuery input = .ok query) (hknown : Known graph query) :
    ∃ result, queryFeatureGraphPath localeCompare graph input = some (.ok result) ∧
      Shortest graph query result := by
  obtain ⟨result, hfind, hshortest⟩ := findPath_shortest localeCompare hknown
  refine ⟨result, ?_, hshortest⟩
  unfold queryFeatureGraphPath
  simp only [h, hfind, Option.map_some]

end Result

/-! ## An edge by way of an unknown id -/

def plainNode (id : String) : GraphNode :=
  { id, type := "CLAIM", label := none, version := none, status := none, risk := none,
    provenance := none, source := none, details := none }

def plainEdge (source target : String) : GraphEdge :=
  { id := source ++ target, source, target, type := "DEPENDS_ON", provenance := none
    status := none, snapshotManifestId := "S" }

/-- There is no node for `b`. -/
def gapGraph : Graph :=
  { nodes := [plainNode "a", plainNode "c"], edges := [plainEdge "a" "b", plainEdge "b" "c"] }

def forwardInput : PathInput :=
  { fromNodeId := some (.str "a"), toNodeId := some (.str "c"),
    direction := some (.str "FORWARD"), maxDepth := none }

def forwardQuery : PathQuery :=
  { fromNodeId := "a", toNodeId := "c", direction := .FORWARD, maxDepth := 8 }

theorem forward_path : ∃ result,
    queryFeatureGraphPath (fun a b => compare a b) gapGraph forwardInput = some (.ok result) ∧
      Shortest gapGraph forwardQuery result :=
  queryFeatureGraphPath_shortest rfl
    ⟨⟨plainNode "a", by simp [gapGraph], rfl⟩, ⟨plainNode "c", by simp [gapGraph], rfl⟩⟩

/-- The path of that query lists nothing for `b`. -/
def gapResult : PathResult :=
  { found := true
    nodes := [some (plainNode "a"), none, some (plainNode "c")]
    edges := [plainEdge "a" "b", plainEdge "b" "c"]
    hopCount := some 2 }

theorem missing_node : ¬ ∀ (graph : Graph) (input : PathInput) (query : PathQuery)
    (result : PathResult), readPathQuery input = .ok query → Known graph query →
    queryFeatureGraphPath (fun a b => compare a b) graph input = some (.ok result) →
    result.found = true → ∃ nodes : List GraphNode, result.nodes = nodes.map some ∧
      Chained query.direction graph.edges (nodes.map (·.id)) result.edges := by
  intro hall
  obtain ⟨nodes, hnodes, -⟩ := hall gapGraph forwardInput forwardQuery gapResult rfl
    ⟨⟨plainNode "a", by simp [gapGraph], rfl⟩, ⟨plainNode "c", by simp [gapGraph], rfl⟩⟩ rfl rfl
  have hmem : none ∈ nodes.map some := by
    rw [← hnodes]
    simp [gapResult]
  simp at hmem

end Traqen.FeatureGraph
