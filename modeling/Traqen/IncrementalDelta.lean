-- The delta between a base graph and a new one (`application/legacy-understanding-runtime.js`):
-- the nodes that differ, what is connected with them over the edges of both graphs, and what is
-- to be validated again.
import Traqen.CanonicalOrder
import Traqen.Lib.Worklist

open Js

namespace Traqen.IncrementalDelta

open SourceIdentity (SameUpToOrder DistinctKeys)
open OrderedMap (ofList get?)

/-! ## Graphs -/

/-- A node: an object with an id. -/
structure Node where
  id : String
  fields : List (String × Json)
  named : fields.lookup "id" = some (.str id)
  distinct : DistinctKeys (.obj fields)

def Node.json (n : Node) : Json := .obj n.fields

structure Edge where
  id : String
  source : String
  target : String
  fields : List (String × Json)
  named : fields.lookup "id" = some (.str id)
  starts : fields.lookup "source" = some (.str source)
  ends : fields.lookup "target" = some (.str target)
  distinct : DistinctKeys (.obj fields)

def Edge.json (e : Edge) : Json := .obj e.fields

/-- Nodes and edges with unique ids, as `createImmutableGraphArtifact` demands. An edge may have
an end that is no node. -/
structure Graph where
  nodes : List Node
  edges : List Edge
  nodesUnique : (nodes.map (·.id)).Nodup
  edgesUnique : (edges.map (·.id)).Nodup

/-! ## The delta -/

inductive ChangeKind where
  | ADDED
  | REMOVED
  | MODIFIED
deriving DecidableEq, Repr

structure SemanticChange where
  nodeId : String
  beforeDigest : Option String
  afterDigest : Option String
  kind : ChangeKind
deriving DecidableEq

structure ChangeSet where
  id : String
  fromRevisionId : String
  toSnapshotManifestId : String
  changedNodeIds : List String
  semanticChanges : List SemanticChange
deriving DecidableEq

inductive Action where
  | REVIEW_CHANGED_CANDIDATES
  | REVIEW_AFFECTED_CLAIMS
  | RERUN_AFFECTED_TESTS
  | REVALIDATE_DEPENDENCIES
deriving DecidableEq, Repr

structure RevalidationPlan where
  required : Bool
  affectedNodeIds : List String
  actions : List Action
deriving DecidableEq

inductive Confidence where
  | HIGH
  | MEDIUM
  | LOW
deriving DecidableEq, Repr

structure ImpactAssessment where
  id : String
  changeSetId : String
  affectedNodeIds : List String
  affectedFeatureIds : List String
  affectedClaimIds : List String
  affectedTestSpecIds : List String
  affectedDependencyIds : List String
  unresolvedPathNodeIds : List String
  confidence : Confidence
  revalidationPlan : RevalidationPlan
deriving DecidableEq

structure Delta where
  changeSet : ChangeSet
  impactAssessment : ImpactAssessment
  revalidationPlan : RevalidationPlan
deriving DecidableEq

structure Job where
  baseRevisionId : Option String
  snapshotManifestId : String

/-- What the store holds: the artifact of a revision, if both are there. -/
structure Store where
  graphArtifactId : String → Option String
  graphArtifact : String → Option Graph

/-- `.sort()` of texts. -/
def sortedIds (ids : List String) : List String :=
  ids.insertionSort fun a b => codeUnits a ≤ codeUnits b

/-- The canonical text of each node, under its id. -/
def textsOf (nodes : List Node) : List (String × String) :=
  ofList (nodes.map fun n => (n.id, canonicalJson n.json))

def changedNodeIds (before after : List (String × String)) : List String :=
  sortedIds ((before.map (·.1) ++ after.map (·.1)).eraseDups.filter fun id =>
    get? before id ≠ get? after id)

/-- `adjacency.get(id) ?? []`. -/
def neighbours (adjacency : List (String × List String)) (id : String) : List String :=
  (get? adjacency id).getD []

def link (adjacency : List (String × List String)) (e : Edge) : List (String × List String) :=
  let there := OrderedMap.set adjacency e.source (neighbours adjacency e.source ++ [e.target])
  OrderedMap.set there e.target (neighbours there e.target ++ [e.source])

def adjacencyOf (edges : List Edge) : List (String × List String) := edges.foldl link []

/-- The fuel is for the changed ids and for each end of an edge. -/
def affectedFrom (edges : List Edge) (changed : List String) : Option (List String) :=
  Worklist.collectLast (neighbours (adjacencyOf edges)) (changed.length + 2 * edges.length)
    (changed, changed)

/-- `types.includes(allNodes.get(nodeId)?.type)`. -/
def hasType (nodes : List Node) (types : List String) (nodeId : String) : Bool :=
  let allNodes := ofList (nodes.map fun n => (n.id, n))
  types.any fun type =>
    ((get? allNodes nodeId).bind fun n => n.json.get? "type") = some (.str type)

def ids (values : List String) : Json := .arr (values.map .str)

/-- The delta of a job; none of it without a base revision. The outer option is for the loop,
which may not end. -/
def incrementalDelta (sha256 : String → String) (store : Store) (job : Job) (graph : Graph) :
    Option (Option Delta) :=
  match job.baseRevisionId with
  | none => some none
  | some baseRevisionId =>
    let artifact := (store.graphArtifactId baseRevisionId).bind store.graphArtifact
    let baseNodes := (artifact.map (·.nodes)).getD []
    let edges := (artifact.map (·.edges)).getD [] ++ graph.edges
    let before := textsOf baseNodes
    let after := textsOf graph.nodes
    let changed := changedNodeIds before after
    (affectedFrom edges changed).map fun affected =>
      let affectedByType types :=
        sortedIds (affected.filter (hasType (baseNodes ++ graph.nodes) types))
      let affectedClaimIds := affectedByType ["CLAIM", "CANDIDATE_CLAIM"]
      let affectedTestSpecIds := affectedByType ["TEST_SPEC", "TEST_ASSET"]
      let affectedDependencyIds :=
        affectedByType ["EXTERNAL_DEPENDENCY", "DATA_OBJECT", "CONFIGURATION"]
      let digest text := contentId sha256 "NODE-SEMANTIC" (.str text)
      let changeSet : ChangeSet :=
        { id := contentId sha256 "UNDERSTANDING-CHANGE-SET" (.obj [
            ("baseRevisionId", .str baseRevisionId),
            ("snapshotManifestId", .str job.snapshotManifestId), ("changedNodeIds", ids changed)])
          fromRevisionId := baseRevisionId
          toSnapshotManifestId := job.snapshotManifestId
          changedNodeIds := changed
          semanticChanges := changed.map fun nodeId =>
            { nodeId
              beforeDigest := (get? before nodeId).map digest
              afterDigest := (get? after nodeId).map digest
              kind :=
                if (get? before nodeId).isNone = true then .ADDED
                else if (get? after nodeId).isNone = true then .REMOVED
                else .MODIFIED } }
      let revalidationPlan : RevalidationPlan :=
        { required := decide (0 < changed.length)
          affectedNodeIds := sortedIds affected
          actions := (if 0 < changed.length then [.REVIEW_CHANGED_CANDIDATES] else []) ++
            (if 0 < affectedClaimIds.length then [.REVIEW_AFFECTED_CLAIMS] else []) ++
            (if 0 < affectedTestSpecIds.length then [.RERUN_AFFECTED_TESTS] else []) ++
            if 0 < affectedDependencyIds.length then [.REVALIDATE_DEPENDENCIES] else [] }
      let impactAssessment : ImpactAssessment :=
        { id := contentId sha256 "UNDERSTANDING-IMPACT" (.obj [("changeSetId", .str changeSet.id),
            ("affected", ids (sortedIds affected))])
          changeSetId := changeSet.id
          affectedNodeIds := sortedIds affected
          affectedFeatureIds := affectedByType ["FEATURE", "FEATURE_VERSION"]
          affectedClaimIds
          affectedTestSpecIds
          affectedDependencyIds
          unresolvedPathNodeIds :=
            changed.filter fun nodeId => (neighbours (adjacencyOf edges) nodeId).isEmpty
          confidence :=
            if changed.length = 0 then .HIGH
            else if changed.length < affected.length then .MEDIUM
            else .LOW
          revalidationPlan }
      some { changeSet, impactAssessment, revalidationPlan }

/-! ## What differs -/

/-- A node of the id was added, was removed, or has another value. -/
inductive Changed (base graph : List Node) (id : String) : Prop where
  | added (n : Node) : n ∈ graph → n.id = id → (∀ m ∈ base, m.id ≠ id) → Changed base graph id
  | removed (m : Node) : m ∈ base → m.id = id → (∀ n ∈ graph, n.id ≠ id) → Changed base graph id
  | modified (m n : Node) : m ∈ base → n ∈ graph → m.id = id → n.id = id →
    ¬ SameUpToOrder m.json n.json → Changed base graph id

/-- Equal up to the order of the nodes and of their keys. -/
def SameNodes (base graph : List Node) : Prop :=
  (∀ m ∈ base, ∃ n ∈ graph, SameUpToOrder m.json n.json) ∧
    ∀ n ∈ graph, ∃ m ∈ base, SameUpToOrder m.json n.json

def SameEdges (base graph : List Edge) : Prop :=
  (∀ d ∈ base, ∃ e ∈ graph, SameUpToOrder d.json e.json) ∧
    ∀ e ∈ graph, ∃ d ∈ base, SameUpToOrder d.json e.json

/-- An edge has the two as its ends. -/
def Linked (edges : List Edge) (a b : String) : Prop :=
  ∃ e ∈ edges, e.source = a ∧ e.target = b ∨ e.source = b ∧ e.target = a

/-- Connected with a node that changed. -/
def Affected (base graph : Graph) (id : String) : Prop :=
  ∃ changed, Changed base.nodes graph.nodes changed ∧
    Relation.ReflTransGen (Linked (base.edges ++ graph.edges)) changed id

/-- The delta names what changed and what is affected, and asks for validation exactly where the
two graphs differ. -/
structure Exact (base graph : Graph) (delta : Delta) : Prop where
  changed : ∀ id, id ∈ delta.changeSet.changedNodeIds ↔ Changed base.nodes graph.nodes id
  affected : ∀ id, id ∈ delta.revalidationPlan.affectedNodeIds ↔ Affected base graph id
  assessed : delta.impactAssessment.affectedNodeIds = delta.revalidationPlan.affectedNodeIds
  required : delta.revalidationPlan.required = false ↔
    SameNodes base.nodes graph.nodes ∧ SameEdges base.edges graph.edges

/-! ## The changed nodes -/

section Changes

variable {base graph : List Node}

theorem get_textsOf_some {nodes : List Node} (hunique : (nodes.map (·.id)).Nodup) {n : Node}
    (hn : n ∈ nodes) : get? (textsOf nodes) n.id = some (canonicalJson n.json) := by
  apply OrderedMap.get?_ofList_of_forall ⟨_, List.mem_map_of_mem hn, rfl⟩
  intro e he hid
  obtain ⟨m, hm, rfl⟩ := List.mem_map.mp he
  rw [List.inj_on_of_nodup_map hunique hm hn hid]

theorem get_textsOf_none {nodes : List Node} {id : String} (h : ∀ n ∈ nodes, n.id ≠ id) :
    get? (textsOf nodes) id = none := by
  apply OrderedMap.get?_ofList_none
  intro e he
  obtain ⟨m, hm, rfl⟩ := List.mem_map.mp he
  exact h m hm

theorem same_iff (m n : Node) :
    canonicalJson m.json = canonicalJson n.json ↔ SameUpToOrder m.json n.json :=
  canonicalJson_eq_iff m.distinct n.distinct

theorem mem_changedNodeIds (hbase : (base.map (·.id)).Nodup) (hgraph : (graph.map (·.id)).Nodup)
    (id : String) : id ∈ changedNodeIds (textsOf base) (textsOf graph) ↔ Changed base graph id := by
  have hkey : ∀ nodes : List Node, id ∈ (textsOf nodes).map (·.1) ↔ ∃ n ∈ nodes, n.id = id := by
    intro nodes
    have h := OrderedMap.key_mem_ofList (nodes.map fun n => (n.id, canonicalJson n.json)) id
    simpa [textsOf] using h
  unfold changedNodeIds sortedIds
  rw [List.mem_insertionSort, List.mem_filter, List.mem_eraseDups, List.mem_append, hkey, hkey,
    decide_eq_true_eq]
  by_cases hold : ∃ m ∈ base, m.id = id
  · obtain ⟨m, hm, rfl⟩ := hold
    rw [get_textsOf_some hbase hm]
    by_cases hnew : ∃ n ∈ graph, n.id = m.id
    · obtain ⟨n, hn, hid⟩ := hnew
      have hother := get_textsOf_some hgraph hn
      rw [hid] at hother
      rw [hother, Ne, Option.some_inj, same_iff]
      constructor
      · exact fun h => .modified m n hm hn rfl hid h.2
      · rintro (⟨_, _, _, hno⟩ | ⟨_, _, _, hno⟩ | ⟨m', n', hm', hn', hid', hid'', hne⟩)
        · exact absurd rfl (hno m hm)
        · exact absurd hid (hno n hn)
        · obtain rfl := List.inj_on_of_nodup_map hbase hm' hm hid'
          obtain rfl := List.inj_on_of_nodup_map hgraph hn' hn (hid''.trans hid.symm)
          exact ⟨Or.inl ⟨m', hm, rfl⟩, hne⟩
    · have hno : ∀ n ∈ graph, n.id ≠ m.id := fun n hn hid => hnew ⟨n, hn, hid⟩
      rw [get_textsOf_none hno]
      exact iff_of_true ⟨Or.inl ⟨m, hm, rfl⟩, nofun⟩ (.removed m hm rfl hno)
  · have hno : ∀ m ∈ base, m.id ≠ id := fun m hm hid => hold ⟨m, hm, hid⟩
    rw [get_textsOf_none hno]
    constructor
    · rintro ⟨hold' | ⟨n, hn, hid⟩, -⟩
      · exact absurd hold' hold
      · exact .added n hn hid hno
    · rintro (⟨n, hn, hid, -⟩ | ⟨m, hm, hid, -⟩ | ⟨m, -, hm, -, hid, -⟩)
      · subst hid
        rw [get_textsOf_some hgraph hn]
        exact ⟨Or.inr ⟨n, hn, rfl⟩, nofun⟩
      · exact absurd hid (hno m hm)
      · exact absurd hid (hno m hm)

/-- Values that are one up to order have one id. -/
theorem id_of_same {m n : Node} (h : SameUpToOrder m.json n.json) : m.id = n.id := by
  have hid := same_get h "id"
  have hm : m.json.get? "id" = some (.str m.id) := m.named
  have hn : n.json.get? "id" = some (.str n.id) := n.named
  rw [hm, hn] at hid
  cases hid with
  | some hid =>
    have heq := canonicalizeValue_same hid
    simpa [canonicalizeValue] using heq

/-- Where no node changed, the nodes are the same. -/
theorem sameNodes_iff (hgraph : (graph.map (·.id)).Nodup) :
    (∀ id, ¬ Changed base graph id) ↔ SameNodes base graph := by
  constructor
  · intro h
    constructor
    · intro m hm
      by_contra hnone
      refine h m.id ?_
      by_cases hnew : ∃ n ∈ graph, n.id = m.id
      · obtain ⟨n, hn, hid⟩ := hnew
        exact .modified m n hm hn rfl hid fun hsame => hnone ⟨n, hn, hsame⟩
      · exact .removed m hm rfl fun n hn hid => hnew ⟨n, hn, hid⟩
    · intro n hn
      by_contra hnone
      refine h n.id ?_
      by_cases hold : ∃ m ∈ base, m.id = n.id
      · obtain ⟨m, hm, hid⟩ := hold
        exact .modified m n hm hn hid rfl fun hsame => hnone ⟨m, hm, hsame⟩
      · exact .added n hn rfl fun m hm hid => hold ⟨m, hm, hid⟩
  · rintro ⟨hold, hnew⟩ id hchanged
    cases hchanged with
    | added n hn hid hno =>
      obtain ⟨m, hm, hsame⟩ := hnew n hn
      exact hno m hm ((id_of_same hsame).trans hid)
    | removed m hm hid hno =>
      obtain ⟨n, hn, hsame⟩ := hold m hm
      exact hno n hn ((id_of_same hsame).symm.trans hid)
    | modified m n hm hn hid hid' hne =>
      obtain ⟨n', hn', hsame⟩ := hold m hm
      obtain rfl := List.inj_on_of_nodup_map hgraph hn' hn
        ((id_of_same hsame).symm.trans (hid.trans hid'.symm))
      exact hne hsame

end Changes

/-! ## The affected nodes -/

section Affected

theorem neighbours_set (adjacency : List (String × List String)) (a b : String)
    (more : List String) :
    neighbours (OrderedMap.set adjacency a (neighbours adjacency a ++ more)) b =
      neighbours adjacency b ++ if b = a then more else [] := by
  unfold neighbours
  rw [OrderedMap.get?_of_set]
  by_cases h : b = a
  · rw [if_pos h, if_pos h, h]
    rfl
  · rw [if_neg h, if_neg h, List.append_nil]

theorem mem_neighbours (edges : List Edge) (a b : String) :
    b ∈ neighbours (adjacencyOf edges) a ↔ Linked edges a b := by
  unfold adjacencyOf
  induction edges using List.reverseRecOn with
  | nil => simp [neighbours, get?, Linked]
  | append_singleton edges e ih =>
    rw [List.foldl_append, List.foldl_cons, List.foldl_nil]
    have hsnoc : Linked (edges ++ [e]) a b ↔
        Linked edges a b ∨ (e.source = a ∧ e.target = b ∨ e.source = b ∧ e.target = a) := by
      simp [Linked, or_and_right, exists_or]
    rw [hsnoc, ← ih]
    unfold link
    rw [neighbours_set, neighbours_set, List.mem_append, List.mem_append]
    by_cases hs : a = e.source <;> by_cases ht : a = e.target <;> grind

theorem affectedFrom_spec (edges : List Edge) (changed : List String) :
    ∃ affected, affectedFrom edges changed = some affected ∧
      ∀ id, id ∈ affected ↔ ∃ c ∈ changed, Relation.ReflTransGen (Linked edges) c id := by
  have hnext : ∀ a, ∀ b ∈ neighbours (adjacencyOf edges) a,
      b ∈ edges.map (·.source) ++ edges.map (·.target) := by
    intro a b hb
    obtain ⟨e, he, ⟨-, rfl⟩ | ⟨rfl, -⟩⟩ := (mem_neighbours edges a b).mp hb
    · exact List.mem_append_right _ (List.mem_map_of_mem he)
    · exact List.mem_append_left _ (List.mem_map_of_mem he)
  have hfuel : changed.length +
      Worklist.missing (edges.map (·.source) ++ edges.map (·.target)) changed ≤
        changed.length + 2 * edges.length := by
    have hle := List.length_filter_le (fun x => x ∉ changed)
      (edges.map (·.source) ++ edges.map (·.target))
    rw [List.length_append, List.length_map, List.length_map] at hle
    unfold Worklist.missing
    omega
  obtain ⟨affected, haffected⟩ := Worklist.collectLast_ends hnext _ changed changed hfuel
  refine ⟨affected, haffected, fun id => ?_⟩
  rw [(Worklist.collectLast_frontier Worklist.frontier_seeds haffected).mem_iff]
  have hfollows : Worklist.Follows (neighbours (adjacencyOf edges)) = Linked edges := by
    funext a b
    exact propext (mem_neighbours edges a b)
  rw [hfollows]

end Affected

/-! ## Revalidation -/

section Delta

variable {sha256 : String → String} {store : Store} {job : Job} {base : Graph}

/-- What the delta says, apart from the digests. -/
theorem incrementalDelta_spec {revision artifact : String}
    (hrevision : job.baseRevisionId = some revision)
    (hartifact : store.graphArtifactId revision = some artifact)
    (hbase : store.graphArtifact artifact = some base) (graph : Graph) :
    ∃ delta, incrementalDelta sha256 store job graph = some (some delta) ∧
      (∀ id, id ∈ delta.changeSet.changedNodeIds ↔ Changed base.nodes graph.nodes id) ∧
      (∀ id, id ∈ delta.revalidationPlan.affectedNodeIds ↔ Affected base graph id) ∧
      delta.impactAssessment.affectedNodeIds = delta.revalidationPlan.affectedNodeIds ∧
      (delta.revalidationPlan.required = false ↔ SameNodes base.nodes graph.nodes) := by
  have hchanged := mem_changedNodeIds base.nodesUnique graph.nodesUnique
  obtain ⟨affected, hrun, haffected⟩ := affectedFrom_spec (base.edges ++ graph.edges)
    (changedNodeIds (textsOf base.nodes) (textsOf graph.nodes))
  unfold incrementalDelta
  simp only [hrevision, hartifact, hbase, Option.bind_some, Option.map_some, Option.getD_some, hrun]
  refine ⟨_, rfl, hchanged, fun id => ?_, rfl, ?_⟩
  · unfold sortedIds Affected
    rw [List.mem_insertionSort, haffected]
    simp only [hchanged]
  · dsimp only
    rw [← sameNodes_iff graph.nodesUnique, decide_eq_false_iff_not, not_lt,
      Nat.le_zero, List.length_eq_zero_iff, List.eq_nil_iff_forall_not_mem]
    simp only [hchanged]

/-- The delta is exact unless only edges differ. -/
theorem incrementalDelta_exact {revision artifact : String}
    (hrevision : job.baseRevisionId = some revision)
    (hartifact : store.graphArtifactId revision = some artifact)
    (hbase : store.graphArtifact artifact = some base) (graph : Graph) :
    ∃ delta, incrementalDelta sha256 store job graph = some (some delta) ∧
      (Exact base graph delta ↔
        (SameNodes base.nodes graph.nodes → SameEdges base.edges graph.edges)) := by
  obtain ⟨delta, hrun, hchanged, haffected, hassessed, hrequired⟩ :=
    @incrementalDelta_spec sha256 _ _ _ _ _ hrevision hartifact hbase graph
  refine ⟨delta, hrun, fun h hnodes => ?_, fun h => ⟨hchanged, haffected, hassessed, ?_⟩⟩
  · exact (h.required.mp (hrequired.mpr hnodes)).2
  · rw [hrequired]
    exact ⟨fun hnodes => ⟨hnodes, h hnodes⟩, fun hboth => hboth.1⟩

end Delta

/-! ## A status of an edge -/

def order : Node where
  id := "CF-ORDER"
  fields := [("id", .str "CF-ORDER"), ("type", .str "CANDIDATE_FEATURE")]
  named := rfl
  distinct := by simp [DistinctKeys, SourceIdentity.DistinctFields]

/-- The node is linked to itself, with a status. -/
def orderEdge (status : String) : Edge where
  id := "EDGE-1"
  source := "CF-ORDER"
  target := "CF-ORDER"
  fields := [("id", .str "EDGE-1"), ("source", .str "CF-ORDER"), ("target", .str "CF-ORDER"),
    ("status", .str status)]
  named := rfl
  starts := rfl
  ends := rfl
  distinct := by simp [DistinctKeys, SourceIdentity.DistinctFields]

def orderGraph (status : String) : Graph where
  nodes := [order]
  edges := [orderEdge status]
  nodesUnique := List.nodup_singleton _
  edgesUnique := List.nodup_singleton _

/-- A store with one artifact of one revision. -/
def storeOf (base : Graph) : Store where
  graphArtifactId revision := if revision = "REVISION-1" then some "ARTIFACT-1" else none
  graphArtifact artifact := if artifact = "ARTIFACT-1" then some base else none

def deltaJob : Job := { baseRevisionId := some "REVISION-1", snapshotManifestId := "SNAPSHOT-2" }

/-- The digests of a delta without changed nodes. -/
def deltaDigest : String → String :=
  tabledDigest [(7169, "5eaa12ea35b7c96f185184f909ff41f86fe0f95c7c0ea3510143d6bc190a64bb"),
    (6164, "6fddb4496f9ae01fecef11f4127b079c8b845e571f5ff8b317ad3de8e5403d76")]

theorem orderEdge_differs {status status' : String} (h : status ≠ status') :
    ¬ SameEdges [orderEdge status] [orderEdge status'] := by
  rintro ⟨hold, -⟩
  obtain ⟨e, he, hsame⟩ := hold _ List.mem_cons_self
  obtain rfl := List.mem_singleton.mp he
  have hstatus := same_get hsame "status"
  have hleft : (orderEdge status).json.get? "status" = some (.str status) := rfl
  have hright : (orderEdge status').json.get? "status" = some (.str status') := rfl
  rw [hleft, hright] at hstatus
  cases hstatus with
  | some hstatus =>
    have heq := canonicalizeValue_same hstatus
    exact h (by simpa [canonicalizeValue] using heq)

theorem orderGraph_exact :
    ∃ delta, incrementalDelta deltaDigest (storeOf (orderGraph "CURRENT")) deltaJob
        (orderGraph "CURRENT") = some (some delta) ∧
      Exact (orderGraph "CURRENT") (orderGraph "CURRENT") delta := by
  obtain ⟨delta, hrun, hexact⟩ := @incrementalDelta_exact deltaDigest
    (storeOf (orderGraph "CURRENT")) deltaJob _ _ _ rfl rfl rfl (orderGraph "CURRENT")
  exact ⟨delta, hrun, hexact.mpr fun _ =>
    ⟨fun e he => ⟨e, he, .refl _⟩, fun e he => ⟨e, he, .refl _⟩⟩⟩

/-- The edge has another status, and nothing is to be validated. -/
theorem status_not_required :
    ∃ delta, incrementalDelta deltaDigest (storeOf (orderGraph "CURRENT")) deltaJob
        (orderGraph "STALE") = some (some delta) ∧
      delta.revalidationPlan.required = false ∧
      ¬ Exact (orderGraph "CURRENT") (orderGraph "STALE") delta := by
  obtain ⟨delta, hrun, -, -, -, hrequired⟩ := @incrementalDelta_spec deltaDigest
    (storeOf (orderGraph "CURRENT")) deltaJob _ _ _ rfl rfl rfl (orderGraph "STALE")
  have hnone : delta.revalidationPlan.required = false :=
    hrequired.mpr ⟨fun n hn => ⟨n, hn, .refl _⟩, fun n hn => ⟨n, hn, .refl _⟩⟩
  refine ⟨delta, hrun, hnone, fun hexact => ?_⟩
  exact orderEdge_differs (by decide) (hexact.required.mp hnone).2

end Traqen.IncrementalDelta
