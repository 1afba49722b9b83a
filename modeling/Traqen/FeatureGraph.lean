-- The graph of a feature (`domain/feature-graph.js`): the complete graph of what is traced, the
-- projection of a part of it, and the path query over a projection.
import Traqen.CanonicalJson
import Traqen.Model
import Traqen.Lib.OrderedMap

open Js

namespace Traqen.FeatureGraph

open OrderedMap (get? ofList)

/-! ## Nodes and edges -/

structure GraphNode where
  id : String
  type : String
  label : Option Json
  version : Option Json
  status : Option Json
  risk : Option Json
  provenance : Option Json
  source : Option Json
  details : Option Json

structure GraphEdge where
  id : String
  source : String
  target : String
  type : String
  provenance : Option Json
  status : Option Json
  snapshotManifestId : String

/-- What leads on from a node. -/
structure Neighbour where
  nodeId : String
  edge : GraphEdge

/-- `new Map()` from a node id to what leads on from it. -/
abbrev Adjacency := List (String × List Neighbour)

/-- `adjacency.get(id) ?? []`. -/
def neighbours (adjacency : Adjacency) (id : String) : List Neighbour :=
  (get? adjacency id).getD []

def add (adjacency : Adjacency) (source target : String) (edge : GraphEdge) : Adjacency :=
  OrderedMap.set adjacency source (neighbours adjacency source ++ [⟨target, edge⟩])

/-! ## What is traced -/

/-- A value with the ids of it that the graph is built from. -/
structure FactReference where
  factId : String
  snapshotManifestId : Option Json

structure Transition where
  record : Json
  fromStateId : String
  toStateId : String
  actorIds : List String
  implementationFactRefs : List FactReference

structure DesignElement where
  record : Json
  implementationFactRefs : List FactReference

structure ProcessModel where
  actors : List Json
  states : List Json
  transitions : List Transition
  designElements : List DesignElement

structure FactGraph where
  snapshotManifestId : Option Json
  nodes : List Json

structure ClaimView where
  claim : Option Json
  scope : Option Json
  latestDecision : Option Json
  conformance : Option Json
  facts : List Json
  testSpecs : List Json
  execution : Option Json
  evidence : List Json

structure Segment where
  id : String
  source : Option Json
  target : Option Json
  relation : String
  provenance : Option Json
  status : Option Json

structure TraceConflict where
  id : String
  record : Json

structure TraceGap where
  type : String
  record : Json

structure TraceChain where
  id : String
  claimId : String
  segments : List Segment
  conflicts : List TraceConflict
  gaps : List TraceGap

structure Traceability where
  feature : Option Json
  snapshotManifest : Option Json
  processModel : Option ProcessModel
  processImplementationFacts : List FactGraph
  claims : List ClaimView
  traceChains : List TraceChain

/-! ## What is known of an id -/

/-- `statusRank[status] ?? 0`. -/
def statusRank (status : Json) : Nat :=
  match status.toText with
  | "PENDING" => 1
  | "STALE" => 2
  | "CONFLICTED" => 3
  | "GAP" => 4
  | _ => 0

def mergeStatus (current candidate : Option Json) : Json :=
  let current := current.getD (.str "ACTIVE")
  let candidate := candidate.getD (.str "ACTIVE")
  if statusRank candidate > statusRank current then candidate else current

/-- `v ?? w`, where both may be undefined. -/
def orElse (v w : Option Json) : Option Json :=
  match v with
  | none | some .null => w
  | some v => some v

/-- What stands for a value in a template. -/
def templateText (v : Option Json) : String := (v.map Json.toText).getD "undefined"

def nodeLabel (type value : Option Json) (fallback : Json) : Json :=
  match type with
  | some (.str "FEATURE") => nullish (field value "name") fallback
  | some (.str "CLAIM") => nullish (field value "statement") fallback
  | some (.str "CLAIM_SCOPE") =>
    match field value "scope" with
    | some scope => if truthy (some scope) then .str scope.stringify else fallback
    | none => fallback
  | some (.str "DECISION") => nullish (field value "type") fallback
  | some (.str "IMPLEMENTATION_CONFORMANCE") => nullish (field value "status") fallback
  | some (.str "TEST_SPEC") => nullish (field value "name") fallback
  | some (.str "TEST_ASSERTION") =>
    nullish (orElse (field value "type") (field value "id")) fallback
  | some (.str "TEST_EXECUTION") => nullish (field value "status") fallback
  | some (.str "EVIDENCE") =>
    if truthy (field value "type") then
      .str (templateText (field value "type") ++ " · " ++ templateText (field value "id"))
    else fallback
  | some (.str "ACTOR_ROLE") =>
    .str ((nullish (field value "name") fallback).toText ++ " · " ++
      (nullish (field value "role") (.str "role")).toText)
  | some (.str "BUSINESS_STATE") =>
    .str ((nullish (field value "name") fallback).toText ++ " · " ++
      (nullish (field value "kind") (.str "state")).toText)
  | some (.str "STATE_TRANSITION") =>
    nullish (orElse (field value "name") (field value "trigger")) fallback
  | some (.str "DESIGN_ELEMENT") =>
    .str ((nullish (field value "name") fallback).toText ++ " · " ++
      (nullish (field value "type") (.str "design")).toText)
  | _ => nullish (orElse (field value "name") (field value "naturalKey")) fallback

structure Metadata where
  type : Option Json
  label : Json
  version : Json
  status : Json
  provenance : Json
  risk : Json
  source : Json
  details : Json

/-- What `put` sets; nothing for a value without an id. The last one of an id counts. -/
def put (type value : Option Json) (provenance : Json) (status : Json := .str "ACTIVE") :
    List (Option Json × Metadata) :=
  let id := orElse (field value "id") (field value "factId")
  if truthy id then
    [(id, {
      type
      label := nodeLabel type value (id.getD .null)
      version := nullish (field value "version") .null
      status
      provenance
      risk := .null
      source := nullish (field value "source") .null
      details := nullish value (.obj []) })]
  else []

/-- The assertions of a test: one that is no object gets an id from its place. -/
def normalizedAssertions (testSpec : Json) : List Json :=
  (itemsOf (testSpec.get? "assertions")).mapIdx fun indexValue assertion =>
    match assertion with
    | .arr items => .arr items
    | .obj fields => .obj fields
    | assertion => .obj [
        ("id", .str (templateText (testSpec.get? "id") ++ ":ASSERTION:" ++
          toString (indexValue + 1))),
        ("type", .str assertion.toText)]

def claimMetadata (claimView : ClaimView) : List (Option Json × Metadata) :=
  put (some (.str "CLAIM")) claimView.claim
      (nullish (field claimView.claim "sourceType") (.str "GOVERNED_BASELINE")) ++
    put (some (.str "CLAIM_SCOPE")) claimView.scope (.str "GOVERNED_BASELINE") ++
    put (some (.str "DECISION")) claimView.latestDecision (.str "AUTHORIZED_HUMAN_DECISION") ++
    put (some (.str "IMPLEMENTATION_CONFORMANCE")) claimView.conformance
      (nullish (field (field claimView.conformance "analysisMethod") "type")
        (.str "CONFORMANCE_ASSESSMENT"))
      (if field claimView.conformance "status" = some (.str "STALE") then .str "STALE"
        else .str "ACTIVE") ++
    (claimView.facts.flatMap fun fact =>
      put (fact.get? "type") (some fact) (.str "DETERMINISTIC_FACT")) ++
    (claimView.testSpecs.flatMap fun testSpec =>
      put (some (.str "TEST_SPEC")) (some testSpec)
          (nullish (field (testSpec.get? "origin") "type") (.str "GOVERNED_TEST_SPEC"))
          (if truthy (testSpec.get? "approved") then .str "ACTIVE" else .str "PENDING") ++
        (normalizedAssertions testSpec).flatMap fun assertion =>
          put (some (.str "TEST_ASSERTION")) (some assertion) (.str "DETERMINISTIC_ASSERTION")) ++
    put (some (.str "TEST_EXECUTION")) claimView.execution (.str "ATTESTED_RUNNER")
      (if field claimView.execution "status" = some (.str "PASS") then .str "ACTIVE"
        else if truthy claimView.execution then .str "PENDING" else .str "ACTIVE") ++
    claimView.evidence.flatMap fun evidence =>
      put (some (.str "EVIDENCE")) (some evidence)
        (if evidence.get? "integrity" = some (.str "VERIFIED") then .str "VERIFIED_EVIDENCE"
          else .str "UNVERIFIED_EVIDENCE")
        (if evidence.get? "freshness" = some (.str "STALE") then .str "STALE" else .str "ACTIVE")

def processMetadata (processModel : ProcessModel) : List (Option Json × Metadata) :=
  let decided (type : String) (value : Json) :=
    put (some (.str type)) (some value) (.str "AUTHORIZED_HUMAN_DECISION")
  processModel.actors.flatMap (decided "ACTOR_ROLE") ++
    processModel.states.flatMap (decided "BUSINESS_STATE") ++
    (processModel.transitions.map (·.record)).flatMap (decided "STATE_TRANSITION") ++
    (processModel.designElements.map (·.record)).flatMap (decided "DESIGN_ELEMENT")

def metadataIndex (traceability : Traceability) : List (Option Json × Metadata) :=
  put (some (.str "FEATURE")) traceability.feature (.str "GOVERNED_BASELINE") ++
    traceability.processModel.toList.flatMap processMetadata ++
    (traceability.processImplementationFacts.flatMap fun factGraph =>
      factGraph.nodes.flatMap fun fact =>
        put (fact.get? "type") (some fact) (.str "DETERMINISTIC_FACT")
          (if strictEq factGraph.snapshotManifestId (field traceability.snapshotManifest "id")
            then .str "ACTIVE" else .str "STALE")) ++
    traceability.claims.flatMap claimMetadata

/-! ## The complete graph -/

abbrev Nodes := List (String × GraphNode)

abbrev Edges := List (String × GraphEdge)

structure Reference where
  id : Option Json
  type : Option Json
  version : Option Json

def Reference.of (reference : Option Json) : Reference :=
  { id := field reference "id", type := field reference "type"
    version := field reference "version" }

/-- The id of a reference that was added. -/
def Reference.text (reference : Reference) : String :=
  match reference.id with
  | some (.str id) => id
  | _ => ""

def addGraphNode (metadata : List (Option Json × Metadata)) (nodes : Nodes)
    (reference : Reference) (provenance status : Option Json) : Except Failure Nodes := do
  let id ← requireNonEmptyString reference.id "graph node reference id"
  let type ← requireNonEmptyString reference.type "graph node reference type"
  let known := lastEntry metadata (some (.str id))
  let next : GraphNode := {
    id
    type
    label := some (nullish (known.map (·.label)) (.str id))
    version := some (nullish (orElse (known.map (·.version)) reference.version) .null)
    status := some (mergeStatus (known.map (·.status)) status)
    risk := some (nullish (known.map (·.risk)) .null)
    provenance := some (nullish (orElse (known.map (·.provenance)) provenance)
      (.str "SERVER_DERIVED"))
    source := some (nullish (known.map (·.source)) .null)
    details := some (nullish (known.map (·.details)) (.obj [])) }
  match get? nodes id with
  | none => .ok (OrderedMap.set nodes id next)
  | some existing =>
    if existing.type ≠ type then
      typeError ("graph node " ++ id ++ " has conflicting types " ++ existing.type ++ " and " ++
        type)
    else
      .ok (OrderedMap.set nodes id
        { existing with status := some (mergeStatus existing.status next.status) })

section Building

variable (sha256 : String → String) (metadata : List (Option Json × Metadata))
  (snapshotManifestId : String)

/-- The id of an edge that no segment gives. -/
def graphEdgeId (source type target : String) : String :=
  contentId sha256 "GRAPH-EDGE"
    (.obj [("source", .str source), ("type", .str type), ("target", .str target)])

def derivedEdge (source type target provenance status : String) : GraphEdge :=
  { id := graphEdgeId sha256 source type target, source, target, type,
    provenance := some (.str provenance), status := some (.str status), snapshotManifestId }

/-- An edge under its id. -/
def setEdge (edges : Edges) (edge : GraphEdge) : Edges := OrderedMap.set edges edge.id edge

def addSegment (graph : Nodes × Edges) (segment : Segment) : Except Failure (Nodes × Edges) := do
  let source := Reference.of segment.source
  let target := Reference.of segment.target
  let nodes ← addGraphNode metadata graph.1 source segment.provenance segment.status
  let nodes ← addGraphNode metadata nodes target segment.provenance segment.status
  .ok (nodes, setEdge graph.2 {
    id := segment.id
    source := source.text
    target := target.text
    type := segment.relation
    provenance := segment.provenance
    status := segment.status
    snapshotManifestId })

def addConflict (claimId : String) (graph : Nodes × Edges) (conflict : TraceConflict) :
    Nodes × Edges :=
  (OrderedMap.set graph.1 conflict.id {
      id := conflict.id
      type := "CONFLICT"
      label := orElse (conflict.record.get? "reason") (conflict.record.get? "type")
      version := some .null
      status := some (.str "CONFLICTED")
      risk := some (.str "BLOCKING")
      provenance := some (.str "CONFLICT_ANALYSIS")
      source := some .null
      details := some (nullish (some conflict.record) (.obj [])) },
    setEdge graph.2 (derivedEdge sha256 snapshotManifestId claimId "CONFLICTS_WITH" conflict.id
      "CONFLICT_ANALYSIS" "ACTIVE"))

def addGap (chainId claimId : String) (graph : Nodes × Edges) (gap : TraceGap) : Nodes × Edges :=
  let gapId := "TRACE-GAP:" ++ chainId ++ ":" ++ gap.type
  (OrderedMap.set graph.1 gapId {
      id := gapId
      type := "TRACE_GAP"
      label := some (.str gap.type)
      version := some .null
      status := some (.str "GAP")
      risk := gap.record.get? "severity"
      provenance := some (.str "TRACE_CHAIN_EVALUATION")
      source := some .null
      details := some (nullish (some gap.record) (.obj [])) },
    setEdge graph.2 (derivedEdge sha256 snapshotManifestId claimId "HAS_GAP" gapId
      "TRACE_CHAIN_EVALUATION" "ACTIVE"))

def addChain (graph : Nodes × Edges) (chain : TraceChain) : Except Failure (Nodes × Edges) := do
  let graph ← chain.segments.foldlM (addSegment metadata snapshotManifestId) graph
  let graph := chain.conflicts.foldl (addConflict sha256 snapshotManifestId chain.claimId) graph
  .ok (chain.gaps.foldl (addGap sha256 snapshotManifestId chain.id chain.claimId) graph)

/-- A node of the process model. -/
def addProcessNode (nodes : Nodes) (id type : Option Json) : Except Failure Nodes :=
  addGraphNode metadata nodes { id, type, version := none } none none

def addProcessEdge (edges : Edges) (source type target status : String) : Edges :=
  setEdge edges (derivedEdge sha256 snapshotManifestId source type target
    "AUTHORIZED_HUMAN_DECISION" status)

/-- An actor, a state or a design element with its edge from the feature. -/
def addMember (featureId type relation : String) (graph : Nodes × Edges) (record : Json) :
    Except Failure (Nodes × Edges) := do
  let nodes ← addProcessNode metadata graph.1 (record.get? "id") (some (.str type))
  .ok (nodes, addProcessEdge sha256 snapshotManifestId graph.2 featureId relation
    (Reference.of (some record)).text "ACTIVE")

/-- The fact that something is implemented by, where it is known. -/
def addImplementation (sourceId : String) (graph : Nodes × Edges) (reference : FactReference) :
    Except Failure (Nodes × Edges) :=
  match lastEntry metadata (some (.str reference.factId)) with
  | none => .ok graph
  | some known => do
    let nodes ← addProcessNode metadata graph.1 (some (.str reference.factId)) known.type
    .ok (nodes, addProcessEdge sha256 snapshotManifestId graph.2 sourceId "IMPLEMENTED_BY"
      reference.factId
      (if strictEq reference.snapshotManifestId (some (.str snapshotManifestId)) then "ACTIVE"
        else "STALE"))

def addTransition (graph : Nodes × Edges) (transition : Transition) :
    Except Failure (Nodes × Edges) := do
  let id := (Reference.of (some transition.record)).text
  let nodes ← addProcessNode metadata graph.1 (transition.record.get? "id")
    (some (.str "STATE_TRANSITION"))
  let edges := addProcessEdge sha256 snapshotManifestId graph.2 transition.fromStateId
    "HAS_TRANSITION" id "ACTIVE"
  let edges := addProcessEdge sha256 snapshotManifestId edges id "TRANSITIONS_TO"
    transition.toStateId "ACTIVE"
  let edges := transition.actorIds.foldl (fun edges actorId =>
    addProcessEdge sha256 snapshotManifestId edges actorId "PERFORMS" id "ACTIVE") edges
  transition.implementationFactRefs.foldlM
    (addImplementation sha256 metadata snapshotManifestId id) (nodes, edges)

def addDesignElement (featureId : String) (graph : Nodes × Edges) (element : DesignElement) :
    Except Failure (Nodes × Edges) := do
  let graph ← addMember sha256 metadata snapshotManifestId featureId "DESIGN_ELEMENT"
    "DESIGNED_BY" graph element.record
  element.implementationFactRefs.foldlM
    (addImplementation sha256 metadata snapshotManifestId
      (Reference.of (some element.record)).text) graph

def addProcess (featureId : String) (graph : Nodes × Edges) (processModel : ProcessModel) :
    Except Failure (Nodes × Edges) := do
  let graph ← processModel.actors.foldlM
    (addMember sha256 metadata snapshotManifestId featureId "ACTOR_ROLE" "HAS_ROLE") graph
  let graph ← processModel.states.foldlM
    (addMember sha256 metadata snapshotManifestId featureId "BUSINESS_STATE" "HAS_STATE") graph
  let graph ← processModel.transitions.foldlM
    (addTransition sha256 metadata snapshotManifestId) graph
  processModel.designElements.foldlM
    (addDesignElement sha256 metadata snapshotManifestId featureId) graph

/-- The feature, where no segment has it. -/
def addFeature (nodes : Nodes) (featureId : String) : Except Failure Nodes :=
  if (get? nodes featureId).isSome then .ok nodes
  else addGraphNode metadata nodes
    { id := some (.str featureId), type := some (.str "FEATURE"), version := some .null } none none

end Building

structure CompleteGraph where
  center : String
  snapshotManifestId : String
  nodes : Nodes
  edges : Edges

def buildCompleteGraph (sha256 : String → String) (traceability : Traceability) :
    Except Failure CompleteGraph := do
  let metadata := metadataIndex traceability
  let snapshotManifestId ←
    requireNonEmptyString (field traceability.snapshotManifest "id") "snapshotManifest.id"
  let graph ← traceability.traceChains.foldlM (addChain sha256 metadata snapshotManifestId)
    ([], [])
  let featureId ← requireNonEmptyString (field traceability.feature "id") "feature.id"
  let nodes ← addFeature metadata graph.1 featureId
  let graph ← traceability.processModel.toList.foldlM
    (addProcess sha256 metadata snapshotManifestId featureId) (nodes, graph.2)
  .ok { center := featureId, snapshotManifestId, nodes := graph.1, edges := graph.2 }

/-! ## The projection -/

inductive GraphView where
  | traceability | business | implementation | coverage
  deriving Repr, DecidableEq

/-- `graphViews[view]`: the types of the view, or null for all of them. -/
def GraphView.types : GraphView → Option (List String)
  | traceability => none
  | business => some ["FEATURE", "CLAIM", "CLAIM_SCOPE", "DECISION", "ACTOR_ROLE",
      "BUSINESS_STATE", "STATE_TRANSITION", "DESIGN_ELEMENT", "CONFLICT", "TRACE_GAP"]
  | implementation => some ["FEATURE", "CLAIM", "IMPLEMENTATION_CONFORMANCE", "ENDPOINT",
      "CODE_SYMBOL", "DATA_OBJECT", "CONFIGURATION", "EXTERNAL_DEPENDENCY", "CONFLICT",
      "TRACE_GAP"]
  | coverage => some ["FEATURE", "CLAIM", "TEST_SPEC", "TEST_ASSERTION", "TEST_EXECUTION",
      "EVIDENCE", "CONFLICT", "TRACE_GAP"]

/-- `Object.hasOwn` takes the view by its text. -/
def readView (view : Json) : Except Failure GraphView :=
  match view.toText with
  | "traceability" => .ok .traceability
  | "business" => .ok .business
  | "implementation" => .ok .implementation
  | "coverage" => .ok .coverage
  | _ => typeError "view must be one of traceability, business, implementation, coverage"

def positiveInteger (value : Option Json) (fallback : Nat) (fieldName : String) (maximum : Nat) :
    Except Failure Nat :=
  match value with
  | none | some .null => .ok fallback
  | some (.num n) =>
    if n.isInteger ∧ 1 ≤ n.toInt ∧ n.toInt ≤ maximum then .ok n.toInt.toNat
    else rangeError (fieldName ++ " must be an integer between 1 and " ++ toString maximum)
  | _ => rangeError (fieldName ++ " must be an integer between 1 and " ++ toString maximum)

/-- A text of `requireStringArray`, trimmed. -/
def trimmedItem (fieldName : String) : Json → Except Failure String
  | .str item =>
    if isBlank item then typeError (fieldName ++ " must be an array of non-empty strings")
    else .ok (trim item)
  | _ => typeError (fieldName ++ " must be an array of non-empty strings")

def requireStringArray (value : Option Json) (fieldName : String) :
    Except Failure (List String) :=
  match value with
  | none | some .null => .ok []
  | some (.arr items) =>
    (items.mapM (trimmedItem fieldName)).map fun texts =>
      texts.eraseDups.insertionSort fun a b => codeUnits a ≤ codeUnits b
  | _ => typeError (fieldName ++ " must be an array of non-empty strings")

def viewFilteredGraph (graph : CompleteGraph) (view : GraphView)
    (nodeTypes relations : List String) : CompleteGraph :=
  let allowedNode (node : GraphNode) : Bool :=
    (match view.types with
      | none => true
      | some types => types.contains node.type) &&
    (nodeTypes.isEmpty || nodeTypes.contains node.type || node.id == graph.center)
  let nodes := graph.nodes.filter fun (_, node) => allowedNode node
  { graph with
    nodes
    edges := graph.edges.filter fun (_, edge) =>
      (get? nodes edge.source).isSome && (get? nodes edge.target).isSome &&
        (relations.isEmpty || relations.contains edge.type) }

structure Expansion where
  relation : String
  nodeType : String
  count : Nat

structure Bounded where
  nodes : List GraphNode
  edges : List GraphEdge
  truncated : Bool
  availableExpansions : List Expansion

/-- The undirected adjacency, with every list of neighbours in the order of relation and id. -/
def undirectedAdjacency (localeCompare : String → String → Ordering) (edges : List GraphEdge) :
    Adjacency :=
  (edges.foldl (fun adjacency edge =>
    add (add adjacency edge.source edge.target edge) edge.target edge.source edge) []).map
      fun (id, entries) => (id, entries.insertionSort fun left right =>
        (localeCompare left.edge.type right.edge.type).then
          (localeCompare left.nodeId right.nodeId) ≠ .gt)

abbrev Distances := List (String × Nat)

/-- The loop over the neighbours of a node at `currentDepth`. -/
def discover (currentDepth : Nat) : Distances × List String → List Neighbour →
    Distances × List String
  | state, [] => state
  | (distances, queue), neighbor :: items =>
    if (get? distances neighbor.nodeId).isSome then
      discover currentDepth (distances, queue) items
    else
      discover currentDepth
        (OrderedMap.set distances neighbor.nodeId (currentDepth + 1), queue ++ [neighbor.nodeId])
        items

/-- The loop over the queue, with fuel for every id it can take. -/
def measure (adjacency : Adjacency) (depth : Nat) :
    Nat → Distances × List String → Option Distances
  | _, (distances, []) => some distances
  | 0, (_, _ :: _) => none
  | fuel + 1, (distances, current :: queue) =>
    match get? distances current with
    | none => none
    | some currentDepth =>
      if depth ≤ currentDepth then measure adjacency depth fuel (distances, queue)
      else measure adjacency depth fuel
        (discover currentDepth (distances, queue) (neighbours adjacency current))

/-- The order of the ids: by distance, then by id. -/
def nearer (localeCompare : String → String → Ordering) (left right : String × Nat) : Prop :=
  (compare left.2 right.2).then (localeCompare left.1 right.1) ≠ .gt

instance (localeCompare : String → String → Ordering) : DecidableRel (nearer localeCompare) :=
  fun left right => inferInstanceAs
    (Decidable ((compare left.2 right.2).then (localeCompare left.1 right.1) ≠ .gt))

/-- What the edges lead on to from the selected nodes, counted by relation and type. -/
def availableExpansions (localeCompare : String → String → Ordering) (graph : CompleteGraph)
    (selectedIds : List String) : List Expansion :=
  let counts := graph.edges.foldl (fun counts (_, edge) =>
    let visibleSource := selectedIds.contains edge.source
    let visibleTarget := selectedIds.contains edge.target
    if visibleSource == visibleTarget then counts
    else
      let hidden := get? graph.nodes
        (if visibleSource then edge.target else edge.source)
      let key := (edge.type, (hidden.map (·.type)).getD "UNKNOWN")
      OrderedMap.set counts key ((get? counts key).getD 0 + 1)) []
  let expansions := counts.map fun ((relation, nodeType), count) =>
    ({ relation, nodeType, count } : Expansion)
  expansions.insertionSort fun left right =>
    (localeCompare left.relation right.relation).then
      (localeCompare left.nodeType right.nodeType) ≠ .gt

/-- Every edge has two ends, so a queue never takes more ids than this. -/
def searchFuel (edges : List GraphEdge) : Nat := 2 * edges.length + 1

/-- None is a search that does not come to an end. -/
def boundedBreadthFirst (localeCompare : String → String → Ordering) (graph : CompleteGraph)
    (depth limit : Nat) : Option Bounded := do
  let edges := graph.edges.map (·.2)
  let distances ← measure (undirectedAdjacency localeCompare edges) depth (searchFuel edges)
    ([(graph.center, 0)], [graph.center])
  let orderedIds := distances.insertionSort (nearer localeCompare)
  let selectedIds := (orderedIds.take limit).map (·.1)
  some {
    nodes := selectedIds.filterMap (get? graph.nodes)
    edges := edges.filter fun edge =>
      selectedIds.contains edge.source && selectedIds.contains edge.target
    truncated := selectedIds.length < graph.nodes.length || orderedIds.length > limit
    availableExpansions := availableExpansions localeCompare graph selectedIds }

structure ProjectionOptions where
  view : Option Json
  depth : Option Json
  limit : Option Json
  nodeTypes : Option Json
  relations : Option Json
  rootNodeId : Option Json

/-- What a projection is made of: the complete graph around its root, and the bounds. -/
structure ProjectionRequest where
  complete : CompleteGraph
  view : GraphView
  depth : Nat
  limit : Nat
  nodeTypes : List String
  relations : List String

def readRoot (complete : CompleteGraph) (rootNodeId : Option Json) :
    Except Failure CompleteGraph :=
  match rootNodeId with
  | none | some .null => .ok complete
  | value => do
    let rootNodeId ← requireNonEmptyString value "rootNodeId"
    if (get? complete.nodes rootNodeId).isSome then
      .ok { complete with center := rootNodeId }
    else
      typeError ("rootNodeId " ++ rootNodeId ++ " is not present in the governed Feature graph")

def readProjection (sha256 : String → String) (traceability : Traceability)
    (options : ProjectionOptions) : Except Failure ProjectionRequest := do
  let view ← readView (nullish options.view (.str "traceability"))
  let depth ← positiveInteger options.depth 1 "depth" 8
  let limit ← positiveInteger options.limit 30 "limit" 100
  let nodeTypes ← requireStringArray options.nodeTypes "nodeTypes"
  let relations ← requireStringArray options.relations "relations"
  let complete ← buildCompleteGraph sha256 traceability
  let complete ← readRoot complete options.rootNodeId
  .ok { complete, view, depth, limit, nodeTypes, relations }

structure Projection where
  center : String
  snapshotManifestId : String
  view : Json
  depth : Nat
  nodes : List GraphNode
  edges : List GraphEdge
  truncated : Bool
  availableExpansions : List Expansion

/-- The graph that the projection is a part of. -/
def ProjectionRequest.filtered (request : ProjectionRequest) : CompleteGraph :=
  viewFilteredGraph request.complete request.view request.nodeTypes request.relations

/-- None is a projection that does not come to an end. -/
def createFeatureGraphProjection (sha256 : String → String)
    (localeCompare : String → String → Ordering) (traceability : Traceability)
    (options : ProjectionOptions) : Option (Except Failure Projection) :=
  match readProjection sha256 traceability options with
  | .error failure => some (.error failure)
  | .ok request => do
    let bounded ← boundedBreadthFirst localeCompare request.filtered request.depth request.limit
    some (.ok {
      center := request.complete.center
      snapshotManifestId := request.complete.snapshotManifestId
      view := nullish options.view (.str "traceability")
      depth := request.depth
      nodes := bounded.nodes
      edges := bounded.edges
      truncated := bounded.truncated
      availableExpansions := bounded.availableExpansions })

/-! ## The path query -/

inductive Direction where
  | ANY | FORWARD | REVERSE
  deriving Repr, DecidableEq

structure PathInput where
  fromNodeId : Option Json
  toNodeId : Option Json
  direction : Option Json
  maxDepth : Option Json

structure PathQuery where
  fromNodeId : String
  toNodeId : String
  direction : Direction
  maxDepth : Nat

def readDirection (value : Option Json) : Except Failure Direction :=
  match nullish value (.str "ANY") with
  | .str "ANY" => .ok .ANY
  | .str "FORWARD" => .ok .FORWARD
  | .str "REVERSE" => .ok .REVERSE
  | _ => typeError "direction must be ANY, FORWARD, or REVERSE"

def readPathQuery (input : PathInput) : Except Failure PathQuery := do
  let fromNodeId ← requireNonEmptyString input.fromNodeId "fromNodeId"
  let toNodeId ← requireNonEmptyString input.toNodeId "toNodeId"
  let direction ← readDirection input.direction
  let maxDepth ← positiveInteger input.maxDepth 8 "maxDepth" 12
  .ok { fromNodeId, toNodeId, direction, maxDepth }

structure Graph where
  nodes : List GraphNode
  edges : List GraphEdge

/-- `new Map((graph.nodes ?? []).map((node) => [node.id, node]))`. -/
def nodesById (graph : Graph) : List (String × GraphNode) :=
  ofList (graph.nodes.map fun node => (node.id, node))

/-- One turn of the loop over the edges. -/
def addEdge (direction : Direction) (adjacency : Adjacency) (edge : GraphEdge) : Adjacency :=
  let adjacency :=
    if direction ≠ .REVERSE then add adjacency edge.source edge.target edge else adjacency
  if direction ≠ .FORWARD then add adjacency edge.target edge.source edge else adjacency

/-- The adjacency of a path query, with every list of neighbours in the order of their ids. -/
def pathAdjacency (localeCompare : String → String → Ordering) (direction : Direction)
    (edges : List GraphEdge) : Adjacency :=
  (edges.foldl (addEdge direction) []).map fun (id, items) =>
    (id, items.insertionSort fun left right => localeCompare left.nodeId right.nodeId ≠ .gt)

/-- The step that an id was found by; null for the one the search begins at. -/
structure Step where
  nodeId : String
  edge : GraphEdge

abbrev Previous := List (String × Option Step)

def Previous.has (previous : Previous) (id : String) : Bool :=
  (get? previous id).isSome

/-- The loop that counts the steps back, with fuel for each of them. -/
def depthOf (previous : Previous) : Nat → String → Option Nat
  | 0, _ => none
  | fuel + 1, cursor =>
    match get? previous cursor with
    | some (some step) => (depthOf previous fuel step.nodeId).map (· + 1)
    | _ => some 0

/-- The loop over the neighbours of `current`. -/
def visit (current : String) : Previous × List String → List Neighbour → Previous × List String
  | state, [] => state
  | (previous, queue), next :: items =>
    if previous.has next.nodeId then visit current (previous, queue) items
    else
      let step : Step := ⟨current, next.edge⟩
      visit current
        (OrderedMap.set previous next.nodeId (some step), queue ++ [next.nodeId]) items

/-- The loop over the queue, with fuel for every id it can take. -/
def search (adjacency : Adjacency) (toNodeId : String) (maxDepth : Nat) :
    Nat → Previous × List String → Option Previous
  | _, (previous, []) => some previous
  | 0, (previous, _ :: _) => if previous.has toNodeId then some previous else none
  | fuel + 1, (previous, current :: queue) =>
    if previous.has toNodeId then some previous
    else
      match depthOf previous (previous.length + 1) current with
      | none => none
      | some currentDepth =>
        if maxDepth ≤ currentDepth then search adjacency toNodeId maxDepth fuel (previous, queue)
        else search adjacency toNodeId maxDepth fuel
          (visit current (previous, queue) (neighbours adjacency current))

/-- The loop that follows the steps back: the ids and the edges, the last one first. -/
def trace (previous : Previous) : Nat → String → Option (List String × List GraphEdge)
  | 0, _ => none
  | fuel + 1, cursor =>
    match get? previous cursor with
    | some (some step) =>
      (trace previous fuel step.nodeId).map fun (ids, edges) => (cursor :: ids, step.edge :: edges)
    | _ => some ([cursor], [])

structure PathResult where
  found : Bool
  nodes : List (Option GraphNode)
  edges : List GraphEdge
  hopCount : Option Nat

def PathResult.none : PathResult := { found := false, nodes := [], edges := [], hopCount := .none }

def findPath (localeCompare : String → String → Ordering) (graph : Graph) (query : PathQuery) :
    Option PathResult :=
  let nodes := nodesById graph
  if ¬ (get? nodes query.fromNodeId).isSome ∨
      ¬ (get? nodes query.toNodeId).isSome then some .none
  else do
    let adjacency := pathAdjacency localeCompare query.direction graph.edges
    let previous ← search adjacency query.toNodeId query.maxDepth (searchFuel graph.edges)
      ([(query.fromNodeId, none)], [query.fromNodeId])
    if ¬ previous.has query.toNodeId then some .none
    else
      let (pathNodeIds, pathEdges) ← trace previous (previous.length + 1) query.toNodeId
      some {
        found := true
        nodes := pathNodeIds.reverse.map (get? nodes)
        edges := pathEdges.reverse
        hopCount := some pathEdges.length }

/-- None is a query that does not come to an end. -/
def queryFeatureGraphPath (localeCompare : String → String → Ordering) (graph : Graph)
    (input : PathInput) : Option (Except Failure PathResult) :=
  match readPathQuery input with
  | .error failure => some (.error failure)
  | .ok query => (findPath localeCompare graph query).map .ok

end Traqen.FeatureGraph
