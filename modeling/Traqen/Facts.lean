-- Facts that a scanner observed in a snapshot (`domain/facts.js`): nodes, the edges between
-- them, and the bundles that carry both. Every input comes from parsed JSON.
import Traqen.ExecutionEvidence
import Traqen.Lib.CodeUnits

open Js

namespace Traqen.Facts

open ExecutionEvidence (requireObject isSha256Digest)

/-! ## Records -/

structure SourceLocation where
  artifact : String
  startLine : Number
  endLine : Number
  contentHash : String
deriving DecidableEq

def SourceLocation.toJson (s : SourceLocation) : Json :=
  .obj [("artifact", .str s.artifact), ("startLine", .num s.startLine),
    ("endLine", .num s.endLine), ("contentHash", .str s.contentHash)]

structure Extractor where
  id : String
  version : String
deriving DecidableEq

def Extractor.toJson (e : Extractor) : Json :=
  .obj [("id", .str e.id), ("version", .str e.version)]

/-- A text that `Date.parse` reads, with the milliseconds that it gives. -/
structure ObservedAt (dateParse : String → Option Int) where
  text : String
  time : Int
  parses : dateParse text = some time

structure FactNode where
  id : String
  factId : String
  projectId : String
  snapshotManifestId : String
  type : Json
  naturalKey : String
  name : String
  attributes : List (String × Json)
  source : SourceLocation
  extractor : Extractor
  observedAt : String
  validFrom : String
  validTo : Option String
deriving DecidableEq

/-- A text, or null. -/
def textOrNull : Option String → Json
  | some s => .str s
  | none => .null

def FactNode.fields (n : FactNode) : List (String × Json) :=
  [("id", .str n.id), ("factId", .str n.factId), ("projectId", .str n.projectId),
    ("snapshotManifestId", .str n.snapshotManifestId), ("type", n.type),
    ("naturalKey", .str n.naturalKey), ("name", .str n.name), ("attributes", .obj n.attributes),
    ("source", n.source.toJson), ("extractor", n.extractor.toJson),
    ("observedAt", .str n.observedAt), ("validFrom", .str n.validFrom),
    ("validTo", textOrNull n.validTo)]

structure FactEdge where
  id : String
  projectId : String
  snapshotManifestId : String
  subjectId : String
  predicate : Json
  objectId : String
  attributes : List (String × Json)
  source : SourceLocation
  extractor : Extractor
  observedAt : String
deriving DecidableEq

def FactEdge.fields (e : FactEdge) : List (String × Json) :=
  [("id", .str e.id), ("projectId", .str e.projectId),
    ("snapshotManifestId", .str e.snapshotManifestId), ("subjectId", .str e.subjectId),
    ("predicate", e.predicate), ("objectId", .str e.objectId), ("attributes", .obj e.attributes),
    ("source", e.source.toJson), ("extractor", e.extractor.toJson),
    ("observedAt", .str e.observedAt)]

structure Diagnostic where
  severity : String
  artifact : String
  message : String
deriving DecidableEq

def Diagnostic.toJson (d : Diagnostic) : Json :=
  .obj [("severity", .str d.severity), ("artifact", .str d.artifact), ("message", .str d.message)]

structure FactBundle (dateParse : String → Option Int) where
  id : String
  projectId : String
  snapshotManifestId : String
  sourceComponentId : String
  sourceDigest : String
  extractor : Extractor
  observedAt : ObservedAt dateParse
  complete : Bool
  diagnostics : List Diagnostic
  nodes : List FactNode
  edges : List FactEdge

def FactBundle.fields {dateParse : String → Option Int} (b : FactBundle dateParse) :
    List (String × Json) :=
  [("id", .str b.id), ("projectId", .str b.projectId),
    ("snapshotManifestId", .str b.snapshotManifestId),
    ("sourceComponentId", .str b.sourceComponentId), ("sourceDigest", .str b.sourceDigest),
    ("extractor", b.extractor.toJson), ("observedAt", .str b.observedAt.text),
    ("complete", .bool b.complete), ("diagnostics", .arr (b.diagnostics.map Diagnostic.toJson)),
    ("nodes", .arr (b.nodes.map fun n => .obj n.fields)),
    ("edges", .arr (b.edges.map fun e => .obj e.fields))]

/-! ## Parts -/

def sourceLocation (value : Option Json) (fieldName : String) : Except Failure SourceLocation := do
  let source ← requireObject value fieldName
  let startLine ← requirePositiveInteger (source.lookup "startLine") (fieldName ++ ".startLine")
  let endLine ← requirePositiveInteger (source.lookup "endLine") (fieldName ++ ".endLine")
  if startLine.toInt > endLine.toInt then
    rangeError (fieldName ++ ".startLine must not exceed endLine")
  else
    let contentHash ←
      requireNonEmptyString (source.lookup "contentHash") (fieldName ++ ".contentHash")
    if isSha256Digest contentHash then
      let artifact ← requireNonEmptyString (source.lookup "artifact") (fieldName ++ ".artifact")
      return { artifact, startLine, endLine, contentHash }
    else typeError (fieldName ++ ".contentHash must be a SHA-256 digest")

def extractor (value : Option Json) : Except Failure Extractor := do
  let id ← requireNonEmptyString (field value "id") "extractor.id"
  let version ← requireNonEmptyString (field value "version") "extractor.version"
  return { id, version }

def normalizeDiagnostic (item : Json) (index : Nat) : Except Failure Diagnostic := do
  let name := "bundle.diagnostics[" ++ toString index ++ "]"
  let diagnostic ← requireObject (some item) name
  match diagnostic.lookup "severity" with
  | some (.str severity) =>
    if severity ∈ ["INFO", "WARNING", "ERROR"] then
      let artifact ← requireNonEmptyString (diagnostic.lookup "artifact") (name ++ ".artifact")
      let message ← requireNonEmptyString (diagnostic.lookup "message") (name ++ ".message")
      return { severity, artifact, message }
    else typeError (name ++ ".severity must be INFO, WARNING, or ERROR")
  | _ => typeError (name ++ ".severity must be INFO, WARNING, or ERROR")

/-- The fields that a bundle gives to its nodes and edges:
`{ ...item, projectId, snapshotManifestId, extractor: item.extractor ?? bundleExtractor,
observedAt: item.observedAt ?? observedAt }`. An item that is no object has no field that
is read later. -/
def bundledInput (projectId snapshotManifestId : String) (bundleExtractor : Extractor)
    (observedAt : String) (item : Json) : Except Failure Json :=
  let own : List (String × Json) :=
    match item with
    | .obj fields => fields
    | _ => []
  match item with
  | .null => typeError "Cannot read properties of null (reading 'extractor')"
  | _ => .ok (.obj (OrderedMap.setAll own
      [("projectId", .str projectId), ("snapshotManifestId", .str snapshotManifestId),
        ("extractor", nullish (own.lookup "extractor") bundleExtractor.toJson),
        ("observedAt", nullish (own.lookup "observedAt") (.str observedAt))]))

/-! ## Nodes, edges and bundles -/

section Facts

variable (sha256 : String → String) (localeCompare : String → String → Ordering)
  (dateParse : String → Option Int)

/-- A non-empty text that `Date.parse` reads. -/
def observation (value : Option Json) (fieldName : String) :
    Except Failure (ObservedAt dateParse) := do
  let text ← requireNonEmptyString value fieldName
  match h : dateParse text with
  | some time => return { text, time, parses := h }
  | none => typeError (fieldName ++ " must be an ISO-8601 timestamp")

def stableFactNodeId (projectId : Option Json) (type : Option Json) (naturalKey : Option Json) :
    Except Failure String := do
  let projectId ← requireNonEmptyString projectId "projectId"
  let type ← assertEnum FactNodeType type "fact.type"
  let naturalKey ← requireNonEmptyString naturalKey "fact.naturalKey"
  return contentId sha256 "FACT-NODE"
    (.obj [("projectId", .str projectId), ("type", type), ("naturalKey", .str naturalKey)])

/-- `validFrom` and `validTo`, in this order when both are there. -/
def validityPeriod (input : Option Json) (observedAt : String) :
    Except Failure (String × Option String) := do
  let validFrom ← observation dateParse
    (some (nullish (field input "validFrom") (.str observedAt))) "fact.validFrom"
  match nullish (field input "validTo") .null with
  | .null => return (validFrom.text, none)
  | value =>
    let validTo ← observation dateParse (some value) "fact.validTo"
    if validFrom.time > validTo.time then
      rangeError "fact.validFrom must not exceed validTo"
    else return (validFrom.text, some validTo.text)

def createFactNode (input : Option Json) : Except Failure FactNode := do
  let projectId ← requireNonEmptyString (field input "projectId") "fact.projectId"
  let snapshotManifestId ←
    requireNonEmptyString (field input "snapshotManifestId") "fact.snapshotManifestId"
  let type ← assertEnum FactNodeType (field input "type") "fact.type"
  let naturalKey ← requireNonEmptyString (field input "naturalKey") "fact.naturalKey"
  let observedAt ← observation dateParse (field input "observedAt") "fact.observedAt"
  let nodeId ←
    stableFactNodeId sha256 (some (.str projectId)) (some type) (some (.str naturalKey))
  let name ← requireNonEmptyString (field input "name") "fact.name"
  let attributes ←
    requireObject (some (nullish (field input "attributes") (.obj []))) "fact.attributes"
  let source ← sourceLocation (field input "source") "fact.source"
  let factExtractor ← extractor (field input "extractor")
  let (validFrom, validTo) ← validityPeriod dateParse input observedAt.text
  return {
    id := nodeId
    factId := contentId sha256 "FACT" (.obj [("snapshotManifestId", .str snapshotManifestId),
      ("nodeId", .str nodeId), ("name", .str name), ("attributes", .obj attributes),
      ("source", source.toJson), ("extractor", factExtractor.toJson),
      ("observedAt", .str observedAt.text), ("validFrom", .str validFrom),
      ("validTo", textOrNull validTo)])
    projectId, snapshotManifestId, type, naturalKey, name, attributes, source
    extractor := factExtractor
    observedAt := observedAt.text
    validFrom, validTo }

def createFactEdge (input : Option Json) : Except Failure FactEdge := do
  let projectId ← requireNonEmptyString (field input "projectId") "edge.projectId"
  let snapshotManifestId ←
    requireNonEmptyString (field input "snapshotManifestId") "edge.snapshotManifestId"
  let subjectId ← requireNonEmptyString (field input "subjectId") "edge.subjectId"
  let objectId ← requireNonEmptyString (field input "objectId") "edge.objectId"
  if subjectId = objectId then typeError "edge subject and object must differ"
  else
    let predicate ← assertEnum FactPredicate (field input "predicate") "edge.predicate"
    let observedAt ← observation dateParse (field input "observedAt") "edge.observedAt"
    let attributes ←
      requireObject (some (nullish (field input "attributes") (.obj []))) "edge.attributes"
    let source ← sourceLocation (field input "source") "edge.source"
    let edgeExtractor ← extractor (field input "extractor")
    return {
      id := contentId sha256 "FACT-EDGE" (.obj [("projectId", .str projectId),
        ("snapshotManifestId", .str snapshotManifestId), ("subjectId", .str subjectId),
        ("predicate", predicate), ("objectId", .str objectId), ("attributes", .obj attributes),
        ("source", source.toJson), ("extractor", edgeExtractor.toJson),
        ("observedAt", .str observedAt.text)])
      projectId, snapshotManifestId, subjectId, predicate, objectId, attributes, source
      extractor := edgeExtractor
      observedAt := observedAt.text }

def bundleNodes (projectId snapshotManifestId : String) (bundleExtractor : Extractor)
    (observedAt : String) (items : List Json) : Except Failure (List FactNode) := do
  let nodes ← items.mapM fun item => do
    let input ← bundledInput projectId snapshotManifestId bundleExtractor observedAt item
    createFactNode sha256 dateParse (some input)
  let nodes := nodes.insertionSort fun left right => localeCompare left.factId right.factId ≠ .gt
  if (nodes.map (·.id)).eraseDups.length ≠ nodes.length then
    typeError "bundle node ids must be unique"
  else return nodes

def bundleEdges (projectId snapshotManifestId : String) (bundleExtractor : Extractor)
    (observedAt : String) (nodes : List FactNode) (items : List Json) :
    Except Failure (List FactEdge) := do
  let edges ← items.mapM fun item => do
    let input ← bundledInput projectId snapshotManifestId bundleExtractor observedAt item
    createFactEdge sha256 dateParse (some input)
  let edges := edges.insertionSort fun left right => localeCompare left.id right.id ≠ .gt
  let ids := edges.map (·.id)
  if ids.eraseDups.length ≠ edges.length then typeError "bundle edge ids must be unique"
  else
    match edges.find? fun e =>
        e.subjectId ∉ nodes.map (·.id) || e.objectId ∉ nodes.map (·.id) with
    | some e => typeError ("edge " ++ e.id ++ " references a node outside the bundle")
    | none => return edges

def createFactBundle (input : Option Json) : Except Failure (FactBundle dateParse) := do
  let projectId ← requireNonEmptyString (field input "projectId") "bundle.projectId"
  let snapshotManifestId ←
    requireNonEmptyString (field input "snapshotManifestId") "bundle.snapshotManifestId"
  let sourceComponentId ←
    requireNonEmptyString (field input "sourceComponentId") "bundle.sourceComponentId"
  let bundleExtractor ← extractor (field input "extractor")
  let observedAt ← observation dateParse (field input "observedAt") "bundle.observedAt"
  match field input "nodes", field input "edges",
      nullish (field input "diagnostics") (.arr []) with
  | some (.arr nodeItems), some (.arr edgeItems), .arr diagnosticItems =>
    let nodes ← bundleNodes sha256 localeCompare dateParse projectId snapshotManifestId
      bundleExtractor observedAt.text nodeItems
    let edges ← bundleEdges sha256 localeCompare dateParse projectId snapshotManifestId
      bundleExtractor observedAt.text nodes edgeItems
    let diagnostics ← diagnosticItems.zipIdx.mapM fun (item, index) =>
      normalizeDiagnostic item index
    let sourceDigest ← requireNonEmptyString (field input "sourceDigest") "bundle.sourceDigest"
    if isSha256Digest sourceDigest then
      return {
        id := contentId sha256 "FACT-BUNDLE" (.obj [("projectId", .str projectId),
          ("snapshotManifestId", .str snapshotManifestId),
          ("sourceComponentId", .str sourceComponentId), ("sourceDigest", .str sourceDigest),
          ("extractor", bundleExtractor.toJson), ("observedAt", .str observedAt.text),
          ("nodeFactIds", .arr ((sortTexts (nodes.map (·.factId))).map .str)),
          ("edgeIds", .arr ((sortTexts (edges.map (·.id))).map .str))])
        projectId, snapshotManifestId, sourceComponentId, sourceDigest
        extractor := bundleExtractor
        observedAt
        complete := strictEq (field input "complete") (some (.bool true)) &&
          !diagnostics.any fun d => d.severity = "ERROR"
        diagnostics, nodes, edges }
    else typeError "bundle.sourceDigest must be a SHA-256 digest"
  | _, _, _ => typeError "bundle nodes, edges, and diagnostics must be arrays"

end Facts

end Traqen.Facts
