-- What is recorded of a JSON material (`deterministic-facts/extraction/json-structure.js`): an
-- object for every node that may be shown, the parameters and responses of OpenAPI operations, and
-- the references that close no cycle. Texts are lists of UTF-16 code units. The extraction is the
-- list of its calls; whatever follows a call that throws is not carried out.
import Traqen.JsonSyntax
import Traqen.Lib.StrongComponents
import Traqen.SensitiveContent

open Js

namespace Traqen.JsonStructure

open JsonSyntax (Node slash tilde escapeJsonPointer parseJsonSyntax)
open Rfc8259 (Item)
open SensitiveContent (isSensitiveKey containsPrivateKey isRestrictedText)
open OrderedMap (get? ofList)

/-! ## Calls -/

inductive ObjectKind where
  | MATERIAL
  | OPENAPI_OPERATION
  | OPENAPI_PARAMETER
  | OPENAPI_RESPONSE
  | TEST_RESULT
  | JSON_OBJECT
  | JSON_ARRAY
  | JSON_VALUE
  deriving DecidableEq

/-- `location(pointer, start, end)` and `textAnchor(text, start, end)`. -/
inductive Anchor where
  | pointer (pointer : List Nat) (start stop : Nat)
  | text (start stop : Nat)
  deriving DecidableEq

/-- Ids are of any types, one for objects and one for facts. -/
structure Object (ι : Type) where
  objectId : ι
  kind : ObjectKind
  name : List Nat
  anchor : Anchor
  parentId : ι

structure TypedValue where
  datatype : String
  value : Item

/-- What a fact says of its subject. -/
inductive Said (ι : Type) where
  | value (value : TypedValue)
  | target (targetId : ι)

structure Fact (ι φ : Type) where
  subjectId : ι
  predicate : String
  said : Said ι
  basis : String
  anchor : Anchor
  premiseFactIds : List φ

inductive Call (ι φ : Type) where
  | object (object : Object ι)
  | fact (fact : Fact ι φ)
  | gap (code : String) (anchor : Anchor)
  /-- The engine throws a `TypeError`. -/
  | throw

/-- What `addObject` and `addFact` answer with. -/
structure Ids (ι φ : Type) where
  objectId : ObjectKind → Anchor → ι
  factId : Fact ι φ → φ

structure Material (ι : Type) where
  rootId : ι
  reportBundleId : Option (List Nat)

structure Limits where
  syntaxLimits : JsonSyntax.Limits
  /-- `testReports === "literal-reports-v1"`. -/
  testReports : Bool
  maxReportCases : Option Nat
  maxReportFieldBytes : Option Nat

/-! ## Fields -/

def isMethod (segment : Option (List Nat)) : Bool :=
  segment.any fun s =>
    ["get", "post", "put", "patch", "delete", "head", "options", "trace"].any fun method =>
      decide (codeUnits method = s)

/-- `segments[index] === text`. -/
def segmentIs (segments : List (List Nat)) (index : Nat) (text : String) : Bool :=
  decide (segments[index]? = some (codeUnits text))

def field (node : Node) (key : String) : Option Node :=
  if node.label.item = .object then
    (node.members.find? fun m => m.1 = codeUnits key).map (·.2)
  else none

/-- The text of a string. -/
def textOf (item : Item) : Option (List Nat) :=
  match item with
  | .string value => some value
  | _ => none

def textField (node : Node) (key : String) : Option (List Nat) :=
  (field node key).bind fun child => textOf child.label.item

/-- `JSON.stringify([name, location])` tells the two texts. -/
def parameterIdentity (node : Node) : Option (List Nat × List Nat) :=
  match textField node "name", textField node "in" with
  | some name, some location => if (field node "$ref").isSome then none else some (name, location)
  | _, _ => none

def location (node : Node) : Anchor :=
  .pointer node.label.pointer node.label.start node.label.stop

/-- From the key on, where there is one. -/
def keyedLocation (node : Node) : Anchor :=
  let (start, stop) := node.label.keySpan.getD (node.label.start, node.label.stop)
  .pointer node.label.pointer start stop

def typeName : Item → String
  | .null => "null"
  | .bool _ => "boolean"
  | .number _ => "number"
  | .string _ => "string"
  | .array => "array"
  | .object => "object"

def isCompound (item : Item) : Bool := decide (item = .object ∨ item = .array)

/-- A fact with a text for its value. -/
def textFact {ι φ : Type} (subjectId : ι) (predicate : String) (value : List Nat)
    (anchor : Anchor) : Call ι φ :=
  .fact { subjectId, predicate, anchor
          said := .value { datatype := "string", value := .string value }
          basis := "DECLARED", premiseFactIds := [] }

/-! ## Test reports -/

def reportFields : List (String × String) :=
  [("testId", "reportTestId"), ("sourceBundleId", "reportSourceBundleId"),
    ("command", "reportCommand"), ("environment", "reportEnvironment"),
    ("producer", "reportProducer"), ("testedVersion", "reportTestedVersion")]

def reportStatuses : List String := ["PASS", "FAIL", "SKIP", "ERROR"]

/-- `/[\u0000-\u0008\u000b\u000c\u000e-\u001f\u007f]/`. -/
def isControl (c : Nat) : Bool :=
  c ≤ 8 || c == 0xB || c == 0xC || (0xE ≤ c && c ≤ 0x1F) || c == 0x7F

def reportFieldProblem (limits : Limits) (value : Option (List Nat)) : Option String :=
  match value with
  | none => some "REPORT_FIELD_INVALID"
  | some value =>
    if value = [] ∨ value.any isControl = true then some "REPORT_FIELD_INVALID"
    else if isRestrictedText value then some "REPORT_FIELD_RESTRICTED"
    else if limits.maxReportFieldBytes.getD 4096 < Utf16.byteLength value then
      some "REPORT_FIELD_LIMIT"
    else none

/-- `/^[a-f0-9]{64}$/`. -/
def isBundleId (value : List Nat) : Bool :=
  value.length == 64 && value.all fun c => (0x61 ≤ c && c ≤ 0x66) || (0x30 ≤ c && c ≤ 0x39)

def bundleIdProblem (key : String) (value : Option (List Nat)) : Option String :=
  if key = "sourceBundleId" ∧ value.all isBundleId = false then some "REPORT_FIELD_INVALID"
  else none

/-- One of the fields in `extractReportMetadata`. -/
def reportField {ι φ : Type} (limits : Limits) (material : Material ι) (objectId : ι) (node : Node)
    (entry : String × String) : List (Call ι φ) :=
  match field node entry.1 with
  | none => []
  | some child =>
    let value := textOf child.label.item
    match (reportFieldProblem limits value).or (bundleIdProblem entry.1 value) with
    | some problem => [.gap problem (location child)]
    | none =>
      textFact objectId entry.2 (value.getD []) (location child) ::
        if entry.1 = "sourceBundleId" ∧ value ≠ material.reportBundleId then
          [.gap "REPORT_SOURCE_BINDING_MISMATCH" (location child)]
        else []

/-! ## The visit -/

/-- The `.` of a pattern. -/
def isNoLineEnd (c : Nat) : Bool := !([0xA, 0xD, 0x2028, 0x2029].contains c)

/-- `/^3\.(?:0|1)\.[0-9]+(?:[-+].*)?$/`. -/
def isOpenapiVersion (value : List Nat) : Bool :=
  match value with
  | 0x33 :: 0x2E :: minor :: 0x2E :: rest =>
    let tail := rest.dropWhile SensitiveContent.isDigit
    (minor == 0x30 || minor == 0x31) && tail.length < rest.length &&
      match tail with
      | [] => true
      | c :: cs => (c == 0x2D || c == 0x2B) && cs.all isNoLineEnd
  | _ => false

structure Entry (ι : Type) where
  node : Node
  object : Object ι
  segments : List (List Nat)

structure Reference (ι : Type) where
  node : Node
  object : Object ι
  ref : Node

structure State (ι φ : Type) where
  nodes : List (List Nat × Entry ι)
  names : List (List Nat × φ)
  operations : List (Entry ι)
  references : List (Reference ι)
  calls : List (Call ι φ)

/-- `pointer.slice(0, pointer.lastIndexOf("/"))`, of the empty pointer too. -/
def parentPointer (pointer : List Nat) : List Nat :=
  ((pointer.reverse.dropWhile fun c => c ≠ slash).drop 1).reverse

section Visit

variable {ι φ : Type} (integral : List Nat → Bool) (ids : Ids ι φ)
  (material : Material ι) (limits : Limits) (openapi : Bool)

/-- `isSensitiveKey(node.key) || containsPrivateKey(node.value)`. -/
def isRestricted (key : Option (List Nat)) (item : Item) : Bool :=
  key.any isSensitiveKey || (textOf item).any containsPrivateKey

def kindFor (node : Node) (segments : List (List Nat)) (parent : Option Node) : ObjectKind :=
  let isObject := decide (node.label.item = .object)
  let parentIs := fun item : Item => decide (parent.map (fun p => p.label.item) = some item)
  let inPaths := openapi && segmentIs segments 0 "paths"
  if isObject && inPaths && (segments[1]?.any fun s => decide (s.head? = some slash)) &&
      decide (segments.length = 3) && isMethod segments[2]? then .OPENAPI_OPERATION
  else if isObject && openapi &&
      ((parentIs .array && segmentIs segments 0 "paths" &&
          ((decide (segments.length = 4) && segmentIs segments 2 "parameters") ||
            (decide (segments.length = 5) && isMethod segments[2]? &&
              segmentIs segments 3 "parameters"))) ||
        (parentIs .object && decide (segments.length = 3) && segmentIs segments 0 "components" &&
          segmentIs segments 1 "parameters")) then .OPENAPI_PARAMETER
  else if isObject && parentIs .object && inPaths && decide (segments.length = 5) &&
      isMethod segments[2]? && segmentIs segments 3 "responses" then .OPENAPI_RESPONSE
  else if isObject && decide (segments.length = 2) && segmentIs segments 0 "tests" &&
      (if limits.testReports then parentIs .array
        else (textField node "name").isSome && (textField node "status").isSome) then .TEST_RESULT
  else if isObject then .JSON_OBJECT
  else if node.label.item = .array then .JSON_ARRAY
  else .JSON_VALUE

/-- Why a node of a report is left out. -/
def refusal (key : Option (List Nat)) (node : Node) (kind parentKind : ObjectKind) :
    Option (Call ι φ) :=
  if limits.testReports = false then none
  else
    let nameProblem := if kind = .TEST_RESULT then
      reportFieldProblem limits (textField node "name") else none
    match nameProblem with
    | some problem =>
      match field node "name" with
      | some child => some (.gap problem (location child))
      | none => some (.throw)
    | none =>
      let reported := (reportFields.map (·.1) ++ ["name", "status"]).find? fun name =>
        decide (key = some (codeUnits name))
      match reported.filter fun _ => parentKind = .TEST_RESULT with
      | some name =>
        let value := textOf node.label.item
        ((reportFieldProblem limits value).or (bundleIdProblem name value)).map fun problem =>
          .gap problem (location node)
      | none => none

/-- The gaps of containers of the wrong type. -/
def containerGaps (node : Node) (segments : List (List Nat)) : List (Call ι φ) :=
  if openapi && segmentIs segments 0 "paths" then
    let pathParameters := decide (segments.length = 3) && segmentIs segments 2 "parameters"
    let operationField := decide (segments.length = 4) && isMethod segments[2]?
    (if segments.length = 1 ∧ node.label.item ≠ .object then
      [.gap "OPENAPI_PATHS_INVALID" (location node)] else []) ++
    (if (pathParameters || (operationField && segmentIs segments 3 "parameters")) = true ∧
        node.label.item ≠ .array then
      [.gap "OPENAPI_PARAMETERS_INVALID" (location node)] else []) ++
    (if (operationField && segmentIs segments 3 "responses") = true ∧
        node.label.item ≠ .object then
      [.gap "OPENAPI_RESPONSES_INVALID" (location node)] else [])
  else []

def upperMethod (segments : List (List Nat)) : List Nat :=
  (segments[2]?.getD []).map fun c => c - 0x20

def nameOf (key : Option (List Nat)) (node : Node) (segments : List (List Nat)) :
    ObjectKind → List Nat
  | .OPENAPI_OPERATION => upperMethod segments ++ 0x20 :: segments[1]?.getD []
  | .TEST_RESULT => (textField node "name").getD []
  | _ => key.getD [0x24]

def nameFact (object : Object ι) (node : Node) : Fact ι φ :=
  { subjectId := object.objectId, predicate := "name", anchor := keyedLocation node
    said := .value { datatype := "string", value := .string object.name }
    basis := "DECLARED", premiseFactIds := [] }

/-- The numbers that are integers have a datatype of their own. -/
def literalDatatype : Item → String
  | .number token => if integral token then "integer" else "number"
  | item => typeName item

def literalValue (object : Object ι) (node : Node) : List (Call ι φ) :=
  if isCompound node.label.item then []
  else
    [.fact { subjectId := object.objectId, predicate := "literalValue", anchor := location node
             said := .value { datatype := literalDatatype integral node.label.item
                              value := node.label.item }
             basis := "DECLARED", premiseFactIds := [] }]

/-- The name or the status of a test result. -/
def testField (object : Object ι) (node : Node) (entry : String × String) : List (Call ι φ) :=
  let value := (field node entry.2).bind fun child => textOf child.label.item
  if limits.testReports ∧ entry.1 = "reportsResult" ∧
      value.any (fun v => reportStatuses.any fun status => codeUnits status == v) = false then
    [.gap "REPORT_RESULT_AMBIGUOUS" (location node)]
  else
    match field node entry.2 with
    | some child => [textFact object.objectId entry.1 (value.getD []) (location child)]
    | none => [.throw]

def testResult (object : Object ι) (node : Node) : List (Call ι φ) :=
  [("testName", "name"), ("reportsResult", "status")].flatMap (testField limits object node) ++
    (if limits.testReports then
      reportFields.flatMap (reportField limits material object.objectId node) else []) ++
    [.gap "EXECUTION_BINDING_MISSING" (location node)]

/-- The calls for a node that is shown. -/
def describe (object : Object ι) (node : Node) (segments : List (List Nat)) : List (Call ι φ) :=
  containerGaps openapi node segments ++
    [.object object, .fact (nameFact object node),
      textFact object.objectId "type" (codeUnits (typeName node.label.item)) (location node)] ++
    literalValue integral object node ++
    (if object.kind = .OPENAPI_OPERATION then
      [textFact object.objectId "httpMethod" (upperMethod segments) (location node),
        textFact object.objectId "path" (segments[1]?.getD []) (location node)] else []) ++
    if object.kind = .TEST_RESULT then testResult material limits object node else []

/-- A node that is shown. -/
def enter (object : Object ι) (node : Node) (segments : List (List Nat)) (s : State ι φ) :
    State ι φ :=
  let entry : Entry ι := { node, object, segments }
  { nodes := OrderedMap.set s.nodes node.label.pointer entry
    names := OrderedMap.set s.names node.label.pointer (ids.factId (nameFact object node))
    operations := if object.kind = .OPENAPI_OPERATION then s.operations ++ [entry] else s.operations
    references :=
      match (field node "$ref").filter fun _ => openapi with
      | some ref => s.references ++ [{ node, object, ref }]
      | none => s.references
    calls := s.calls ++ describe integral material limits openapi object node segments }

def restrictedGap (node : Node) : Call ι φ :=
  let (start, stop) := node.label.keySpan.getD (node.label.start, node.label.start)
  .gap "JSON_SENSITIVE_SUBTREE_RESTRICTED" (.text start stop)

mutual

def visit (segments : List (List Nat)) (key : Option (List Nat)) (parentId : ι)
    (parentKind : ObjectKind) : Node → State ι φ → State ι φ
  | .node label members, s =>
    let node : Node := .node label members
    if isRestricted key label.item then { s with calls := s.calls ++ [restrictedGap node] }
    else
      let kind := kindFor limits openapi node segments
        ((get? s.nodes (parentPointer label.pointer)).map fun entry => entry.node)
      match refusal limits key node kind parentKind with
      | some call => { s with calls := s.calls ++ [call] }
      | none =>
        let object : Object ι :=
          { objectId := ids.objectId kind (location node), kind, parentId
            name := nameOf key node segments kind, anchor := location node }
        visitAll segments object.objectId kind members
          (enter integral ids material limits openapi object node segments s)

/-- The children, one after the other. -/
def visitAll (segments : List (List Nat)) (parentId : ι) (parentKind : ObjectKind) :
    List (List Nat × Node) → State ι φ → State ι φ
  | [], s => s
  | (key, child) :: rest, s =>
    visitAll segments parentId parentKind rest
      (visit (segments ++ [key]) (some key) parentId parentKind child s)

end

end Visit

/-! ## Operations -/

section Operations

variable {ι φ : Type} (s : State ι φ)

/-- The children of the `parameters` of a node, where that is an array. -/
def parametersOf (owner : Option Node) : List Node :=
  match owner.bind fun node => field node "parameters" with
  | some parameters => if parameters.label.item = .array then parameters.members.map (·.2) else []
  | none => []

/-- `unknownOverrides`. -/
def hasUnknown (operation : Node) : Bool :=
  ((field operation "parameters").any fun local_ => decide (local_.label.item ≠ .array)) ||
    (parametersOf (some operation)).any fun child => (parameterIdentity child).isNone

def declaresParameter (operation : Object ι) (target : Object ι) (child : Node) (basis : String)
    (premiseFactIds : List φ) : Call ι φ :=
  .fact { subjectId := operation.objectId, predicate := "declaresParameter"
          said := .target target.objectId, anchor := location child, basis, premiseFactIds }

/-- The entry of a parameter that is shown. -/
def parameterEntry (child : Node) : Option (Entry ι) :=
  (get? s.nodes child.label.pointer).filter fun entry =>
    entry.object.kind = .OPENAPI_PARAMETER

/-- `names.get(pointer)`; the nodes that are asked for have one. -/
def nameIds (nodes : List Node) : List φ :=
  nodes.filterMap fun node => get? s.names node.label.pointer

def ownParameter (operation : Entry ι) (child : Node) : List (Call ι φ) :=
  match parameterEntry s child with
  | some entry => [declaresParameter operation.object entry.object child "DECLARED" []]
  | none => []

def inheritedParameter (operation : Entry ι) (pathNode child : Node) : List (Call ι φ) :=
  match parameterEntry s child with
  | none => []
  | some entry =>
    match (parameterIdentity child).filter fun _ => !hasUnknown operation.node with
    | none => [.gap "OPENAPI_PARAMETER_INHERITANCE_UNCONFIRMED" (location child)]
    | some identity =>
      if identity ∈ (parametersOf (some operation.node)).filterMap parameterIdentity then []
      else [declaresParameter operation.object entry.object child "DERIVED"
        (nameIds s [operation.node, pathNode, child])]

def declaresResponse (operation : Entry ι) (child : List Nat × Node) : List (Call ι φ) :=
  match (get? s.nodes child.2.label.pointer).filter fun entry =>
    entry.object.kind = .OPENAPI_RESPONSE with
  | some _ =>
    [textFact operation.object.objectId "declaresResponse" child.1 (keyedLocation child.2)]
  | none => []

def operationCalls (operation : Entry ι) : List (Call ι φ) :=
  let pathNode := (get? s.nodes (slash :: codeUnits "paths" ++
    slash :: escapeJsonPointer (operation.segments[1]?.getD []))).map fun entry => entry.node
  (parametersOf (some operation.node)).flatMap (ownParameter s operation) ++
    (match pathNode with
      | some node => (parametersOf (some node)).flatMap (inheritedParameter s operation node)
      | none => []) ++
    match field operation.node "responses" with
    | some responses =>
      if responses.label.item = .object then
        responses.members.flatMap (declaresResponse s operation)
      else []
    | none => []

end Operations

/-! ## References -/

/-- A byte as two digits behind a per cent sign. -/
def percentByte : List Nat → Option (Nat × List Nat)
  | 0x25 :: a :: b :: rest => do
    let a ← Utf16.hexDigit a
    let b ← Utf16.hexDigit b
    return (a * 16 + b, rest)
  | _ => none

/-- So many further bytes of a code point. -/
def furtherBytes : Nat → Nat → List Nat → Option (Nat × List Nat)
  | 0, point, rest => some (point, rest)
  | count + 1, point, rest => do
    let (byte, rest) ← percentByte rest
    if 0x80 ≤ byte ∧ byte ≤ 0xBF then furtherBytes count (point * 64 + (byte - 0x80)) rest else none

/-- One code point behind per cent signs: no longer than it need be, and no surrogate. -/
def percentPoint (text : List Nat) : Option (Nat × List Nat) := do
  let (byte, rest) ← percentByte text
  if byte < 0x80 then some (byte, rest)
  else
    let (count, first, least) :=
      if byte < 0xE0 then (1, byte - 0xC0, 0x80)
      else if byte < 0xF0 then (2, byte - 0xE0, 0x800) else (3, byte - 0xF0, 0x10000)
    if byte < 0xC0 ∨ 0xF8 ≤ byte then none
    else
      let (point, rest) ← furtherBytes count first rest
      if least ≤ point ∧ point < 0x110000 ∧ ¬ (0xD800 ≤ point ∧ point < 0xE000) then
        some (point, rest)
      else none

/-- `decodeURIComponent(text)`, with fuel for every unit. -/
def decodeFrom : Nat → List Nat → Option (List Nat)
  | _, [] => some []
  | 0, _ :: _ => none
  | fuel + 1, c :: cs =>
    if c = 0x25 then do
      let (point, rest) ← percentPoint (c :: cs)
      let decoded ← decodeFrom fuel rest
      return (if point < 0x10000 then [point]
        else [0xD800 + (point - 0x10000) / 0x400, 0xDC00 + (point - 0x10000) % 0x400]) ++ decoded
    else (decodeFrom fuel cs).map (c :: ·)

def decodeURIComponent (text : List Nat) : Option (List Nat) := decodeFrom text.length text

/-- `!/~(?![01])/u.test(value)`. -/
def tildesEscaped : List Nat → Bool
  | [] => true
  | c :: rest =>
    (if c = tilde then decide (rest.head? = some 0x30 ∨ rest.head? = some 0x31) else true) &&
      tildesEscaped rest

def validJsonPointer (value : List Nat) : Bool :=
  decide (value = [] ∨ value.head? = some slash) && tildesEscaped value

/-- A reference whose target is a node that is shown. -/
structure Edge (ι : Type) where
  sourceId : ι
  targetId : ι
  anchor : Anchor

/-- What a reference leads to, or the code of its gap. -/
def resolveReference {ι φ : Type} (s : State ι φ) (entry : Reference ι) :
    Except String (Edge ι) :=
  match textOf entry.ref.label.item with
  | none => .error "JSON_REFERENCE_INVALID"
  | some value =>
    if value.head? ≠ some 0x23 then .error "JSON_REFERENCE_EXTERNAL_UNSUPPORTED"
    else
      match (decodeURIComponent value.tail).filter validJsonPointer with
      | none => .error "JSON_REFERENCE_INVALID"
      | some pointer =>
        match get? s.nodes pointer with
        | none => .error "JSON_REFERENCE_UNRESOLVED"
        | some target => .ok { sourceId := entry.object.objectId, targetId := target.object.objectId
                               anchor := location entry.ref }

/-! ## Cycles -/

/-- `graph` and `reverse`. -/
structure Graphs (ι : Type) where
  graph : List (ι × List ι)
  reverse : List (ι × List ι)

section Cycles

variable {ι : Type} [DecidableEq ι]

/-- `map.get(key).push(value)`, which throws where the key is missing. -/
def push (map : List (ι × List ι)) (key value : ι) : Option (List (ι × List ι)) :=
  (get? map key).map fun list => OrderedMap.set map key (list ++ [value])

def connect (g : Graphs ι) (link : ι × ι) : Option (Graphs ι) := do
  let graph ← push g.graph link.1 link.2
  let reverse ← push g.reverse link.2 link.1
  return { graph, reverse }

/-- `map.get(id)`; the ids that are asked for are keys, as both ends of every link are. -/
def neighbours (map : List (ι × List ι)) (id : ι) : List ι := (get? map id).getD []

/-- The ids of `nodes`, each once. -/
def graphIds (nodes : List (ι × ι)) : List ι :=
  (ofList (nodes.map fun entry => (entry.1, ()))).map (·.1)

/-- From the parents to their children, where the parent is a node, and along the references. -/
def links (nodes edges : List (ι × ι)) : List (ι × ι) :=
  ((nodes.filter fun entry => entry.2 ∈ graphIds nodes).map fun entry => (entry.2, entry.1)) ++
    edges

/-- Of the nodes the id and that of the parent, of the edges the ids of the two ends. -/
def cyclicReferenceSources (nodes edges : List (ι × ι)) : Option (List ι) := do
  let ids := graphIds nodes
  let empty := ids.map fun id => (id, [])
  let g ← (links nodes edges).foldlM connect { graph := empty, reverse := empty }
  let component ← StrongComponents.components (neighbours g.graph) (neighbours g.reverse) ids
  return ((edges.filter fun edge => decide (get? component edge.1 =
    get? component edge.2)).map (·.1)).eraseDups

end Cycles

/-! ## The extraction -/

section Extraction

variable {ι φ : Type} [DecidableEq ι] (integral : List Nat → Bool) (ids : Ids ι φ)
  (material : Material ι) (limits : Limits)

/-- The edges, one for each source, and the gaps of the references that lead nowhere. -/
def resolveReferences (s : State ι φ) : List (ι × Edge ι) × List (Call ι φ) :=
  s.references.foldl (fun (edges, calls) entry =>
    match resolveReference s entry with
    | .ok edge => (OrderedMap.set edges edge.sourceId edge, calls)
    | .error code => (edges, calls ++ [.gap code (location entry.ref)])) ([], [])

def referenceCalls (s : State ι φ) : List (Call ι φ) :=
  let (edges, calls) := resolveReferences s
  match cyclicReferenceSources (s.nodes.map fun e => (e.2.object.objectId, e.2.object.parentId))
      (edges.map fun e => (e.2.sourceId, e.2.targetId)) with
  | none => calls ++ [.throw]
  | some cyclic => calls ++ edges.map fun e =>
    if e.2.sourceId ∈ cyclic then .gap "JSON_REFERENCE_CYCLE" e.2.anchor
    else .fact { subjectId := e.2.sourceId, predicate := "refersTo", said := .target e.2.targetId
                 basis := "DECLARED", anchor := e.2.anchor, premiseFactIds := [] }

/-- The document is read as OpenAPI. -/
def isOpenapi (root : Node) : Bool := (textField root "openapi").any isOpenapiVersion

def versionGap (root : Node) : List (Call ι φ) :=
  match (field root "openapi").filter fun _ => !isOpenapi root with
  | some versionNode => [.gap "OPENAPI_VERSION_UNSUPPORTED" (location versionNode)]
  | none => []

/-- The `tests` array that has too many members. -/
def overCaseLimit (root : Node) : Option Node :=
  (field root "tests").filter fun testsNode => limits.testReports &&
    decide (testsNode.label.item = .array) &&
    decide (limits.maxReportCases.getD 2000 < testsNode.members.length)

def visited (root : Node) : State ι φ :=
  visit integral ids material limits (isOpenapi root) [] none material.rootId .MATERIAL root
    { nodes := [], names := [], operations := [], references := [], calls := versionGap root }

def extractTree (root : Node) : List (Call ι φ) :=
  match overCaseLimit limits root with
  | some testsNode => versionGap root ++ [.gap "REPORT_CASE_LIMIT" (location testsNode)]
  | none =>
    let s := visited integral ids material limits root
    s.calls ++ s.operations.flatMap (operationCalls s) ++ referenceCalls s

def extractJsonStructure (representable : List Nat → Bool) (text : List Nat) :
    List (Call ι φ) :=
  match parseJsonSyntax representable text limits.syntaxLimits with
  | .ok root => extractTree integral ids material limits root
  | .error (.Syntax error) => [.gap error.code (.pointer error.pointer error.start error.stop)]
  | .error _ => [.throw]

end Extraction

end Traqen.JsonStructure
