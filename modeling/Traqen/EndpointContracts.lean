-- Endpoint contracts (`deterministic-facts/extraction/endpoint-contracts.js`): the operations of an
-- OpenAPI document and the routes of the code are indexed by component, method and path shape, and
-- an operation is matched with a route where both are alone under their key.
import Mathlib.Data.Rat.Floor
import Traqen.CompileBudget
import Traqen.Lib.Grouping

open Js

namespace Traqen.EndpointContracts

open CompileBudget (Object Fact Material State Run FactInput addFact addGap)
open FactIdentity (Anchor)
open Grouping (groupsOf)

/-! ## Limits -/

structure Limits where
  endpointContracts : Option Json
  maxEndpointDeclarations : Option ℚ
  maxEndpointMatches : Option ℚ
  maxEndpointCandidateRefs : Option ℚ

namespace Limits

variable (limits : Limits)

/-- `limits?.endpointContracts === "component-path-shape-v1"`. -/
def enabled : Bool := decide (limits.endpointContracts = some (.str "component-path-shape-v1"))

def declarationLimit : ℚ := limits.maxEndpointDeclarations.getD 10000

def matchLimit : ℚ := limits.maxEndpointMatches.getD 2000

def refLimit : ℚ := limits.maxEndpointCandidateRefs.getD 64

end Limits

/-- `items.slice(0, end)`: a part of a unit is cut off, and a negative end counts from the last. -/
def sliceTo {α : Type} (items : List α) (end_ : ℚ) : List α :=
  if 0 ≤ end_ then items.take ⌊end_⌋.toNat else
    if ⌊-end_⌋ = 0 then [] else items.take (items.length - ⌊-end_⌋.toNat)

/-! ## Path shapes -/

def methods : List String := ["GET", "POST", "PUT", "PATCH", "DELETE", "HEAD", "OPTIONS", "TRACE"]

/-- `/^[A-Za-z_$][A-Za-z0-9_$.-]*$/`. -/
def isParameter : List Char → Bool
  | [] => false
  | c :: cs => (c.isAlpha || c == '_' || c == '$') &&
      cs.all fun c => c.isAlphanum || c == '_' || c == '$' || c == '.' || c == '-'

/-- `/[\u0000-\u0020\u007f%?#\\*+()[\]!]/`. -/
def isUnsupported (c : Char) : Bool :=
  decide (c.toNat ≤ 0x20 ∨ c.toNat = 0x7F) ||
    c ∈ ['%', '?', '#', '\\', '*', '+', '(', ')', '[', ']', '!']

/-- A segment with its parameter made nameless. -/
def segmentShape (express : Bool) (segment : List Char) : Option (List Char) :=
  if segment = ['.'] ∨ segment = ['.', '.'] then none
  else if express = true ∧ segment.head? = some ':' then
    if isParameter segment.tail then some ['\x7b', '\x7d'] else none
  else if segment.head? = some '\x7b' ∧ segment.getLast? = some '\x7d' then
    if isParameter segment.tail.dropLast then some ['\x7b', '\x7d'] else none
  else if segment.any (fun c => c ∈ ['\x7b', '\x7d', ':']) then none
  else some segment

def hasEmptySegment : List Char → Bool
  | '/' :: '/' :: _ => true
  | _ :: cs => hasEmptySegment cs
  | [] => false

def endpointPathShape (value : Option Json) (express : Bool) : Option String :=
  match value with
  | some (.str path) =>
    let cs := path.toList
    if cs.head? ≠ some '/' ∨ 8192 < path.utf8ByteSize ∨ cs.any isUnsupported = true ∨
        hasEmptySegment cs = true then none
    else do
      let segments ← (cs.tail.splitOn '/').mapM (segmentShape express)
      return String.ofList (List.intercalate ['/'] ([] :: segments))
  | _ => none

/-! ## Declarations -/

/-- A declaration under one of its paths. -/
structure Entry where
  object : Object
  material : Material
  path : Fact
  method : Fact
  key : String

structure Invalid where
  object : Object
  material : Option Material
  code : String

structure Declarations where
  contracts : List Entry
  routes : List Entry
  invalidContracts : List Invalid

def Declarations.none : Declarations := ⟨[], [], []⟩

def Declarations.concat (ds : List Declarations) : Declarations :=
  ⟨ds.flatMap (·.contracts), ds.flatMap (·.routes), ds.flatMap (·.invalidContracts)⟩

def declarationKinds : List String := ["OPENAPI_OPERATION", "ROUTE"]

def routeRules : List (Option String) := [some "f002-java", some "f002-javascript"]

/-- `bySubject.get(objectId) ?? []`. -/
def propertiesOf (facts : List Fact) (objectId : String) : List Fact :=
  (OrderedMap.get? (groupsOf Fact.subjectId (facts.filter fun f => f.kind = "PROPERTY"))
    objectId).getD []

def valueOf (f : Fact) : Option Json := f.value.bind fun fields => fields.lookup "value"

def datatypeOf (f : Fact) : Option Json := f.value.bind fun fields => fields.lookup "datatype"

/-- Under the rule, version 2. -/
def underRule (rule : String) (f : Fact) : Bool :=
  f.ruleRef.any fun r => decide (r.id = rule ∧ r.version = "2")

def expectedBasis (contract : Bool) (rule predicate : String) : String :=
  if contract = true then "DECLARED"
  else if rule = "f002-java" then "DERIVED"
  else if predicate = "effectivePath" then "DERIVED" else "DECLARED"

def eligible (contract : Bool) (rule : String) (f : Fact) : Bool :=
  underRule rule f && decide (datatypeOf f = some (.str "string")) &&
    decide (f.basis = expectedBasis contract rule f.predicate)

def isMethod : Option Json → Bool
  | some (.str s) => decide (s ∈ methods)
  | _ => false

def verbsOf (properties : List Fact) (contract : Bool) (rule : String) : List Fact :=
  properties.filter fun f => decide (f.predicate = "httpMethod") && eligible contract rule f &&
    isMethod (valueOf f)

def pathPredicate (contract : Bool) (rule : String) : String :=
  if contract = true ∨ rule = "f002-java" then "path" else "effectivePath"

def pathsOf (properties : List Fact) (contract : Bool) (rule : String) : List Fact :=
  properties.filter fun f => decide (f.predicate = pathPredicate contract rule) &&
    eligible contract rule f

/-- `f.ruleRef.id` throws. -/
def isUnruled (contract : Bool) (rule : String) (f : Fact) : Bool :=
  f.ruleRef.isNone &&
    decide (f.predicate = "httpMethod" ∨ f.predicate = pathPredicate contract rule)

/-- `JSON.stringify([material.componentId, verbs[0].value.value, shape])`. -/
def keyOf (material : Material) (method : Fact) (shape : String) : String :=
  (Json.arr [.str material.input.componentId, (valueOf method).getD .null, .str shape]).stringify

def undefinedError {α : Type} : Except Failure α :=
  typeError "Cannot read properties of undefined"

/-- Only contracts are reported. -/
def invalid (contract : Bool) (object : Object) (material : Option Material) (code : String) :
    Declarations :=
  if contract = true then ⟨[], [], [{ object, material, code }]⟩ else Declarations.none

def declaredPath (object : Object) (material : Option Material) (contract : Bool) (rule : String)
    (method path : Fact) : Except Failure Declarations :=
  match endpointPathShape (valueOf path) (decide (rule = "f002-javascript")) with
  | none => .ok (invalid contract object material "ENDPOINT_CONTRACT_PATH_UNSUPPORTED")
  | some shape =>
    match material with
    | none => undefinedError
    | some m =>
      let entry := { object, material := m, path, method, key := keyOf m method shape }
      .ok (if contract = true then ⟨[entry], [], []⟩ else ⟨[], [entry], []⟩)

def declared (facts : List Fact) (object : Object) (material : Option Material) (contract : Bool)
    (rule : String) : Except Failure Declarations :=
  let properties := propertiesOf facts object.objectId
  if properties.any (isUnruled contract rule) = true then undefinedError
  else
    match verbsOf properties contract rule, pathsOf properties contract rule with
    | [method], path :: paths => do
      let declarations ← (path :: paths).mapM (declaredPath object material contract rule method)
      return Declarations.concat declarations
    | _, _ =>
      .ok (invalid contract object material "ENDPOINT_CONTRACT_DECLARATION_UNSUPPORTED")

/-- `contract ? "f002-json" : material.ruleRef?.id`. -/
def ruleOf (contract : Bool) (material : Option Material) : Except Failure (Option String) :=
  if contract = true then .ok (some "f002-json")
  else
    match material with
    | none => undefinedError
    | some m => .ok (m.input.ruleRef.map (·.id))

def isContract (object : Object) : Bool := decide (object.kind = "OPENAPI_OPERATION")

def isDeclaration (object : Object) : Bool := decide (object.kind ∈ declarationKinds)

/-- One turn of the loop over the objects. -/
def declaration (facts : List Fact) (materials : List (String × Material)) (object : Object) :
    Except Failure Declarations :=
  if isDeclaration object = false then .ok Declarations.none
  else do
    let material := OrderedMap.get? materials object.materialId
    let rule ← ruleOf (isContract object) material
    if isContract object = false ∧ rule ∉ routeRules then return Declarations.none
    else declared facts object material (isContract object) (rule.getD "")

def endpointDeclarations (objects : List Object) (facts : List Fact)
    (materials : List (String × Material)) : Except Failure Declarations := do
  let declarations ← objects.mapM (declaration facts materials)
  return Declarations.concat declarations

/-! ## Matches -/

/-- What `resolveEndpointContracts` does to the records. -/
inductive Action where
  | fact (material : Material) (input : FactInput)
  | gap (material : Material) (code : String) (anchor extraReason : Anchor)
  | throw (failure : Failure)

/-- `addGap(material, "json", code, anchor, extraReason)`. -/
def gapAction (material : Option Material) (code : String) (anchor extraReason : Anchor) : Action :=
  match material with
  | some m => .gap m code anchor extraReason
  | none => .throw { name := .TypeError, message := "Cannot read properties of undefined" }

/-- The ids of the objects, each once, by their bytes. -/
def idsOf (entries : List Entry) : List String :=
  (entries.map fun e => e.object.objectId).eraseDups.insertionSort (· ≤ ·)

def ambiguity (limits : Limits) (targets origins : List Entry) : Anchor :=
  let candidates := idsOf targets
  let sources := idsOf origins
  [("candidateObjectIds", .arr ((sliceTo candidates limits.refLimit).map .str)),
    ("contractObjectIds", .arr ((sliceTo sources limits.refLimit).map .str)),
    ("candidateConditions", .num (Number.ofNat targets.length)),
    ("candidateRefsTruncated", .bool (decide (limits.refLimit < candidates.length ∨
      limits.refLimit < sources.length)))]

/-- What becomes of a contract: a gap, or a match that is planned. -/
def outcome (limits : Limits) (contractIndex routeIndex : List (String × List Entry))
    (item : Entry) : Action ⊕ (Entry × Entry) :=
  let targets := (OrderedMap.get? routeIndex item.key).getD []
  let origins := (OrderedMap.get? contractIndex item.key).getD []
  if 1 < targets.length ∨ 1 < origins.length then
    .inl (.gap item.material "ENDPOINT_CONTRACT_AMBIGUOUS" item.object.anchor
      (ambiguity limits targets origins))
  else
    match targets with
    | [] => .inl (.gap item.material "ENDPOINT_CONTRACT_TARGET_UNRESOLVED" item.object.anchor [])
    | target :: _ => .inr (item, target)

def premisesOf (item target : Entry) : List String :=
  [item.method.factId, item.path.factId, target.method.factId, target.path.factId]

def matchInput (item target : Entry) : FactInput :=
  { subjectId := item.object.objectId, predicate := "matchesEndpointContract"
    targetId := some target.object.objectId, value := none, basis := "DERIVED"
    anchor := item.object.anchor, evidenceKind := "SOURCE_TEXT"
    premiseFactIds := premisesOf item target }

def limitGap (item : Entry) : Action :=
  .gap item.material "ENDPOINT_CONTRACT_LIMIT" item.object.anchor []

/-- The actions behind the index. -/
def resolved (limits : Limits) (d : Declarations) : List Action :=
  let outcomes := d.contracts.map
    (outcome limits (groupsOf Entry.key d.contracts) (groupsOf Entry.key d.routes))
  let planned := outcomes.filterMap Sum.getRight?
  d.invalidContracts.map (fun i => gapAction i.material i.code i.object.anchor []) ++
    outcomes.filterMap Sum.getLeft? ++
    if limits.matchLimit < planned.length then planned.map fun p => limitGap p.1
    else planned.map fun p => .fact p.1.material (matchInput p.1 p.2)

/-- `new Map(materials.map((m) => [m.materialId, m]))`. -/
def materialById (materials : List Material) : List (String × Material) :=
  OrderedMap.ofList (materials.map fun m => (m.materialId, m))

def resolveEndpointContracts (limits : Limits) (objects : List Object) (facts : List Fact)
    (materials : List Material) : List Action :=
  let declarations := objects.filter isDeclaration
  if limits.enabled = false then []
  else if limits.declarationLimit < declarations.length then
    (declarations.filter isContract).map fun o =>
      gapAction (OrderedMap.get? (materialById materials) o.materialId) "ENDPOINT_CONTRACT_LIMIT"
        o.anchor []
  else
    match endpointDeclarations objects facts (materialById materials) with
    | .error e => [.throw e]
    | .ok d => resolved limits d

/-- An action on the records of a compilation. -/
def perform (sha256 : String → String) (b : CompileBudget.Budget) : Action → Run Unit
  | .fact m input => addFact sha256 b m input
  | .gap m code anchor extraReason => addGap sha256 b m "json" code (some anchor) extraReason
  | .throw failure => Throwing.lift (.error (.Failed failure))

end Traqen.EndpointContracts
