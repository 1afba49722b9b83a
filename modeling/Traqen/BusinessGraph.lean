-- Business graphs (`business-knowledge/semantic-graph.js`): what a model proposes is accepted only
-- with evidence of this bundle, one review that supports it, and endpoints that are accepted as
-- well. `structuredClone` of plain data is that data; the texts of engine errors are left out.
import Traqen.SourceIdentity
import Traqen.Lib.OrderedMap
import Traqen.Lib.Utf8

open Js

namespace Traqen.BusinessGraph

open SourceIdentity (canonicalEncode)

/-! ## Errors -/

structure F003Error where
  code : String
  message : String
  status : Nat
  details : Json
  deriving DecidableEq

/-- What may be thrown: an error of the module, or one of the engine. -/
inductive Thrown where
  | F003 (error : F003Error)
  | TypeError
  deriving DecidableEq

def requireF003 (condition : Prop) [Decidable condition] (code message : String) (status : Nat) :
    Except Thrown Unit :=
  if condition then .ok () else .error (.F003 { code, message, status, details := .null })

/-! ## Checks of values -/

def kinds : List String :=
  ["FUNCTION", "RULE", "ROLE", "STATE", "PROCESS", "EXCEPTION", "BUSINESS_OBJECT"]

/-- A text that is not blank, of a bounded length. -/
def text (max : Nat) : Option Json → Bool
  | some (.str s) => !isBlank s && decide ((codeUnits s).length ≤ max)
  | _ => false

/-- The bound of `text` where none is given. -/
def longText : Nat := 16384

def strings : Option Json → Bool
  | some (.arr items) => decide (items.length ≤ 200) && items.all fun s => text longText (some s)
  | _ => false

/-- `re.test(v)`, which reads the text of a value; none where that throws. -/
def testText (accepts : String → Bool) (v : Json) : Except Thrown Bool :=
  if v.hidesToString = true then .error .TypeError else .ok (accepts v.toText)

/-- `/^[A-Z][A-Z0-9_]{0,63}$/`. -/
def isPredicate (s : String) : Bool :=
  match s.toList with
  | c :: cs => c.isUpper && decide (cs.length ≤ 63) &&
      cs.all fun c => c.isUpper || c.isDigit || c == '_'
  | [] => false

/-- `/^(child-|supplement)/`. -/
def isChildTask (s : String) : Bool :=
  "child-".toList.isPrefixOf s.toList || "supplement".toList.isPrefixOf s.toList

/-- `/^[a-f0-9]{64}$/`. -/
def isDigest (s : String) : Bool :=
  decide (s.toList.length = 64) && s.toList.all fun c => c.isDigit || ('a' ≤ c && c ≤ 'f')

/-- `Number.isSafeInteger`. -/
def safeInteger : Option Json → Option Int
  | some (.num n) => if n.isInteger = true ∧ n.toInt.natAbs < 2 ^ 53 then some n.toInt else none
  | _ => none

theorem isInteger_ofNat (n : Nat) : (Number.ofNat n).isInteger = true := by
  have hdigits : ∀ fuel n e : Nat, 0 ≤ (Number.ofNatDigits fuel n e).exponent := by
    intro fuel
    induction fuel with
    | zero =>
      intro n e
      unfold Number.ofNatDigits
      split_ifs <;> simp
    | succ fuel ih =>
      intro n e
      unfold Number.ofNatDigits
      split_ifs
      · exact Int.natCast_nonneg e
      · exact ih _ _
  exact decide_eq_true (hdigits n n 0)

theorem safeInteger_ofNat {n : Nat} (h : n < 2 ^ 53) :
    safeInteger (some (.num (.ofNat n))) = some (n : Int) := by
  unfold safeInteger
  dsimp only
  rw [Number.toInt_ofNat, if_pos ⟨isInteger_ofNat n, by simpa using h⟩]

section Lengths

variable (positiveText : String → Bool)

/-- `v > 0`; `positiveText` says which texts stand for a number above zero. -/
def aboveZero : Option Json → Except Thrown Bool
  | none | some .null => .ok false
  | some (.bool b) => .ok b
  | some (.num n) => .ok (decide (0 < n.mantissa))
  | some v => testText positiveText v

/-- `v.length > 0`. -/
def lengthAboveZero : Json → Except Thrown Bool
  | .arr items => .ok (!items.isEmpty)
  | .str s => .ok (decide (s ≠ ""))
  | v => aboveZero positiveText (v.get? "length")

end Lengths

/-! ## The input -/

/-- A list of the input. -/
def listOf (input : Json) (key : String) : List Json := itemsOf (field (some input) key)

def keyOf (item : Json) : Option Json := field (some item) "key"

/-- `materials.get(id)`. -/
def materialOf (input : Json) (id : Option Json) : Option Json :=
  lastEntry ((listOf input "materials").map fun m => (field (some m) "id", m)) id

/-- `materials.has(id)`. -/
def isMaterial (input : Json) (id : Option Json) : Bool := (materialOf input id).isSome

def materialText (material : Json) : List Char :=
  match field (some material) "text" with
  | some (.str s) => s.toList
  | _ => []

/-- `reviews.get(key)`. -/
def reviewOf (input : Json) (key : Option Json) : Option Json :=
  lastEntry ((listOf input "reviews").map fun r => (keyOf r, r)) key

/-- The keys that stand earlier in the list as well. -/
def repeatedAfter (seen : List (Option Json)) : List (Option Json) → List (Option Json)
  | [] => []
  | key :: rest =>
    if seen.any (strictEq · key) = true then key :: repeatedAfter (key :: seen) rest
    else repeatedAfter (key :: seen) rest

/-- `set.has(key)`. -/
def hasKey (keys : List (Option Json)) (key : Option Json) : Bool := keys.any (strictEq · key)

def duplicates (input : Json) : List (Option Json) :=
  repeatedAfter [] ((listOf input "reviews").map keyOf)

def proposals (input : Json) : List Json := listOf input "candidates" ++ listOf input "relations"

def repeatedKeys (input : Json) : List (Option Json) := repeatedAfter [] ((proposals input).map keyOf)

/-- `endpointKeys.has(key)`. -/
def isEndpoint (input : Json) (key : Option Json) : Bool :=
  hasKey ((listOf input "candidates").map keyOf) key || isMaterial input key

/-! ## Citations -/

/-- `text.split(/\r?\n/)`. -/
def splitLines : List Char → List (List Char)
  | [] => [[]]
  | '\r' :: '\n' :: rest => [] :: splitLines rest
  | c :: rest =>
    if c = '\n' then [] :: splitLines rest
    else
      match splitLines rest with
      | line :: lines => (c :: line) :: lines
      | [] => [[c]]

/-- `lines.slice(first - 1, last).join("\n")`. -/
def citedText (lines : List (List Char)) (first last : Nat) : List Char :=
  ['\n'].intercalate ((lines.take last).drop (first - 1))

def validCitation (input citation : Json) : Bool :=
  match materialOf input (field (some citation) "materialId") with
  | none => false
  | some material =>
    let source := field (some material) "sourceMaterial"
    if strictEq (field source "bundleId") (field (some input) "sourceBundleId") = true ∧
        strictEq (field source "workspaceId") (field (some input) "workspaceId") = true then
      match safeInteger (field (some citation) "startLine"),
          safeInteger (field (some citation) "endLine"), field (some citation) "quote" with
      | some first, some last, some (.str quote) =>
        let lines := splitLines (materialText material)
        decide (1 ≤ first) && decide (first ≤ last) && text longText (some (.str quote)) &&
          decide (last ≤ lines.length) &&
          decide (quote.toList <:+: citedText lines first.toNat last.toNat)
      | _, _, _ => false
    else false

/-! ## Triage -/

inductive State where
  | RETAINED_UNKNOWN | QUARANTINED | HUMAN_REVIEW | NEEDS_EVIDENCE | ANALYSIS_ACCEPTED
  deriving Repr, DecidableEq

def State.text : State → String
  | RETAINED_UNKNOWN => "RETAINED_UNKNOWN"
  | QUARANTINED => "QUARANTINED"
  | HUMAN_REVIEW => "HUMAN_REVIEW"
  | NEEDS_EVIDENCE => "NEEDS_EVIDENCE"
  | ANALYSIS_ACCEPTED => "ANALYSIS_ACCEPTED"

section Triage

variable (positiveText : String → Bool) (input item : Json) (relation : Bool)

def evidenceOf : List Json := itemsOf (field (some item) "evidence")

/-- `item[key] ?? []`. -/
def orEmpty (key : String) : Json := nullish (field (some item) key) (.arr [])

/-- The conditions of `INVALID_STRUCTURE`, all of them denied. -/
def wellStructured : Except Thrown Bool :=
  if text 128 (keyOf item) = true ∧ hasKey (repeatedKeys input) (keyOf item) = false ∧
      text longText (field (some item) "scope") = true ∧
      strings (some (orEmpty item "uncertainties")) = true then do
    let issues ← lengthAboveZero positiveText (orEmpty item "identityIssues")
    return !issues && (relation ||
      (kinds.any (fun kind => strictEq (field (some item) "kind") (some (.str kind))) &&
        text 256 (field (some item) "name") && text longText (field (some item) "statement")))
  else return false

/-- The conditions of `INVALID_ENDPOINT`, all of them denied. -/
def connected : Except Thrown Bool :=
  if isEndpoint input (field (some item) "sourceKey") = true ∧
      isEndpoint input (field (some item) "targetKey") = true then
    testText isPredicate (nullish (field (some item) "predicate") (.str ""))
  else return false

/-- The conditions of `INVALID_EVIDENCE`, all of them denied. -/
def evidenced : Bool :=
  decide ((evidenceOf item).length ≤ 200) && (evidenceOf item).all (validCitation input) &&
    match orEmpty item "technicalRefs" with
    | .arr refs => decide (refs.length ≤ 200) && refs.all fun id =>
        hasKey ((listOf input "allowedFactIds").map some) (some id)
    | _ => false

/-- Only a relation has endpoints. -/
def joins : Except Thrown Bool := if relation = true then connected input item else return true

def reasonOf : Except Thrown (Option String) := do
  let structured ← wellStructured positiveText input item relation
  if structured = false then return some "INVALID_STRUCTURE"
  else
    let joined ← joins input item relation
    if joined = false then return some "INVALID_ENDPOINT"
    else if evidenced input item = false then return some "INVALID_EVIDENCE"
    else return none

def supportOf : Option Json := field (reviewOf input (keyOf item)) "support"

/-- The review has rationale and premises, and says that nothing conflicts. -/
def supported : Bool :=
  let review := reviewOf input (keyOf item)
  strictEq (field review "support") (some (.str "SUPPORTED")) &&
    text longText (field review "rationale") && strings (field review "premises") &&
    hasItems (field review "premises") &&
    decide (field review "unresolvedConflicts" = some (.arr []))

def stateOf : Option String → Except Thrown State
  | some _ => return .QUARANTINED
  | none => do
    let issues ← lengthAboveZero positiveText (orEmpty item "consolidationIssues")
    if issues = true ∨ hasKey (duplicates input) (keyOf item) = true ∨
        hasItems (field (reviewOf input (keyOf item)) "unresolvedConflicts") = true ∨
        strictEq (supportOf input item) (some (.str "AMBIGUOUS")) = true then
      return .HUMAN_REVIEW
    else if (evidenceOf item).isEmpty = true ∨
        strictEq (supportOf input item) (some (.str "INSUFFICIENT")) = true then
      return .NEEDS_EVIDENCE
    else if supported input item = true then return .ANALYSIS_ACCEPTED
    else return .RETAINED_UNKNOWN

end Triage

/-! ## Records -/

/-- The fields of a candidate alone, or of a relation alone. -/
inductive Shape where
  | candidate (kind name statement : Json)
  | relation (sourceKey predicate targetKey : Json)

def Shape.fields : Shape → List (String × Json)
  | candidate kind name statement => [("kind", kind), ("name", name), ("statement", statement)]
  | relation sourceKey predicate targetKey =>
    [("sourceKey", sourceKey), ("predicate", predicate), ("targetKey", targetKey)]

/-- `[relation.sourceKey, relation.targetKey]`. -/
def Shape.endpoints : Shape → List Json
  | candidate _ _ _ => []
  | relation sourceKey _ targetKey => [sourceKey, targetKey]

structure Record where
  key : String
  shape : Shape
  scope : Json
  evidence : List Json
  technicalRefs : Json
  originRefs : Json
  provenance : Json
  dependencyScope : Json
  reuse : Json
  identityIssues : Json
  consolidationIssues : Json
  uncertainties : List Json
  state : State
  verification : Json

def Record.fields (r : Record) : List (String × Json) :=
  ("key", .str r.key) :: r.shape.fields ++
    [("scope", r.scope), ("evidence", .arr r.evidence), ("technicalRefs", r.technicalRefs),
      ("originRefs", r.originRefs), ("provenance", r.provenance),
      ("dependencyScope", r.dependencyScope), ("reuse", r.reuse),
      ("identityIssues", r.identityIssues), ("consolidationIssues", r.consolidationIssues),
      ("uncertainties", .arr r.uncertainties), ("state", .str r.state.text),
      ("authority", .str "AGENT_ANALYSIS"), ("verification", r.verification)]

/-- A record and its `id`. -/
structure Node where
  record : Record
  id : String

def Node.json (n : Node) : Json := .obj (n.record.fields ++ [("id", .str n.id)])

section Assessment

variable (sha256 : String → String) (positiveText : String → Bool) (input : Json)

/-- `hash`. -/
def hashOf (value : Json) : String := sha256 (canonicalEncode value)

def shapeOf (relation : Bool) (item : Json) : Shape :=
  let orNull key := nullish (field (some item) key) .null
  if relation = true then .relation (orNull "sourceKey") (orNull "predicate") (orNull "targetKey")
  else .candidate (orNull "kind") (orNull "name") (orNull "statement")

/-- The key of a record: that of the proposal if it is a text of at most 128 units. -/
def nameOf (quarantined : Nat) (item : Json) : String :=
  if text 128 (keyOf item) = true then (nullish (keyOf item) .null).toText
  else "invalid-" ++ toString quarantined

def recordOf (relation : Bool) (quarantined : Nat) (item : Json) (state : State) : Record :=
  let orNull key := nullish (field (some item) key) .null
  let review := reviewOf input (keyOf item)
  { key := nameOf quarantined item
    shape := shapeOf relation item
    scope := orNull "scope"
    evidence := evidenceOf item
    technicalRefs := orEmpty item "technicalRefs"
    originRefs := orEmpty item "originRefs"
    provenance := orNull "provenance"
    dependencyScope := orNull "dependencyScope"
    reuse := orNull "reuse"
    identityIssues := orEmpty item "identityIssues"
    consolidationIssues := orEmpty item "consolidationIssues"
    uncertainties :=
      if strings (some (orEmpty item "uncertainties")) = true then
        itemsOf (some (orEmpty item "uncertainties"))
      else [.str "不确定性字段无效"]
    state
    verification := if truthy review = true then nullish review .null else .null }

/-- `assess`: the record of a proposal, and the quarantine after it. -/
def assess (relation : Bool) (quarantine : List Json) (item : Json) :
    Except Thrown (Node × List Json) :=
  -- the fields of null are read at the latest for its record
  if item = .null then .error .TypeError
  else do
    let reason ← reasonOf positiveText input item relation
    let state ← stateOf positiveText input item reason
    let record := recordOf input relation quarantine.length item state
    let id := hashOf sha256 (.obj [("workspaceId", nullish (field (some input) "workspaceId") .null),
      ("investigationId", nullish (field (some input) "investigationId") .null),
      ("record", .obj record.fields)])
    return ({ record, id }, match reason with
      | some reason => quarantine ++
          [.obj [("id", .str id), ("key", .str record.key), ("reason", .str reason)]]
      | none => quarantine)

def assessAll (relation : Bool) : List Json → List Json → Except Thrown (List Node × List Json)
  | quarantine, [] => return ([], quarantine)
  | quarantine, item :: rest => do
    let (node, quarantine) ← assess sha256 positiveText input relation quarantine item
    let (nodes, quarantine) ← assessAll relation quarantine rest
    return (node :: nodes, quarantine)

/-- `byKey.get(key)`. -/
def nodeOf (candidates : List Node) (key : Json) : Option Node :=
  lastEntry (candidates.map fun c => (some (.str c.record.key), c)) (some key)

/-- An endpoint is a candidate that is not accepted. -/
def hasOpenEndpoint (candidates : List Node) (relation : Record) : Bool :=
  relation.shape.endpoints.any fun key =>
    (nodeOf candidates key).any fun c => decide (c.record.state ≠ .ANALYSIS_ACCEPTED)

/-- The second pass over a relation. -/
def settleRelation (candidates : List Node) (n : Node) : Node :=
  if n.record.state = .ANALYSIS_ACCEPTED ∧ hasOpenEndpoint candidates n.record = true then
    let record := { n.record with
      state := .HUMAN_REVIEW
      uncertainties := n.record.uncertainties ++ [.str "关系端点仍有未决解释，不能作为已成立分支"] }
    { record, id := hashOf sha256 (.obj (record.fields ++ [("id", .null)])) }
  else n

end Assessment

/-! ## Coverage -/

section Coverage

variable (input : Json)

/-- `v ?? []`, of which a method of arrays is called. -/
def arrayOf : Option Json → Except Thrown (List Json)
  | none | some .null => .ok []
  | some (.arr items) => .ok items
  | _ => .error .TypeError

/-- A property of a value is read, which null has none of. -/
def notNull (v : Json) : Except Thrown Unit := if v = .null then .error .TypeError else .ok ()

/-- The source ranges of each task whose input was supplied to a child. -/
def childInputs (process : List Json) : Except Thrown (List (List Json)) := do
  let found ← process.mapM fun p => do
    notNull p
    let child ← testText isChildTask (nullish (field (some p) "taskKey") (.str ""))
    match field (some p) "sourceRanges" with
    | some (.arr ranges) => return if child = true then [ranges] else []
    | _ => return []
  return found.flatten

def pendingRanges (process : List Json) : Except Thrown (List Json) := do
  let found ← process.mapM fun p => do
    let tasks ← arrayOf (field (some p) "pendingTasks")
    let ranges ← tasks.mapM fun task => do
      notNull task
      match nullish (field (some task) "sourceRanges") (.arr []) with
      | .arr ranges => return ranges
      | other => return [other]
    return ranges.flatten
  return found.flatten

/-- The bytes of a range of this material, if it lies within them. -/
def suppliedRange (id : Option Json) (length : Nat) (r : Json) : Except Thrown (Option (Nat × Nat)) := do
  notNull r
  match safeInteger (field (some r) "byteStart"), safeInteger (field (some r) "byteEnd") with
  | some first, some last =>
    return if strictEq (field (some r) "materialId") id = true ∧ 0 ≤ first ∧ first ≤ last ∧
        last ≤ length then some (first.toNat, last.toNat) else none
  | _, _ => return none

/-- Ranges in rising order, those that touch put together; the last one comes first. -/
def mergeRanges : List (Nat × Nat) → List (Nat × Nat) → List (Nat × Nat)
  | merged, [] => merged.reverse
  | [], r :: rest => mergeRanges [r] rest
  | last :: merged, r :: rest =>
    if r.1 ≤ last.2 then mergeRanges ((last.1, max last.2 r.2) :: merged) rest
    else mergeRanges (r :: last :: merged) rest

def rangeJson (r : Nat × Nat) : Json := .arr [.num (Number.ofNat r.1), .num (Number.ofNat r.2)]

/-- A bound that is undefined has no canonical text, so `hash` throws. -/
def pendingRange (id : Option Json) (r : Json) : Except Thrown (List Json) := do
  notNull r
  if strictEq (field (some r) "materialId") id = true then
    match field (some r) "byteStart", field (some r) "byteEnd" with
    | some first, some last => return [.arr [first, last]]
    | _, _ => .error .TypeError
  else return []

def modelInput (children : List (List Json)) (pending : List Json) (id : Option Json) :
    Except Thrown Json := do
  let length := ((materialOf input id).map fun m => Utf8.byteLength (materialText m)).getD 0
  let actual ← children.flatten.mapM (suppliedRange id length)
  let ranges := mergeRanges []
    ((actual.filterMap fun r => r).insertionSort fun a b => a.1 ≤ b.1)
  let supplied := (ranges.map fun r => r.2 - r.1).sum
  let waiting ← pending.mapM (pendingRange id)
  let status :=
    if isMaterial input id = false then "NOT_SUPPLIED"
    else if children.isEmpty = true then "UNKNOWN"
    else if ranges.isEmpty = true then "NOT_SUPPLIED"
    else if supplied = length then "FULLY_SUPPLIED"
    else "PARTIALLY_SUPPLIED"
  return .obj [("status", .str status), ("suppliedByteRanges", .arr (ranges.map rangeJson)),
    ("pendingByteRanges", .arr waiting.flatten),
    ("meaning", .str "TRANSPORT_COVERAGE_NOT_SEMANTIC_COMPLETENESS")]

/-- `{ ...v }`. A text is spread by its code units, and half a pair has no canonical text. -/
def spreadFields : Json → Except Thrown (List (String × Json))
  | .obj fields => .ok fields
  | .arr items => .ok (items.zipIdx.map fun e => (toString e.2, e.1))
  | .str s =>
    if s.toList.any (fun c => decide (0x10000 ≤ c.toNat)) = true then .error .TypeError
    else .ok (s.toList.zipIdx.map fun e => (toString e.2, .str (String.ofList [e.1])))
  | _ => .ok []

def coverageOf (children : List (List Json)) (pending : List Json)
    (associated : List (Option Json)) (entry : Json) : Except Thrown Json := do
  notNull entry
  let id := field (some entry) "materialId"
  let fields ← spreadFields entry
  let supplied ← modelInput input children pending id
  return .obj (fromEntries (OrderedMap.ofList (fields ++
    [("sourceReadStatus", .str (if isMaterial input id = true then "READ" else "UNREAD")),
      ("modelInput", supplied),
      ("businessStatus", .str (if hasKey associated id = true then "ASSOCIATED"
        else "UNASSOCIATED"))])))

/-- The materials that accepted records cite, or have as an endpoint. -/
def associatedBy (candidates relations : List Node) : List (Option Json) :=
  let accepted := fun n : Node => decide (n.record.state = .ANALYSIS_ACCEPTED)
  let cited := fun n : Node => n.record.evidence.map fun e => field (some e) "materialId"
  (candidates.filter accepted).flatMap cited ++
    (relations.filter accepted).flatMap fun n => cited n ++
      (n.record.shape.endpoints.map some).filter (isMaterial input)

end Coverage

/-! ## The graph -/

section Graph

variable (sha256 : String → String) (positiveText : String → Bool) (input : Json)

def listFields : List String :=
  ["materials", "inventory", "candidates", "relations", "reviews", "allowedFactIds",
    "adoptedVersionIds"]

/-- An array of at most 10000 items. -/
def boundedList : Option Json → Bool
  | some (.arr items) => decide (items.length ≤ 10000)
  | _ => false

/-- What is required of the input. -/
def checkInput : Except Thrown Unit := do
  requireF003 (text 128 (field (some input) "workspaceId") = true ∧
      text 128 (field (some input) "investigationId") = true ∧
      text 256 (field (some input) "sourceBundleId") = true ∧
      text 256 (field (some input) "profileId") = true)
    "F003_GRAPH_INPUT_INVALID" "图谱必须绑定调查、Workspace、原材料及配置" 409
  let _ ← listFields.mapM fun name =>
    requireF003 (boundedList (field (some input) name) = true)
      "F003_GRAPH_INPUT_INVALID" (name ++ "必须是有界清单") 409
  let _ ← (listOf input "materials").mapM notNull
  -- where all ids are texts, the map has one entry for each different text
  requireF003 (((listOf input "materials").map fun m => field (some m) "id").Nodup ∧
      (listOf input "materials").all (fun m => text 256 (field (some m) "id") &&
        strictEq (field (field (some m) "sourceMaterial") "id") (field (some m) "id") &&
        isText (field (some m) "text")) = true)
    "F003_GRAPH_INPUT_INVALID" "已读材料引用重复或不完整" 409

def materialJson (material : Json) : Json :=
  let get key := nullish (field (some material) key) .null
  .obj [("id", get "id"), ("sourceMaterial", get "sourceMaterial"), ("receiptId", get "receiptId"),
    ("kind", nullish (field (some material) "kind") (.str "UNKNOWN")),
    ("assetType", nullish (field (some material) "assetType") (.str "OTHER"))]

/-- `...(input[key] ? { [key]: input[key] } : {})`. -/
def whenGiven (key : String) : List (String × Json) :=
  if truthy (field (some input) key) = true then [(key, nullish (field (some input) key) .null)]
  else []

def graphFields (process : List Json) (candidates relations : List Node)
    (coverage quarantine : List Json) : List (String × Json) :=
  let get key := nullish (field (some input) key) .null
  [("schemaVersion", .num (Number.ofNat 1)), ("workspaceId", get "workspaceId"),
    ("investigationId", get "investigationId"), ("sourceBundleId", get "sourceBundleId"),
    ("profileId", get "profileId"), ("adoptedVersionIds", .arr (listOf input "adoptedVersionIds")),
    ("materials", .arr ((listOf input "materials").map materialJson)),
    ("consolidation", get "consolidation"), ("candidates", .arr (candidates.map Node.json)),
    ("relations", .arr (relations.map Node.json)), ("coverage", .arr coverage),
    ("quarantine", .arr quarantine), ("process", .arr process), ("published", .bool false)] ++
  whenGiven input "dependencyReview" ++ whenGiven input "continuation"

def buildBusinessGraph : Except Thrown Json := do
  checkInput input
  let (candidates, quarantine) ←
    assessAll sha256 positiveText input false [] (listOf input "candidates")
  let (assessed, quarantine) ←
    assessAll sha256 positiveText input true quarantine (listOf input "relations")
  let relations := assessed.map (settleRelation sha256 candidates)
  let process ← arrayOf (field (some input) "process")
  let children ← childInputs process
  let pending ← pendingRanges process
  let coverage ← (listOf input "inventory").mapM
    (coverageOf input children pending (associatedBy input candidates relations))
  let fields := graphFields input process candidates relations coverage quarantine
  let digest := hashOf sha256 (.obj fields)
  return .obj (fields ++ [("id", .str ("F003-GRAPH-" ++ digest)), ("digest", .str digest)])

/-- `intactBusinessGraph`. A digest that is no text differs from every hash. -/
def intactBusinessGraph (graph : Json) : Bool :=
  match graph with
  | .obj fields =>
    match fields.lookup "digest" with
    | some (.str claimed) =>
      isDigest claimed &&
        decide (hashOf sha256 (.obj (fields.filter fun e => e.1 ≠ "id" ∧ e.1 ≠ "digest")) =
          claimed) &&
        strictEq (fields.lookup "id") (some (.str ("F003-GRAPH-" ++ claimed)))
    | _ => false
  | _ => false

end Graph

/-! ## Evidence and endpoints -/

/-- The citation quotes the lines that it names, of a material of this bundle and workspace. -/
structure Cited (input citation : Json) : Prop where
  quoted : ∃ material first last quote,
    material ∈ listOf input "materials" ∧
    field (some material) "id" = field (some citation) "materialId" ∧
    field (field (some material) "sourceMaterial") "bundleId" =
      field (some input) "sourceBundleId" ∧
    field (field (some material) "sourceMaterial") "workspaceId" =
      field (some input) "workspaceId" ∧
    safeInteger (field (some citation) "startLine") = some (first : Nat) ∧
    safeInteger (field (some citation) "endLine") = some (last : Nat) ∧
    field (some citation) "quote" = some (.str quote) ∧ isBlank quote = false ∧
    1 ≤ first ∧ first ≤ last ∧ last ≤ (splitLines (materialText material)).length ∧
    quote.toList <:+: citedText (splitLines (materialText material)) first last

/-- The proposals of the input with this key. -/
def sameKey (key : Option Json) (items : List Json) : List Json :=
  items.filter fun item => strictEq (keyOf item) key

/-- No issue is listed, or none at all. -/
def NoIssues (item : Json) (key : String) : Prop := itemsOf (field (some item) key) = []

/-- What a proposal needs to be accepted. -/
structure Supported (input item : Json) : Prop where
  unique : (sameKey (keyOf item) (proposals input)).length = 1
  reviewed : ∃ review, sameKey (keyOf item) (listOf input "reviews") = [review] ∧
    field (some review) "support" = some (.str "SUPPORTED") ∧
    itemsOf (field (some review) "premises") ≠ [] ∧
    field (some review) "unresolvedConflicts" = some (.arr [])
  cites : evidenceOf item ≠ []
  cited : ∀ citation ∈ evidenceOf item, Cited input citation
  technical : ∃ refs, orEmpty item "technicalRefs" = .arr refs ∧
    ∀ ref ∈ refs, ref ∈ listOf input "allowedFactIds"
  identified : NoIssues item "identityIssues"
  consolidated : NoIssues item "consolidationIssues"

/-- The record of this proposal is accepted. -/
def accepted (record : Json) : Prop :=
  field (some record) "state" = some (.str "ANALYSIS_ACCEPTED")

/-- `[item.sourceKey, item.targetKey]`. -/
def endpointsOf (item : Json) : List (Option Json) :=
  [field (some item) "sourceKey", field (some item) "targetKey"]

/-- The record is that of the proposal. -/
structure RecordOf (item record : Json) : Prop where
  key : field (some record) "key" = keyOf item
  evidence : itemsOf (field (some record) "evidence") = evidenceOf item
  technicalRefs : field (some record) "technicalRefs" = some (orEmpty item "technicalRefs")

/-- Acceptance is bound to evidence: what the graph says of the proposals of its input. -/
structure EvidenceBound (sha256 : String → String) (input graph : Json) : Prop where
  candidates : List.Forall₂ (fun item record => accepted record →
    Supported input item ∧ RecordOf item record)
    (listOf input "candidates") (listOf graph "candidates")
  relations : List.Forall₂ (fun item record => accepted record →
    Supported input item ∧ RecordOf item record ∧
    ∀ key ∈ endpointsOf item,
      (isMaterial input key = true ∨ ∃ c ∈ listOf input "candidates", keyOf c = key) ∧
      ∀ pair ∈ (listOf input "candidates").zip (listOf graph "candidates"),
        keyOf pair.1 = key → accepted pair.2)
    (listOf input "relations") (listOf graph "relations")
  intact : intactBusinessGraph sha256 graph = true

/-- What acceptance takes, as the module checks it. -/
structure Acceptable (positiveText : String → Bool) (input : Json) (relation : Bool) (item : Json) :
    Prop where
  keyed : text 128 (keyOf item) = true
  unique : hasKey (repeatedKeys input) (keyOf item) = false
  located : text longText (field (some item) "scope") = true
  uncertain : strings (some (orEmpty item "uncertainties")) = true
  identified : lengthAboveZero positiveText (orEmpty item "identityIssues") = .ok false
  named : relation = false →
    kinds.any (fun kind => strictEq (field (some item) "kind") (some (.str kind))) = true ∧
      text 256 (field (some item) "name") = true ∧
      text longText (field (some item) "statement") = true
  joined : relation = true → connected input item = .ok true
  evidenced : evidenced input item = true
  consolidated : lengthAboveZero positiveText (orEmpty item "consolidationIssues") = .ok false
  alone : hasKey (duplicates input) (keyOf item) = false
  cites : evidenceOf item ≠ []
  supported : supported input item = true

/-! ## The first pass -/

section FirstPass

variable {positiveText : String → Bool} {input item : Json} {relation : Bool}

theorem wellStructured_iff {fits : Bool}
    (h : wellStructured positiveText input item relation = .ok fits) :
    fits = true ↔ text 128 (keyOf item) = true ∧
      hasKey (repeatedKeys input) (keyOf item) = false ∧
      text longText (field (some item) "scope") = true ∧
      strings (some (orEmpty item "uncertainties")) = true ∧
      lengthAboveZero positiveText (orEmpty item "identityIssues") = .ok false ∧
      (relation = false →
        kinds.any (fun kind => strictEq (field (some item) "kind") (some (.str kind))) = true ∧
          text 256 (field (some item) "name") = true ∧
          text longText (field (some item) "statement") = true) := by
  unfold wellStructured at h
  by_cases hguard : text 128 (keyOf item) = true ∧
      hasKey (repeatedKeys input) (keyOf item) = false ∧
      text longText (field (some item) "scope") = true ∧
      strings (some (orEmpty item "uncertainties")) = true
  · rw [if_pos hguard] at h
    obtain ⟨issues, hissues, h⟩ := bind_ok h
    obtain rfl := Except.ok.inj h
    obtain ⟨hkey, hunique, hscope, huncertain⟩ := hguard
    rw [hissues]
    cases issues <;> cases relation <;>
      simp [hkey, hunique, hscope, huncertain, and_assoc]
  · rw [if_neg hguard] at h
    obtain rfl := Except.ok.inj h
    refine ⟨fun hfalse => (by cases hfalse), fun hall => ?_⟩
    exact absurd ⟨hall.1, hall.2.1, hall.2.2.1, hall.2.2.2.1⟩ hguard

theorem reasonOf_iff {reason : Option String}
    (h : reasonOf positiveText input item relation = .ok reason) :
    reason = none ↔ wellStructured positiveText input item relation = .ok true ∧
      (relation = true → connected input item = .ok true) ∧ evidenced input item = true := by
  unfold reasonOf at h
  obtain ⟨fits, hfits, h⟩ := bind_ok h
  rw [hfits]
  cases fits with
  | false =>
    obtain rfl := Except.ok.inj h
    simp
  | true =>
    obtain ⟨joined, hjoined, h⟩ := bind_ok h
    have hrelation : joined = true ↔ (relation = true → connected input item = .ok true) := by
      unfold joins at hjoined
      cases relation with
      | false =>
        obtain rfl := Except.ok.inj hjoined
        simp
      | true =>
        rw [if_pos rfl] at hjoined
        simp [hjoined]
    cases joined with
    | false =>
      obtain rfl := Except.ok.inj h
      simp [← hrelation]
    | true =>
      rw [← hrelation]
      by_cases hevidenced : evidenced input item = false
      · rw [if_neg (by decide), if_pos hevidenced] at h
        obtain rfl := Except.ok.inj h
        simp [hevidenced]
      · rw [if_neg (by decide), if_neg hevidenced] at h
        obtain rfl := Except.ok.inj h
        simpa using hevidenced

theorem hasItems_of_supported (h : supported input item = true) :
    hasItems (field (reviewOf input (keyOf item)) "unresolvedConflicts") = false ∧
      supportOf input item = some (.str "SUPPORTED") := by
  unfold supported at h
  simp only [Bool.and_eq_true, decide_eq_true_eq] at h
  obtain ⟨⟨⟨⟨hsupport, -⟩, -⟩, -⟩, hconflicts⟩ := h
  rw [hconflicts]
  exact ⟨rfl, (strictEq_str _ _).mp hsupport⟩

theorem premises_of_supported (h : supported input item = true) :
    hasItems (field (reviewOf input (keyOf item)) "premises") = true ∧
      field (reviewOf input (keyOf item)) "unresolvedConflicts" = some (.arr []) := by
  unfold supported at h
  simp only [Bool.and_eq_true, decide_eq_true_eq] at h
  exact ⟨h.1.2, h.2⟩

theorem stateOf_iff {state : State} (h : stateOf positiveText input item none = .ok state) :
    state = .ANALYSIS_ACCEPTED ↔
      lengthAboveZero positiveText (orEmpty item "consolidationIssues") = .ok false ∧
      hasKey (duplicates input) (keyOf item) = false ∧ evidenceOf item ≠ [] ∧
      supported input item = true := by
  unfold stateOf at h
  obtain ⟨issues, hissues, h⟩ := bind_ok h
  rw [hissues]
  by_cases hsupported : supported input item = true
  · obtain ⟨hconflicts, hsupport⟩ := hasItems_of_supported hsupported
    have hambiguous : ¬ strictEq (supportOf input item) (some (.str "AMBIGUOUS")) = true := by
      rw [hsupport]
      decide
    have hinsufficient : ¬ strictEq (supportOf input item) (some (.str "INSUFFICIENT")) = true := by
      rw [hsupport]
      decide
    by_cases hreview : issues = true ∨ hasKey (duplicates input) (keyOf item) = true
    · rw [if_pos (by tauto)] at h
      obtain rfl := Except.ok.inj h
      refine ⟨fun haccepted => (by cases haccepted), fun hall => ?_⟩
      obtain rfl | hkey := hreview
      · cases hall.1
      · rw [hall.2.1] at hkey
        cases hkey
    · obtain ⟨hfalse, hkey⟩ := not_or.mp hreview
      rw [if_neg (by simp [hfalse, hkey, hconflicts, hambiguous])] at h
      by_cases hevidence : evidenceOf item = []
      · rw [if_pos (Or.inl (by rw [hevidence]; rfl))] at h
        obtain rfl := Except.ok.inj h
        exact ⟨fun haccepted => (by cases haccepted), fun hall => absurd hevidence hall.2.2.1⟩
      · rw [if_neg (by simp [hevidence, hinsufficient]), if_pos hsupported] at h
        obtain rfl := Except.ok.inj h
        simp only [Bool.not_eq_true] at hfalse hkey
        simp [hfalse, hkey, hevidence, hsupported]
  · rw [if_neg hsupported] at h
    refine ⟨fun haccepted => ?_, fun hall => absurd hall.2.2.2 hsupported⟩
    subst haccepted
    split_ifs at h <;> cases h

/-- A proposal is accepted in the first pass exactly when it is acceptable. -/
theorem first_pass {reason : Option String} {state : State}
    (hreason : reasonOf positiveText input item relation = .ok reason)
    (hstate : stateOf positiveText input item reason = .ok state) :
    state = .ANALYSIS_ACCEPTED ↔ Acceptable positiveText input relation item := by
  have hnone := reasonOf_iff hreason
  cases reason with
  | some reason =>
    obtain rfl := Except.ok.inj hstate
    refine ⟨fun haccepted => (by cases haccepted), fun hall => ?_⟩
    obtain ⟨fits, hfits, -⟩ := bind_ok hreason
    have hstructured := (wellStructured_iff hfits).mpr ⟨hall.keyed, hall.unique, hall.located,
      hall.uncertain, hall.identified, hall.named⟩
    rw [hstructured] at hfits
    cases hnone.mpr ⟨hfits, hall.joined, hall.evidenced⟩
  | none =>
    obtain ⟨hfits, hjoined, hevidenced⟩ := hnone.mp rfl
    obtain ⟨hkeyed, hunique, hscoped, huncertain, hidentified, hnamed⟩ :=
      (wellStructured_iff hfits).mp rfl
    rw [stateOf_iff hstate]
    refine ⟨fun hall => ⟨hkeyed, hunique, hscoped, huncertain, hidentified, hnamed, hjoined,
      hevidenced, hall.1, hall.2.1, hall.2.2.1, hall.2.2.2⟩, fun hall => ?_⟩
    exact ⟨hall.consolidated, hall.alone, hall.cites, hall.supported⟩

end FirstPass

/-! ## Keys -/

variable {items quarantine : List Json}

section Keys

variable {input item : Json}

theorem lastEntry_some {ν : Type} {entries : List (Option Json × ν)} {key : Option Json} {v : ν}
    (h : lastEntry entries key = some v) : (key, v) ∈ entries := by
  obtain ⟨e, he, rfl⟩ := Option.map_eq_some_iff.mp h
  have hkey : e.1 = key := eq_of_strictEq
    (List.find?_some (p := fun e : Option Json × ν => strictEq e.1 key) he)
  rw [← hkey]
  exact List.mem_reverse.mp (List.mem_of_find?_eq_some he)

/-- A text that is no repeated key stands at most once among the keys, the seen ones counted. -/
theorem count_of_not_repeated {s : String} {keys : List (Option Json)} :
    ∀ {seen : List (Option Json)}, hasKey (repeatedAfter seen keys) (some (.str s)) = false →
      keys.countP (strictEq · (some (.str s))) +
        (if hasKey seen (some (.str s)) = true then 1 else 0) ≤ 1 := by
  induction keys with
  | nil =>
    intro seen _
    rw [List.countP_nil, Nat.zero_add]
    split_ifs <;> omega
  | cons key rest ih =>
    intro seen h
    have hrest : hasKey (repeatedAfter (key :: seen) rest) (some (.str s)) = false := by
      unfold repeatedAfter at h
      by_cases hseen : seen.any (strictEq · key) = true
      · rw [if_pos hseen] at h
        exact (Bool.or_eq_false_iff.mp h).2
      · rw [if_neg hseen] at h
        exact h
    have hcount := ih hrest
    by_cases hkey : strictEq key (some (.str s)) = true
    · obtain rfl := (strictEq_str key s).mp hkey
      have hseen : hasKey seen (some (.str s)) = false := by
        by_contra hseen
        rw [Bool.not_eq_false] at hseen
        unfold repeatedAfter at h
        rw [if_pos (show seen.any (strictEq · (some (.str s))) = true from hseen)] at h
        have hnot : strictEq (some (.str s)) (some (.str s)) = false := (Bool.or_eq_false_iff.mp h).1
        rw [hnot] at hkey
        cases hkey
      have hnow : hasKey (some (.str s) :: seen) (some (.str s)) = true :=
        Bool.or_eq_true_iff.mpr (Or.inl hkey)
      rw [if_pos hnow] at hcount
      rw [List.countP_cons_of_pos (p := (strictEq · (some (.str s)))) hkey, hseen, if_neg (by decide)]
      omega
    · have hsame : hasKey (key :: seen) (some (.str s)) = hasKey seen (some (.str s)) := by
        rw [Bool.not_eq_true] at hkey
        show (strictEq key (some (.str s)) || hasKey seen (some (.str s))) = _
        rw [hkey, Bool.false_or]
      rw [hsame] at hcount
      rw [List.countP_cons_of_neg (p := (strictEq · (some (.str s)))) hkey]
      exact hcount

theorem length_sameKey (key : Option Json) (items : List Json) :
    (sameKey key items).length = (items.map keyOf).countP (strictEq · key) := by
  unfold sameKey
  rw [List.countP_map, List.countP_eq_length_filter]
  rfl

theorem text_some {max : Nat} {v : Option Json} (h : text max v = true) :
    ∃ s, v = some (.str s) ∧ isBlank s = false := by
  unfold text at h
  split at h
  · rename_i s
    exact ⟨s, rfl, by simpa using (Bool.and_eq_true_iff.mp h).1⟩
  · cases h

/-- The items of a key that is not repeated: the one that is known. -/
theorem sameKey_eq_singleton {key : Option Json} (htext : text 128 key = true)
    (hunique : hasKey (repeatedAfter [] (items.map keyOf)) key = false) (hitem : item ∈ items)
    (hkey : keyOf item = key) : sameKey key items = [item] := by
  obtain ⟨s, rfl, -⟩ := text_some htext
  have hmem : item ∈ sameKey (some (.str s)) items :=
    List.mem_filter.mpr ⟨hitem, (strictEq_str _ _).mpr hkey⟩
  have hcount := count_of_not_repeated hunique
  have hlength : (sameKey (some (.str s)) items).length ≤ 1 := by
    rw [length_sameKey]
    exact Nat.le_of_add_right_le hcount
  obtain ⟨only, honly⟩ := List.length_eq_one_iff.mp
    (Nat.le_antisymm hlength (List.length_pos_of_mem hmem))
  rw [honly] at hmem ⊢
  rw [List.mem_singleton.mp hmem]

end Keys

/-! ## What is accepted -/

section Accepted

variable {positiveText : String → Bool} {input item : Json} {relation : Bool}

theorem safeInteger_nat {v : Option Json} {i : Int} (h : safeInteger v = some i) (hpos : 1 ≤ i) :
    safeInteger v = some ((i.toNat : Nat) : Int) := by
  rw [h, Int.toNat_of_nonneg (by omega)]

theorem cited_of_valid {citation : Json} (h : validCitation input citation = true) :
    Cited input citation := by
  unfold validCitation at h
  split at h
  · cases h
  rename_i material hmaterial
  dsimp only at h
  by_cases hsource : strictEq (field (field (some material) "sourceMaterial") "bundleId")
        (field (some input) "sourceBundleId") = true ∧
      strictEq (field (field (some material) "sourceMaterial") "workspaceId")
        (field (some input) "workspaceId") = true
  · rw [if_pos hsource] at h
    obtain ⟨m, hm, hpair⟩ := List.mem_map.mp (lastEntry_some hmaterial)
    obtain ⟨hid, rfl⟩ := Prod.mk.inj hpair
    cases hfirst : safeInteger (field (some citation) "startLine") with
    | none =>
      rw [hfirst] at h
      cases h
    | some first =>
      cases hlast : safeInteger (field (some citation) "endLine") with
      | none =>
        rw [hfirst, hlast] at h
        cases h
      | some last =>
        rw [hfirst, hlast] at h
        obtain ⟨quote, hquote⟩ : ∃ quote, field (some citation) "quote" = some (.str quote) := by
          cases hfield : field (some citation) "quote" with
          | none =>
            rw [hfield] at h
            cases h
          | some v =>
            cases v with
            | str quote => exact ⟨quote, rfl⟩
            | _ =>
              rw [hfield] at h
              cases h
        rw [hquote] at h
        simp only [Bool.and_eq_true, decide_eq_true_eq] at h
        obtain ⟨⟨⟨⟨hone, hle⟩, htext⟩, hlines⟩, hinfix⟩ := h
        obtain ⟨quoted, hsome, hblank⟩ := text_some htext
        obtain rfl := Json.str.inj (Option.some.inj hsome)
        exact ⟨m, first.toNat, last.toNat, quote, hm, hid, eq_of_strictEq hsource.1,
          eq_of_strictEq hsource.2, safeInteger_nat hfirst hone, safeInteger_nat hlast (by omega),
          hquote, hblank, by omega, by omega, by omega, hinfix⟩
  · rw [if_neg hsource] at h
    cases h

theorem noIssues_of {key : String}
    (h : lengthAboveZero positiveText (orEmpty item key) = .ok false) : NoIssues item key := by
  unfold NoIssues
  cases hfield : field (some item) key with
  | none => rfl
  | some v =>
    cases v with
    | arr items =>
      unfold orEmpty at h
      rw [hfield] at h
      cases items with
      | nil => rfl
      | cons v rest => cases Except.ok.inj h
    | _ => rfl

theorem technical_of_evidenced (h : evidenced input item = true) :
    (∀ citation ∈ evidenceOf item, Cited input citation) ∧
      ∃ refs, orEmpty item "technicalRefs" = .arr refs ∧
        ∀ ref ∈ refs, ref ∈ listOf input "allowedFactIds" := by
  unfold evidenced at h
  simp only [Bool.and_eq_true, List.all_eq_true] at h
  obtain ⟨⟨-, hcitations⟩, hrefs⟩ := h
  refine ⟨fun citation hc => cited_of_valid (hcitations citation hc), ?_⟩
  cases horEmpty : orEmpty item "technicalRefs" with
  | arr refs =>
    rw [horEmpty] at hrefs
    simp only [Bool.and_eq_true, List.all_eq_true] at hrefs
    refine ⟨refs, rfl, fun ref href => ?_⟩
    obtain ⟨key, hkey, hsame⟩ := List.any_eq_true.mp (hrefs.2 ref href)
    obtain ⟨fact, hfact, rfl⟩ := List.mem_map.mp hkey
    obtain rfl := Option.some.inj (eq_of_strictEq hsame)
    exact hfact
  | _ =>
    rw [horEmpty] at hrefs
    cases hrefs

/-- What is acceptable is supported. -/
theorem Acceptable.supports (h : Acceptable positiveText input relation item)
    (hitem : item ∈ proposals input) : Supported input item := by
  obtain ⟨hcited, htechnical⟩ := technical_of_evidenced h.evidenced
  obtain ⟨-, hsupport⟩ := hasItems_of_supported h.supported
  obtain ⟨hpremises, hconflicts⟩ := premises_of_supported h.supported
  unfold supportOf at hsupport
  obtain ⟨review, hreview⟩ : ∃ review, reviewOf input (keyOf item) = some review := by
    cases hreview : reviewOf input (keyOf item) with
    | none =>
      rw [hreview] at hsupport
      cases hsupport
    | some review => exact ⟨review, rfl⟩
  rw [hreview] at hsupport hpremises hconflicts
  obtain ⟨found, hfound, hpair⟩ := List.mem_map.mp (lastEntry_some hreview)
  obtain ⟨hkey, rfl⟩ := Prod.mk.inj hpair
  refine ⟨?_, ⟨found, ?_, hsupport, ?_, hconflicts⟩, h.cites, hcited, htechnical,
    noIssues_of h.identified, noIssues_of h.consolidated⟩
  · rw [sameKey_eq_singleton h.keyed h.unique hitem rfl]
    rfl
  · exact sameKey_eq_singleton h.keyed h.alone hfound hkey
  · intro hnone
    unfold hasItems at hpremises
    split at hpremises
    · rename_i hsome
      rw [hsome] at hnone
      cases hnone
    · cases hpremises

end Accepted

/-! ## The second pass -/

section SecondPass

variable (positiveText : String → Bool) (input : Json)

/-- A candidate that the first pass quarantines. -/
def isQuarantined (item : Json) : Bool :=
  match reasonOf positiveText input item false with
  | .ok (some _) => true
  | _ => false

/-- The candidates under the keys of their records, when so many are quarantined before them. -/
def namedFrom (quarantined : Nat) : List Json → List (Option Json × Json)
  | [] => []
  | item :: rest => (some (.str (nameOf quarantined item)), item) ::
      namedFrom (quarantined + if isQuarantined positiveText input item = true then 1 else 0) rest

/-- The last candidate whose record has this key is not acceptable. -/
def Blocked (key : Option Json) : Prop :=
  ∃ c, lastEntry (namedFrom positiveText input 0 (listOf input "candidates"))
    (some (nullish key .null)) = some c ∧ ¬ Acceptable positiveText input false c

/-- No acceptable relation with endpoints that are not blocked has an endpoint that a candidate has
for a malformed key. -/
def EndpointsNamed : Prop :=
  ∀ r ∈ listOf input "relations", Acceptable positiveText input true r →
    (∀ key ∈ endpointsOf r, ¬ Blocked positiveText input key) →
    ∀ key ∈ endpointsOf r, ∀ c ∈ listOf input "candidates", keyOf c = key → text 128 key = true

end SecondPass

variable {n : Node} {candidates : List Node}

variable {c item : Json} {relation : Bool}

section Passes

variable {sha256 : String → String} {positiveText : String → Bool} {input : Json}

/-- The record of a proposal, which is accepted exactly when the proposal is acceptable. -/
def Assessed (positiveText : String → Bool) (input : Json) (relation : Bool) (item : Json)
    (n : Node) : Prop :=
  ∃ quarantined state, n.record = recordOf input relation quarantined item state ∧
    (state = .ANALYSIS_ACCEPTED ↔ Acceptable positiveText input relation item)

theorem assess_ok {after : List Json}
    (h : assess sha256 positiveText input relation quarantine item = .ok (n, after)) :
    Assessed positiveText input relation item n ∧ n.record.key = nameOf quarantine.length item ∧
      (relation = false → after.length = quarantine.length +
        if isQuarantined positiveText input item = true then 1 else 0) := by
  unfold assess at h
  split at h
  · cases h
  rename_i hnull
  obtain ⟨reason, hreason, h⟩ := bind_ok h
  obtain ⟨state, hstate, h⟩ := bind_ok h
  obtain ⟨hnode, hafter⟩ := Prod.mk.inj (Except.ok.inj h)
  subst hnode
  refine ⟨⟨_, state, rfl, first_pass hreason hstate⟩, rfl, ?_⟩
  rintro rfl
  rw [← hafter]
  unfold isQuarantined
  rw [hreason]
  cases reason with
  | none => rfl
  | some reason => exact List.length_append

theorem assessAll_ok : ∀ {quarantine after : List Json} {nodes : List Node},
      assessAll sha256 positiveText input relation quarantine items = .ok (nodes, after) →
      List.Forall₂ (Assessed positiveText input relation) items nodes ∧
        (relation = false → List.Forall₂ (fun e n => e.1 = some (.str n.record.key) ∧
            Assessed positiveText input false e.2 n)
          (namedFrom positiveText input quarantine.length items) nodes) := by
  induction items with
  | nil =>
    intro quarantine after nodes h
    obtain ⟨rfl, -⟩ := Prod.mk.inj (Except.ok.inj h)
    exact ⟨.nil, fun _ => .nil⟩
  | cons item rest ih =>
    intro quarantine after nodes h
    obtain ⟨⟨n, next⟩, hassess, h⟩ := bind_ok h
    obtain ⟨⟨found, last⟩, hrest, h⟩ := bind_ok h
    obtain ⟨rfl, -⟩ := Prod.mk.inj (Except.ok.inj h)
    obtain ⟨hnode, hname, hlength⟩ := assess_ok hassess
    obtain ⟨hnodes, hnamed⟩ := ih hrest
    refine ⟨.cons hnode hnodes, ?_⟩
    rintro rfl
    rw [hlength rfl] at hnamed
    exact .cons ⟨by rw [hname], hnode⟩ (hnamed rfl)

/-- The last entries of lists that correspond. -/
theorem lastEntry_rel {α β : Type} {R : α → β → Prop} {es : List (Option Json × α)}
    {fs : List (Option Json × β)} (h : List.Forall₂ (fun e f => e.1 = f.1 ∧ R e.2 f.2) es fs)
    (key : Option Json) : Option.Rel R (lastEntry es key) (lastEntry fs key) := by
  unfold lastEntry
  have hreversed := List.rel_reverse h
  generalize es.reverse = es at hreversed
  generalize fs.reverse = fs at hreversed
  induction hreversed with
  | nil => exact .none
  | @cons e f es fs hef _ ih =>
    rw [List.find?_cons, List.find?_cons, ← hef.1]
    cases strictEq e.1 key with
    | true => exact .some hef.2
    | false => exact ih

theorem Assessed.accepted_iff (h : Assessed positiveText input relation item n) :
    n.record.state = .ANALYSIS_ACCEPTED ↔ Acceptable positiveText input relation item := by
  obtain ⟨quarantined, state, hrecord, hstate⟩ := h
  rw [hrecord]
  exact hstate

/-- A relation has an open endpoint exactly when one of its endpoints is blocked. -/
theorem hasOpenEndpoint_iff {r : Json}
    (hcandidates : assessAll sha256 positiveText input false [] (listOf input "candidates") =
      .ok (candidates, quarantine))
    (hn : Assessed positiveText input true r n) :
    hasOpenEndpoint candidates n.record = true ↔
      ∃ key ∈ endpointsOf r, Blocked positiveText input key := by
  obtain ⟨quarantined, state, hrecord, -⟩ := hn
  have hendpoints : n.record.shape.endpoints = (endpointsOf r).map fun key => nullish key .null := by
    rw [hrecord]
    rfl
  have hblocked : ∀ key, (nodeOf candidates (nullish key .null)).any
      (fun c => decide (c.record.state ≠ .ANALYSIS_ACCEPTED)) = true ↔
        Blocked positiveText input key := by
    intro key
    have hnamed := (assessAll_ok hcandidates).2 rfl
    have hpairs : List.Forall₂ (fun e f => e.1 = f.1 ∧ Assessed positiveText input false e.2 f.2)
        (namedFrom positiveText input 0 (listOf input "candidates"))
        (candidates.map fun c => ((some (.str c.record.key) : Option Json), c)) :=
      List.forall₂_map_right_iff.mpr hnamed
    have hrel := lastEntry_rel hpairs (some (nullish key .null))
    unfold nodeOf Blocked
    generalize lastEntry (namedFrom positiveText input 0 (listOf input "candidates"))
      (some (nullish key .null)) = found at hrel ⊢
    generalize lastEntry (candidates.map fun c => ((some (.str c.record.key) : Option Json), c))
      (some (nullish key .null)) = node at hrel ⊢
    cases hrel with
    | none => simp
    | some hassessed => simp [hassessed.accepted_iff]
  unfold hasOpenEndpoint
  rw [hendpoints, List.any_map, List.any_eq_true]
  constructor
  · rintro ⟨key, hkey, hany⟩
    exact ⟨key, hkey, (hblocked key).mp hany⟩
  · rintro ⟨key, hkey, hany⟩
    exact ⟨key, hkey, (hblocked key).mpr hany⟩

theorem settleRelation_accepted :
    (settleRelation sha256 candidates n).record.state = .ANALYSIS_ACCEPTED ↔
      n.record.state = .ANALYSIS_ACCEPTED ∧ hasOpenEndpoint candidates n.record = false := by
  unfold settleRelation
  by_cases h : n.record.state = .ANALYSIS_ACCEPTED ∧ hasOpenEndpoint candidates n.record = true
  · rw [if_pos h]
    simp [h.2]
  · rw [if_neg h]
    refine ⟨fun hstate => ⟨hstate, ?_⟩, fun hboth => hboth.1⟩
    rw [← Bool.not_eq_true]
    exact fun hopen => h ⟨hstate, hopen⟩

theorem settleRelation_of_accepted
    (h : (settleRelation sha256 candidates n).record.state = .ANALYSIS_ACCEPTED) :
    settleRelation sha256 candidates n = n := by
  have hopen := (settleRelation_accepted.mp h).2
  unfold settleRelation
  rw [if_neg fun hboth => ?_]
  rw [hopen] at hboth
  cases hboth.2

end Passes

/-! ## The returned graph -/

section Returned

variable {sha256 : String → String} {positiveText : String → Bool} {input graph : Json}

/-- The passes that a returned graph comes from. -/
theorem build_ok (h : buildBusinessGraph sha256 positiveText input = .ok graph) :
    ∃ candidates assessed quarantine after process coverage,
      assessAll sha256 positiveText input false [] (listOf input "candidates") =
        .ok (candidates, quarantine) ∧
      assessAll sha256 positiveText input true quarantine (listOf input "relations") =
        .ok (assessed, after) ∧
      let fields := graphFields input process candidates
        (assessed.map (settleRelation sha256 candidates)) coverage after
      graph = .obj (fields ++ [("id", .str ("F003-GRAPH-" ++ hashOf sha256 (.obj fields))),
        ("digest", .str (hashOf sha256 (.obj fields)))]) := by
  obtain ⟨-, -, h⟩ := bind_ok h
  obtain ⟨⟨candidates, quarantine⟩, hcandidates, h⟩ := bind_ok h
  obtain ⟨⟨assessed, after⟩, hrelations, h⟩ := bind_ok h
  obtain ⟨process, -, h⟩ := bind_ok h
  obtain ⟨children, -, h⟩ := bind_ok h
  obtain ⟨pending, -, h⟩ := bind_ok h
  obtain ⟨coverage, -, h⟩ := bind_ok h
  exact ⟨candidates, assessed, quarantine, after, process, coverage, hcandidates, hrelations,
    (Except.ok.inj h).symm⟩

theorem whenGiven_keys {key name : String} {v : Json} (h : (name, v) ∈ whenGiven input key) :
    name = key := by
  unfold whenGiven at h
  split_ifs at h
  · exact (Prod.mk.inj (List.mem_singleton.mp h)).1
  · cases h

/-- The fields of a graph are not those that are added to it. -/
theorem graphFields_keys {process : List Json} {relations : List Node}
    {coverage : List Json} :
    ∀ e ∈ graphFields input process candidates relations coverage quarantine,
      e.1 ≠ "id" ∧ e.1 ≠ "digest" := by
  rintro ⟨name, v⟩ h
  show name ≠ "id" ∧ name ≠ "digest"
  unfold graphFields at h
  obtain h | h := List.mem_append.mp h
  · obtain h | h := List.mem_append.mp h
    · simp only [List.mem_cons, Prod.mk.injEq, List.not_mem_nil, or_false] at h
      rcases h with h | h | h | h | h | h | h | h | h | h | h | h | h | h <;> rw [h.1] <;> decide
    · rw [whenGiven_keys h]
      decide
  · rw [whenGiven_keys h]
    decide

theorem intact_of_fields (hhex : ∀ t, isDigest (sha256 t) = true) {fields : List (String × Json)}
    (hkeys : ∀ e ∈ fields, e.1 ≠ "id" ∧ e.1 ≠ "digest") :
    intactBusinessGraph sha256 (.obj (fields ++
      [("id", .str ("F003-GRAPH-" ++ hashOf sha256 (.obj fields))),
        ("digest", .str (hashOf sha256 (.obj fields)))])) = true := by
  have hnone : ∀ key, (∀ e ∈ fields, e.1 ≠ key) → fields.lookup key = none := by
    intro key hkey
    rw [List.lookup_eq_none_iff]
    intro e he
    simpa using Ne.symm (hkey e he)
  have hid := hnone "id" fun e he => (hkeys e he).1
  have hdigest := hnone "digest" fun e he => (hkeys e he).2
  have hbody : fields.filter (fun e => e.1 ≠ "id" ∧ e.1 ≠ "digest") = fields :=
    List.filter_eq_self.mpr fun e he => decide_eq_true (hkeys e he)
  unfold intactBusinessGraph
  dsimp only
  rw [List.lookup_append, hdigest, List.lookup_append, hid, List.filter_append, hbody]
  have hlast : ([("id", Json.str ("F003-GRAPH-" ++ hashOf sha256 (.obj fields))),
      ("digest", Json.str (hashOf sha256 (.obj fields)))].filter
        fun e => e.1 ≠ "id" ∧ e.1 ≠ "digest") = [] := by
    simp
  rw [hlast, List.append_nil]
  simp [List.lookup, strictEq, hhex, hashOf]

theorem accepted_iff : accepted n.json ↔ n.record.state = .ANALYSIS_ACCEPTED := by
  have hfield : field (some n.json) "state" = some (.str n.record.state.text) := by
    obtain ⟨⟨key, shape, scope, evidence, technicalRefs, originRefs, provenance, dependencyScope,
      reuse, identityIssues, consolidationIssues, uncertainties, state, verification⟩, id⟩ := n
    cases shape <;> rfl
  unfold accepted
  rw [hfield]
  cases n.record.state <;> decide

theorem recordOf_json {quarantined : Nat} {state : State}
    {id : String} (hkey : text 128 (keyOf item) = true) :
    RecordOf item (Node.json
      { record := recordOf input relation quarantined item state, id }) := by
  obtain ⟨s, hs, -⟩ := text_some hkey
  have hname : nameOf quarantined item = s := by
    unfold nameOf
    rw [if_pos hkey, hs]
    rfl
  refine ⟨?_, ?_, ?_⟩
  · rw [hs, ← hname]
    cases relation <;> rfl
  · cases relation <;> rfl
  · cases relation <;> rfl

theorem Assessed.recordOf (h : Assessed positiveText input relation item n)
    (haccept : Acceptable positiveText input relation item) : RecordOf item n.json := by
  obtain ⟨quarantined, state, hrecord, -⟩ := h
  obtain ⟨record, id⟩ := n
  dsimp only at hrecord
  rw [hrecord]
  exact recordOf_json haccept.keyed

theorem isEndpoint_of_connected (h : connected input item = .ok true) :
    ∀ key ∈ endpointsOf item, isMaterial input key = true ∨
      ∃ c ∈ listOf input "candidates", keyOf c = key := by
  unfold connected at h
  by_cases hguard : isEndpoint input (field (some item) "sourceKey") = true ∧
      isEndpoint input (field (some item) "targetKey") = true
  · have hsides : ∀ key ∈ endpointsOf item, isEndpoint input key = true := by
      intro key hkey
      simp only [endpointsOf, List.mem_cons, List.not_mem_nil, or_false] at hkey
      obtain rfl | rfl := hkey
      · exact hguard.1
      · exact hguard.2
    intro key hkey
    obtain hcandidate | hmaterial := Bool.or_eq_true_iff.mp (hsides key hkey)
    · obtain ⟨other, hother, hsame⟩ := List.any_eq_true.mp hcandidate
      obtain ⟨c, hc, rfl⟩ := List.mem_map.mp hother
      exact Or.inr ⟨c, hc, eq_of_strictEq hsame⟩
    · exact Or.inl hmaterial
  · rw [if_neg hguard] at h
    cases Except.ok.inj h

/-- A named candidate is one of the candidates. -/
theorem namedFrom_mem {quarantined : Nat} {e : Option Json × Json}
    (h : e ∈ namedFrom positiveText input quarantined items) :
    e.2 ∈ items ∧ ∃ n, e.1 = some (.str (nameOf n e.2)) := by
  induction items generalizing quarantined with
  | nil => cases h
  | cons item rest ih =>
    obtain rfl | h := List.mem_cons.mp h
    · exact ⟨List.mem_cons_self, quarantined, rfl⟩
    · obtain ⟨hmem, hname⟩ := ih h
      exact ⟨List.mem_cons_of_mem _ hmem, hname⟩

theorem named_of_mem (positiveText : String → Bool) (input : Json) (quarantined : Nat)
    (h : c ∈ items) :
    ∃ n, (some (.str (nameOf n c)), c) ∈ namedFrom positiveText input quarantined items := by
  induction items generalizing quarantined with
  | nil => cases h
  | cons item rest ih =>
    obtain rfl | h := List.mem_cons.mp h
    · exact ⟨quarantined, List.mem_cons_self⟩
    · obtain ⟨n, hmem⟩ := ih _ h
      exact ⟨n, List.mem_cons_of_mem _ hmem⟩

theorem nameOf_text {n : Nat} {s : String} (hkey : keyOf c = some (.str s))
    (htext : text 128 (some (.str s)) = true) : nameOf n c = s := by
  unfold nameOf
  rw [hkey, if_pos htext]
  rfl

/-- A candidate whose well-formed key is not blocked is acceptable. -/
theorem acceptable_of_not_blocked (hc : c ∈ listOf input "candidates")
    (htext : text 128 (keyOf c) = true) (hopen : ¬ Blocked positiveText input (keyOf c)) :
    Acceptable positiveText input false c := by
  obtain ⟨s, hs, -⟩ := text_some htext
  obtain ⟨n, hmem⟩ := named_of_mem positiveText input 0 hc
  rw [nameOf_text hs (hs ▸ htext)] at hmem
  cases hlast : lastEntry (namedFrom positiveText input 0 (listOf input "candidates"))
      (some (.str s)) with
  | none =>
    have hnone := List.find?_eq_none.mp (Option.map_eq_none_iff.mp hlast) _
      (List.mem_reverse.mpr hmem)
    exact absurd ((strictEq_str _ _).mpr rfl) hnone
  | some last =>
    have haccept : Acceptable positiveText input false last := by
      by_contra hnot
      refine hopen ⟨last, ?_, hnot⟩
      rw [hs]
      exact hlast
    obtain ⟨hlastMem, m, hname⟩ := namedFrom_mem (lastEntry_some hlast)
    obtain ⟨t, ht, -⟩ := text_some haccept.keyed
    have hsame : keyOf last = keyOf c := by
      have hst := Json.str.inj (Option.some.inj hname)
      rw [nameOf_text ht (ht ▸ haccept.keyed)] at hst
      rw [ht, hs, hst]
    have honly := sameKey_eq_singleton haccept.keyed haccept.unique
      (List.mem_append_left _ hlastMem) rfl
    have hcmem : c ∈ sameKey (keyOf last) (proposals input) := by
      refine List.mem_filter.mpr ⟨List.mem_append_left _ hc, ?_⟩
      rw [hsame, hs]
      exact (strictEq_str _ _).mpr rfl
    rw [honly] at hcmem
    rw [List.mem_singleton.mp hcmem]
    exact haccept

/-- Two relations of the same items hold together. -/
theorem forall₂_both {α β : Type} {R S : α → β → Prop} {xs : List α} {ys : List β}
    (hr : List.Forall₂ R xs ys) (hs : List.Forall₂ S xs ys) :
    List.Forall₂ (fun x y => R x y ∧ S x y) xs ys :=
  List.forall₂_iff_zip.mpr ⟨hr.length_eq, fun hmem => ⟨List.forall₂_zip hr hmem,
    List.forall₂_zip hs hmem⟩⟩

/-- Acceptance is bound to evidence in a returned graph exactly when no relation that is otherwise
accepted has an endpoint that a candidate has for a malformed key. -/
theorem evidence_bound_iff (sha256 : String → String) (hhex : ∀ t, isDigest (sha256 t) = true)
    (positiveText : String → Bool) (input graph : Json)
    (h : buildBusinessGraph sha256 positiveText input = .ok graph) :
    EvidenceBound sha256 input graph ↔ EndpointsNamed positiveText input := by
  obtain ⟨candidates, assessed, quarantine, after, process, coverage, hcandidates, hrelations,
    hgraph⟩ := build_ok h
  have hfirst : List.Forall₂ (Assessed positiveText input false) (listOf input "candidates")
      candidates := (assessAll_ok hcandidates).1
  have hsecond : List.Forall₂ (Assessed positiveText input true) (listOf input "relations")
      assessed := (assessAll_ok hrelations).1
  have hlistC : listOf graph "candidates" = candidates.map Node.json := by
    rw [hgraph]
    rfl
  have hlistR : listOf graph "relations" =
      (assessed.map (settleRelation sha256 candidates)).map Node.json := by
    rw [hgraph]
    rfl
  -- a relation ends accepted when it is acceptable and no endpoint of it is blocked
  have hsettled : ∀ {r n}, Assessed positiveText input true r n →
      (accepted (settleRelation sha256 candidates n).json ↔
        Acceptable positiveText input true r ∧
          ∀ key ∈ endpointsOf r, ¬ Blocked positiveText input key) := by
    intro r n hn
    rw [accepted_iff, settleRelation_accepted, hn.accepted_iff, ← Bool.not_eq_true,
      hasOpenEndpoint_iff hcandidates hn]
    simp
  have hpairs : List.Forall₂ (fun c record => accepted record ↔
      Acceptable positiveText input false c) (listOf input "candidates")
      (listOf graph "candidates") := by
    rw [hlistC]
    exact List.forall₂_map_right_iff.mpr
      (hfirst.imp fun _ _ hn => accepted_iff.trans hn.accepted_iff)
  constructor
  · intro hbound r hr haccept hopen key hkey c hc hsame
    have hrecords := hbound.relations
    rw [hlistR, List.map_map] at hrecords
    obtain ⟨n, -, hn, hrecord⟩ := exists_of_mem
      (forall₂_both hsecond (List.forall₂_map_right_iff.mp hrecords)) hr
    obtain ⟨-, -, hends⟩ := hrecord ((hsettled hn).mpr ⟨haccept, hopen⟩)
    obtain ⟨record, -, hzip, hiff⟩ := exists_of_mem
      (List.forall₂_iff_zip.mpr ⟨hpairs.length_eq, fun hmem => ⟨hmem, List.forall₂_zip hpairs hmem⟩⟩ :
        List.Forall₂ (fun c record => (c, record) ∈ (listOf input "candidates").zip
          (listOf graph "candidates") ∧ (accepted record ↔ Acceptable positiveText input false c))
          (listOf input "candidates") (listOf graph "candidates")) hc
    have hc := hiff.mp ((hends key hkey).2 (c, record) hzip hsame)
    rw [← hsame]
    exact hc.keyed
  · intro hnamed
    refine ⟨?_, ?_, ?_⟩
    · rw [hlistC]
      refine List.forall₂_map_right_iff.mpr (List.forall₂_iff_zip.mpr ⟨hfirst.length_eq, ?_⟩)
      intro c n hmem haccepted
      have hn := List.forall₂_zip hfirst hmem
      have haccept := hn.accepted_iff.mp (accepted_iff.mp haccepted)
      exact ⟨haccept.supports (List.mem_append_left _ (List.of_mem_zip hmem).1),
        hn.recordOf haccept⟩
    · rw [hlistR, List.map_map]
      refine List.forall₂_map_right_iff.mpr (List.forall₂_iff_zip.mpr ⟨hsecond.length_eq, ?_⟩)
      intro r n hmem haccepted
      have hr := (List.of_mem_zip hmem).1
      have hn := List.forall₂_zip hsecond hmem
      obtain ⟨haccept, hopen⟩ := (hsettled hn).mp haccepted
      refine ⟨haccept.supports (List.mem_append_right _ hr), ?_, fun key hkey =>
        ⟨isEndpoint_of_connected (haccept.joined rfl) key hkey, ?_⟩⟩
      · have hsame := settleRelation_of_accepted (accepted_iff.mp haccepted)
        show RecordOf r (settleRelation sha256 candidates n).json
        rw [hsame]
        exact hn.recordOf haccept
      · rintro ⟨c, record⟩ hpair hsame
        have hc := (List.of_mem_zip hpair).1
        refine (List.forall₂_zip hpairs hpair).mpr ?_
        have htext := hnamed r hr haccept hopen key hkey c hc hsame
        have hblocked := hopen key hkey
        rw [← hsame] at htext hblocked
        exact acceptable_of_not_blocked hc htext hblocked
    · rw [hgraph]
      exact intact_of_fields hhex graphFields_keys

end Returned

/-! ## Two graphs -/

/-- Digests of six texts, each told by the sum of its bytes. -/
def graphDigest (t : String) : String :=
  ([(53576, "89182d0acf749c127d13dd9ede32b9e81e5083c8f0a70de8a35f9f43ef3d0197"),
    (53888, "ec8858daae6564d07894099f05e2328264c156ff6b3da20bf9f5e6b3f4b67328"),
    (162547, "693177889b8a5055f43d2d92ab58e540482f84a126dd7523a13f4819c6547a8f"),
    (43448, "0e7b7353369f4fc16805f92b0dbbd24c4cfcfe0e8d013bdf22fbefc30e51dd56"),
    (67077, "4df09fbd5e0238aae14f1c4b0c8dbe5c4bafcdac5f27fea8fb76ecbb52941d74"),
    (175432, "7e42c94b0a4a2db3125c63247ddf51fe638a90e5da9c8ab861388347e4e541d9")].lookup
      (t.toUTF8.data.toList.map UInt8.toNat).sum).getD (String.ofList (List.replicate 64 '0'))

theorem graphDigest_hex (t : String) : isDigest (graphDigest t) = true := by
  unfold graphDigest
  generalize (t.toUTF8.data.toList.map UInt8.toNat).sum = n
  simp only [List.lookup]
  split <;> (try split) <;> (try split) <;> (try split) <;> (try split) <;> (try split) <;> decide

def citationOf (quote : String) : Json :=
  .arr [.obj [("materialId", .str "material-1"), ("startLine", .num (Number.ofNat 1)),
    ("endLine", .num (Number.ofNat 1)), ("quote", .str quote)]]

def supportingReview (key : String) : Json :=
  .obj [("key", .str key), ("support", .str "SUPPORTED"), ("rationale", .str "read in the source"),
    ("premises", .arr [.str "unpaid"]), ("unresolvedConflicts", .arr [])]

def ordersRule (key : String) : Json :=
  .obj [("key", .str key), ("kind", .str "RULE"), ("name", .str "cancel"),
    ("statement", .str "unpaid orders may be cancelled"), ("scope", .str "own orders"),
    ("evidence", citationOf "orders can be cancelled"), ("uncertainties", .arr [])]

def ordersRelation (key : String) : Json :=
  .obj [("key", .str "described"), ("sourceKey", .str key), ("predicate", .str "DESCRIBED_BY"),
    ("targetKey", .str "material-1"), ("scope", .str "own orders"),
    ("evidence", citationOf "orders can be cancelled")]

/-- A rule under a key, and a relation from it to the material that it cites. -/
def ordersInput (key : String) : Json :=
  .obj [("workspaceId", .str "shop"), ("investigationId", .str "run-1"),
    ("sourceBundleId", .str "bundle-1"), ("profileId", .str "profile-1"),
    ("adoptedVersionIds", .arr []),
    ("materials", .arr [.obj [("id", .str "material-1"),
      ("sourceMaterial", .obj [("id", .str "material-1"), ("workspaceId", .str "shop"),
        ("bundleId", .str "bundle-1")]),
      ("text", .str "unpaid orders can be cancelled\npaid orders cannot"),
      ("kind", .str "DOCUMENT")]]),
    ("inventory", .arr [.obj [("materialId", .str "material-1")]]),
    ("candidates", .arr [ordersRule key]), ("relations", .arr [ordersRelation key]),
    ("reviews", .arr [supportingReview "cancel", supportingReview "described"]),
    ("allowedFactIds", .arr [])]

/-- The states of the candidates and of the relations. -/
def statesOf (graph : Json) : List (Option Json) × List (Option Json) :=
  ((listOf graph "candidates").map fun r => field (some r) "state",
    (listOf graph "relations").map fun r => field (some r) "state")

theorem orders_graph_is_evidence_bound :
    ∃ graph, buildBusinessGraph graphDigest (fun _ => false) (ordersInput "cancel") = .ok graph ∧
      statesOf graph = ([some (.str "ANALYSIS_ACCEPTED")], [some (.str "ANALYSIS_ACCEPTED")]) ∧
      EvidenceBound graphDigest (ordersInput "cancel") graph := by
  have hstates : ((buildBusinessGraph graphDigest (fun _ => false)
      (ordersInput "cancel")).toOption.map statesOf) =
        some ([some (.str "ANALYSIS_ACCEPTED")], [some (.str "ANALYSIS_ACCEPTED")]) := by
    decide +kernel
  cases hbuild : buildBusinessGraph graphDigest (fun _ => false) (ordersInput "cancel") with
  | error e =>
    rw [hbuild] at hstates
    cases hstates
  | ok graph =>
    rw [hbuild] at hstates
    refine ⟨graph, rfl, Option.some.inj hstates, ?_⟩
    refine (evidence_bound_iff graphDigest graphDigest_hex (fun _ => false) (ordersInput "cancel")
      graph hbuild).mpr fun r _ _ _ key _ c hc hsame => ?_
    obtain rfl := List.mem_singleton.mp hc
    rw [← hsame]
    decide

/-- A key of 129 units: the candidate is quarantined, and the relation to it is accepted. -/
theorem oversized_endpoint_is_accepted :
    ∃ graph, buildBusinessGraph graphDigest (fun _ => false)
        (ordersInput (String.ofList (List.replicate 129 'k'))) = .ok graph ∧
      ¬ EvidenceBound graphDigest (ordersInput (String.ofList (List.replicate 129 'k'))) graph := by
  obtain ⟨key, hkey⟩ : ∃ key, String.ofList (List.replicate 129 'k') = key := ⟨_, rfl⟩
  have hstates : ((buildBusinessGraph graphDigest (fun _ => false)
      (ordersInput (String.ofList (List.replicate 129 'k')))).toOption.map statesOf) =
        some ([some (.str "QUARANTINED")], [some (.str "ANALYSIS_ACCEPTED")]) := by
    decide +kernel
  rw [hkey] at hstates ⊢
  cases hbuild : buildBusinessGraph graphDigest (fun _ => false) (ordersInput key) with
  | error e =>
    rw [hbuild] at hstates
    cases hstates
  | ok graph =>
    rw [hbuild] at hstates
    obtain ⟨hcandidates, hrelations⟩ := Prod.mk.inj (Option.some.inj hstates)
    refine ⟨graph, rfl, fun hbound => ?_⟩
    obtain ⟨record, rest, hrecord, hstate, -⟩ := List.map_eq_cons_iff.mp hcandidates
    obtain ⟨edge, others, hedge, haccepted, -⟩ := List.map_eq_cons_iff.mp hrelations
    have hrules : listOf (ordersInput key) "candidates" = [ordersRule key] := rfl
    have hedges : listOf (ordersInput key) "relations" = [ordersRelation key] := rfl
    have hfirst := hbound.relations
    rw [hedge, hrecord, hrules, hedges] at hfirst
    obtain ⟨hends, -⟩ := List.forall₂_cons.mp hfirst
    have hsource : some (.str key) ∈ endpointsOf (ordersRelation key) := List.mem_cons_self
    have hsame : keyOf (ordersRule key) = some (.str key) := rfl
    have hrecordAccepted : accepted record :=
      ((hends haccepted).2.2 (some (.str key)) hsource).2 (ordersRule key, record)
        List.mem_cons_self hsame
    unfold accepted at hrecordAccepted
    rw [hrecordAccepted] at hstate
    exact absurd hstate (by decide)

end Traqen.BusinessGraph
