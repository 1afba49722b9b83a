-- Verification of a publication (`deterministic-facts/verification.js`): each record against its
-- own shape and identity, then all of them against each other, then the identity of the whole set.
-- What the rules of a profile ask besides is left to the answers of `Rules`: they only refuse.
import Mathlib.Data.String.Basic
import Traqen.BusinessGraph
import Traqen.FactIdentity
import Traqen.Lib.Acyclic
import Traqen.Lib.Base64

open Js

namespace Traqen.RecordVerification

open ScopeLifecycle (F002Error canonicalDigest isHexId)
open FactIdentity (requireString requireHexId sortedStrings texts orNull)

inductive Thrown where
  | F002 (error : F002Error)
  | Failed (failure : Failure)
  deriving DecidableEq

/-- `checked(condition, code, message)`. -/
def checked (condition : Prop) [Decidable condition] (code message : String) :
    Except Thrown Unit :=
  if condition then .ok () else .error (.F002 { code, message, status := 422 })

/-- A check under a condition. -/
def onlyIf (guard : Prop) [Decidable guard] (check : Except Thrown Unit) : Except Thrown Unit :=
  if guard then check else .ok ()

/-- `if (!condition) throw new TypeError(message)`. -/
def requireThat (condition : Prop) [Decidable condition] (message : String) :
    Except Failure Unit :=
  if condition then .ok () else typeError message

def identified {α : Type} : Except Failure α → Except Thrown α
  | .ok a => .ok a
  | .error e => .error (.Failed e)

/-! ## Values -/

/-- A text; the empty one for anything else. -/
def textOf : Option Json → String
  | some (.str s) => s
  | _ => ""

/-- The fields of an object; none for anything else. -/
def fieldsOf : Option Json → List (String × Json)
  | some (.obj fields) => fields
  | _ => []

def isObject (v : Option Json) : Bool := v.any Json.isObject

/-- `v && typeof v === "object"`, so of an array too. -/
def isObjectOrArray : Option Json → Bool
  | some (.obj _) | some (.arr _) => true
  | _ => false

def isArray : Option Json → Bool
  | some (.arr _) => true
  | _ => false

def isBool : Option Json → Bool
  | some (.bool _) => true
  | _ => false

def isNullish (v : Option Json) : Bool := decide (v = none ∨ v = some .null)

/-- `Number.isInteger(v) && v >= 0`. -/
def isCount : Option Json → Bool
  | some (.num n) => n.isInteger && decide (0 ≤ n.mantissa)
  | _ => false

def intOf : Option Json → Int
  | some (.num n) => n.toInt
  | _ => 0

/-- The texts among the items of an array. -/
def textItems (v : Option Json) : List String :=
  (itemsOf v).filterMap fun item => match item with
    | .str s => some s
    | _ => none

/-- `identifier.test(v)`, which reads the text of a value. -/
def identifierTest : Option Json → Except Thrown Bool
  | none => .ok false
  | some v =>
    if v.hidesToString = true then
      identified (typeError "Cannot convert object to primitive value")
    else .ok (isHexId v.toText)

/-! ## Paths -/

def urlLetter (c : Char) : Char := if c = '+' then '-' else if c = '/' then '_' else c

def standardLetter (c : Char) : Char := if c = '-' then '+' else if c = '_' then '/' else c

/-- `bytes.toString("base64url")`. -/
def base64url (bytes : List UInt8) : String :=
  String.ofList (((Base64.encode bytes).filter fun c => c ≠ '=').map urlLetter)

/-- What `pathBytes` of `source-truth/identity.js` asks of the bytes. -/
def safePath (bytes : List UInt8) : Bool :=
  let codes := bytes.map UInt8.toNat
  let segments := codes.splitOn 47
  decide (bytes ≠ []) && decide (bytes.length ≤ 8192) && decide (codes.head? ≠ some 47) &&
    decide (codes.getLast? ≠ some 47) &&
    codes.all (fun c => decide (32 ≤ c ∧ c ≠ 127 ∧ c ≠ 92)) &&
    !(match codes with
      | first :: 58 :: _ => (Char.ofNat first).isAlpha
      | _ => false) &&
    decide (segments.length ≤ 128) &&
    segments.all fun part => decide (part ≠ [] ∧ part ≠ [46] ∧ part ≠ [46, 46])

def decodePathBytes (encoded : String) : Except Failure (List UInt8) :=
  if encoded = "" ∨
      ¬ (encoded.toList.all fun c => c.isAlphanum || c == '-' || c == '_') = true then
    typeError "Invalid pathBytes encoding"
  else
    let bytes := Base64.decode (encoded.toList.map standardLetter)
    if safePath bytes = false then typeError "Unsafe relative path"
    else if base64url bytes ≠ encoded then typeError "Non-canonical pathBytes encoding"
    else .ok bytes

/-! ## One record -/

structure Record where
  kind : String
  id : String
  payload : Json
  deriving DecidableEq

def Record.toJson (r : Record) : Json :=
  .obj [("kind", .str r.kind), ("id", .str r.id), ("payload", r.payload)]

def recordKinds : List String := ["MATERIAL", "OBJECT", "EVIDENCE", "FACT", "GAP"]

/-- The payload of a record, or else its fields but for the kind and the id. -/
def normalizedPayload (record : Json) : Json :=
  match record.get? "payload" with
  | some payload => payload
  | none => .obj ((fieldsOf (some record)).filter fun e => e.1 ≠ "kind" ∧ e.1 ≠ "id")

/-- What `normalizeCanonicalRecords` makes of a record that it accepts. -/
def canonical (record : Json) : Record :=
  { kind := textOf (record.get? "kind"), id := textOf (record.get? "id")
    payload := normalizedPayload record }

def hex (value : Option Json) (code : String) : Except Thrown Unit :=
  checked (isText value = true ∧ isHexId (textOf value) = true) code "记录身份必须是内容哈希"

/-- The code of `hex` where none is given. -/
def idInvalid : String := "F002_RECORD_ID_INVALID"

/-- `!/~(?![01])/u.test(text)`. -/
def tildesEscaped : List Char → Bool
  | [] => true
  | '~' :: '0' :: rest | '~' :: '1' :: rest => tildesEscaped rest
  | '~' :: _ => false
  | _ :: rest => tildesEscaped rest

/-- `validJsonPointer` of `extraction/json-syntax.js`. -/
def validJsonPointer : Option Json → Bool
  | some (.str s) =>
    (decide (s = "") || decide (s.toList.head? = some '/')) && tildesEscaped s.toList
  | _ => false

/-- The branch `TEXT` of `anchor`. -/
def textAnchor (value : Json) : Except Thrown Unit := do
  ["byteStart", "byteEnd", "lineStart", "columnStart", "lineEnd", "columnEnd"].forM fun key =>
    checked (isCount (value.get? key) = true) "F002_RECORD_ANCHOR_INVALID" "文本锚点坐标无效"
  let at_ := fun key => intOf (value.get? key)
  checked (at_ "byteStart" ≤ at_ "byteEnd" ∧ 1 ≤ at_ "lineStart" ∧ 1 ≤ at_ "columnStart" ∧
    at_ "lineStart" ≤ at_ "lineEnd") "F002_RECORD_ANCHOR_INVALID" "文本锚点范围无效"

def anchor (value : Option Json) : Except Thrown Unit := do
  checked (isObject value = true ∧ isText (field value "kind") = true)
    "F002_RECORD_ANCHOR_INVALID" "证据锚点无效"
  let v := value.getD .null
  match textOf (v.get? "kind") with
  | "TEXT" => textAnchor v
  | "JSON_POINTER" => do
    let range := v.get? "textRange"
    checked (validJsonPointer (v.get? "pointer") = true ∧
        (textOf (v.get? "pointer")).utf8ByteSize ≤ 8192 ∧
        field range "kind" = some (.str "TEXT"))
      "F002_RECORD_ANCHOR_INVALID" "JSON Pointer 或其物理范围无效"
    textAnchor (range.getD .null)
  | "BINARY" => digestOf v
  | "IMAGE" => do
    digestOf v
    ["width", "height"].forM fun key =>
      checked (isCount (v.get? key) = true) "F002_RECORD_ANCHOR_INVALID" "图像锚点尺寸无效"
  | _ => checked False "F002_RECORD_ANCHOR_INVALID" "证据锚点类型不受支持"
where
  digestOf (v : Json) : Except Thrown Unit := do
    if v.get? "digest" ≠ some .null then
      let accepted ← identifierTest (v.get? "digest")
      checked (accepted = true) "F002_RECORD_ANCHOR_INVALID" "二进制锚点摘要无效"

def exactIdentity (actual expected : String) : Except Thrown Unit := do
  hex (some (.str actual)) idInvalid
  checked (actual = expected) idInvalid "记录身份未绑定其规范载荷"

def hasDatatype : String → Option Json → Bool
  | "string", some (.str _) | "boolean", some (.bool _) | "number", some (.num _)
  | "null", some .null => true
  | "integer", some (.num n) => n.isInteger
  | _, _ => false

def typedPropertyValue (value : Option Json) : Except Thrown Unit := do
  checked (isObject value = true ∧ isText (field value "datatype") = true ∧
      (field value "value").isSome = true)
    "F002_RECORD_VALUE_INVALID" "属性事实值缺少声明类型或实际值"
  checked (hasDatatype (textOf (field value "datatype")) (field value "value") = true)
    "F002_RECORD_VALUE_INVALID" "属性事实值不符合声明 datatype"

structure Context where
  workspaceId : String
  bundleId : String
  profile : Option Json

/-- The tables of `validateClosure`: payloads by id. -/
structure Tables where
  materials : List (String × Json)
  objects : List (String × Json)
  evidence : List (String × Json)
  facts : List (String × Json)
  gaps : List (String × Json)

/-- What is asked besides: no private key in a payload, and the rules of a profile for one record,
for one fact among the tables and for the tables as a whole. -/
structure Rules where
  containsPrivateKey : String → Bool
  recordRules : Json → Record → Except Thrown Unit
  factRules : Json → Tables → Json → Except Thrown Unit
  tableRules : Json → Tables → Except Thrown Unit

/-- A check that only a profile asks for. -/
def withProfile (profile : Option Json) (check : Json → Except Thrown Unit) : Except Thrown Unit :=
  match profile with
  | some p => check p
  | none => .ok ()

section Verification

variable (sha256 : String → String) (rules : Rules) (context : Context)

def validateMaterial (r : Record) : Except Thrown Unit := do
  let get := fun key => r.payload.get? key
  checked (get "materialId" = some (.str r.id) ∧ isText (get "componentId") = true ∧
      isText (get "pathBytes") = true ∧ isText (get "mediaType") = true ∧
      isBool (get "contentAvailable") = true ∧ isText (get "kind") = true ∧
      isText (get "rootObjectId") = true)
    "F002_RECORD_SCHEMA_INVALID" "材料记录缺少来源坐标"
  if get "contentAvailable" = some (.bool true) then
    hex (get "contentDigest") "F002_RECORD_SCHEMA_INVALID"
  else
    checked (get "contentDigest" = some .null) "F002_RECORD_SCHEMA_INVALID"
      "不可读取材料不能伪造内容摘要"
  let _ ← identified (decodePathBytes (textOf (get "pathBytes")))
  let expected ← identified (FactIdentity.createMaterialId sha256 context.workspaceId
    context.bundleId (textOf (get "componentId")) (textOf (get "pathBytes")))
  exactIdentity r.id expected

def validateObject (r : Record) : Except Thrown Unit := do
  let get := fun key => r.payload.get? key
  checked (get "objectId" = some (.str r.id) ∧ isText (get "materialId") = true ∧
      isText (get "kind") = true ∧ isText (get "name") = true)
    "F002_RECORD_SCHEMA_INVALID" "对象记录缺少身份字段"
  hex (get "materialId") idInvalid
  anchor (get "anchor")
  withProfile context.profile fun p => rules.recordRules p r
  onlyIf ((get "parentId").isSome = true) (hex (get "parentId") "F002_RECORD_REFERENCE_INVALID")
  let expected ← identified (FactIdentity.createObjectId sha256 (textOf (get "materialId"))
    (textOf (get "kind")) (fieldsOf (get "anchor")))
  exactIdentity r.id expected

def validateEvidence (r : Record) : Except Thrown Unit := do
  let get := fun key => r.payload.get? key
  checked (get "evidenceId" = some (.str r.id) ∧ isText (get "materialId") = true ∧
      isText (get "evidenceKind") = true)
    "F002_RECORD_SCHEMA_INVALID" "证据记录缺少身份字段"
  hex (get "materialId") idInvalid
  hex (get "contentDigest") "F002_RECORD_SCHEMA_INVALID"
  anchor (get "anchor")
  let expected ← identified (FactIdentity.createEvidenceId sha256 (textOf (get "materialId"))
    (some (textOf (get "contentDigest"))) (fieldsOf (get "anchor"))
    (textOf (get "evidenceKind")))
  exactIdentity r.id expected

def validateFact (r : Record) : Except Thrown Unit := do
  let get := fun key => r.payload.get? key
  checked (get "factId" = some (.str r.id) ∧
      get "kind" ∈ [some (.str "PROPERTY"), some (.str "RELATION")] ∧
      isText (get "subjectId") = true ∧ isText (get "predicate") = true ∧
      isText (get "basis") = true ∧ isArray (get "evidenceIds") = true ∧
      isArray (get "premiseFactIds") = true ∧ isObjectOrArray (get "ruleRef") = true)
    "F002_RECORD_SCHEMA_INVALID" "事实记录缺少来源或推导前提"
  hex (get "subjectId") idInvalid
  (itemsOf (get "evidenceIds")).forM fun v => hex (some v) idInvalid
  (itemsOf (get "premiseFactIds")).forM fun v => hex (some v) idInvalid
  if get "kind" = some (.str "RELATION") then
    hex (get "targetId") "F002_RECORD_SCHEMA_INVALID"
    checked (get "value" = none) "F002_RECORD_SCHEMA_INVALID" "关系事实不能同时携带值"
  else
    checked (get "targetId" = none) "F002_RECORD_SCHEMA_INVALID" "属性事实不能携带目标"
    typedPropertyValue (get "value")
  withProfile context.profile fun p => rules.recordRules p r

/-- `payload.x ?? null` of an id. -/
def idOrNone (v : Option Json) : Option String :=
  if isNullish v then none else some (textOf v)

def validateGap (r : Record) : Except Thrown Unit := do
  let get := fun key => r.payload.get? key
  checked (get "gapId" = some (.str r.id) ∧ isText (get "origin") = true ∧
      isText (get "capability") = true ∧ isText (get "code") = true ∧
      isObjectOrArray (get "reason") = true)
    "F002_RECORD_SCHEMA_INVALID" "缺口记录缺少原因或能力"
  onlyIf (isNullish (get "materialId") = false) (hex (get "materialId") idInvalid)
  onlyIf (isNullish (get "objectId") = false) (hex (get "objectId") idInvalid)
  onlyIf (isNullish (get "anchor") = false) (anchor (get "anchor"))
  let location := if isNullish (get "anchor") then none else some (fieldsOf (get "anchor"))
  let expected ← identified (FactIdentity.createGapId sha256 (textOf (get "origin"))
    (idOrNone (get "materialId")) (idOrNone (get "objectId")) (textOf (get "capability"))
    (textOf (get "code")) location (fieldsOf (get "reason")))
  onlyIf (isObject (get "reason") = false) (identified (typeError "reason must be an object"))
  exactIdentity r.id expected

/-- The branches of `validateRecord`. -/
def validatePayload (r : Record) : Except Thrown Unit :=
  match r.kind with
  | "MATERIAL" => validateMaterial sha256 context r
  | "OBJECT" => validateObject sha256 rules context r
  | "EVIDENCE" => validateEvidence sha256 r
  | "FACT" => validateFact rules context r
  | _ => validateGap sha256 r

def validateRecord (record : Json) : Except Thrown Record := do
  checked (record.isObject = true ∧ isText (record.get? "kind") = true ∧
      textOf (record.get? "kind") ∈ recordKinds)
    "F002_RECORD_SCHEMA_INVALID" "记录类型不受支持"
  hex (record.get? "id") idInvalid
  let r := canonical record
  checked (r.payload.isObject = true) "F002_RECORD_SCHEMA_INVALID" "记录载荷无效"
  checked (rules.containsPrivateKey r.payload.stringify = false) "F002_RECORD_SENSITIVE"
    "私钥材料不能进入封存记录"
  validatePayload sha256 rules context r
  return r

/-! ## The records among each other -/

/-- `new Map()` of the records of a kind. -/
def table (records : List Record) (kind : String) : List (String × Json) :=
  OrderedMap.ofList ((records.filter fun r => r.kind = kind).map fun r => (r.id, r.payload))

def tablesOf (records : List Record) : Tables :=
  { materials := table records "MATERIAL", objects := table records "OBJECT"
    evidence := table records "EVIDENCE", facts := table records "FACT"
    gaps := table records "GAP" }

/-- `table.get(v)`: only texts are keys. -/
def lookup (t : List (String × Json)) : Option Json → Option Json
  | some (.str id) => OrderedMap.get? t id
  | _ => none

/-- `containment`: the pairs of the facts that say `contains`. -/
def containment (t : Tables) : List (Option Json × Option Json) :=
  (t.facts.filter fun e => e.2.get? "kind" = some (.str "RELATION") ∧
    e.2.get? "predicate" = some (.str "contains")).map fun e =>
      (e.2.get? "subjectId", e.2.get? "targetId")

/-- `profile && material.ruleRef?.version === "2"`. -/
def isStructured (profile : Option Json) (material : Option Json) : Bool :=
  profile.isSome && decide (field (field material "ruleRef") "version" = some (.str "2"))

def materialRoot (t : Tables) (e : String × Json) : Except Thrown Unit :=
  checked ((lookup t.objects (e.2.get? "rootObjectId")).any fun root =>
      decide (root.get? "materialId" = some (.str e.1)))
    "F002_RECORD_REFERENCE_INVALID" "材料根对象不存在或越过材料边界"

def objectReferences (profile : Option Json) (t : Tables) (payload : Json) :
    Except Thrown Unit := do
  let material := lookup t.materials (payload.get? "materialId")
  checked (material.isSome = true) "F002_RECORD_REFERENCE_INVALID" "对象引用了不存在的材料"
  let isRoot := decide (field material "rootObjectId" = payload.get? "objectId")
  onlyIf (isStructured profile material = true ∧ isRoot = false)
    (checked (isText (payload.get? "parentId") = true) "F002_RECORD_REFERENCE_INVALID"
      "新结构非根对象缺少直接父引用")
  onlyIf ((payload.get? "parentId").isSome = true) do
    checked ((lookup t.objects (payload.get? "parentId")).any (fun parent =>
          decide (parent.get? "materialId" = payload.get? "materialId")) = true ∧ isRoot = false)
      "F002_RECORD_REFERENCE_INVALID" "父对象不存在、跨材料或材料根对象具有父引用"
    onlyIf (isStructured profile material = true)
      (checked ((payload.get? "parentId", payload.get? "objectId") ∈ containment t)
        "F002_RECORD_REFERENCE_INVALID" "新结构父引用缺少对应的包含事实")

/-- `objects.get(id).parentId`. -/
def parentOf (t : Tables) (id : String) : Option String :=
  match field (OrderedMap.get? t.objects id) "parentId" with
  | some (.str parentId) => some parentId
  | _ => none

def keysOf (t : List (String × Json)) : List String := t.map (·.1)

/-- The loops over the chains of the parents, with fuel for every object. -/
def parentChains (t : Tables) : Except Thrown Unit :=
  match Acyclic.climbAll (parentOf t) (keysOf t.objects).length (keysOf t.objects) with
  | .ok _ => .ok ()
  | .error .cycle => checked False "F002_RECORD_PARENT_CYCLE" "对象父结构存在环"
  | .error .fuel => identified (rangeError "Maximum call stack size exceeded")

def evidenceBinding (t : Tables) (payload : Json) : Except Thrown Unit :=
  checked ((lookup t.materials (payload.get? "materialId")).any fun material =>
      decide (material.get? "contentAvailable" = some (.bool true)) &&
        decide (material.get? "contentDigest" = payload.get? "contentDigest"))
    "F002_RECORD_REFERENCE_INVALID" "证据未绑定可读取材料的精确内容"

def structurePredicates : List (Option Json) :=
  [some (.str "contains"), some (.str "declares"), some (.str "imports")]

def factReferences (profile : Option Json) (t : Tables) (payload : Json) :
    Except Thrown Unit := do
  let isRelation := decide (payload.get? "kind" = some (.str "RELATION"))
  checked ((lookup t.objects (payload.get? "subjectId")).isSome = true)
    "F002_RECORD_REFERENCE_INVALID" "事实主体不存在"
  onlyIf (isRelation = true)
    (checked ((lookup t.objects (payload.get? "targetId")).isSome = true)
      "F002_RECORD_REFERENCE_INVALID" "关系事实目标不存在")
  checked (itemsOf (payload.get? "evidenceIds") ≠ []) "F002_RECORD_EVIDENCE_REQUIRED"
    "事实必须保留至少一条证据"
  (itemsOf (payload.get? "evidenceIds")).forM fun v =>
    checked ((lookup t.evidence (some v)).isSome = true) "F002_RECORD_REFERENCE_INVALID"
      "事实证据不存在"
  (itemsOf (payload.get? "premiseFactIds")).forM fun v =>
    checked ((lookup t.facts (some v)).isSome = true) "F002_RECORD_REFERENCE_INVALID"
      "推导事实前提不存在"
  withProfile profile fun p => rules.factRules p t payload
  let parent := lookup t.objects (payload.get? "subjectId")
  let child := lookup t.objects (payload.get? "targetId")
  onlyIf (isRelation = true ∧ payload.get? "predicate" ∈ structurePredicates)
    (checked (field parent "materialId" = field child "materialId" ∧
        field child "parentId" = field parent "objectId")
      "F002_RECORD_REFERENCE_INVALID" "结构关系与同材料直接父引用不一致")

/-- `facts.get(id).premiseFactIds`. -/
def premisesOf (t : Tables) (id : String) : List String :=
  textItems (field (OrderedMap.get? t.facts id) "premiseFactIds")

/-- `visitPremises` of every fact. -/
def premiseVisits (t : Tables) : Except Thrown Unit :=
  match Acyclic.visitAll (premisesOf t) ((keysOf t.facts).length + 1) (keysOf t.facts) with
  | .ok _ => .ok ()
  | .error .cycle => checked False "F002_RECORD_PREMISE_CYCLE" "推导事实前提存在环"
  | .error .fuel => identified (rangeError "Maximum call stack size exceeded")

/-- `createFactId`, of any rule reference. -/
def createFactId (subjectId predicate : String) (typedValue : Option FactIdentity.Anchor)
    (targetId : Option String) (basis : String) (evidenceIds : List String) (ruleRef : Json)
    (premiseFactIds : List String) : Except Failure String := do
  let object ← FactIdentity.factObject typedValue targetId
  let subjectId ← requireString subjectId "subjectId"
  let predicate ← requireString predicate "predicate"
  let basis ← requireString basis "basis"
  let evidenceIds ← sortedStrings evidenceIds "evidenceIds"
  requireThat (ruleRef.isObject = true) "ruleRef must be an object"
  let premiseFactIds ← sortedStrings premiseFactIds "premiseFactIds"
  return canonicalDigest sha256 "FACT" (.obj [("subjectId", .str subjectId),
    ("predicate", .str predicate), object, ("basis", .str basis),
    ("evidenceIds", texts evidenceIds), ("ruleRef", ruleRef),
    ("premiseFactIds", texts premiseFactIds)])

def factIdentity (e : String × Json) : Except Thrown Unit := do
  let get := fun key => e.2.get? key
  let isRelation := decide (get "kind" = some (.str "RELATION"))
  let expected ← identified (createFactId sha256 (textOf (get "subjectId"))
    (textOf (get "predicate")) (if isRelation then none else some (fieldsOf (get "value")))
    (if isRelation then some (textOf (get "targetId")) else none) (textOf (get "basis"))
    (textItems (get "evidenceIds")) ((get "ruleRef").getD .null)
    (textItems (get "premiseFactIds")))
  exactIdentity e.1 expected

def gapReferences (t : Tables) (payload : Json) : Except Thrown Unit := do
  onlyIf (truthy (payload.get? "materialId") = true)
    (checked ((lookup t.materials (payload.get? "materialId")).isSome = true)
      "F002_RECORD_REFERENCE_INVALID" "缺口材料不存在")
  onlyIf (truthy (payload.get? "objectId") = true)
    (checked ((lookup t.objects (payload.get? "objectId")).isSome = true)
      "F002_RECORD_REFERENCE_INVALID" "缺口对象不存在")

def validateClosure (t : Tables) : Except Thrown Unit := do
  t.materials.forM (materialRoot t)
  t.objects.forM fun e => objectReferences context.profile t e.2
  parentChains t
  t.evidence.forM fun e => evidenceBinding t e.2
  t.facts.forM fun e => factReferences rules context.profile t e.2
  withProfile context.profile fun p => rules.tableRules p t
  premiseVisits t
  t.facts.forM (factIdentity sha256)
  t.gaps.forM fun e => gapReferences t e.2

/-! ## The whole list -/

def assertScopeRecordBudget (profile : Option Json) (count : Nat) : Except Thrown Unit :=
  let limits := field profile "extractionLimits"
  if field limits "scopeRecordBudget" ≠ some (.str "atomic-material-v1") then .ok ()
  else
    checked ((BusinessGraph.safeInteger (field limits "maxRecords")).any fun maxRecords =>
        decide ((count : Int) ≤ maxRecords))
      "F002_SCOPE_RECORD_BUDGET_TOO_SMALL"
      "完整材料目录及全部来源缺口超过固定配置的范围记录上限；请缩小范围或选择另一个已批准配置"

/-- By the bytes of the kind, then by those of the id. -/
def recordBefore (a b : Record) : Prop := a.kind < b.kind ∨ a.kind = b.kind ∧ a.id ≤ b.id

instance : DecidableRel recordBefore := fun a b =>
  inferInstanceAs (Decidable (a.kind < b.kind ∨ a.kind = b.kind ∧ a.id ≤ b.id))

def noDuplicates : List Record → Except Thrown Unit
  | a :: b :: rest => do
    checked (a.kind ≠ b.kind ∨ a.id ≠ b.id) "F002_RECORD_DUPLICATE" "规范记录身份重复"
    noDuplicates (b :: rest)
  | _ => .ok ()

def normalizeCanonicalRecords (records : List Json) : Except Thrown (List Record) := do
  checked (records.length ≤ 500000) "F002_RECORDS_INVALID" "规范记录列表无效"
  assertScopeRecordBudget context.profile records.length
  let validated ← records.mapM (validateRecord sha256 rules context)
  let normalized := validated.insertionSort recordBefore
  noDuplicates normalized
  validateClosure sha256 rules context (tablesOf normalized)
  return normalized

/-! ## The identity of the set -/

/-- `normalRecord`: the value that the canonical text is read back to. -/
def normalRecord (ruleConfig : Option (List (String × Json))) : Except Failure Json :=
  match ruleConfig with
  | some fields => .ok (SourceIdentity.sortKeys (.obj fields))
  | none => typeError "Unsupported canonical JSON value"

def createGraphVersionId (workspaceId bundleId scopeId : String) (schemaVersion : Option Json)
    (ruleConfig : Option (List (String × Json))) (records : List Record) :
    Except Failure String := do
  requireThat ((BusinessGraph.safeInteger schemaVersion).any (fun n => decide (1 ≤ n)) = true)
    "schemaVersion must be a positive integer"
  let named ← records.mapM fun r => do
    let kind ← requireString r.kind "record.kind"
    let id ← requireString r.id "record.id"
    return { r with kind, id }
  let normalizedRecords := named.insertionSort recordBefore
  let keys := normalizedRecords.map fun r => (r.kind, r.id)
  requireThat (keys.eraseDups.length = keys.length) "records must be unique"
  let workspaceId ← requireString workspaceId "workspaceId"
  let bundleId ← requireHexId (some bundleId) "bundleId"
  let scopeId ← requireString scopeId "scopeId"
  let ruleConfig ← normalRecord ruleConfig
  return canonicalDigest sha256 "GRAPH_VERSION" (.obj [("workspaceId", .str workspaceId),
    ("bundleId", .str bundleId), ("scopeId", .str scopeId),
    ("schemaVersion", schemaVersion.getD .null), ("ruleConfig", ruleConfig),
    ("records", .arr (keys.map fun key => .obj [("kind", .str key.1), ("id", .str key.2)]))])

/-- The rule versions that have an implementation (`deterministic-facts/rules.js`). -/
def supported : List String :=
  ["inventory@1", "javascript@1", "java@1", "markdown@1", "json@1", "yaml@1", "properties@1",
    "junit-xml@1", "image-metadata@1", "evidence@1", "gaps@1", "policy@1", "javascript@2",
    "java@2", "markdown@2", "json@2", "properties@2", "junit-xml@2", "typescript@2", "sql@1",
    "program-logic@1"]

/-- `/^[a-z][a-z0-9-]*@[1-9][0-9]*$/`, as the capability and the version. -/
def ruleVersion? (text : String) : Option (String × String) :=
  match text.toList.splitOn '@' with
  | [first :: capability, digit :: version] =>
    if first.isLower && capability.all (fun c => c.isLower || c.isDigit || c == '-') &&
        digit.isDigit && digit != '0' && version.all Char.isDigit then
      some (String.ofList (first :: capability), String.ofList (digit :: version))
    else none
  | _ => none

def isRuleVersion : Json → Bool
  | .str text => (ruleVersion? text).isSome
  | _ => false

/-- One exact version for each capability. -/
def unambiguous : List (String × String) → List (String × String) → Except Thrown Unit
  | _, [] => .ok ()
  | versions, (capability, version) :: rest =>
    if (OrderedMap.get? versions capability).all fun known => decide (known = version) then
      unambiguous (OrderedMap.set versions capability version) rest
    else .error (.F002 { code := "RULE_VERSION_AMBIGUOUS"
                         message := "同一能力只能指定一个精确规则版本", status := 409 })

def unavailable (message : String) : Except Thrown Unit :=
  .error (.F002 { code := "RULE_VERSION_UNAVAILABLE", message, status := 409 })

/-- `installedF002Rules.assertProfile`. -/
def assertProfile (profile : Json) : Except Thrown Unit :=
  match profile.get? "ruleVersions" with
  | none => .ok ()
  | some declared => do
    onlyIf ((isArray (some declared) && (itemsOf (some declared)).all isRuleVersion) = false)
      (unavailable "能力配置没有可执行的精确规则版本")
    let versions := textItems (some declared)
    unambiguous [] (versions.filterMap ruleVersion?)
    onlyIf (¬ ∀ version ∈ versions, version ∈ supported) (unavailable "历史规则版本不可用于重放")

structure Publication where
  records : List Record
  recordDigest : String
  graphVersionId : String

def recordDigestOf (records : List Record) : String :=
  canonicalDigest sha256 "FACT_SET_RECORDS" (.obj [("records", .arr (records.map Record.toJson))])

/-- The fields of the rule configuration, where the profile has them all. -/
def ruleConfigOf (profile : Json) (recordDigest : String) : Option (List (String × Json)) := do
  let id ← profile.get? "id"
  let schemaVersion ← profile.get? "schemaVersion"
  let ruleVersions ← profile.get? "ruleVersions"
  let canonicalizationVersion ← profile.get? "canonicalizationVersion"
  return [("profileId", id), ("schemaVersion", schemaVersion), ("ruleVersions", ruleVersions),
    ("canonicalizationVersion", canonicalizationVersion), ("recordDigest", .str recordDigest)]

def verifyPublication (workspaceId bundleId scopeId : String) (profile : Json)
    (records : List Json) : Except Thrown Publication := do
  assertProfile profile
  let context := { workspaceId, bundleId, profile := some profile }
  let canonicalRecords ← normalizeCanonicalRecords sha256 rules context records
  let recordDigest := recordDigestOf sha256 canonicalRecords
  let graphVersionId ← identified (createGraphVersionId sha256 workspaceId bundleId scopeId
    (profile.get? "schemaVersion") (ruleConfigOf profile recordDigest) canonicalRecords)
  return { records := canonicalRecords, recordDigest, graphVersionId }

end Verification

end Traqen.RecordVerification
