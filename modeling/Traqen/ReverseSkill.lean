-- What a Reverse Skill is given and what it may hand back (`domain/reverse-skill.js`): the
-- input package selects the facts of a task scope, and the artifact bundle is the raw output
-- of the skill after every field is checked. The raw output is any parsed JSON value.
import Traqen.Facts

open Js

namespace Traqen.ReverseSkill

open ExecutionEvidence (requireObject isSha256Digest)
open Facts (FactBundle FactNode FactEdge)

/-! ## Shapes -/

/-- The first field that is not among the allowed ones is an error. -/
def assertOnlyFields (value : List (String × Json)) (allowedFields : List String)
    (fieldName : String) : Except Failure Unit :=
  match value.find? fun f => f.1 ∉ allowedFields with
  | some f => typeError (fieldName ++ "." ++ f.1 ++ " is not supported")
  | none => .ok ()

/-- The article of the message, and `non-empty` where no empty array will do. -/
def arrayWords (allowEmpty : Bool) : String := if allowEmpty then "an" else "a non-empty"

def uniqueStrings (value : Option Json) (fieldName : String) (allowEmpty : Bool) :
    Except Failure (List String) :=
  match value with
  | some (.arr items) =>
    if !allowEmpty && items.isEmpty then
      typeError (fieldName ++ " must be " ++ arrayWords allowEmpty ++ " array")
    else do
      let result ← items.zipIdx.mapM fun (item, index) =>
        requireNonEmptyString (some item) (fieldName ++ "[" ++ toString index ++ "]")
      if result.eraseDups.length ≠ result.length then
        typeError (fieldName ++ " must not contain duplicates")
      else return result
  | _ => typeError (fieldName ++ " must be " ++ arrayWords allowEmpty ++ " array")

def sha256Digest (value : Option Json) (fieldName : String) : Except Failure String := do
  let digest ← requireNonEmptyString value fieldName
  if isSha256Digest digest then return digest
  else typeError (fieldName ++ " must be a SHA-256 digest")

/-- `(?:0|[1-9]\d*)` in front of what cannot go on with it. -/
def versionNumber (cs : List Char) : Option (List Char) :=
  match cs.takeWhile Char.isDigit with
  | [] => none
  | d :: ds => if d = '0' && !ds.isEmpty then none else some (cs.dropWhile Char.isDigit)

/-- `\.` and a number. -/
def pointNumber : List Char → Option (List Char)
  | '.' :: cs => versionNumber cs
  | _ => none

/-- `/^(?:0|[1-9]\d*)\.(?:0|[1-9]\d*)\.(?:0|[1-9]\d*)(?:-[0-9A-Za-z.-]+)?$/`. -/
def isSemver (s : String) : Bool :=
  match ((versionNumber s.toList).bind pointNumber).bind pointNumber with
  | some [] => true
  | some ('-' :: label) =>
    !label.isEmpty && label.all fun c => c.isDigit || c.isAlpha || c = '.' || c = '-'
  | _ => false

def semver (value : Option Json) (fieldName : String) : Except Failure String := do
  let version ← requireNonEmptyString value fieldName
  if isSemver version then return version
  else typeError (fieldName ++ " must be a semantic version")

def stringOrNull (value : Option Json) (fieldName : String) : Except Failure (Option String) :=
  match value with
  | none | some .null => .ok none
  | _ => do
    let s ← requireNonEmptyString value fieldName
    return some s

/-- `limit <= most`, for a positive integer that has this default. -/
def limitOf (value : Option Json) (fallback : Nat) (fieldName : String) : Except Failure Number :=
  requirePositiveInteger (some (nullish value (.num (Number.ofNat fallback)))) fieldName

/-! ## The input package -/

structure TaskScope where
  artifacts : List String
  nodeIds : List String
  nodeTypes : List String
  modules : List String
deriving DecidableEq

def TaskScope.toJson (t : TaskScope) : Json :=
  .obj [("artifacts", .arr (t.artifacts.map .str)), ("nodeIds", .arr (t.nodeIds.map .str)),
    ("nodeTypes", .arr (t.nodeTypes.map .str)), ("modules", .arr (t.modules.map .str))]

structure ProjectSnapshot where
  projectId : String
  snapshotManifestId : String
  sourceComponentId : String
deriving DecidableEq

def ProjectSnapshot.fields (p : ProjectSnapshot) : List (String × Json) :=
  [("projectId", .str p.projectId), ("snapshotManifestId", .str p.snapshotManifestId),
    ("sourceComponentId", .str p.sourceComponentId)]

structure ReverseInputPackage where
  id : String
  digest : String
  projectSnapshot : ProjectSnapshot
  taskScope : TaskScope
  policyContext : List (String × Json)
  factBundles : List Json
  nodes : List FactNode
  edges : List FactEdge
  allowedFactIds : List String
  createdAt : Json

def supportedScopeFields : List String := ["artifacts", "nodeIds", "nodeTypes", "modules"]

def scopeList (taskScope : List (String × Json)) (name : String) : Except Failure (List String) :=
  uniqueStrings (some (nullish (taskScope.lookup name) (.arr [])))
    ("inputPackage.taskScope." ++ name) true

def nodeType (type : String) : Except Failure Json :=
  assertEnum FactNodeType (some (.str type)) "inputPackage.taskScope.nodeType"

def normalizeTaskScope (value : Option Json) : Except Failure TaskScope := do
  let taskScope ← requireObject (some (nullish value (.obj []))) "inputPackage.taskScope"
  match taskScope.find? fun f => f.1 ∉ supportedScopeFields with
  | some f => typeError ("Unsupported task scope field: " ++ f.1)
  | none =>
    let artifacts ← scopeList taskScope "artifacts"
    let nodeIds ← scopeList taskScope "nodeIds"
    let modules ← scopeList taskScope "modules"
    let nodeTypes ← scopeList taskScope "nodeTypes"
    let _ ← nodeTypes.mapM nodeType
    return { artifacts, nodeIds, nodeTypes, modules }

section Scope

variable (taskScope : TaskScope) (allNodes : List FactNode) (allEdges : List FactEdge)

/-- `[node.id, node.name, node.naturalKey]`. -/
def moduleRefs (node : FactNode) : List String := [node.id, node.name, node.naturalKey]

def moduleNodes : List FactNode :=
  allNodes.filter fun node => strictEq (some node.type) (some (.str "MODULE")) &&
    taskScope.modules.any fun module => module ∈ moduleRefs node

def isContainment (predicate : Json) : Bool :=
  ["CONTAINS", "CONTROLLED_BY", "DEPENDS_ON"].any fun name =>
    strictEq (some predicate) (some (.str name))

/-- The ids of the module nodes, and of what they contain. -/
def moduleMemberIds : List String :=
  let moduleNodeIds := (moduleNodes taskScope allNodes).map (·.id)
  moduleNodeIds ++ (allEdges.filter fun edge =>
    isContainment edge.predicate && edge.subjectId ∈ moduleNodeIds).map (·.objectId)

def selectsNode (node : FactNode) : Bool :=
  (taskScope.artifacts.isEmpty || node.source.artifact ∈ taskScope.artifacts) &&
    (taskScope.nodeIds.isEmpty || node.id ∈ taskScope.nodeIds) &&
    (taskScope.nodeTypes.isEmpty || taskScope.nodeTypes.any fun type =>
      strictEq (some node.type) (some (.str type))) &&
    (taskScope.modules.isEmpty || node.id ∈ moduleMemberIds taskScope allNodes allEdges)

def selectedNodes : List FactNode :=
  allNodes.filter (selectsNode taskScope allNodes allEdges)

def selectedEdges : List FactEdge :=
  let selectedNodeIds := (selectedNodes taskScope allNodes allEdges).map (·.id)
  allEdges.filter fun edge => edge.subjectId ∈ selectedNodeIds && edge.objectId ∈ selectedNodeIds

/-- What the scope names is in the fact bundles. -/
def checkScope : Except Failure Unit :=
  match taskScope.artifacts.find? fun a => a ∉ allNodes.map (·.source.artifact) with
  | some artifact => typeError ("Task scope artifact is outside the Fact Bundles: " ++ artifact)
  | none =>
    match taskScope.nodeIds.find? fun id => id ∉ allNodes.map (·.id) with
    | some nodeId => typeError ("Task scope node is outside the Fact Bundles: " ++ nodeId)
    | none =>
      let matched := (moduleNodes taskScope allNodes).flatMap moduleRefs
      let missing := taskScope.modules.filter fun module => module ∉ matched
      if missing.isEmpty then .ok ()
      else typeError ("Task scope module is outside the Fact Bundles: " ++
        ", ".intercalate missing)

end Scope

section Package

variable (sha256 : String → String) {dateParse : String → Option Int}

/-- What the package says about a bundle. -/
def bundleSummary (b : FactBundle dateParse) : Json :=
  .obj [("id", .str b.id), ("extractor", b.extractor.toJson), ("sourceDigest", .str b.sourceDigest),
    ("complete", .bool b.complete), ("diagnostics", .arr (b.diagnostics.map (·.toJson)))]

def packageContent (projectSnapshot : ProjectSnapshot) (taskScope : TaskScope)
    (policyContext : List (String × Json)) (factBundles : List Json) (nodes : List FactNode)
    (edges : List FactEdge) (allowedFactIds : List String) : Json :=
  .obj [("projectSnapshot", .obj projectSnapshot.fields), ("taskScope", taskScope.toJson),
    ("policyContext", .obj policyContext), ("factBundles", .arr factBundles),
    ("facts", .obj [("nodes", .arr (nodes.map fun n => .obj n.fields)),
      ("edges", .arr (edges.map fun e => .obj e.fields))]),
    ("allowedFactIds", .arr (allowedFactIds.map .str)),
    ("contentTrust", .str "UNTRUSTED_SOURCE_CONTENT")]

def createReverseInputPackage (clock : Instant) (input : Option Json)
    (factBundles : List (FactBundle dateParse)) : Except Failure ReverseInputPackage := do
  let projectId ← requireNonEmptyString (field input "projectId") "inputPackage.projectId"
  let snapshotManifestId ←
    requireNonEmptyString (field input "snapshotManifestId") "inputPackage.snapshotManifestId"
  let sourceComponentId ←
    requireNonEmptyString (field input "sourceComponentId") "inputPackage.sourceComponentId"
  if factBundles.isEmpty then typeError "inputPackage.factBundles must be a non-empty array"
  else if factBundles.any fun b => b.projectId ≠ projectId ||
      b.snapshotManifestId ≠ snapshotManifestId || b.sourceComponentId ≠ sourceComponentId then
    typeError "Every FactBundle must match the reverse input project and snapshot"
  else
    let taskScope ← normalizeTaskScope (field input "taskScope")
    let allNodes := factBundles.flatMap (·.nodes)
    let allEdges := factBundles.flatMap (·.edges)
    checkScope taskScope allNodes
    let nodes := selectedNodes taskScope allNodes allEdges
    if nodes.isEmpty then typeError "Task scope selects no facts"
    else
      let maxInputNodes ←
        limitOf (field input "maxInputNodes") 20000 "inputPackage.maxInputNodes"
      if maxInputNodes.toInt > 100000 then
        rangeError "inputPackage.maxInputNodes must not exceed 100000"
      else if nodes.length > maxInputNodes.toInt then
        rangeError "Reverse input exceeds maxInputNodes"
      else
        let edges := selectedEdges taskScope allNodes allEdges
        let allowedFactIds := (nodes.map (·.factId) ++ edges.map (·.id)).eraseDups
        let createdAt := nullish (field input "createdAt") (.str clock.iso)
        let _ ← requireIsoTimestamp dateParse (some createdAt) "inputPackage.createdAt"
        let policyContext ← requireObject
          (some (nullish (field input "policyContext") (.obj []))) "inputPackage.policyContext"
        let projectSnapshot : ProjectSnapshot :=
          { projectId, snapshotManifestId, sourceComponentId }
        let summaries := factBundles.map bundleSummary
        let content := packageContent projectSnapshot taskScope policyContext summaries nodes edges
          allowedFactIds
        return {
          id := contentId sha256 "REVERSE-INPUT" content
          digest := "sha256:" ++ sha256 (canonicalJson content)
          projectSnapshot, taskScope, policyContext
          factBundles := summaries
          nodes, edges, allowedFactIds, createdAt }

end Package

/-! ## Candidates -/

structure EvidenceRef where
  factId : String
  relation : String
deriving DecidableEq

def EvidenceRef.toJson (e : EvidenceRef) : Json :=
  .obj [("factId", .str e.factId), ("relation", .str e.relation)]

structure Constraint where
  dimension : String
  operator : Json
  value : Json
deriving DecidableEq

def Constraint.toJson (c : Constraint) : Json :=
  .obj [("dimension", .str c.dimension), ("operator", c.operator), ("value", c.value)]

structure Producer where
  skillId : String
  skillVersion : String
  adapterId : String
  modelProfile : Option String
  promptVersion : Option String
deriving DecidableEq

def Producer.toJson (p : Producer) : Json :=
  .obj [("skillId", .str p.skillId), ("skillVersion", .str p.skillVersion),
    ("adapterId", .str p.adapterId), ("modelProfile", Facts.textOrNull p.modelProfile),
    ("promptVersion", Facts.textOrNull p.promptVersion)]

structure CandidateFeature where
  id : String
  localId : String
  externalKey : String
  name : String
  description : Option String
  evidence : List EvidenceRef
  producer : Producer
deriving DecidableEq

structure CandidateClaim where
  id : String
  localId : String
  type : Json
  subjectKey : String
  statement : String
  confidence : Json
  constraint : Option Constraint
  scope : List (String × Json)
  evidence : List EvidenceRef
  producer : Producer
deriving DecidableEq

structure CandidateTestSpec where
  id : String
  localId : String
  name : String
  featureKey : String
  verifiesCandidateClaimIds : List String
  specification : List (String × Json)
  evidence : List EvidenceRef
  producer : Producer
deriving DecidableEq

structure OpenQuestion where
  id : String
  localId : String
  question : String
  relatedLocalIds : List String
  evidence : List EvidenceRef
  producer : Producer
deriving DecidableEq

structure BundleScope where
  snapshot : ProjectSnapshot
  taskScope : List (String × Json)
deriving DecidableEq

def BundleScope.toJson (s : BundleScope) : Json :=
  .obj (s.snapshot.fields ++ [("taskScope", .obj s.taskScope)])

structure ReverseArtifactBundle where
  id : String
  runId : String
  producer : Producer
  scope : BundleScope
  inputDigest : String
  rawOutputHash : String
  candidateFeatures : List CandidateFeature
  candidateClaims : List CandidateClaim
  candidateTestSpecs : List CandidateTestSpec
  openQuestions : List OpenQuestion
  warnings : List String
  generatedAt : Json

/-- The facts that evidence may name: a set as it is, or an array that is checked. -/
inductive AllowedFacts where
  | set (factIds : List String)
  | value (v : Option Json)

def allowedFactIds : AllowedFacts → Except Failure (List String)
  | .set factIds => .ok factIds
  | .value v => uniqueStrings v "allowedFactIds" true

def evidenceRelations : List String := ["SUPPORTS", "CONTRADICTS", "CONTEXT"]

def producerRef (value : Option Json) : Except Failure Producer := do
  let producer ← requireObject value "producer"
  let skillId ← requireNonEmptyString (producer.lookup "skillId") "producer.skillId"
  let skillVersion ← semver (producer.lookup "skillVersion") "producer.skillVersion"
  let adapterId ← requireNonEmptyString (producer.lookup "adapterId") "producer.adapterId"
  let modelProfile ← stringOrNull (producer.lookup "modelProfile") "producer.modelProfile"
  let promptVersion ← stringOrNull (producer.lookup "promptVersion") "producer.promptVersion"
  return { skillId, skillVersion, adapterId, modelProfile, promptVersion }

def constraint (value : Option Json) (fieldName : String) : Except Failure (Option Constraint) :=
  match value with
  | none | some .null => .ok none
  | _ => do
    let candidate ← requireObject value fieldName
    assertOnlyFields candidate ["dimension", "operator", "value"] fieldName
    let dimension ← requireNonEmptyString (candidate.lookup "dimension") (fieldName ++ ".dimension")
    let operator ← assertEnum ConstraintOperator (candidate.lookup "operator")
      (fieldName ++ ".operator")
    match candidate.lookup "value" with
    | some value => return some { dimension, operator, value }
    | none => typeError (fieldName ++ ".value must contain only JSON values")

/-- `[...new Map(items.map((item) => [canonicalJson(item), item])).values()]`. -/
def distinctEvidence (items : List EvidenceRef) : List EvidenceRef :=
  (OrderedMap.ofList (items.map fun item => (canonicalJson item.toJson, item))).map (·.2)

section Bundle

variable (sha256 : String → String) (toUpperCase : String → String)
  (dateParse : String → Option Int)

def evidenceRef (allowed : List String) (fieldName : String) (item : Json) :
    Except Failure EvidenceRef := do
  let evidence ← requireObject (some item) fieldName
  assertOnlyFields evidence ["factId", "relation"] fieldName
  let factId ← requireNonEmptyString (evidence.lookup "factId") (fieldName ++ ".factId")
  if factId ∉ allowed then
    typeError (fieldName ++ " references a fact outside the input package")
  else
    let relation ← requireNonEmptyString (evidence.lookup "relation") (fieldName ++ ".relation")
    if toUpperCase relation ∉ evidenceRelations then
      typeError (fieldName ++ ".relation is unsupported")
    else return { factId, relation := toUpperCase relation }

def evidenceRefs (allowed : List String) (value : Option Json) (fieldName : String) :
    Except Failure (List EvidenceRef) :=
  match value with
  | some (.arr (item :: items)) => do
    let result ← (item :: items).zipIdx.mapM fun (item, index) =>
      evidenceRef toUpperCase allowed (fieldName ++ "[" ++ toString index ++ "]") item
    return distinctEvidence result
  | _ => typeError (fieldName ++ " must be a non-empty array")

def candidateId (kind : String) (producer : Producer) (localId : String) : String :=
  contentId sha256 "CANDIDATE" (.obj [("kind", .str kind), ("producer", producer.toJson),
    ("localId", .str localId)])

/-- An item with none but these fields, and a local id that no item in front of it has. -/
def openItem (seenLocalIds : List String) (allowedFields : List String) (item : Json)
    (fieldName : String) : Except Failure (List (String × Json) × String) := do
  let value ← requireObject (some item) fieldName
  assertOnlyFields value allowedFields fieldName
  let localId ← requireNonEmptyString (value.lookup "localId") (fieldName ++ ".localId")
  if localId ∈ seenLocalIds then typeError ("Skill output localId " ++ localId ++ " is duplicated")
  else return (value, localId)

/-- The items of one list of the output, with the local ids seen so far. -/
def normalizeItems {α : Type} (normalize : List String → Json → String → Except Failure α)
    (localIdOf : α → String) (listName : String) :
    List String → Nat → List Json → Except Failure (List α)
  | _, _, [] => .ok []
  | seen, index, item :: items => do
    let a ← normalize seen item (listName ++ "[" ++ toString index ++ "]")
    let rest ← normalizeItems normalize localIdOf listName (seen ++ [localIdOf a]) (index + 1) items
    return a :: rest

/-- `(rawOutput[name] ?? []).map(...)`. -/
def outputItems (rawOutput : List (String × Json)) (name : String) : Except Failure (List Json) :=
  match nullish (rawOutput.lookup name) (.arr []) with
  | .arr items => .ok items
  | _ => typeError ("(rawOutput." ++ name ++ " ?? []).map is not a function")

variable (producer : Producer) (allowed : List String)

def normalizeFeature (seen : List String) (item : Json) (fieldName : String) :
    Except Failure CandidateFeature := do
  let (value, localId) ← openItem seen
    ["localId", "externalKey", "name", "description", "evidence"] item fieldName
  let externalKey ← requireNonEmptyString (value.lookup "externalKey") (fieldName ++ ".externalKey")
  let name ← requireNonEmptyString (value.lookup "name") (fieldName ++ ".name")
  let description ← stringOrNull (value.lookup "description") (fieldName ++ ".description")
  let evidence ←
    evidenceRefs toUpperCase allowed (value.lookup "evidence") (fieldName ++ ".evidence")
  return { id := candidateId sha256 "FEATURE" producer localId
           localId, externalKey, name, description, evidence, producer }

def normalizeClaim (seen : List String) (item : Json) (fieldName : String) :
    Except Failure CandidateClaim := do
  let (value, localId) ← openItem seen
    ["localId", "type", "subjectKey", "statement", "confidence", "constraint", "scope", "evidence"]
    item fieldName
  let type ← assertEnum ClaimType (value.lookup "type") (fieldName ++ ".type")
  let subjectKey ← requireNonEmptyString (value.lookup "subjectKey") (fieldName ++ ".subjectKey")
  let statement ← requireNonEmptyString (value.lookup "statement") (fieldName ++ ".statement")
  let confidence ←
    assertEnum ReverseConfidence (value.lookup "confidence") (fieldName ++ ".confidence")
  let claimConstraint ← constraint (value.lookup "constraint") (fieldName ++ ".constraint")
  let scope ← requireObject (some (nullish (value.lookup "scope") (.obj []))) (fieldName ++ ".scope")
  let evidence ←
    evidenceRefs toUpperCase allowed (value.lookup "evidence") (fieldName ++ ".evidence")
  return { id := candidateId sha256 "CLAIM" producer localId
           localId, type, subjectKey, statement, confidence
           constraint := claimConstraint
           scope, evidence, producer }

def normalizeTestSpec (seen : List String) (item : Json) (fieldName : String) :
    Except Failure CandidateTestSpec := do
  let (value, localId) ← openItem seen
    ["localId", "name", "featureKey", "verifiesCandidateClaimIds", "specification", "evidence"]
    item fieldName
  let name ← requireNonEmptyString (value.lookup "name") (fieldName ++ ".name")
  let featureKey ← requireNonEmptyString (value.lookup "featureKey") (fieldName ++ ".featureKey")
  let verifiesCandidateClaimIds ← uniqueStrings (value.lookup "verifiesCandidateClaimIds")
    (fieldName ++ ".verifiesCandidateClaimIds") true
  let specification ← requireObject (value.lookup "specification") (fieldName ++ ".specification")
  let evidence ←
    evidenceRefs toUpperCase allowed (value.lookup "evidence") (fieldName ++ ".evidence")
  return { id := candidateId sha256 "TEST_SPEC" producer localId
           localId, name, featureKey, verifiesCandidateClaimIds, specification, evidence, producer }

/-- `Boolean(value?.length)`, of anything that is no array: what is let through here is
refused by `evidenceRefs`. -/
def hasLength (value : Option Json) : Bool :=
  match value with
  | some (.arr items) => !items.isEmpty
  | some (.str s) => s ≠ ""
  | some (.obj fields) => truthy (fields.lookup "length")
  | _ => false

/-- A question may go without evidence. -/
def questionEvidence (value : Option Json) (fieldName : String) :
    Except Failure (List EvidenceRef) :=
  if hasLength value then evidenceRefs toUpperCase allowed value fieldName else .ok []

def normalizeQuestion (seen : List String) (item : Json) (fieldName : String) :
    Except Failure OpenQuestion := do
  let (value, localId) ← openItem seen ["localId", "question", "relatedLocalIds", "evidence"] item
    fieldName
  let question ← requireNonEmptyString (value.lookup "question") (fieldName ++ ".question")
  let relatedLocalIds ← uniqueStrings
    (some (nullish (value.lookup "relatedLocalIds") (.arr []))) (fieldName ++ ".relatedLocalIds") true
  let evidence ←
    questionEvidence toUpperCase allowed (value.lookup "evidence") (fieldName ++ ".evidence")
  return { id := candidateId sha256 "OPEN_QUESTION" producer localId
           localId, question, relatedLocalIds, evidence, producer }

/-- The candidates of an output, each list with its items in order. -/
structure Candidates where
  features : List CandidateFeature
  claims : List CandidateClaim
  testSpecs : List CandidateTestSpec
  questions : List OpenQuestion

def Candidates.localIds (c : Candidates) : List String :=
  c.features.map (·.localId) ++ c.claims.map (·.localId) ++ c.testSpecs.map (·.localId) ++
    c.questions.map (·.localId)

def Candidates.count (c : Candidates) : Nat :=
  c.features.length + c.claims.length + c.testSpecs.length + c.questions.length

/-- Every reference between the candidates has its target. -/
def checkReferences (c : Candidates) : Except Failure Unit :=
  match (c.testSpecs.flatMap (·.verifiesCandidateClaimIds)).find? fun id =>
      id ∉ c.claims.map (·.localId) with
  | some id => typeError ("Candidate TestSpec references unknown Claim localId " ++ id)
  | none =>
    match (c.questions.flatMap (·.relatedLocalIds)).find? fun id => id ∉ c.localIds with
    | some id => typeError ("Open question references unknown localId " ++ id)
    | none => .ok ()

def normalizeCandidates (rawOutput : List (String × Json)) : Except Failure Candidates := do
  let featureItems ← outputItems rawOutput "candidateFeatures"
  let features ← normalizeItems (normalizeFeature sha256 toUpperCase producer allowed) (·.localId)
    "rawOutput.candidateFeatures" [] 0 featureItems
  let featureIds := features.map (·.localId)
  let claimItems ← outputItems rawOutput "candidateClaims"
  let claims ← normalizeItems (normalizeClaim sha256 toUpperCase producer allowed) (·.localId)
    "rawOutput.candidateClaims" featureIds 0 claimItems
  let claimIds := featureIds ++ claims.map (·.localId)
  let testSpecItems ← outputItems rawOutput "candidateTestSpecs"
  let testSpecs ← normalizeItems (normalizeTestSpec sha256 toUpperCase producer allowed) (·.localId)
    "rawOutput.candidateTestSpecs" claimIds 0 testSpecItems
  let testSpecIds := claimIds ++ testSpecs.map (·.localId)
  let questionItems ← outputItems rawOutput "openQuestions"
  let questions ← normalizeItems (normalizeQuestion sha256 toUpperCase producer allowed) (·.localId)
    "rawOutput.openQuestions" testSpecIds 0 questionItems
  let candidates : Candidates := { features, claims, testSpecs, questions }
  checkReferences candidates
  return candidates

end Bundle

def outputFields : List String :=
  ["candidateFeatures", "candidateClaims", "candidateTestSpecs", "openQuestions", "warnings"]

def createReverseArtifactBundle (sha256 toUpperCase : String → String)
    (dateParse : String → Option Int) (clock : Instant) (input : Json) (allowedFacts : AllowedFacts) :
    Except Failure ReverseArtifactBundle := do
  let producer ← producerRef (field input "producer")
  let scope ← requireObject (field input "scope") "scope"
  let projectId ← requireNonEmptyString (scope.lookup "projectId") "scope.projectId"
  let snapshotManifestId ←
    requireNonEmptyString (scope.lookup "snapshotManifestId") "scope.snapshotManifestId"
  let sourceComponentId ←
    requireNonEmptyString (scope.lookup "sourceComponentId") "scope.sourceComponentId"
  let inputDigest ← sha256Digest (field input "inputDigest") "inputDigest"
  let allowed ← allowedFactIds allowedFacts
  let rawOutput ← requireObject (field input "rawOutput") "rawOutput"
  assertOnlyFields rawOutput outputFields "rawOutput"
  let maxRawOutputBytes ←
    limitOf (field input "maxRawOutputBytes") 10000000 "maxRawOutputBytes"
  if maxRawOutputBytes.toInt > 50000000 then
    rangeError "maxRawOutputBytes must not exceed 50000000"
  else if (canonicalJson (.obj rawOutput)).utf8ByteSize > maxRawOutputBytes.toInt then
    rangeError "Skill raw output exceeds maxRawOutputBytes"
  else
    let generatedAt := nullish (field input "generatedAt") (.str clock.iso)
    let _ ← requireIsoTimestamp dateParse (some generatedAt) "generatedAt"
    let c ← normalizeCandidates sha256 toUpperCase producer allowed rawOutput
    if c.count = 0 then
      typeError "Skill output must contain at least one structured candidate or open question"
    else
      let maxOutputCandidates ←
        limitOf (field input "maxOutputCandidates") 500 "maxOutputCandidates"
      if c.count > maxOutputCandidates.toInt then
        rangeError "Skill output exceeds maxOutputCandidates"
      else
        let warnings ← uniqueStrings (some (nullish (rawOutput.lookup "warnings") (.arr [])))
          "rawOutput.warnings" true
        let rawOutputHash := "sha256:" ++ sha256 (canonicalJson (.obj rawOutput))
        let runId ← requireNonEmptyString (field input "runId") "runId"
        let taskScope ←
          requireObject (some (nullish (scope.lookup "taskScope") (.obj []))) "scope.taskScope"
        return {
          id := contentId sha256 "REVERSE-ARTIFACT-BUNDLE" (.obj [("runId", .str runId),
            ("producer", producer.toJson), ("inputDigest", .str inputDigest),
            ("rawOutputHash", .str rawOutputHash), ("generatedAt", generatedAt)])
          runId, producer
          scope := { snapshot := { projectId, snapshotManifestId, sourceComponentId }, taskScope }
          inputDigest, rawOutputHash
          candidateFeatures := c.features
          candidateClaims := c.claims
          candidateTestSpecs := c.testSpecs
          openQuestions := c.questions
          warnings, generatedAt }

end Traqen.ReverseSkill
