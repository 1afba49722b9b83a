-- The trace chain (`domain/trace-chain.js`): a claim is proved when its intent, its
-- implementation, its test, the execution and the evidence of it hang together, and
-- every link that does not is a gap.
import Traqen.CanonicalJson
import Traqen.Model
import Traqen.Lib.OrderedMap

open Js

namespace Traqen.TraceChain

/-! ## Gaps -/

inductive TraceGapType where
  | MISSING_NORMATIVE_CLAIM
  | MISSING_AUTHORITY
  | SCOPE_UNKNOWN
  | SNAPSHOT_INCOMPLETE
  | IMPLEMENTATION_UNMAPPED
  | CONFORMANCE_UNKNOWN
  | CONFORMANCE_STALE
  | IMPLEMENTATION_DEVIATES
  | UNRESOLVED_CONFLICT
  | NO_TEST_SPEC
  | TEST_SPEC_NOT_LINKED
  | TEST_SPEC_UNAPPROVED
  | NO_ASSERTION
  | NOT_EXECUTED_ON_CURRENT_DEPLOYMENT
  | VERIFICATION_FAILED
  | EXECUTION_ERROR
  | VERIFICATION_INCONCLUSIVE
  | EVIDENCE_MISSING
  | EVIDENCE_UNVERIFIED
  | EVIDENCE_EXPIRING
  | EVIDENCE_STALE
deriving DecidableEq, Repr

inductive GapSeverity where
  | INFO
  | WARNING
  | BLOCKING
deriving DecidableEq, Repr

def ownerByGap : TraceGapType → String
  | .MISSING_NORMATIVE_CLAIM => "business-owner"
  | .MISSING_AUTHORITY => "business-owner"
  | .SCOPE_UNKNOWN => "product-owner"
  | .SNAPSHOT_INCOMPLETE => "platform-operator"
  | .IMPLEMENTATION_UNMAPPED => "technical-owner"
  | .CONFORMANCE_UNKNOWN => "technical-owner"
  | .CONFORMANCE_STALE => "technical-owner"
  | .IMPLEMENTATION_DEVIATES => "technical-owner"
  | .UNRESOLVED_CONFLICT => "claim-owner"
  | .NO_TEST_SPEC => "quality-owner"
  | .TEST_SPEC_NOT_LINKED => "quality-owner"
  | .TEST_SPEC_UNAPPROVED => "quality-owner"
  | .NO_ASSERTION => "quality-owner"
  | .NOT_EXECUTED_ON_CURRENT_DEPLOYMENT => "quality-owner"
  | .VERIFICATION_FAILED => "technical-owner"
  | .EXECUTION_ERROR => "platform-operator"
  | .VERIFICATION_INCONCLUSIVE => "quality-owner"
  | .EVIDENCE_MISSING => "quality-owner"
  | .EVIDENCE_UNVERIFIED => "security-owner"
  | .EVIDENCE_EXPIRING => "quality-owner"
  | .EVIDENCE_STALE => "quality-owner"

/-- A gap blocks unless it only warns that the evidence is about to expire. -/
structure Gap where
  type : TraceGapType
  severity : GapSeverity
  ownerRole : String
  message : String
  graded : severity = .BLOCKING ↔ type ≠ .EVIDENCE_EXPIRING

/-- The gap of a type other than `EVIDENCE_EXPIRING`, at the default severity. -/
def gap (type : TraceGapType) (message : String)
    (blocks : type ≠ .EVIDENCE_EXPIRING := by decide) : Gap where
  type
  severity := .BLOCKING
  ownerRole := ownerByGap type
  message
  graded := by simp [blocks]

/-- The one gap that is built with a severity of its own. -/
def expiringGap : Gap where
  type := .EVIDENCE_EXPIRING
  severity := .WARNING
  ownerRole := ownerByGap .EVIDENCE_EXPIRING
  message := "Evidence is still valid but is approaching its freshness limit."
  graded := by simp

/-- `if (c) gaps.push(g)`. -/
def pushIf (c : Bool) (g : Gap) : List Gap := if c then [g] else []

/-- No gap of the list blocks. -/
def Clear (gaps : List Gap) : Prop := ∀ g ∈ gaps, g.severity ≠ .BLOCKING

@[simp] theorem clear_nil : Clear [] := by simp [Clear]

@[simp] theorem clear_append (a b : List Gap) : Clear (a ++ b) ↔ Clear a ∧ Clear b := by
  simp only [Clear, List.mem_append, or_imp, forall_and]

@[simp] theorem not_clear_gap (type : TraceGapType) (message : String)
    (h : type ≠ .EVIDENCE_EXPIRING) : ¬ Clear [gap type message h] := by simp [Clear, gap]

@[simp] theorem clear_expiringGap : Clear [expiringGap] := by simp [Clear, expiringGap]

@[simp] theorem clear_pushIf (c : Bool) (type : TraceGapType) (message : String)
    (h : type ≠ .EVIDENCE_EXPIRING) : Clear (pushIf c (gap type message h)) ↔ c = false := by
  cases c <;> simp [pushIf]

/-- `[...new Map(gaps.map((item) => [item.type, item])).values()]`. -/
def uniqueGaps (gaps : List Gap) : List Gap :=
  (OrderedMap.ofList (gaps.map fun g => (g.type, g))).map (·.2)

/-- Dropping a gap for a later one of its type drops no blocking type. -/
theorem clear_uniqueGaps (gaps : List Gap) : Clear (uniqueGaps gaps) ↔ Clear gaps := by
  have hkeys := OrderedMap.exists_key_ofList (gaps.map fun g => (g.type, g))
    (fun t => t ≠ .EVIDENCE_EXPIRING)
  have hkept : ∀ e ∈ OrderedMap.ofList (gaps.map fun g => (g.type, g)), e.2.type = e.1 := by
    intro e he
    obtain ⟨g, -, rfl⟩ := List.mem_map.mp (OrderedMap.mem_of_mem_ofList he)
    rfl
  unfold Clear uniqueGaps
  constructor
  · intro h g hg hblocks
    obtain ⟨e, he, hne⟩ := hkeys.mpr ⟨_, List.mem_map_of_mem hg, g.graded.mp hblocks⟩
    exact h e.2 (List.mem_map_of_mem he) (e.2.graded.mpr (hkept e he ▸ hne))
  · intro h g hg hblocks
    obtain ⟨e, he, rfl⟩ := List.mem_map.mp hg
    obtain ⟨x, hx, hne⟩ := hkeys.mp ⟨e, he, hkept e he ▸ e.2.graded.mp hblocks⟩
    obtain ⟨y, hy, rfl⟩ := List.mem_map.mp hx
    exact h y hy (y.graded.mpr hne)

/-! ## The checks of each link -/

def implementationCollections : List String :=
  ["endpoints", "codeSymbols", "dataObjects", "configurations", "dependencies"]

def implementationMapped (implementation : Option Json) : Bool :=
  implementationCollections.any fun key => hasItems (field implementation key)

/-- The value of an enumeration is one of the members, compared by `===`. -/
def isOneOf {ε : Type} [EnumValues ε] (v : Json) (members : List ε) : Bool :=
  members.any fun e => decide (v = enumJson e)

/-- The gaps of the claim, its scope, the manifest and the implementation. -/
def intentGaps (input claimType authority : Json) : List Gap :=
  pushIf (!isOneOf claimType [ClaimType.NORMATIVE_REQUIREMENT])
      (gap .MISSING_NORMATIVE_CLAIM "Trace proof must start from a normative business claim.") ++
  pushIf (!isOneOf authority [AuthorityStatus.CONFIRMED, .EXCEPTION_RECORDED])
      (gap .MISSING_AUTHORITY ("Normative claim authority is " ++ authority.toText ++ ".")) ++
  pushIf (!truthy (path input ["scope", "id"]))
      (gap .SCOPE_UNKNOWN "Claim scope has not been defined.") ++
  pushIf (!truthy (path input ["snapshotManifest", "complete"]))
      (gap .SNAPSHOT_INCOMPLETE
        "Snapshot manifest is missing components or contains failed sources.") ++
  pushIf (!implementationMapped (path input ["implementation"]))
      (gap .IMPLEMENTATION_UNMAPPED "No technical implementation is mapped to the claim.")

def scopeId (input : Json) : Json := nullish (path input ["scope", "id"]) .null

def snapshotManifestId (input : Json) : Json := nullish (path input ["snapshotManifest", "id"]) .null

def conformanceIsCurrent (input : Json) (claimId : String) (claimVersion : Number) : Bool :=
  strictEq (path input ["conformance", "claimId"]) (some (.str claimId)) &&
  strictEq (path input ["conformance", "claimVersion"]) (some (.num claimVersion)) &&
  strictEq (path input ["conformance", "scopeId"]) (some (scopeId input)) &&
  strictEq (path input ["conformance", "snapshotManifestId"]) (some (snapshotManifestId input))

/-- The status of a conformance that is not about the current identity counts as stale. -/
def effectiveStatus (status : Json) (current : Bool) : Json :=
  if !isOneOf status [ConformanceStatus.UNKNOWN] && !current then enumJson ConformanceStatus.STALE
  else status

def conformanceGaps (effective : Json) : List Gap :=
  if isOneOf effective [ConformanceStatus.UNKNOWN] then
    [gap .CONFORMANCE_UNKNOWN "Implementation conformance has not been established."]
  else if isOneOf effective [ConformanceStatus.STALE] then
    [gap .CONFORMANCE_STALE "Implementation conformance is stale for the selected manifest."]
  else if isOneOf effective [ConformanceStatus.DEVIATES, .PARTIAL] then
    [gap .IMPLEMENTATION_DEVIATES ("Implementation conformance is " ++ effective.toText ++ ".")]
  else if isOneOf effective [ConformanceStatus.CONFLICTED] then
    [gap .UNRESOLVED_CONFLICT "Implementation evidence is conflicted."]
  else []

/-- The effective status, and the gaps that are pushed for it. -/
def addConformanceGaps (input : Json) (claimId : String) (claimVersion : Number) :
    Except Failure (Json × List Gap) := do
  let status := nullish (path input ["conformance", "status"]) (enumJson ConformanceStatus.UNKNOWN)
  let status ← assertEnum ConformanceStatus (some status) "conformance.status"
  let effective := effectiveStatus status (conformanceIsCurrent input claimId claimVersion)
  return (effective, conformanceGaps effective)

/-- An access to a property of null. -/
def nullAccess {α : Type} (key : String) : Except Failure α :=
  typeError ("Cannot read properties of null (reading '" ++ key ++ "')")

/-- `some` of an array: the first item that meets the test ends the search, and a null
item before it throws. -/
def someItem (key : String) (test : Json → Bool) : List Json → Except Failure Bool
  | [] => .ok false
  | .null :: _ => nullAccess key
  | v :: vs => if test v then .ok true else someItem key test vs

def verifiesClaim (claimId : String) (claimVersion : Number) (item : Json) : Bool :=
  strictEq (item.get? "id") (some (.str claimId)) &&
  strictEq (item.get? "version") (some (.num claimVersion))

/-- `testSpec.verifiesClaims?.some(…)`, which is falsy when there is no such field. -/
def verifiesCurrentClaim (input : Json) (claimId : String) (claimVersion : Number) :
    Except Failure Bool :=
  match path input ["testSpec", "verifiesClaims"] with
  | none | some .null => .ok false
  | some (.arr items) => someItem "id" (verifiesClaim claimId claimVersion) items
  | _ => typeError "testSpec.verifiesClaims?.some is not a function"

def testSpecGaps (input : Json) (claimId : String) (claimVersion : Number) :
    Except Failure (List Gap) :=
  if !truthy (path input ["testSpec", "id"]) then
    .ok [gap .NO_TEST_SPEC "No TestSpec verifies this claim."]
  else do
    let verifies ← verifiesCurrentClaim input claimId claimVersion
    return pushIf (!verifies)
        (gap .TEST_SPEC_NOT_LINKED "TestSpec does not declare that it verifies this claim.") ++
      pushIf (!truthy (path input ["testSpec", "approved"]))
        (gap .TEST_SPEC_UNAPPROVED "TestSpec has not been approved.") ++
      pushIf (!hasItems (path input ["testSpec", "assertions"]))
        (gap .NO_ASSERTION "TestSpec has no deterministic business assertion.")

def deploymentMatches (input : Json) : Bool :=
  truthy (path input ["execution", "deploymentId"]) &&
  strictEq (path input ["execution", "deploymentId"])
    (path input ["snapshotManifest", "components", "deployment", "id"])

def manifestMatches (input : Json) : Bool :=
  truthy (path input ["execution", "snapshotManifestId"]) &&
  strictEq (path input ["execution", "snapshotManifestId"]) (path input ["snapshotManifest", "id"])

def testSpecMatches (input : Json) : Bool :=
  truthy (path input ["testSpec", "id"]) &&
  strictEq (path input ["execution", "testSpecId"]) (path input ["testSpec", "id"]) &&
  strictEq (path input ["execution", "testSpecVersion"]) (path input ["testSpec", "version"])

def executionIsCurrent (input : Json) : Bool :=
  truthy (path input ["execution", "id"]) && deploymentMatches input && manifestMatches input &&
  testSpecMatches input

/-- The gap of a status that is not `===` to PASS. The status is looked up by its text, and
an array with the text PASS is in no mapping. -/
def addVerificationGaps (status : Json) : Except Failure (List Gap) :=
  if isOneOf status [VerificationStatus.PASS] then .ok []
  else
    match status.toText with
    | "FAIL" => .ok [gap .VERIFICATION_FAILED "Verification failed."]
    | "ERROR" =>
      .ok [gap .EXECUTION_ERROR "Execution failed before product correctness could be determined."]
    | "INCONCLUSIVE" =>
      .ok [gap .VERIFICATION_INCONCLUSIVE "Evidence is insufficient for a verdict."]
    | "SKIPPED" => .ok [gap .NOT_EXECUTED_ON_CURRENT_DEPLOYMENT "Verification was skipped."]
    | "CANCELLED" => .ok [gap .NOT_EXECUTED_ON_CURRENT_DEPLOYMENT "Verification was cancelled."]
    | "NOT_RUN" => .ok [gap .NOT_EXECUTED_ON_CURRENT_DEPLOYMENT "Verification has not run."]
    | _ => typeError "mappings[status] is not iterable"

/-- The verification status, and the gaps of the execution. -/
def executionGaps (input : Json) : Except Failure (Json × List Gap) :=
  if !executionIsCurrent input then
    .ok (enumJson VerificationStatus.NOT_RUN, [gap .NOT_EXECUTED_ON_CURRENT_DEPLOYMENT
      "No execution proves the selected deployment, snapshot manifest, and TestSpec version."])
  else do
    let verification ← assertEnum VerificationStatus (path input ["execution", "status"])
      "execution.status"
    let gaps ← addVerificationGaps verification
    return (verification, gaps)

def isLinked (input item : Json) : Bool :=
  strictEq (item.get? "executionId") (path input ["execution", "id"])

/-- The evidence of the selected execution. -/
def linkedEvidence (input : Json) : List Json :=
  (itemsOf (path input ["evidence"])).filter (isLinked input)

/-- The filter reads a field of every item. -/
def selectEvidence (input : Json) : Except Failure (List Json) :=
  if (itemsOf (path input ["evidence"])).any fun item => decide (item = .null) then
    nullAccess "executionId"
  else .ok (linkedEvidence input)

/-- The search for an item that is not verified stops at the first one. -/
def invalidIntegrity : List Json → Except Failure Bool
  | [] => .ok false
  | item :: rest => do
    let integrity ← assertEnum IntegrityStatus (item.get? "integrity") "evidence.integrity"
    if !isOneOf integrity [IntegrityStatus.VERIFIED] then return true
    invalidIntegrity rest

def readFreshness : List Json → Except Failure (List Json)
  | [] => .ok []
  | item :: rest => do
    let value ← assertEnum EvidenceFreshness (item.get? "freshness") "evidence.freshness"
    let values ← readFreshness rest
    return value :: values

def freshnessOf (current : Bool) (values : List Json) : EvidenceFreshness :=
  if !current then .STALE
  else if enumJson EvidenceFreshness.STALE ∈ values then .STALE
  else if enumJson EvidenceFreshness.INCOMPLETE ∈ values then .INCOMPLETE
  else if enumJson EvidenceFreshness.EXPIRING ∈ values then .EXPIRING
  else .FRESH

def freshnessGaps (freshness : EvidenceFreshness) : List Gap :=
  match freshness with
  | .EXPIRING => [expiringGap]
  | .FRESH => []
  | f => [gap .EVIDENCE_STALE ("Evidence freshness is " ++ EnumValues.name f ++ ".")]

/-- The freshness of the evidence, and the gaps of it. -/
def evidenceGaps (input : Json) : Except Failure (EvidenceFreshness × List Gap) := do
  let evidence ← selectEvidence input
  if evidence.isEmpty then
    return (.INCOMPLETE, [gap .EVIDENCE_MISSING
      "No Evidence is linked to the selected execution."])
  let invalid ← invalidIntegrity evidence
  let values ← readFreshness evidence
  let freshness := freshnessOf (executionIsCurrent input) values
  return (freshness, pushIf invalid
    (gap .EVIDENCE_UNVERIFIED "At least one Evidence item has not passed integrity verification.") ++
    freshnessGaps freshness)

/-! ## Segments -/

def nodeJson (type : String) (id version : Json) : Json :=
  .obj [("type", .str type), ("id", id), ("version", version)]

/-- `String(v)`. -/
def textOf (v : Json) : Except Failure String :=
  if v.hidesToString then typeError "Cannot convert object to primitive value" else .ok v.toText

/-- The node of a record is its id. Any other value is its own id, as a text. -/
def traceNode (type : String) (value : Option Json) (fallbackId : Json) : Except Failure Json :=
  match value with
  | some (.obj fields) =>
    let v := some (Json.obj fields)
    .ok (nodeJson type
      (nullish (field v "id") (nullish (field v "factId") (nullish (field v "naturalKey") fallbackId)))
      (nullish (field v "version") .null))
  | none | some .null => .ok (nodeJson type fallbackId .null)
  | some v => do
    let text ← textOf v
    return nodeJson type (.str text) .null

structure Segment where
  id : String
  fromNode : Json
  relation : String
  toNode : Json
  provenance : Json
  status : String

/-- What the segments and the result say the chain is about. -/
structure Identity where
  featureId : String
  claimId : String
  claimVersion : Number
  scopeId : Json
  snapshotManifestId : Json
  deploymentId : Json

def Identity.toJson (i : Identity) : Json :=
  .obj [("featureId", .str i.featureId), ("claimId", .str i.claimId),
    ("claimVersion", .num i.claimVersion), ("scopeId", i.scopeId),
    ("snapshotManifestId", i.snapshotManifestId), ("deploymentId", i.deploymentId)]

/-- `v ?? []`, read as an array by a method that only arrays have. -/
def arrayOr (value : Option Json) (method : String) : Except Failure (List Json) :=
  match value with
  | none | some .null => .ok []
  | some (.arr items) => .ok items
  | _ => typeError (method ++ " is not a function")

/-- `${prefix}-${index + 1}`. -/
def numbered (label : String) (index : Nat) : Json := .str (label ++ "-" ++ toString (index + 1))

/-- The collections of an implementation with the node type and the relation of each. -/
def implementationRelations : List (String × String × String) :=
  [("endpoints", "ENDPOINT", "EXPOSED_BY"),
    ("codeSymbols", "CODE_SYMBOL", "IMPLEMENTED_BY"),
    ("dataObjects", "DATA_OBJECT", "USES_DATA"),
    ("configurations", "CONFIGURATION", "CONTROLLED_BY"),
    ("dependencies", "EXTERNAL_DEPENDENCY", "DEPENDS_ON")]

section Segments

variable (sha256 : String → String) (chainId : String)

def segment (fromNode : Json) (relation : String) (toNode provenance : Json) (status : String) :
    Segment where
  id := contentId sha256 "TRACE-SEGMENT" (.obj [("chainId", .str chainId), ("from", fromNode),
    ("relation", .str relation), ("to", toNode)])
  fromNode
  relation
  toNode
  provenance
  status

def documentSegments (input feature : Json) : Except Failure (List Segment) := do
  let requirements ← arrayOr (path input ["requirements"]) "entries"
  let requirements ← requirements.zipIdx.mapM fun e => do
    let node ← traceNode "REQUIREMENT_DOCUMENT" (some e.1) (numbered "REQUIREMENT-DOCUMENT" e.2)
    return segment sha256 chainId node "SPECIFIES" feature (.str "REVIEWED_SYSTEM_REQUIREMENT")
      "ACTIVE"
  let designs ← arrayOr (path input ["designs"]) "entries"
  let designs ← designs.zipIdx.mapM fun e => do
    let node ← traceNode "DESIGN_DOCUMENT" (some e.1) (numbered "DESIGN-DOCUMENT" e.2)
    return segment sha256 chainId feature "DESIGNED_BY" node (.str "REVIEWED_DESIGN") "ACTIVE"
  return requirements ++ designs

def intentSegments (input feature claim : Json) (identity : Identity) :
    Except Failure (List Segment) := do
  let rule := [segment sha256 chainId feature "HAS_RULE" claim (.str "GOVERNED_BASELINE") "ACTIVE"]
  let decision ←
    if truthy (path input ["decision", "id"]) then do
      let node ← traceNode "DECISION" (path input ["decision"])
        ((path input ["decision", "id"]).getD .null)
      let confirmed := isOneOf ((path input ["claim", "authorityStatus"]).getD .null)
        [AuthorityStatus.CONFIRMED, .EXCEPTION_RECORDED]
      pure [segment sha256 chainId claim "CONFIRMED_BY" node (.str "AUTHORIZED_HUMAN_DECISION")
        (if confirmed then "ACTIVE" else "PENDING")]
    else pure []
  let scope ←
    if truthy (path input ["scope", "id"]) then do
      let node ← traceNode "CLAIM_SCOPE" (path input ["scope"]) identity.scopeId
      pure [segment sha256 chainId claim "APPLIES_IN" node (.str "GOVERNED_BASELINE") "ACTIVE"]
    else pure []
  return rule ++ decision ++ scope

def conformanceSegments (input claim : Json) (identity : Identity) (conformance : Json) :
    Except Failure (List Segment) :=
  if truthy (path input ["conformance"]) then do
    let reference := contentId sha256 "CONFORMANCE-REF" (.obj [("claimId", .str identity.claimId),
      ("claimVersion", .num identity.claimVersion),
      ("snapshotManifestId", identity.snapshotManifestId)])
    let node ← traceNode "IMPLEMENTATION_CONFORMANCE" (path input ["conformance"]) (.str reference)
    let provenance := nullish (path input ["conformance", "analysisMethod", "type"])
      (.str "CONFORMANCE_ASSESSMENT")
    let assessed := segment sha256 chainId claim "ASSESSED_BY" node provenance
      (if isOneOf conformance [ConformanceStatus.STALE] then "STALE" else "ACTIVE")
    let verdict :=
      if isOneOf conformance [ConformanceStatus.CONFORMS] then
        [segment sha256 chainId node "CONFORMS_TO" claim (.str "DETERMINISTIC_CONFORMANCE")
          "ACTIVE"]
      else if isOneOf conformance [ConformanceStatus.DEVIATES, .PARTIAL] then
        [segment sha256 chainId node "DEVIATES_FROM" claim (.str "DETERMINISTIC_CONFORMANCE")
          "ACTIVE"]
      else []
    return assessed :: verdict
  else .ok []

def collectionSegments (input claim : Json) (collection type relation : String) :
    Except Failure (List Segment) := do
  let items ← arrayOr (path input ["implementation", collection]) "entries"
  items.zipIdx.mapM fun e => do
    let node ← traceNode type (some e.1) (numbered type e.2)
    let provenance :=
      if truthy (e.1.get? "extractor") then "DETERMINISTIC_FACT" else "IMPLEMENTATION_MAPPING"
    let stale := decide (path input ["implementationStatus"] = some (.str "STALE"))
    return segment sha256 chainId claim relation node (.str provenance)
      (if stale then "STALE" else "ACTIVE")

def executionSegments (input testSpec : Json) (assertions : List Json) :
    Except Failure (List Segment) :=
  if truthy (path input ["execution", "id"]) then do
    let executionId := path input ["execution", "id"]
    let execution ← traceNode "TEST_EXECUTION" (path input ["execution"])
      (executionId.getD .null)
    let status := if executionIsCurrent input then "ACTIVE" else "STALE"
    let executed := segment sha256 chainId testSpec "EXECUTED_AS" execution
      (.str "ATTESTED_RUNNER") status
    let evaluated := assertions.map fun assertion =>
      segment sha256 chainId assertion "EVALUATED_IN" execution
        (.str "DETERMINISTIC_ASSERTION_RESULT") status
    let evidence ← arrayOr (path input ["evidence"]) "entries"
    -- the items are no nulls: `selectEvidence` has read them before
    let proved ← (evidence.zipIdx.filter fun e => isLinked input e.1).mapM fun e => do
      let node ← traceNode "EVIDENCE" (some e.1) (numbered "EVIDENCE" e.2)
      let verified := decide (e.1.get? "integrity" = some (enumJson IntegrityStatus.VERIFIED))
      let stale := decide (e.1.get? "freshness" = some (enumJson EvidenceFreshness.STALE))
      return segment sha256 chainId execution "PROVED_BY" node
        (.str (if verified then "VERIFIED_EVIDENCE" else "UNVERIFIED_EVIDENCE"))
        (if stale then "STALE" else "ACTIVE")
    return executed :: evaluated ++ proved
  else .ok []

def testSpecSegments (input claim : Json) : Except Failure (List Segment) :=
  if truthy (path input ["testSpec", "id"]) then do
    let testSpecId := (path input ["testSpec", "id"]).getD .null
    let testSpec ← traceNode "TEST_SPEC" (path input ["testSpec"]) testSpecId
    let status := if truthy (path input ["testSpec", "approved"]) then "ACTIVE" else "PENDING"
    let verified := segment sha256 chainId claim "VERIFIED_BY" testSpec (.str "APPROVED_TEST_SPEC")
      status
    let assertions ← arrayOr (path input ["testSpec", "assertions"]) "map"
    let assertions ← assertions.zipIdx.mapM fun e => do
      let text ← textOf testSpecId
      traceNode "TEST_ASSERTION" (some e.1) (.str (text ++ ":ASSERTION:" ++ toString (e.2 + 1)))
    let asserted := assertions.map fun assertion =>
      segment sha256 chainId testSpec "HAS_ASSERTION" assertion (.str "DETERMINISTIC_ASSERTION")
        status
    let executed ← executionSegments sha256 chainId input testSpec assertions
    return verified :: asserted ++ executed
  else .ok []

def createSegments (input : Json) (identity : Identity) (conformance : Json) :
    Except Failure (List Segment) := do
  let feature ← traceNode "FEATURE" (path input ["feature"]) (.str identity.featureId)
  let documents ← documentSegments sha256 chainId input feature
  let claim ← traceNode "CLAIM" (path input ["claim"]) (.str identity.claimId)
  let intent ← intentSegments sha256 chainId input feature claim identity
  let assessed ← conformanceSegments sha256 chainId input claim identity conformance
  let implemented ← implementationRelations.mapM fun r =>
    collectionSegments sha256 chainId input claim r.1 r.2.1 r.2.2
  let tested ← testSpecSegments sha256 chainId input claim
  return documents ++ intent ++ assessed ++ implemented.flatten ++ tested

end Segments

/-! ## The chain -/

structure Conflict where
  id : Json
  type : Json
  status : Json
  reason : Json

structure Dimensions where
  authority : Json
  evidenceSupport : Json
  conformance : Json
  verification : Json
  freshness : EvidenceFreshness
  conflict : String

structure Stage where
  name : String
  status : Json

structure Chain where
  id : String
  identity : Identity
  dimensions : Dimensions
  stages : List Stage
  segments : List Segment
  conflicts : List Conflict
  complete : Bool
  gaps : List Gap
  computedAt : String

section Evaluation

variable (sha256 : String → String) (now : Instant)

def conflictRecord (chainId : String) (conflict : Json) (index : Nat) : Except Failure Conflict :=
  match conflict with
  | .str s => .ok { id := .str s, type := .str "UNSPECIFIED", status := .str "OPEN", reason := .null }
  | .null => nullAccess "id"
  | c =>
    let derived := contentId sha256 "TRACE-CONFLICT" (.obj [("chainId", .str chainId),
      ("index", .num (Number.ofNat index)), ("conflict", c)])
    .ok { id := nullish (c.get? "id") (.str derived)
          type := nullish (c.get? "type") (.str "UNSPECIFIED")
          status := nullish (c.get? "status") (.str "OPEN")
          reason := nullish (c.get? "reason") .null }

def conflictRecords (chainId : String) (input : Json) : Except Failure (List Conflict) := do
  let conflicts ← arrayOr (path input ["conflicts"]) "map"
  conflicts.zipIdx.mapM fun e => conflictRecord sha256 chainId e.1 e.2

def stages (input authority conformance verification : Json) (freshness : EvidenceFreshness) :
    List Stage :=
  let testSpec :=
    if truthy (path input ["testSpec", "approved"]) then "APPROVED"
    else if truthy (path input ["testSpec", "id"]) then "UNAPPROVED" else "MISSING"
  [{ name := "BUSINESS_INTENT", status := authority },
    { name := "SCOPE"
      status := .str (if truthy (path input ["scope", "id"]) then "DEFINED" else "UNKNOWN") },
    { name := "IMPLEMENTATION_CONFORMANCE", status := conformance },
    { name := "TECHNICAL_IMPLEMENTATION"
      status := .str (if implementationMapped (path input ["implementation"]) then "MAPPED"
        else "UNMAPPED") },
    { name := "TEST_SPEC", status := .str testSpec },
    { name := "EXECUTION", status := verification },
    { name := "EVIDENCE", status := enumJson freshness }]

def conflictGaps (input : Json) : List Gap :=
  pushIf (hasItems (path input ["conflicts"]))
    (gap .UNRESOLVED_CONFLICT "The trace chain contains unresolved conflicts.")

def isBlocking (g : Gap) : Bool := decide (g.severity = .BLOCKING)

def requireObject (input : Json) : Except Failure Unit :=
  if input.isObject then .ok () else typeError "trace-chain input must be an object"

def conflictDimension (input : Json) : String :=
  if hasItems (path input ["conflicts"]) then "UNRESOLVED" else "NONE"

def evaluateTraceChain (input : Json) : Except Failure Chain := do
  requireObject input
  let featureId ← requireNonEmptyString (path input ["feature", "id"]) "feature.id"
  let claimId ← requireNonEmptyString (path input ["claim", "id"]) "claim.id"
  let claimVersion ← requirePositiveInteger (path input ["claim", "version"]) "claim.version"
  let claimType ← assertEnum ClaimType (path input ["claim", "type"]) "claim.type"
  let authority ← assertEnum AuthorityStatus
    (some (nullish (path input ["claim", "authorityStatus"]) (enumJson AuthorityStatus.UNREVIEWED)))
    "claim.authorityStatus"
  let (conformance, implementation) ← addConformanceGaps input claimId claimVersion
  let test ← testSpecGaps input claimId claimVersion
  let (verification, execution) ← executionGaps input
  let (freshness, evidence) ← evidenceGaps input
  let gaps := uniqueGaps (intentGaps input claimType authority ++ implementation ++ test ++
    execution ++ evidence ++ conflictGaps input)
  let evidenceSupport ← assertEnum EvidenceSupport
    (some (nullish (path input ["claim", "evidenceSupport"]) (enumJson EvidenceSupport.NONE)))
    "claim.evidenceSupport"
  let identity : Identity :=
    { featureId, claimId, claimVersion
      scopeId := scopeId input
      snapshotManifestId := snapshotManifestId input
      deploymentId := nullish
        (path input ["snapshotManifest", "components", "deployment", "id"]) .null }
  let chainId := contentId sha256 "TRACE-CHAIN" identity.toJson
  let segments ← createSegments sha256 chainId input identity conformance
  let conflicts ← conflictRecords sha256 chainId input
  return { id := chainId
           identity
           dimensions := { authority, evidenceSupport, conformance, verification, freshness
                           conflict := conflictDimension input }
           stages := stages input authority conformance verification freshness
           segments
           conflicts
           complete := !gaps.any isBlocking
           gaps
           computedAt := now.iso }

end Evaluation

/-! ## What a complete chain proves -/

/-- The links of the chain, but for the values of the conformance status and of the
freshness of the evidence. -/
structure Settled (input : Json) : Prop where
  normative : path input ["claim", "type"] = some (enumJson ClaimType.NORMATIVE_REQUIREMENT)
  authority : path input ["claim", "authorityStatus"] = some (enumJson AuthorityStatus.CONFIRMED) ∨
    path input ["claim", "authorityStatus"] = some (enumJson AuthorityStatus.EXCEPTION_RECORDED)
  scope : truthy (path input ["scope", "id"]) = true
  manifest : truthy (path input ["snapshotManifest", "complete"]) = true
  implementation : ∃ key ∈ implementationCollections,
    hasItems (path input ["implementation", key]) = true
  conformanceClaim :
    strictEq (path input ["conformance", "claimId"]) (path input ["claim", "id"]) = true
  conformanceVersion :
    strictEq (path input ["conformance", "claimVersion"]) (path input ["claim", "version"]) = true
  conformanceScope :
    strictEq (path input ["conformance", "scopeId"]) (path input ["scope", "id"]) = true
  conformanceManifest : strictEq (path input ["conformance", "snapshotManifestId"])
    (path input ["snapshotManifest", "id"]) = true
  testSpec : truthy (path input ["testSpec", "id"]) = true
  verifies : ∃ item ∈ itemsOf (path input ["testSpec", "verifiesClaims"]),
    strictEq (item.get? "id") (path input ["claim", "id"]) = true ∧
    strictEq (item.get? "version") (path input ["claim", "version"]) = true
  approved : truthy (path input ["testSpec", "approved"]) = true
  assertions : hasItems (path input ["testSpec", "assertions"]) = true
  execution : truthy (path input ["execution", "id"]) = true
  executionManifest : manifestMatches input = true
  executionDeployment : deploymentMatches input = true
  executionTestSpec :
    strictEq (path input ["execution", "testSpecId"]) (path input ["testSpec", "id"]) = true
  executionVersion :
    strictEq (path input ["execution", "testSpecVersion"]) (path input ["testSpec", "version"]) = true
  passed : path input ["execution", "status"] = some (enumJson VerificationStatus.PASS)
  evidence : linkedEvidence input ≠ []
  integrity : ∀ item ∈ linkedEvidence input,
    item.get? "integrity" = some (enumJson IntegrityStatus.VERIFIED)
  conflicts : hasItems (path input ["conflicts"]) = false

/-- A chain that proves its claim: no link is missing, stale or foreign. -/
structure Proven (input : Json) : Prop extends Settled input where
  conforms : path input ["conformance", "status"] = some (enumJson ConformanceStatus.CONFORMS)
  fresh : ∀ item ∈ linkedEvidence input,
    item.get? "freshness" = some (enumJson EvidenceFreshness.FRESH) ∨
    item.get? "freshness" = some (enumJson EvidenceFreshness.EXPIRING)

/-- A value that is given and is no string: one that `assertEnum` knows by its text only. -/
def coerced : Option Json → Bool
  | none | some .null | some (.str _) => false
  | _ => true

/-- No status that the checks of the chain compare with is such a value. -/
structure TextStatuses (input : Json) : Prop where
  conformance : coerced (path input ["conformance", "status"]) = false
  freshness : ∀ item ∈ linkedEvidence input, coerced (item.get? "freshness") = false

def FreshnessPasses (value : Option Json) : Prop :=
  coerced value = true ∨ value = some (enumJson EvidenceFreshness.FRESH) ∨
    value = some (enumJson EvidenceFreshness.EXPIRING)

/-- The statuses that raise no gap. -/
structure Passable (input : Json) : Prop where
  conformance : coerced (path input ["conformance", "status"]) = true ∨
    path input ["conformance", "status"] = some (enumJson ConformanceStatus.CONFORMS)
  freshness : ∀ item ∈ linkedEvidence input, FreshnessPasses (item.get? "freshness")

theorem coerced_enumJson {ε : Type} [EnumValues ε] (e : ε) :
    coerced (some (enumJson e)) = false := rfl

theorem proven_iff (input : Json) :
    Proven input ↔ Settled input ∧ Passable input ∧ TextStatuses input := by
  constructor
  · intro h
    refine ⟨h.toSettled, ⟨Or.inr h.conforms, fun item hi => Or.inr (h.fresh item hi)⟩, ?_, ?_⟩
    · rw [h.conforms, coerced_enumJson]
    · intro item hi
      rcases h.fresh item hi with hf | hf <;> rw [hf, coerced_enumJson]
  · rintro ⟨hs, hp, ht⟩
    refine ⟨hs, ?_, ?_⟩
    · rcases hp.conformance with hc | hc
      · simp [ht.conformance] at hc
      · exact hc
    · intro item hi
      rcases hp.freshness item hi with hf | hf
      · simp [ht.freshness item hi] at hf
      · exact hf

/-- What `assertEnum` lets through is a member of the enumeration, or no string at all. -/
theorem assertEnum_member {ε : Type} [EnumValues ε] (hnull : "null" ∉ EnumValues.names ε)
    {value : Option Json} {fieldName : String} {v : Json}
    (h : assertEnum ε value fieldName = .ok v) :
    coerced (some v) = true ∨ ∃ s ∈ EnumValues.names ε, v = .str s := by
  obtain ⟨-, hname⟩ := assertEnum_ok h
  cases v with
  | null => exact absurd hname hnull
  | str s => exact Or.inr ⟨s, hname, rfl⟩
  | _ => exact Or.inl rfl

/-! ## Each check finds what its link lacks -/

theorem isOneOf_one {ε : Type} [EnumValues ε] (v : Json) (a : ε) :
    isOneOf v [a] = true ↔ v = enumJson a := by
  simp [isOneOf]

theorem isOneOf_two {ε : Type} [EnumValues ε] (v : Json) (a b : ε) :
    isOneOf v [a, b] = true ↔ v = enumJson a ∨ v = enumJson b := by
  unfold isOneOf
  simp only [List.any_cons, List.any_nil, Bool.or_false, Bool.or_eq_true, decide_eq_true_eq]

theorem intentGaps_clear (input claimType authority : Json) :
    Clear (intentGaps input claimType authority) ↔
      claimType = enumJson ClaimType.NORMATIVE_REQUIREMENT ∧
      (authority = enumJson AuthorityStatus.CONFIRMED ∨
        authority = enumJson AuthorityStatus.EXCEPTION_RECORDED) ∧
      truthy (path input ["scope", "id"]) = true ∧
      truthy (path input ["snapshotManifest", "complete"]) = true ∧
      ∃ key ∈ implementationCollections, hasItems (path input ["implementation", key]) = true := by
  simp only [intentGaps, clear_append, clear_pushIf, Bool.not_eq_false', isOneOf_one, isOneOf_two,
    implementationMapped, List.any_eq_true, and_assoc]
  rfl

theorem conformanceGaps_clear {status : Json} (current : Bool)
    (hstatus : coerced (some status) = true ∨
      ∃ s ∈ EnumValues.names ConformanceStatus, status = .str s) :
    Clear (conformanceGaps (effectiveStatus status current)) ↔ current = true ∧
      (coerced (some status) = true ∨ status = enumJson ConformanceStatus.CONFORMS) := by
  have hother : coerced (some status) = true → ∀ e : ConformanceStatus, status ≠ enumJson e := by
    rintro hc e rfl
    simp [coerced_enumJson] at hc
  rcases hstatus with hc | ⟨s, hs, rfl⟩
  · have hne := hother hc
    cases current
    · simp [effectiveStatus, conformanceGaps, isOneOf, hne]
      simp [enumJson, EnumValues.name]
    · simp [effectiveStatus, conformanceGaps, isOneOf, hne, hc]
  · simp only [EnumValues.names, List.mem_cons, List.not_mem_nil, or_false] at hs
    rcases hs with rfl | rfl | rfl | rfl | rfl | rfl <;> cases current <;>
      simp [effectiveStatus, conformanceGaps, isOneOf, enumJson, EnumValues.name, coerced]

variable {claimId : String} {claimVersion : Number}

variable {input : Json}

theorem addConformanceGaps_clear
    {r : Json × List Gap} (h : addConformanceGaps input claimId claimVersion = .ok r) :
    Clear r.2 ↔ conformanceIsCurrent input claimId claimVersion = true ∧
      (coerced (path input ["conformance", "status"]) = true ∨
        path input ["conformance", "status"] = some (enumJson ConformanceStatus.CONFORMS)) := by
  unfold addConformanceGaps at h
  obtain ⟨status, hstatus, h⟩ := bind_ok h
  cases h
  rw [conformanceGaps_clear _ (assertEnum_member (by decide) hstatus)]
  obtain ⟨hvalue, -⟩ := assertEnum_ok hstatus
  -- a status that is not given counts as UNKNOWN, which is no passing one either
  cases hpath : path input ["conformance", "status"] with
  | none =>
    rw [hpath] at hvalue
    cases hvalue
    simp [coerced, nullish, enumJson, EnumValues.name]
  | some v =>
    rw [hpath] at hvalue
    cases v with
    | null =>
      cases hvalue
      simp [coerced, nullish, enumJson, EnumValues.name]
    | _ =>
      cases hvalue
      simp [nullish]

theorem someItem_ok {key : String} {test : Json → Bool} {items : List Json} {b : Bool}
    (h : someItem key test items = .ok b) :
    b = true ↔ ∃ item ∈ items, test item = true := by
  induction items with
  | nil =>
    cases h
    simp
  | cons item rest ih =>
    cases item with
    | null => cases h
    | _ =>
      simp only [someItem] at h
      split at h
      · cases h
        simp [*]
      · simp [ih h, *]

theorem verifiesCurrentClaim_ok {b : Bool}
    (h : verifiesCurrentClaim input claimId claimVersion = .ok b) :
    b = true ↔ ∃ item ∈ itemsOf (path input ["testSpec", "verifiesClaims"]),
      verifiesClaim claimId claimVersion item = true := by
  unfold verifiesCurrentClaim at h
  split at h
  case h_3 items hpath =>
    rw [hpath]
    exact someItem_ok h
  case h_4 => cases h
  all_goals
    rename_i hpath
    cases h
    simp [hpath, itemsOf]

theorem testSpecGaps_clear
    {gaps : List Gap} (h : testSpecGaps input claimId claimVersion = .ok gaps) :
    Clear gaps ↔ truthy (path input ["testSpec", "id"]) = true ∧
      (∃ item ∈ itemsOf (path input ["testSpec", "verifiesClaims"]),
        verifiesClaim claimId claimVersion item = true) ∧
      truthy (path input ["testSpec", "approved"]) = true ∧
      hasItems (path input ["testSpec", "assertions"]) = true := by
  unfold testSpecGaps at h
  split at h
  · rename_i hid
    cases h
    have hid : truthy (path input ["testSpec", "id"]) = false := by simpa using hid
    simp [hid]
  · rename_i hid
    have hid : truthy (path input ["testSpec", "id"]) = true := by simpa using hid
    obtain ⟨verifies, hverifies, h⟩ := bind_ok h
    cases h
    simp only [clear_append, clear_pushIf, Bool.not_eq_false', verifiesCurrentClaim_ok hverifies,
      hid, true_and, and_assoc]

theorem addVerificationGaps_clear {status : Json} {gaps : List Gap}
    (h : addVerificationGaps status = .ok gaps) :
    Clear gaps ↔ status = enumJson VerificationStatus.PASS := by
  unfold addVerificationGaps at h
  split at h
  · rename_i hpass
    cases h
    simp [(isOneOf_one _ _).mp hpass]
  · rename_i hpass
    have hne : status ≠ enumJson VerificationStatus.PASS := fun he => hpass ((isOneOf_one _ _).mpr he)
    split at h <;> cases h <;> simp [hne]

theorem executionGaps_clear {r : Json × List Gap} (h : executionGaps input = .ok r) :
    Clear r.2 ↔ executionIsCurrent input = true ∧
      path input ["execution", "status"] = some (enumJson VerificationStatus.PASS) := by
  unfold executionGaps at h
  split at h
  · rename_i hcurrent
    cases h
    have hcurrent : executionIsCurrent input = false := by simpa using hcurrent
    simp [hcurrent]
  · rename_i hcurrent
    have hcurrent : executionIsCurrent input = true := by simpa using hcurrent
    obtain ⟨verification, hv, h⟩ := bind_ok h
    obtain ⟨gaps, hg, h⟩ := bind_ok h
    cases h
    simp [addVerificationGaps_clear hg, (assertEnum_ok hv).1, hcurrent]

theorem invalidIntegrity_ok {evidence : List Json} {b : Bool}
    (h : invalidIntegrity evidence = .ok b) :
    b = false ↔ ∀ item ∈ evidence,
      item.get? "integrity" = some (enumJson IntegrityStatus.VERIFIED) := by
  induction evidence with
  | nil =>
    cases h
    simp
  | cons item rest ih =>
    unfold invalidIntegrity at h
    obtain ⟨integrity, hi, h⟩ := bind_ok h
    have hi := (assertEnum_ok hi).1
    by_cases hv : integrity = enumJson IntegrityStatus.VERIFIED
    · have hone : isOneOf integrity [IntegrityStatus.VERIFIED] = true := (isOneOf_one _ _).mpr hv
      simp only [hone, Bool.not_true, Bool.false_eq_true, if_false] at h
      simp [ih h, hi, hv]
    · have hone : isOneOf integrity [IntegrityStatus.VERIFIED] = false := by
        rw [Bool.eq_false_iff]
        exact fun he => hv ((isOneOf_one _ _).mp he)
      simp only [hone, Bool.not_false, if_true] at h
      cases h
      simp [hi, hv]

theorem readFreshness_ok {evidence values : List Json} (h : readFreshness evidence = .ok values) :
    values.map some = evidence.map (·.get? "freshness") ∧
      ∀ v ∈ values, coerced (some v) = true ∨
        ∃ s ∈ EnumValues.names EvidenceFreshness, v = .str s := by
  induction evidence generalizing values with
  | nil =>
    cases h
    simp
  | cons item rest ih =>
    unfold readFreshness at h
    obtain ⟨value, hvalue, h⟩ := bind_ok h
    obtain ⟨others, hothers, h⟩ := bind_ok h
    cases h
    obtain ⟨hmap, hmembers⟩ := ih hothers
    refine ⟨by simp [hmap, (assertEnum_ok hvalue).1], ?_⟩
    intro v hv
    rcases List.mem_cons.mp hv with rfl | hv
    · exact assertEnum_member (by decide) hvalue
    · exact hmembers v hv

/-- Only the strings STALE and INCOMPLETE among the values keep evidence from passing. -/
theorem freshnessGaps_freshnessOf (current : Bool) (values : List Json) :
    Clear (freshnessGaps (freshnessOf current values)) ↔ current = true ∧
      enumJson EvidenceFreshness.STALE ∉ values ∧
      enumJson EvidenceFreshness.INCOMPLETE ∉ values := by
  unfold freshnessOf
  cases current
  · simp [freshnessGaps]
  · by_cases hs : enumJson EvidenceFreshness.STALE ∈ values
    · simp [hs, freshnessGaps]
    · by_cases hi : enumJson EvidenceFreshness.INCOMPLETE ∈ values
      · simp [hs, hi, freshnessGaps]
      · by_cases he : enumJson EvidenceFreshness.EXPIRING ∈ values <;>
          simp [hs, hi, he, freshnessGaps]

theorem freshness_passes {v : Json} (hv : coerced (some v) = true ∨
      ∃ s ∈ EnumValues.names EvidenceFreshness, v = .str s) :
    FreshnessPasses (some v) ↔
      v ≠ enumJson EvidenceFreshness.STALE ∧ v ≠ enumJson EvidenceFreshness.INCOMPLETE := by
  unfold FreshnessPasses
  rcases hv with hc | ⟨s, hs, rfl⟩
  · have hne : ∀ e : EvidenceFreshness, v ≠ enumJson e := by
      rintro e rfl
      simp [coerced_enumJson] at hc
    simp [hne, hc]
  · simp only [EnumValues.names, List.mem_cons, List.not_mem_nil, or_false] at hs
    rcases hs with rfl | rfl | rfl | rfl <;> simp [enumJson, EnumValues.name, coerced]

theorem freshnessGaps_clear {evidence values : List Json} (current : Bool)
    (h : readFreshness evidence = .ok values) :
    Clear (freshnessGaps (freshnessOf current values)) ↔ current = true ∧
      ∀ item ∈ evidence, FreshnessPasses (item.get? "freshness") := by
  obtain ⟨hmap, hmembers⟩ := readFreshness_ok h
  have hitems : (∀ item ∈ evidence, FreshnessPasses (item.get? "freshness")) ↔
      ∀ v ∈ values, FreshnessPasses (some v) := by
    calc (∀ item ∈ evidence, FreshnessPasses (item.get? "freshness"))
        ↔ ∀ o ∈ evidence.map (·.get? "freshness"), FreshnessPasses o := by simp
      _ ↔ ∀ o ∈ values.map some, FreshnessPasses o := by rw [hmap]
      _ ↔ ∀ v ∈ values, FreshnessPasses (some v) := by simp
  rw [freshnessGaps_freshnessOf, hitems]
  apply and_congr_right
  intro _
  constructor
  · rintro ⟨hs, hi⟩ v hv
    exact (freshness_passes (hmembers v hv)).mpr ⟨fun he => hs (he ▸ hv), fun he => hi (he ▸ hv)⟩
  · intro h
    refine ⟨fun hs => ?_, fun hi => ?_⟩
    · exact ((freshness_passes (hmembers _ hs)).mp (h _ hs)).1 rfl
    · exact ((freshness_passes (hmembers _ hi)).mp (h _ hi)).2 rfl

theorem evidenceGaps_clear {r : EvidenceFreshness × List Gap} (h : evidenceGaps input = .ok r) :
    Clear r.2 ↔ linkedEvidence input ≠ [] ∧
      (∀ item ∈ linkedEvidence input,
        item.get? "integrity" = some (enumJson IntegrityStatus.VERIFIED)) ∧
      executionIsCurrent input = true ∧
      ∀ item ∈ linkedEvidence input, FreshnessPasses (item.get? "freshness") := by
  unfold evidenceGaps at h
  obtain ⟨evidence, he, h⟩ := bind_ok h
  unfold selectEvidence at he
  split at he
  · cases he
  · cases he
    by_cases hnone : linkedEvidence input = []
    · simp only [hnone, List.isEmpty_nil, if_true] at h
      cases h
      simp [hnone]
    · have hsome : (linkedEvidence input).isEmpty = false := by simpa using hnone
      simp only [hsome, Bool.false_eq_true, if_false] at h
      obtain ⟨invalid, hinvalid, h⟩ := bind_ok h
      obtain ⟨values, hvalues, h⟩ := bind_ok h
      cases h
      simp only [clear_append, clear_pushIf, invalidIntegrity_ok hinvalid,
        freshnessGaps_clear _ hvalues, ne_eq, hnone, not_false_eq_true, true_and]

/-! ## The whole chain -/

section Evaluation

variable {sha256 : String → String} {now : Instant} {input : Json} {chain : Chain}

theorem any_isBlocking (gaps : List Gap) : (!gaps.any isBlocking) = true ↔ Clear gaps := by
  simp [isBlocking, Clear]

/-- The parts that an accepted input is read into, and the gaps they leave. -/
theorem evaluateTraceChain_ok (h : evaluateTraceChain sha256 now input = .ok chain) :
    ∃ claimId claimVersion claimType authority implementation test execution evidence,
      path input ["claim", "id"] = some (.str claimId) ∧
      path input ["claim", "version"] = some (.num claimVersion) ∧
      path input ["claim", "type"] = some claimType ∧
      nullish (path input ["claim", "authorityStatus"]) (enumJson AuthorityStatus.UNREVIEWED) =
        authority ∧
      addConformanceGaps input claimId claimVersion = .ok implementation ∧
      testSpecGaps input claimId claimVersion = .ok test ∧
      executionGaps input = .ok execution ∧
      evidenceGaps input = .ok evidence ∧
      (chain.complete = true ↔ Clear (intentGaps input claimType authority ++ implementation.2 ++
        test ++ execution.2 ++ evidence.2 ++ conflictGaps input)) := by
  unfold evaluateTraceChain at h
  obtain ⟨-, -, h⟩ := bind_ok h
  obtain ⟨featureId, -, h⟩ := bind_ok h
  obtain ⟨claimId, hid, h⟩ := bind_ok h
  obtain ⟨claimVersion, hversion, h⟩ := bind_ok h
  obtain ⟨claimType, htype, h⟩ := bind_ok h
  obtain ⟨authority, hauthority, h⟩ := bind_ok h
  obtain ⟨implementation, himplementation, h⟩ := bind_ok h
  obtain ⟨test, htest, h⟩ := bind_ok h
  obtain ⟨execution, hexecution, h⟩ := bind_ok h
  obtain ⟨evidence, hevidence, h⟩ := bind_ok h
  obtain ⟨evidenceSupport, -, h⟩ := bind_ok h
  obtain ⟨segments, -, h⟩ := bind_ok h
  obtain ⟨conflicts, -, h⟩ := bind_ok h
  cases h
  refine ⟨claimId, claimVersion, claimType, authority, implementation, test, execution,
    evidence, (requireNonEmptyString_ok hid).1, requirePositiveInteger_ok hversion,
    (assertEnum_ok htype).1, Option.some.inj (assertEnum_ok hauthority).1, himplementation, htest,
    hexecution, hevidence, ?_⟩
  rw [any_isBlocking, clear_uniqueGaps]

theorem conflictGaps_clear (input : Json) :
    Clear (conflictGaps input) ↔ hasItems (path input ["conflicts"]) = false := by
  simp [conflictGaps]

/-- A default that is no confirmed authority never counts as one. -/
theorem authority_given (value : Option Json) (e : AuthorityStatus) (he : e ≠ .UNREVIEWED) :
    nullish value (enumJson AuthorityStatus.UNREVIEWED) = enumJson e ↔ value = some (enumJson e) := by
  rcases value with _ | v
  · cases e <;> simp_all [nullish, enumJson, EnumValues.name]
  · cases v <;> cases e <;> simp_all [nullish, enumJson, EnumValues.name]

theorem conformanceIsCurrent_iff
    (hid : path input ["claim", "id"] = some (.str claimId))
    (hversion : path input ["claim", "version"] = some (.num claimVersion))
    (hscope : truthy (path input ["scope", "id"]) = true) (hmanifest : manifestMatches input = true) :
    conformanceIsCurrent input claimId claimVersion = true ↔
      strictEq (path input ["conformance", "claimId"]) (path input ["claim", "id"]) = true ∧
      strictEq (path input ["conformance", "claimVersion"]) (path input ["claim", "version"]) =
        true ∧
      strictEq (path input ["conformance", "scopeId"]) (path input ["scope", "id"]) = true ∧
      strictEq (path input ["conformance", "snapshotManifestId"])
        (path input ["snapshotManifest", "id"]) = true := by
  have hnamed : truthy (path input ["snapshotManifest", "id"]) = true := by
    unfold manifestMatches at hmanifest
    rw [Bool.and_eq_true] at hmanifest
    rw [← eq_of_strictEq hmanifest.2]
    exact hmanifest.1
  simp only [conformanceIsCurrent, scopeId, snapshotManifestId, nullish_of_truthy hscope,
    nullish_of_truthy hnamed, hid, hversion, Bool.and_eq_true, and_assoc]

theorem executionIsCurrent_iff (input : Json) :
    executionIsCurrent input = true ↔ truthy (path input ["execution", "id"]) = true ∧
      deploymentMatches input = true ∧ manifestMatches input = true ∧
      truthy (path input ["testSpec", "id"]) = true ∧
      strictEq (path input ["execution", "testSpecId"]) (path input ["testSpec", "id"]) = true ∧
      strictEq (path input ["execution", "testSpecVersion"]) (path input ["testSpec", "version"]) =
        true := by
  simp only [executionIsCurrent, testSpecMatches, Bool.and_eq_true, and_assoc]

theorem verifiesClaim_iff
    (hid : path input ["claim", "id"] = some (.str claimId))
    (hversion : path input ["claim", "version"] = some (.num claimVersion)) (item : Json) :
    verifiesClaim claimId claimVersion item = true ↔
      strictEq (item.get? "id") (path input ["claim", "id"]) = true ∧
      strictEq (item.get? "version") (path input ["claim", "version"]) = true := by
  rw [hid, hversion, verifiesClaim, Bool.and_eq_true]

/-- An accepted input gives a complete chain when its links are settled and its statuses
raise no gap. -/
theorem complete_iff_settled_and_passable (h : evaluateTraceChain sha256 now input = .ok chain) :
    chain.complete = true ↔ Settled input ∧ Passable input := by
  obtain ⟨claimId, claimVersion, claimType, authority, implementation, test, execution, evidence,
    hid, hversion, htype, hauthority, himplementation, htest, hexecution, hevidence, hcomplete⟩ :=
    evaluateTraceChain_ok h
  rw [hcomplete]
  simp only [clear_append, intentGaps_clear, addConformanceGaps_clear himplementation,
    testSpecGaps_clear htest, executionGaps_clear hexecution, evidenceGaps_clear hevidence,
    conflictGaps_clear, executionIsCurrent_iff, verifiesClaim_iff hid hversion]
  subst hauthority
  simp only [authority_given _ AuthorityStatus.CONFIRMED (by decide),
    authority_given _ AuthorityStatus.EXCEPTION_RECORDED (by decide)]
  constructor
  · rintro ⟨⟨⟨⟨⟨⟨hnormative, hauth, hscope, hcomplete, himpl⟩, hcurrent, hconforms⟩, hspec, hverifies,
      happroved, hassertions⟩, ⟨hexec, hdeployment, hmanifest, -, hspecId, hspecVersion⟩, hpass⟩,
      hsome, hintegrity, -, hfresh⟩, hconflicts⟩
    obtain ⟨hcid, hcversion, hcscope, hcmanifest⟩ :=
      (conformanceIsCurrent_iff hid hversion hscope hmanifest).mp hcurrent
    refine ⟨?_, hconforms, hfresh⟩
    exact
      { normative := by rw [htype, hnormative]
        authority := hauth
        scope := hscope
        manifest := hcomplete
        implementation := himpl
        conformanceClaim := hcid
        conformanceVersion := hcversion
        conformanceScope := hcscope
        conformanceManifest := hcmanifest
        testSpec := hspec
        verifies := hverifies
        approved := happroved
        assertions := hassertions
        execution := hexec
        executionManifest := hmanifest
        executionDeployment := hdeployment
        executionTestSpec := hspecId
        executionVersion := hspecVersion
        passed := hpass
        evidence := hsome
        integrity := hintegrity
        conflicts := hconflicts }
  · rintro ⟨hs, hp⟩
    have hnormative : claimType = enumJson ClaimType.NORMATIVE_REQUIREMENT :=
      Option.some.inj (htype.symm.trans hs.normative)
    have hcurrent : conformanceIsCurrent input claimId claimVersion = true :=
      (conformanceIsCurrent_iff hid hversion hs.scope hs.executionManifest).mpr
        ⟨hs.conformanceClaim, hs.conformanceVersion, hs.conformanceScope, hs.conformanceManifest⟩
    have hexec := And.intro hs.execution (And.intro hs.executionDeployment
      (And.intro hs.executionManifest (And.intro hs.testSpec
        (And.intro hs.executionTestSpec hs.executionVersion))))
    exact ⟨⟨⟨⟨⟨⟨hnormative, hs.authority, hs.scope, hs.manifest, hs.implementation⟩, hcurrent,
      hp.conformance⟩, hs.testSpec, hs.verifies, hs.approved, hs.assertions⟩, hexec, hs.passed⟩,
      hs.evidence, hs.integrity, hexec, hp.freshness⟩, hs.conflicts⟩

/-- The chains whose completeness says what it should: a status that is no string does no
harm as long as something else keeps the chain from being complete. -/
def StatusesMatter (input : Json) : Prop :=
  Settled input → Passable input → TextStatuses input

/-- A chain is complete exactly when every link of it holds, unless a status that is no
string slips through in a chain that is settled otherwise. -/
theorem complete_iff_proven (h : evaluateTraceChain sha256 now input = .ok chain) :
    (chain.complete = true ↔ Proven input) ↔ StatusesMatter input := by
  rw [complete_iff_settled_and_passable h, proven_iff]
  unfold StatusesMatter
  constructor
  · intro hiff hs hp
    exact (hiff.mp ⟨hs, hp⟩).2.2
  · intro ht
    constructor
    · rintro ⟨hs, hp⟩
      exact ⟨hs, hp, ht hs hp⟩
    · rintro ⟨hs, hp, -⟩
      exact ⟨hs, hp⟩

end Evaluation

/-! ## A status in an array -/

/-- A chain with every link in place, and the given conformance status. -/
def linkedInput (status : Json) : Json :=
  .obj [("feature", .obj [("id", .str "F")]),
    ("claim", .obj [("id", .str "C"), ("version", .num (Number.ofNat 1)),
      ("type", enumJson ClaimType.NORMATIVE_REQUIREMENT),
      ("authorityStatus", enumJson AuthorityStatus.CONFIRMED)]),
    ("scope", .obj [("id", .str "S")]),
    ("snapshotManifest", .obj [("id", .str "M"), ("complete", .bool true),
      ("components", .obj [("deployment", .obj [("id", .str "D")])])]),
    ("implementation", .obj [("endpoints", .arr [.str "GET /"])]),
    ("conformance", .obj [("status", status), ("claimId", .str "C"),
      ("claimVersion", .num (Number.ofNat 1)), ("scopeId", .str "S"),
      ("snapshotManifestId", .str "M")]),
    ("testSpec", .obj [("id", .str "T"), ("version", .num (Number.ofNat 1)),
      ("verifiesClaims", .arr [.obj [("id", .str "C"), ("version", .num (Number.ofNat 1))]]),
      ("approved", .bool true), ("assertions", .arr [.obj [("id", .str "A")]])]),
    ("execution", .obj [("id", .str "E"), ("deploymentId", .str "D"),
      ("snapshotManifestId", .str "M"), ("testSpecId", .str "T"),
      ("testSpecVersion", .num (Number.ofNat 1)), ("status", enumJson VerificationStatus.PASS)]),
    ("evidence", .arr [.obj [("id", .str "V"), ("executionId", .str "E"),
      ("integrity", enumJson IntegrityStatus.VERIFIED),
      ("freshness", enumJson EvidenceFreshness.FRESH)]])]

def noon : Instant := { time := 1767182400000, iso := "2025-12-31T12:00:00.000Z" }

def evaluated (status : Json) : Except Failure Chain :=
  evaluateTraceChain (fun _ => "0123456789abcdef01234567") noon (linkedInput status)

theorem evaluated_complete (status : Json)
    (h : (evaluated status).toOption.map (·.complete) = some true) :
    ∃ chain, evaluated status = .ok chain ∧ chain.complete = true := by
  cases he : evaluated status with
  | error e => simp [he, Except.toOption] at h
  | ok chain => exact ⟨chain, rfl, by simpa [he, Except.toOption] using h⟩

theorem conforming_chain_is_proven :
    ∃ chain, evaluated (enumJson ConformanceStatus.CONFORMS) = .ok chain ∧
      (chain.complete = true ↔ Proven (linkedInput (enumJson ConformanceStatus.CONFORMS))) := by
  obtain ⟨chain, hchain, -⟩ := evaluated_complete
    (enumJson ConformanceStatus.CONFORMS) (by decide +kernel)
  refine ⟨chain, hchain, (complete_iff_proven hchain).mpr fun _ _ => ?_⟩
  exact ⟨by decide +kernel, by decide +kernel⟩

/-- A deviation in an array of one passes for a conforming implementation. -/
theorem deviation_in_an_array_completes_the_chain :
    ¬ ∀ (sha256 : String → String) (now : Instant) (input : Json) (chain : Chain),
      evaluateTraceChain sha256 now input = .ok chain → (chain.complete = true ↔ Proven input) := by
  intro h
  obtain ⟨chain, hchain, hcomplete⟩ := evaluated_complete
    (.arr [enumJson ConformanceStatus.DEVIATES]) (by decide +kernel)
  have hproven := (h _ _ _ _ hchain).mp hcomplete
  exact absurd hproven.conforms (by decide +kernel)

end Traqen.TraceChain
