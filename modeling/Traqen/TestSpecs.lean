-- Test specifications (`domain/test-spec.js`): what one must be to be stored, and what it must be
-- to be executed. Every value comes from parsed JSON.
import Traqen.ExecutionEvidence

open Js

namespace Traqen.TestSpecs

open ExecutionEvidence

/-! ## Enumerations -/

inductive TestRisk where
  | LOW
  | MEDIUM
  | HIGH
  | CRITICAL
deriving DecidableEq, Repr

instance : EnumValues TestRisk where
  names := ["LOW", "MEDIUM", "HIGH", "CRITICAL"]
  name
    | .LOW => "LOW"
    | .MEDIUM => "MEDIUM"
    | .HIGH => "HIGH"
    | .CRITICAL => "CRITICAL"

inductive TestOperationLevel where
  | SAFE_READ
  | CONTROLLED_WRITE
  | DESTRUCTIVE
  | EXTERNAL_SIDE_EFFECT
deriving DecidableEq, Repr

instance : EnumValues TestOperationLevel where
  names := ["SAFE_READ", "CONTROLLED_WRITE", "DESTRUCTIVE", "EXTERNAL_SIDE_EFFECT"]
  name
    | .SAFE_READ => "SAFE_READ"
    | .CONTROLLED_WRITE => "CONTROLLED_WRITE"
    | .DESTRUCTIVE => "DESTRUCTIVE"
    | .EXTERNAL_SIDE_EFFECT => "EXTERNAL_SIDE_EFFECT"

inductive TestExecutor where
  | HTTP
  | DATABASE
  | EXISTING_TEST
deriving DecidableEq, Repr

instance : EnumValues TestExecutor where
  names := ["HTTP", "DATABASE", "EXISTING_TEST"]
  name
    | .HTTP => "HTTP"
    | .DATABASE => "DATABASE"
    | .EXISTING_TEST => "EXISTING_TEST"

inductive TestSpecOriginType where
  | MANUAL
  | CONFIRMED_CLAIM_CONVERSION
  | REVERSE_SKILL_CANDIDATE
deriving DecidableEq, Repr

instance : EnumValues TestSpecOriginType where
  names := ["MANUAL", "CONFIRMED_CLAIM_CONVERSION", "REVERSE_SKILL_CANDIDATE"]
  name
    | .MANUAL => "MANUAL"
    | .CONFIRMED_CLAIM_CONVERSION => "CONFIRMED_CLAIM_CONVERSION"
    | .REVERSE_SKILL_CANDIDATE => "REVERSE_SKILL_CANDIDATE"

/-! ## The parts of a specification -/

abbrev Fields := List (String × Json)

def requireBoolean (value : Option Json) (fieldName : String) (defaultValue : Bool) :
    Except Failure Bool :=
  match value with
  | none => .ok defaultValue
  | some (.bool b) => .ok b
  | _ => typeError (fieldName ++ " must be a boolean")

structure Approval where
  actorId : String
  actorRole : String
  approvedAt : Timestamp
  rationale : Json
  requestFingerprint : Json

def Approval.toJson (a : Approval) : Json :=
  .obj [("actorId", .str a.actorId), ("actorRole", .str a.actorRole),
    ("approvedAt", .str a.approvedAt.text), ("rationale", a.rationale),
    ("requestFingerprint", a.requestFingerprint)]

structure ClaimRef where
  id : String
  version : Number

def ClaimRef.toJson (r : ClaimRef) : Json := .obj [("id", .str r.id), ("version", .num r.version)]

structure TestSpec where
  id : String
  version : Number
  name : String
  risk : Json
  approved : Bool
  approval : Option Approval
  featureId : String
  verifiesClaims : List ClaimRef
  origin : Json
  sourceSnapshotId : Json
  environment : Fields
  preconditions : List Fields
  variableValues : Fields
  steps : List Fields
  assertions : List Fields
  cleanup : Option Fields
  policy : Fields
  createdAt : Timestamp

def TestSpec.toJson (t : TestSpec) : Json :=
  .obj [("id", .str t.id), ("version", .num t.version), ("name", .str t.name), ("risk", t.risk),
    ("approved", .bool t.approved), ("approval", (t.approval.map Approval.toJson).getD .null),
    ("featureId", .str t.featureId), ("verifiesClaims", .arr (t.verifiesClaims.map ClaimRef.toJson)),
    ("origin", t.origin), ("sourceSnapshotId", t.sourceSnapshotId),
    ("environment", .obj t.environment), ("preconditions", .arr (t.preconditions.map .obj)),
    ("variables", .obj t.variableValues), ("steps", .arr (t.steps.map .obj)),
    ("assertions", .arr (t.assertions.map .obj)), ("cleanup", (t.cleanup.map .obj).getD .null),
    ("policy", .obj t.policy), ("createdAt", .str t.createdAt.text)]

def manualOrigin (requestFingerprint : Json) : Json :=
  .obj [("type", enumJson TestSpecOriginType.MANUAL), ("claimRef", .null), ("decisionId", .null),
    ("mappingId", .null), ("factIds", .arr []), ("generator", .null),
    ("requestFingerprint", requestFingerprint)]

def normalizeFactIds (value : Option Json) : Except Failure (List String) := do
  let items ← requireArray value "testSpec.origin.factIds" true
  items.zipIdx.mapM fun (factId, index) =>
    requireNonEmptyString (some factId) ("testSpec.origin.factIds[" ++ toString index ++ "]")

def normalizeOrigin (value : Option Json) : Except Failure Json :=
  match value with
  | none | some .null => .ok (manualOrigin .null)
  | _ => do
    let origin ← requireObject value "testSpec.origin"
    let type ← assertEnum TestSpecOriginType (origin.lookup "type") "testSpec.origin.type"
    if isMember (some type) TestSpecOriginType.MANUAL then
      let requestFingerprint ← ExecutionEvidence.optionalString (origin.lookup "requestFingerprint")
        "testSpec.origin.requestFingerprint"
      return manualOrigin requestFingerprint
    else
      let claimRef ← requireObject (origin.lookup "claimRef") "testSpec.origin.claimRef"
      let generator ← requireObject (origin.lookup "generator") "testSpec.origin.generator"
      let factIds ← normalizeFactIds (origin.lookup "factIds")
      let id ← requireNonEmptyString (claimRef.lookup "id") "testSpec.origin.claimRef.id"
      let version ← requirePositiveInteger (claimRef.lookup "version")
        "testSpec.origin.claimRef.version"
      let decisionId ← requireNonEmptyString (origin.lookup "decisionId")
        "testSpec.origin.decisionId"
      let mappingId ← requireNonEmptyString (origin.lookup "mappingId") "testSpec.origin.mappingId"
      let generatorId ← requireNonEmptyString (generator.lookup "id")
        "testSpec.origin.generator.id"
      let generatorVersion ← requireNonEmptyString (generator.lookup "version")
        "testSpec.origin.generator.version"
      let requestFingerprint ← requireNonEmptyString (origin.lookup "requestFingerprint")
        "testSpec.origin.requestFingerprint"
      return .obj [("type", type), ("claimRef", (ClaimRef.mk id version).toJson),
        ("decisionId", .str decisionId), ("mappingId", .str mappingId),
        ("factIds", .arr (factIds.eraseDups.map .str)),
        ("generator", .obj [("id", .str generatorId), ("version", .str generatorVersion)]),
        ("requestFingerprint", .str requestFingerprint)]

def normalizeClaimRefs (value : Option Json) : Except Failure (List ClaimRef) := do
  let items ← requireArray value "testSpec.verifiesClaims" true
  let references ← items.zipIdx.mapM fun (reference, index) => do
    let name := "testSpec.verifiesClaims[" ++ toString index ++ "]"
    let id ← requireNonEmptyString (field (some reference) "id") (name ++ ".id")
    let version ← requirePositiveInteger (field (some reference) "version") (name ++ ".version")
    return ClaimRef.mk id version
  return (OrderedMap.ofList (references.map fun r => ((r.id, r.version), r))).map (·.2)

def requireUniqueIds (items : List Fields) (fieldName : String) : Except Failure (List Fields) :=
  let ids := items.map (List.lookup "id")
  if ids.eraseDups.length ≠ ids.length then typeError (fieldName ++ " must use unique ids")
  else .ok items

/-- A step with its two checked fields. -/
def normalizeStep (step : Json) (index : Nat) : Except Failure Fields := do
  let name := "testSpec.steps[" ++ toString index ++ "]"
  let fields ← requireObject (some step) name
  let id ← requireNonEmptyString (fields.lookup "id") (name ++ ".id")
  let executor ← assertEnum TestExecutor (fields.lookup "executor") (name ++ ".executor")
  return OrderedMap.setAll fields [("id", .str id), ("executor", executor)]

def normalizeSteps (value : Option Json) : Except Failure (List Fields) := do
  let items ← requireArray value "testSpec.steps" true
  let steps ← items.zipIdx.mapM fun (step, index) => normalizeStep step index
  requireUniqueIds steps "testSpec.steps"

def normalizeAssertion (assertion : Json) (index : Nat) : Except Failure Fields := do
  let name := "testSpec.assertions[" ++ toString index ++ "]"
  let fields ← requireObject (some assertion) name
  let id ← requireNonEmptyString (fields.lookup "id") (name ++ ".id")
  let type ← requireNonEmptyString (fields.lookup "type") (name ++ ".type")
  return OrderedMap.setAll fields [("id", .str id), ("type", .str type)]

def normalizeAssertions (value : Option Json) : Except Failure (List Fields) := do
  let items ← requireArray value "testSpec.assertions" false
  let assertions ← items.zipIdx.mapM fun (assertion, index) => normalizeAssertion assertion index
  requireUniqueIds assertions "testSpec.assertions"

/-- `environment`, with its two checked fields. -/
def normalizeEnvironment (environment : Fields) : Except Failure Fields := do
  let target ← requireNonEmptyString (environment.lookup "target") "testSpec.environment.target"
  let operationLevel ← assertEnum TestOperationLevel (environment.lookup "operationLevel")
    "testSpec.environment.operationLevel"
  return OrderedMap.setAll environment [("target", .str target), ("operationLevel", operationLevel)]

def normalizePreconditions (value : Option Json) : Except Failure (List Fields) := do
  let items ← requireArray (some (nullish value (.arr []))) "testSpec.preconditions" false
  items.zipIdx.mapM fun (item, index) =>
    requireObject (some item) ("testSpec.preconditions[" ++ toString index ++ "]")

def normalizeCleanup (value : Option Json) : Except Failure (Option Fields) :=
  match value with
  | none | some .null => .ok none
  | _ => do
    let cleanup ← requireObject value "testSpec.cleanup"
    return some cleanup

/-- `policy`, with its three flags and their defaults. -/
def normalizePolicy (policy : Fields) : Except Failure Fields := do
  let approvalRequired ← requireBoolean (policy.lookup "approvalRequired")
    "testSpec.policy.approvalRequired" true
  let destructive ← requireBoolean (policy.lookup "destructive")
    "testSpec.policy.destructive" false
  let externalSideEffect ← requireBoolean (policy.lookup "externalSideEffect")
    "testSpec.policy.externalSideEffect" false
  return OrderedMap.setAll policy [("approvalRequired", .bool approvalRequired),
    ("destructive", .bool destructive), ("externalSideEffect", .bool externalSideEffect)]

section Creation

variable (dateParse : String → Option Int)

def normalizeApproval (value : Option Json) (approved : Bool) :
    Except Failure (Option Approval) :=
  if approved then do
    let approval ← requireObject value "testSpec.approval"
    let approvedAt ←
      isoTimestamp dateParse (approval.lookup "approvedAt") "testSpec.approval.approvedAt"
    let actorId ← requireNonEmptyString (approval.lookup "actorId") "testSpec.approval.actorId"
    let actorRole ←
      requireNonEmptyString (approval.lookup "actorRole") "testSpec.approval.actorRole"
    let rationale ←
      ExecutionEvidence.optionalString (approval.lookup "rationale") "testSpec.approval.rationale"
    let requestFingerprint ← ExecutionEvidence.optionalString (approval.lookup "requestFingerprint")
      "testSpec.approval.requestFingerprint"
    return some { actorId, actorRole, approvedAt, rationale, requestFingerprint }
  else
    match value with
    | none | some .null => .ok none
    | _ => typeError "testSpec.approval must be null when testSpec.approved is false"

def createTestSpec (input : Option Json) (now : Instant) : Except Failure TestSpec := do
  let environment ← requireObject (field input "environment") "testSpec.environment"
  let policy ← requireObject (some (nullish (field input "policy") (.obj []))) "testSpec.policy"
  let approved ← requireBoolean (field input "approved") "testSpec.approved" false
  let approval ← normalizeApproval dateParse (field input "approval") approved
  let createdAt ← isoTimestamp dateParse
    (some (nullish (field input "createdAt") (.str now.iso))) "testSpec.createdAt"
  if approval.any fun a => a.approvedAt.time > createdAt.time then
    rangeError "testSpec.approval.approvedAt must not be later than testSpec.createdAt"
  else
    let id ← requireNonEmptyString (field input "id") "testSpec.id"
    let version ← requirePositiveInteger (field input "version") "testSpec.version"
    let name ← requireNonEmptyString (field input "name") "testSpec.name"
    let risk ← assertEnum TestRisk (field input "risk") "testSpec.risk"
    let featureId ← requireNonEmptyString (field input "featureId") "testSpec.featureId"
    let verifiesClaims ← normalizeClaimRefs (field input "verifiesClaims")
    let origin ← normalizeOrigin (field input "origin")
    let sourceSnapshotId ←
      ExecutionEvidence.optionalString (field input "sourceSnapshotId") "testSpec.sourceSnapshotId"
    let environment ← normalizeEnvironment environment
    let preconditions ← normalizePreconditions (field input "preconditions")
    let variableValues ← requireObject
      (some (nullish (field input "variables") (.obj []))) "testSpec.variables"
    let steps ← normalizeSteps (field input "steps")
    let assertions ←
      normalizeAssertions (some (nullish (field input "assertions") (.arr [])))
    let cleanup ← normalizeCleanup (field input "cleanup")
    let policy ← normalizePolicy policy
    return { id, version, name, risk, approved, approval, featureId, verifiesClaims, origin,
             sourceSnapshotId, environment, preconditions, variableValues, steps, assertions
             cleanup, policy, createdAt }

end Creation

/-! ## Violations -/

inductive ViolationCode where
  | INVALID_TEST_SPEC
  | RAW_SECRET_FORBIDDEN
  | RAW_SQL_FORBIDDEN
  | QUERY_REF_REQUIRED
  | RAW_TEST_COMMAND_FORBIDDEN
  | TEST_REF_REQUIRED
  | HTTP_STEP_INVALID
  | OPERATION_METHOD_MISMATCH
  | UNSUPPORTED_ASSERTION
  | ASSERTION_STEP_REQUIRED
  | ASSERTION_EXECUTOR_MISMATCH
  | SENSITIVE_ASSERTION_FORBIDDEN
  | NO_ASSERTION
  | APPROVAL_REQUIRED
  | SEED_REQUIRED
  | CLEANUP_REQUIRED
  | DESTRUCTIVE_BLOCKED
  | EXTERNAL_SIDE_EFFECT_BLOCKED
deriving DecidableEq, Repr

def ViolationCode.text : ViolationCode → String
  | .INVALID_TEST_SPEC => "INVALID_TEST_SPEC"
  | .RAW_SECRET_FORBIDDEN => "RAW_SECRET_FORBIDDEN"
  | .RAW_SQL_FORBIDDEN => "RAW_SQL_FORBIDDEN"
  | .QUERY_REF_REQUIRED => "QUERY_REF_REQUIRED"
  | .RAW_TEST_COMMAND_FORBIDDEN => "RAW_TEST_COMMAND_FORBIDDEN"
  | .TEST_REF_REQUIRED => "TEST_REF_REQUIRED"
  | .HTTP_STEP_INVALID => "HTTP_STEP_INVALID"
  | .OPERATION_METHOD_MISMATCH => "OPERATION_METHOD_MISMATCH"
  | .UNSUPPORTED_ASSERTION => "UNSUPPORTED_ASSERTION"
  | .ASSERTION_STEP_REQUIRED => "ASSERTION_STEP_REQUIRED"
  | .ASSERTION_EXECUTOR_MISMATCH => "ASSERTION_EXECUTOR_MISMATCH"
  | .SENSITIVE_ASSERTION_FORBIDDEN => "SENSITIVE_ASSERTION_FORBIDDEN"
  | .NO_ASSERTION => "NO_ASSERTION"
  | .APPROVAL_REQUIRED => "APPROVAL_REQUIRED"
  | .SEED_REQUIRED => "SEED_REQUIRED"
  | .CLEANUP_REQUIRED => "CLEANUP_REQUIRED"
  | .DESTRUCTIVE_BLOCKED => "DESTRUCTIVE_BLOCKED"
  | .EXTERNAL_SIDE_EFFECT_BLOCKED => "EXTERNAL_SIDE_EFFECT_BLOCKED"

structure Violation where
  code : ViolationCode
  path : String
  message : String
deriving DecidableEq, Repr

/-- `typeof child.secretRef === "string" && child.secretRef.trim() !== ""`, of an object. -/
def isSecretReference (child : Json) : Bool :=
  match child.get? "secretRef" with
  | some (.str ref) => !isBlank ref
  | _ => false

/-- `/\$\{[^}]+\}/`; the reference ends at the first closing brace. -/
def templateStart (text : List Char) : Option (List Char × List Char) :=
  match text with
  | '$' :: '\x7b' :: rest =>
    match rest.span (· ≠ '\x7d') with
    | (name@(_ :: _), _ :: after) => some (name, after)
    | _ => none
  | _ => none

def hasTemplate (text : String) : Bool := text.toList.tails.any fun t => (templateStart t).isSome

def isTemplateReference : Json → Bool
  | .str text => hasTemplate text
  | _ => false

mutual

def sensitiveIn (path : String) : Json → List Violation
  | .arr items => sensitiveInItems path 0 items
  | .obj fields => sensitiveInFields path fields
  | _ => []

def sensitiveInItems (path : String) (index : Nat) : List Json → List Violation
  | [] => []
  | v :: vs => sensitiveIn (path ++ "/" ++ toString index) v ++ sensitiveInItems path (index + 1) vs

def sensitiveInFields (path : String) : List (String × Json) → List Violation
  | [] => []
  | (name, child) :: rest =>
    (if isSensitive name && name ≠ "secretRef" && !isSecretReference child &&
        !isTemplateReference child then
      [{ code := .RAW_SECRET_FORBIDDEN, path := path ++ "/" ++ name
         message := "Sensitive value " ++ name ++ " must use secretRef or a variable reference" }]
    else sensitiveIn (path ++ "/" ++ name) child) ++ sensitiveInFields path rest

end

def sensitiveValueViolations (testSpec : TestSpec) : List Violation :=
  sensitiveIn "" testSpec.toJson

def operationLevel (testSpec : TestSpec) : Option Json :=
  testSpec.environment.lookup "operationLevel"

/-- `typeof value !== "string" || value.trim() === ""`. -/
def isMissingText (value : Option Json) : Bool :=
  match value with
  | some (.str s) => isBlank s
  | _ => true

/-- `/^[a-z][a-z0-9+.-]*:/i`. -/
def hasScheme (path : String) : Bool :=
  match path.toList with
  | c :: rest =>
    c.isAlpha && (rest.dropWhile fun d => d.isAlphanum || d ∈ ['+', '.', '-']).head? = some ':'
  | [] => false

/-- What the path of an HTTP step may not be. -/
def isForeignPath (path : Option Json) : Bool :=
  match path with
  | some (.str p) => p = "" || hasScheme p || p.startsWith "//"
  | _ => true

def databaseViolations (step : Fields) (stepPath : String) : List Violation :=
  (if (step.lookup "sql").isSome || (step.lookup "query").isSome then
    [{ code := .RAW_SQL_FORBIDDEN, path := stepPath
       message := "Raw SQL is forbidden in TestSpec; use a trusted queryRef" }]
  else []) ++
  (if isMissingText (step.lookup "queryRef") then
    [{ code := .QUERY_REF_REQUIRED, path := stepPath ++ "/queryRef"
       message := "DATABASE steps require a trusted queryRef" }]
  else [])

def forbiddenTestFields : List String := ["command", "args", "cwd", "env", "environment"]

def existingTestViolations (step : Fields) (stepPath : String) : List Violation :=
  (forbiddenTestFields.filter fun forbidden => (step.lookup forbidden).isSome).map (fun forbidden =>
    { code := .RAW_TEST_COMMAND_FORBIDDEN, path := stepPath ++ "/" ++ forbidden
      message := "EXISTING_TEST steps cannot supply " ++ forbidden ++ "; use a trusted testRef" }) ++
  (if isMissingText (step.lookup "testRef") then
    [{ code := .TEST_REF_REQUIRED, path := stepPath ++ "/testRef"
       message := "EXISTING_TEST steps require a trusted testRef" }]
  else [])

section Protocol

variable (toUpperCase : String → String)

/-- `typeof step.method === "string" ? step.method.toUpperCase() : ""`. -/
def declaredMethod (step : Fields) : String :=
  match step.lookup "method" with
  | some (.str method) => toUpperCase method
  | _ => ""

def readMethods : List String := ["GET", "HEAD"]

def writeMethods : List String := ["POST", "PUT", "PATCH"]

def httpViolations (level : Option Json) (step : Fields) (stepPath : String) : List Violation :=
  let method := declaredMethod toUpperCase step
  if method = "" || isForeignPath (step.lookup "path") then
    [{ code := .HTTP_STEP_INVALID, path := stepPath
       message := "HTTP steps require an explicit method and origin-relative path" }]
  else if isMember level TestOperationLevel.SAFE_READ && method ∉ readMethods then
    [{ code := .OPERATION_METHOD_MISMATCH, path := stepPath ++ "/method"
       message := "HTTP " ++ method ++ " is not executable as SAFE_READ" }]
  else if isMember level TestOperationLevel.CONTROLLED_WRITE && method ∉ writeMethods then
    [{ code := .OPERATION_METHOD_MISMATCH, path := stepPath ++ "/method"
       message := "HTTP " ++ method ++ " is not executable as CONTROLLED_WRITE" }]
  else []

def stepViolations (level : Option Json) (step : Fields) (index : Nat) : List Violation :=
  let stepPath := "/steps/" ++ toString index
  (if isMember (step.lookup "executor") TestExecutor.DATABASE then
    databaseViolations step stepPath
  else []) ++
  (if isMember (step.lookup "executor") TestExecutor.EXISTING_TEST then
    existingTestViolations step stepPath
  else []) ++
  (if isMember (step.lookup "executor") TestExecutor.HTTP then
    httpViolations toUpperCase level step stepPath
  else [])

end Protocol

def assertionExecutors : List (String × TestExecutor) :=
  [("HTTP_STATUS", .HTTP), ("RESPONSE_HEADER", .HTTP), ("JSON_PATH", .HTTP),
    ("DATABASE_ROW_COUNT", .DATABASE), ("DATABASE_FIELD", .DATABASE),
    ("EXISTING_TEST_EXIT_CODE", .EXISTING_TEST)]

/-- The names that the table inherits, with the texts of what they hold. -/
def inheritedExecutor? (type : String) : Option String :=
  if type = "constructor" then some "function Object() \x7b [native code] \x7d"
  else if type = "__proto__" then some "[object Object]"
  else if type ∈ ["__defineGetter__", "__defineSetter__", "hasOwnProperty", "__lookupGetter__",
      "__lookupSetter__", "isPrototypeOf", "propertyIsEnumerable", "toString", "valueOf",
      "toLocaleString"] then some ("function " ++ type ++ "() \x7b [native code] \x7d")
  else none

/-- `stepsById.get(stepId)`, with steps of distinct ids. -/
def stepById (steps : List Fields) (stepId : Option Json) : Option Fields :=
  steps.find? fun step => strictEq stepId (step.lookup "id")

/-- `assertion.name`, `.expression` or `.field`, as the type has it. -/
def sensitiveTarget (assertion : Fields) : Json :=
  let target :=
    match assertion.lookup "type" with
    | some (.str "RESPONSE_HEADER") => assertion.lookup "name"
    | some (.str "JSON_PATH") => assertion.lookup "expression"
    | some (.str "DATABASE_FIELD") => assertion.lookup "field"
    | _ => none
  if truthy target then nullish target (.str "") else .str ""

/-- The step of an assertion must be there, and of the executor that its type requires. -/
def referenceViolations (steps : List Fields) (assertion : Fields) (type required : String)
    (executor : Option TestExecutor) (assertionPath : String) : List Violation :=
  match stepById steps (assertion.lookup "stepId") with
  | none =>
    [{ code := .ASSERTION_STEP_REQUIRED, path := assertionPath ++ "/stepId"
       message := "Assertion must reference an existing TestSpec step" }]
  | some step =>
    if executor.any fun e => isMember (step.lookup "executor") e then []
    else
      [{ code := .ASSERTION_EXECUTOR_MISMATCH, path := assertionPath ++ "/stepId"
         message := type ++ " requires a " ++ required ++ " step" }]

def sensitiveTargetViolations (assertion : Fields) (assertionPath : String) :
    Except Failure (List Violation) :=
  if (sensitiveTarget assertion).hidesToString then
    typeError "Cannot convert object to primitive value"
  else if isSensitive (sensitiveTarget assertion).toText then
    return [{ code := .SENSITIVE_ASSERTION_FORBIDDEN, path := assertionPath
              message := "Assertions must not extract credential, token, cookie, or other " ++
                "sensitive values into Evidence" }]
  else return []

def assertionViolations (steps : List Fields) (assertion : Fields) (index : Nat) :
    Except Failure (List Violation) := do
  let assertionPath := "/assertions/" ++ toString index
  let type := ((assertion.lookup "type").getD .null).toText
  match assertionExecutors.lookup type, inheritedExecutor? type with
  | some executor, _ =>
    let sensitive ← sensitiveTargetViolations assertion assertionPath
    return referenceViolations steps assertion type (EnumValues.name executor) (some executor)
      assertionPath ++ sensitive
  | none, some inherited =>
    let sensitive ← sensitiveTargetViolations assertion assertionPath
    return referenceViolations steps assertion type inherited none assertionPath ++ sensitive
  | none, none =>
    return [{ code := .UNSUPPORTED_ASSERTION, path := assertionPath ++ "/type"
              message := "Assertion type " ++ type ++ " is not supported by this Runner" }]

section Validation

variable (toUpperCase : String → String) (dateParse : String → Option Int)

def executionProtocolViolations (testSpec : TestSpec) : Except Failure (List Violation) := do
  let ofAssertions ← testSpec.assertions.zipIdx.mapM fun (assertion, index) =>
    assertionViolations testSpec.steps assertion index
  return (testSpec.steps.zipIdx.flatMap fun (step, index) =>
    stepViolations toUpperCase (operationLevel testSpec) step index) ++ ofAssertions.flatten

/-! ## The verdict -/

def seedTypes : List String := ["SEED", "SEED_API", "SEED_DATABASE"]

/-- `seedTypes.has(item.type)`. -/
def isSeed (item : Fields) : Bool :=
  match item.lookup "type" with
  | some (.str type) => type ∈ seedTypes
  | _ => false

def isControlledWrite (testSpec : TestSpec) : Bool :=
  isMember (operationLevel testSpec) TestOperationLevel.CONTROLLED_WRITE

def policyFlag (testSpec : TestSpec) (name : String) : Bool := truthy (testSpec.policy.lookup name)

/-- A violation where something is wrong. -/
def violationIf (wrong : Bool) (code : ViolationCode) (path message : String) : List Violation :=
  if wrong then [{ code, path, message }] else []

def lifecycleViolations (testSpec : TestSpec) : List Violation :=
  violationIf testSpec.assertions.isEmpty .NO_ASSERTION "/assertions"
    "At least one deterministic assertion is required" ++
  violationIf (policyFlag testSpec "approvalRequired" && !testSpec.approved) .APPROVAL_REQUIRED
    "/approved" "TestSpec requires approval before execution" ++
  violationIf (isControlledWrite testSpec && !testSpec.preconditions.any fun item =>
      isSeed item && !isMissingText (item.lookup "seedRef")) .SEED_REQUIRED "/preconditions"
    "Controlled writes require an explicit server-recognized Seed protocol reference" ++
  violationIf (isControlledWrite testSpec &&
      !truthy (testSpec.cleanup.bind (List.lookup "strategy"))) .CLEANUP_REQUIRED "/cleanup"
    "Controlled writes require an explicit cleanup strategy" ++
  violationIf (isMember (operationLevel testSpec) TestOperationLevel.DESTRUCTIVE ||
      policyFlag testSpec "destructive") .DESTRUCTIVE_BLOCKED "/environment/operationLevel"
    "Destructive execution is not enabled" ++
  violationIf (isMember (operationLevel testSpec) TestOperationLevel.EXTERNAL_SIDE_EFFECT ||
      policyFlag testSpec "externalSideEffect") .EXTERNAL_SIDE_EFFECT_BLOCKED
    "/environment/operationLevel" "External side effects are not enabled"

def invalidatingCodes : List ViolationCode :=
  [.INVALID_TEST_SPEC, .RAW_SECRET_FORBIDDEN, .RAW_SQL_FORBIDDEN, .QUERY_REF_REQUIRED,
    .HTTP_STEP_INVALID, .OPERATION_METHOD_MISMATCH, .UNSUPPORTED_ASSERTION,
    .ASSERTION_STEP_REQUIRED, .ASSERTION_EXECUTOR_MISMATCH, .SENSITIVE_ASSERTION_FORBIDDEN]

structure Validation where
  valid : Bool
  executable : Bool
  violations : List Violation
deriving DecidableEq, Repr

def validateTestSpec (input : Option Json) (now : Instant) : Except Failure Validation :=
  match createTestSpec dateParse input now with
  | .error e =>
    return { valid := false, executable := false
             violations := [{ code := .INVALID_TEST_SPEC, path := "/", message := e.message }] }
  | .ok testSpec => do
    let protocol ← executionProtocolViolations toUpperCase testSpec
    let violations :=
      sensitiveValueViolations testSpec ++ protocol ++ lifecycleViolations testSpec
    return { valid := !violations.any fun item => item.code ∈ invalidatingCodes
             executable := violations.isEmpty, violations }

end Validation

end Traqen.TestSpecs
