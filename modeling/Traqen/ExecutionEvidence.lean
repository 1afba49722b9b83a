-- Executions and their evidence (`domain/execution-evidence.js`): what a runner may
-- submit, and the content hash of each manifest. Every value comes from parsed JSON.
import Traqen.CanonicalJson
import Traqen.Model
import Traqen.Lib.OrderedMap
import Traqen.Lib.Regex

open Js

namespace Traqen.ExecutionEvidence

/-! ## Shapes -/

def requireObject (value : Option Json) (fieldName : String) :
    Except Failure (List (String × Json)) :=
  match value with
  | some (.obj fields) => .ok fields
  | _ => typeError (fieldName ++ " must be an object")

theorem requireObject_ok {v : Option Json} {name : String} {fields : List (String × Json)}
    (h : requireObject v name = .ok fields) : v = some (.obj fields) := by
  unfold requireObject typeError at h
  split at h
  · cases h
    rfl
  · cases h

def requireArray (value : Option Json) (fieldName : String) (nonEmpty : Bool) :
    Except Failure (List Json) :=
  let wanted := if nonEmpty then "a non-empty array" else "an array"
  match value with
  | some (.arr items) =>
    if nonEmpty && items.isEmpty then typeError (fieldName ++ " must be " ++ wanted)
    else .ok items
  | _ => typeError (fieldName ++ " must be " ++ wanted)

/-- A string, or null where none is given. -/
def optionalString (value : Option Json) (fieldName : String) : Except Failure Json :=
  match value with
  | none | some .null => .ok .null
  | _ => do
    let s ← requireNonEmptyString value fieldName
    return .str s

/-- `/^sha256:[a-f0-9]{64}$/`. -/
def isSha256Digest (s : String) : Bool :=
  s.toList.take 7 = "sha256:".toList && (s.toList.drop 7).length = 64 &&
    (s.toList.drop 7).all fun c => ('a' ≤ c && c ≤ 'f') || ('0' ≤ c && c ≤ '9')

def snapshotComponentNames : List String := ["source", "build", "deployment", "runtime"]

def componentField (componentName : String) : String :=
  "evidence.manifest.snapshotComponents." ++ componentName

def normalizeSnapshotComponent (input : List (String × Json)) (componentName : String) :
    Except Failure (String × Json) := do
  let component ← requireObject (input.lookup componentName) (componentField componentName)
  let digest ← requireNonEmptyString (component.lookup "digest")
    (componentField componentName ++ ".digest")
  if isSha256Digest digest then
    let id ← requireNonEmptyString (component.lookup "id") (componentField componentName ++ ".id")
    return (componentName, .obj [("id", .str id), ("digest", .str digest)])
  else typeError (componentField componentName ++ ".digest must be a SHA-256 digest")

def normalizeSnapshotComponents (value : Option Json) : Except Failure (List (String × Json)) := do
  let input ← requireObject value "evidence.manifest.snapshotComponents"
  snapshotComponentNames.mapM (normalizeSnapshotComponent input)

/-! ## Sensitive names -/

/-- A word in any case. -/
def anyCase (text : String) : Regex.Pattern Char :=
  Regex.word (text.toList.map fun c d => d.toLower = c)

/-- Two words with an underscore, a hyphen or nothing between them. -/
def joinedWords (first second : String) : Regex.Pattern Char :=
  .seq (anyCase first) (.seq (.opt (.one fun c => c = '_' || c = '-')) (anyCase second))

def sensitivePatterns : List (Regex.Pattern Char) :=
  [anyCase "authorization", joinedWords "api" "key", anyCase "token", anyCase "password",
    anyCase "secret", anyCase "certificate", joinedWords "private" "key", anyCase "credential",
    anyCase "cookie"]

/-- `sensitiveField.test(name)`: some pattern matches somewhere in the name. -/
def isSensitive (name : String) : Bool :=
  name.toList.tails.any fun rest =>
    sensitivePatterns.any fun p => (Regex.matchLength p rest).isSome

mutual

/-- The path of the first sensitive value that is not redacted. -/
def firstExposed (path : String) : Json → Option String
  | .arr items => firstExposedItem path 0 items
  | .obj fields => firstExposedField path fields
  | _ => none

def firstExposedItem (path : String) (index : Nat) : List Json → Option String
  | [] => none
  | v :: vs =>
    (firstExposed (path ++ "/" ++ toString index) v).or (firstExposedItem path (index + 1) vs)

def firstExposedField (path : String) : List (String × Json) → Option String
  | [] => none
  | (name, child) :: rest =>
    if isSensitive name && child ≠ .str "[REDACTED]" then some (path ++ "/" ++ name)
    else (firstExposed (path ++ "/" ++ name) child).or (firstExposedField path rest)

end

def assertSensitiveValuesRedacted (value : Json) (rootLabel : String) : Except Failure Unit :=
  match firstExposed "" value with
  | some path => typeError (rootLabel ++ " sensitive value at " ++ path ++ " must be redacted")
  | none => .ok ()

/-! ## Executions -/

/-- A checked timestamp, with the milliseconds that `Date.parse` gives for it. -/
structure Timestamp where
  text : String
  time : Int
deriving DecidableEq

structure Attempt where
  number : Number
  startedAt : Timestamp
  finishedAt : Timestamp
  phaseStatus : Json
  setup : List (String × Json)
  stepResults : List (List (String × Json))
  assertionResults : List (List (String × Json))
  cleanup : List (String × Json)

def Attempt.toJson (a : Attempt) : Json :=
  .obj [("number", .num a.number), ("startedAt", .str a.startedAt.text),
    ("finishedAt", .str a.finishedAt.text), ("phaseStatus", a.phaseStatus),
    ("setup", .obj a.setup), ("stepResults", .arr (a.stepResults.map .obj)),
    ("assertionResults", .arr (a.assertionResults.map .obj)), ("cleanup", .obj a.cleanup)]

structure Runner where
  id : String
  version : String

structure TestExecution where
  id : String
  testSpecId : String
  testSpecVersion : Number
  snapshotManifestId : String
  deploymentId : String
  runner : Runner
  completionReason : Json
  status : VerificationStatus
  startedAt : Timestamp
  finishedAt : Timestamp
  attempts : List Attempt

def TestExecution.toJson (e : TestExecution) : Json :=
  .obj [("id", .str e.id), ("testSpecId", .str e.testSpecId),
    ("testSpecVersion", .num e.testSpecVersion),
    ("snapshotManifestId", .str e.snapshotManifestId), ("deploymentId", .str e.deploymentId),
    ("runner", .obj [("id", .str e.runner.id), ("version", .str e.runner.version)]),
    ("completionReason", e.completionReason), ("status", enumJson e.status),
    ("startedAt", .str e.startedAt.text), ("finishedAt", .str e.finishedAt.text),
    ("attempts", .arr (e.attempts.map Attempt.toJson))]

def normalizeRunner (value : Option Json) : Except Failure Runner := do
  let id ← requireNonEmptyString (field value "id") "execution.runner.id"
  let version ← requireNonEmptyString (field value "version") "execution.runner.version"
  return { id, version }

def normalizeAssertionResult (value : Json) (fieldName : String) :
    Except Failure (List (String × Json)) := do
  let result ← requireObject (some value) fieldName
  let id ← requireNonEmptyString (result.lookup "id") (fieldName ++ ".id")
  let status ←
    assertEnum AssertionResultStatus (result.lookup "status") (fieldName ++ ".status")
  let message ← optionalString (result.lookup "message") (fieldName ++ ".message")
  return OrderedMap.setAll result [("id", .str id), ("status", status), ("message", message)]

def normalizeAssertionResults (items : List Json) (fieldName : String) :
    Except Failure (List (List (String × Json))) :=
  items.zipIdx.mapM fun (result, index) =>
    normalizeAssertionResult result (fieldName ++ "[" ++ toString index ++ "]")

/-- The default of a phase that is left out. -/
def skippedPhase : Json := .obj [("status", enumJson ExecutionPhaseStatus.SKIPPED)]

section Timestamps

variable (dateParse : String → Option Int)

def isoTimestamp (value : Option Json) (fieldName : String) : Except Failure Timestamp := do
  let text ← requireNonEmptyString value fieldName
  let time ← requireIsoTimestamp dateParse (some (.str text)) fieldName
  return { text, time }

def normalizeAttempt (value : Json) (index : Nat) : Except Failure Attempt := do
  let name := "execution.attempts[" ++ toString index ++ "]"
  let attempt ← requireObject (some value) name
  let startedAt ← isoTimestamp dateParse (attempt.lookup "startedAt") (name ++ ".startedAt")
  let finishedAt ← isoTimestamp dateParse (attempt.lookup "finishedAt") (name ++ ".finishedAt")
  if startedAt.time > finishedAt.time then
    rangeError (name ++ ".startedAt must not be later than finishedAt")
  else
    let setup ←
      requireObject (some (nullish (attempt.lookup "setup") skippedPhase)) (name ++ ".setup")
    let cleanup ←
      requireObject (some (nullish (attempt.lookup "cleanup") skippedPhase)) (name ++ ".cleanup")
    let items ← requireArray (some (nullish (attempt.lookup "assertionResults") (.arr [])))
      (name ++ ".assertionResults") false
    let assertionResults ← normalizeAssertionResults items (name ++ ".assertionResults")
    let ids := assertionResults.map (List.lookup "id")
    if ids.eraseDups.length ≠ assertionResults.length then
      typeError (name ++ ".assertionResults must use unique ids")
    else
      let number ← requirePositiveInteger (attempt.lookup "number") (name ++ ".number")
      let phaseStatus ← assertEnum ExecutionPhaseStatus (attempt.lookup "phaseStatus")
        (name ++ ".phaseStatus")
      let setupStatus ← assertEnum ExecutionPhaseStatus (setup.lookup "status")
        (name ++ ".setup.status")
      let steps ← requireArray (some (nullish (attempt.lookup "stepResults") (.arr [])))
        (name ++ ".stepResults") false
      let stepResults ← steps.zipIdx.mapM fun (result, resultIndex) =>
        requireObject (some result) (name ++ ".stepResults[" ++ toString resultIndex ++ "]")
      let cleanupStatus ← assertEnum ExecutionPhaseStatus (cleanup.lookup "status")
        (name ++ ".cleanup.status")
      return { number, startedAt, finishedAt, phaseStatus, stepResults, assertionResults,
               setup := OrderedMap.set setup "status" setupStatus
               cleanup := OrderedMap.set cleanup "status" cleanupStatus }

def uniqueAttemptNumbers (attempts : List Attempt) : Except Failure (List Attempt) :=
  let numbers := attempts.map (·.number)
  if numbers.eraseDups.length ≠ numbers.length then
    typeError "execution.attempts must use unique attempt numbers"
  else
    let expected := (List.range attempts.length).map fun index => Number.ofNat (index + 1)
    let actual := numbers.insertionSort fun left right => left.toInt ≤ right.toInt
    if canonicalJson (.arr (actual.map .num)) ≠ canonicalJson (.arr (expected.map .num)) then
      typeError "execution.attempts must be numbered consecutively from 1"
    else .ok attempts

/-- `value === name`, for a member of an enumeration. -/
def isMember {ε : Type} [EnumValues ε] (value : Option Json) (member : ε) : Bool :=
  strictEq value (some (enumJson member))

def isFailedPhase (phase : List (String × Json)) : Bool :=
  isMember (phase.lookup "status") ExecutionPhaseStatus.FAIL ||
    isMember (phase.lookup "status") ExecutionPhaseStatus.ERROR

def deriveExecutionStatus (completionReason : Json) (attempts : List Attempt) :
    VerificationStatus :=
  let assertions := attempts.flatMap (·.assertionResults)
  let someAssertion (status : AssertionResultStatus) : Bool :=
    assertions.any fun result => isMember (result.lookup "status") status
  if isMember (some completionReason) ExecutionCompletionReason.CANCELLED then .CANCELLED
  else if isMember (some completionReason) ExecutionCompletionReason.SKIPPED then .SKIPPED
  else if attempts.isEmpty then .INCONCLUSIVE
  else if attempts.any (fun a => isMember (some a.phaseStatus) ExecutionPhaseStatus.FAIL) ||
      someAssertion .FAIL then .FAIL
  else if attempts.any (fun a => isMember (some a.phaseStatus) ExecutionPhaseStatus.ERROR ||
        isFailedPhase a.setup || isFailedPhase a.cleanup) || someAssertion .ERROR then .ERROR
  else if assertions.isEmpty || someAssertion .INCONCLUSIVE || someAssertion .SKIPPED then
    .INCONCLUSIVE
  else if assertions.all fun result => isMember (result.lookup "status")
      AssertionResultStatus.PASS then .PASS
  else .INCONCLUSIVE

def createTestExecution (input : Option Json) : Except Failure TestExecution := do
  let startedAt ← isoTimestamp dateParse (field input "startedAt") "execution.startedAt"
  let finishedAt ← isoTimestamp dateParse (field input "finishedAt") "execution.finishedAt"
  if startedAt.time > finishedAt.time then
    rangeError "execution.startedAt must not be later than execution.finishedAt"
  else
    let completionReason ← assertEnum ExecutionCompletionReason
      (some (nullish (field input "completionReason") (.str "COMPLETED")))
      "execution.completionReason"
    let items ← requireArray (some (nullish (field input "attempts") (.arr [])))
      "execution.attempts" false
    let normalized ← items.zipIdx.mapM fun (item, index) => normalizeAttempt dateParse item index
    let attempts ← uniqueAttemptNumbers normalized
    if attempts.any fun a =>
        a.startedAt.time < startedAt.time || a.finishedAt.time > finishedAt.time then
      rangeError "execution attempts must fall within the execution time window"
    else
      let id ← requireNonEmptyString (field input "id") "execution.id"
      let testSpecId ← requireNonEmptyString (field input "testSpecId") "execution.testSpecId"
      let testSpecVersion ←
        requirePositiveInteger (field input "testSpecVersion") "execution.testSpecVersion"
      let snapshotManifestId ←
        requireNonEmptyString (field input "snapshotManifestId") "execution.snapshotManifestId"
      let deploymentId ←
        requireNonEmptyString (field input "deploymentId") "execution.deploymentId"
      let runner ← normalizeRunner (field input "runner")
      let execution : TestExecution :=
        { id, testSpecId, testSpecVersion, snapshotManifestId, deploymentId, runner
          completionReason, startedAt, finishedAt, attempts
          status := deriveExecutionStatus completionReason attempts }
      assertSensitiveValuesRedacted execution.toJson "execution"
      return execution

end Timestamps

/-! ## Evidence -/

structure EvidenceItem where
  id : String
  executionId : String
  type : Json
  freshness : Json
  contentHash : String
  storageUri : Json
  manifest : List (String × Json)
  createdAt : String

def EvidenceItem.fields (e : EvidenceItem) : List (String × Json) :=
  [("id", .str e.id), ("executionId", .str e.executionId), ("type", e.type),
    ("freshness", e.freshness), ("contentHash", .str e.contentHash),
    ("storageUri", e.storageUri), ("manifest", .obj e.manifest), ("createdAt", .str e.createdAt)]

/-- The fields of the manifest that must repeat the execution. -/
def executionFields (e : TestExecution) : List (String × Json) :=
  [("executionId", .str e.id), ("testSpecId", .str e.testSpecId),
    ("testSpecVersion", .num e.testSpecVersion),
    ("snapshotManifestId", .str e.snapshotManifestId), ("deploymentId", .str e.deploymentId),
    ("runnerId", .str e.runner.id), ("runnerVersion", .str e.runner.version)]

def checkExecutionFields (manifest : List (String × Json)) (execution : TestExecution) :
    Except Failure Unit :=
  match (executionFields execution).find? fun (fieldName, expected) =>
    !strictEq (manifest.lookup fieldName) (some expected) with
  | some (fieldName, _) =>
    typeError ("evidence.manifest." ++ fieldName ++ " must match the execution")
  | none => .ok ()

/-- Evidence of an assertion repeats the results of all attempts. -/
def withAssertionResults (manifest : List (String × Json)) (type : Json)
    (execution : TestExecution) : Except Failure (List (String × Json)) :=
  if isMember (some type) EvidenceType.ASSERTION then do
    let items ← requireArray (manifest.lookup "assertionResults")
      "evidence.manifest.assertionResults" (execution.status = .PASS)
    let results ← normalizeAssertionResults items "evidence.manifest.assertionResults"
    let expected := execution.attempts.flatMap (·.assertionResults)
    if canonicalJson (.arr (results.map .obj)) ≠ canonicalJson (.arr (expected.map .obj)) then
      typeError "evidence.manifest.assertionResults must match the execution attempts"
    else return OrderedMap.set manifest "assertionResults" (.arr (results.map .obj))
  else .ok manifest

section Bundles

variable (sha256 : String → String) (dateParse : String → Option Int)

def evidenceContentHash (manifest : Json) : String := "sha256:" ++ sha256 (canonicalJson manifest)

def createEvidence (input : Json) (execution : TestExecution) (now : Instant) :
    Except Failure EvidenceItem := do
  let given ← requireObject (field (some input) "manifest") "evidence.manifest"
  let type ← assertEnum EvidenceType (field (some input) "type") "evidence.type"
  let components ← normalizeSnapshotComponents (given.lookup "snapshotComponents")
  let manifest := OrderedMap.set given "snapshotComponents" (.obj components)
  if field (components.lookup "deployment") "id" ≠ some (.str execution.deploymentId) then
    typeError "evidence.manifest deployment component must match the execution"
  else
    let _ ← requireArray (manifest.lookup "redactions") "evidence.manifest.redactions" false
    assertSensitiveValuesRedacted (.obj manifest) "evidence.manifest"
    checkExecutionFields manifest execution
    let manifest ← withAssertionResults manifest type execution
    let contentHash := evidenceContentHash sha256 (.obj manifest)
    let givenHash := field (some input) "contentHash"
    if givenHash ≠ none ∧ !strictEq givenHash (some (.str contentHash)) then
      typeError "evidence.contentHash does not match the canonical manifest"
    else
      let createdAt ← isoTimestamp dateParse
        (some (nullish (field (some input) "createdAt") (.str now.iso))) "evidence.createdAt"
      if createdAt.time < execution.finishedAt.time then
        rangeError "evidence.createdAt must not be earlier than execution.finishedAt"
      else
        let id ← requireNonEmptyString (field (some input) "id") "evidence.id"
        let freshness ← assertEnum EvidenceFreshness
          (some (nullish (field (some input) "freshness") (.str "FRESH"))) "evidence.freshness"
        let storageUri ← optionalString (field (some input) "storageUri") "evidence.storageUri"
        return { id, executionId := execution.id, type, freshness, contentHash, storageUri,
                 manifest, createdAt := createdAt.text }

structure ExecutionEvidenceBundle where
  execution : TestExecution
  evidence : List EvidenceItem

/-- `clock` tells what each call of the clock reads, one for each item. -/
def createExecutionEvidenceBundle (input : Json) (clock : Nat → Instant) :
    Except Failure ExecutionEvidenceBundle := do
  let execution ← createTestExecution dateParse (field (some input) "execution")
  let items ← requireArray (field (some input) "evidence") "evidence" true
  let evidence ← items.zipIdx.mapM fun (item, index) =>
    createEvidence sha256 dateParse item execution (clock index)
  if (evidence.map (·.id)).eraseDups.length ≠ evidence.length then
    typeError "evidence ids must be unique"
  else if execution.status = .PASS ∧
      !evidence.any fun item => isMember (some item.type) EvidenceType.ASSERTION then
    typeError "a passing execution requires ASSERTION evidence"
  else return { execution, evidence }

/-- The evidence of an accepted bundle has ids of its own. -/
theorem evidence_ids_nodup {input : Json} {clock : Nat → Instant}
    {bundle : ExecutionEvidenceBundle}
    (h : createExecutionEvidenceBundle sha256 dateParse input clock = .ok bundle) :
    (bundle.evidence.map (·.id)).Nodup := by
  unfold createExecutionEvidenceBundle at h
  obtain ⟨execution, _, h⟩ := bind_ok h
  obtain ⟨items, _, h⟩ := bind_ok h
  obtain ⟨evidence, _, h⟩ := bind_ok h
  split at h
  · cases h
  · rename_i hsize
    split at h
    · cases h
    · cases h
      rw [ne_eq, not_not] at hsize
      exact (OrderedMap.nodup_iff_size _).mp (by rw [hsize, List.length_map])

end Bundles

end Traqen.ExecutionEvidence
