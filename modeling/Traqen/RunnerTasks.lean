-- The tasks of a runner (`runner/task.js`): what is signed, who may run it and when, and the
-- policy that it is bound to. A nonce is used up as the policy is bound.
import Traqen.ExecutionEvidence
import Traqen.RunnerErrors

open Js

namespace Traqen.RunnerTasks

open ExecutionEvidence RunnerErrors

/-! ## Tasks -/

structure RunnerTask where
  id : String
  projectId : String
  executionId : String
  runnerId : String
  nonce : String
  policyHash : String
  issuedAt : Timestamp
  expiresAt : Timestamp
  testSpec : Json
  snapshotManifest : Json

def RunnerTask.fields (t : RunnerTask) : List (String × Json) :=
  [("id", .str t.id), ("projectId", .str t.projectId), ("executionId", .str t.executionId),
    ("runnerId", .str t.runnerId), ("nonce", .str t.nonce), ("policyHash", .str t.policyHash),
    ("issuedAt", .str t.issuedAt.text), ("expiresAt", .str t.expiresAt.text),
    ("testSpec", t.testSpec), ("snapshotManifest", t.snapshotManifest)]

def requireHash (value : Option Json) (fieldName : String) : Except Failure String := do
  let hash ← requireNonEmptyString value fieldName
  if isSha256Digest hash then return hash
  else typeError (fieldName ++ " must be a SHA-256 digest")

/-- `!value || typeof value !== "object"` is false: an object or an array. -/
def requireStructure (value : Option Json) (fieldName : String) : Except Failure Json :=
  match value with
  | some (.obj fields) => .ok (.obj fields)
  | some (.arr items) => .ok (.arr items)
  | _ => typeError (fieldName ++ " must be an object")

/-- `/^[a-f0-9]{64}$/`. -/
def isSignature (s : String) : Bool :=
  s.toList.length = 64 &&
    s.toList.all fun c => ('a' ≤ c && c ≤ 'f') || ('0' ≤ c && c ≤ '9')

/-- The nonces that were used, as `nonceRegistry` keeps them. -/
abbrev Nonces := List String

section Tasks

variable (dateParse : String → Option Int)

def createRunnerTask (input : Option Json) : Except Failure RunnerTask := do
  let issuedText ← requireNonEmptyString (field input "issuedAt") "task.issuedAt"
  let expiresText ← requireNonEmptyString (field input "expiresAt") "task.expiresAt"
  let issuedTime ← requireIsoTimestamp dateParse (some (.str issuedText)) "task.issuedAt"
  let expiresTime ← requireIsoTimestamp dateParse (some (.str expiresText)) "task.expiresAt"
  if issuedTime ≥ expiresTime then
    rangeError "task.issuedAt must be earlier than task.expiresAt"
  else if expiresTime - issuedTime > 5 * 60 * 1000 then
    rangeError "Runner task validity window must not exceed 5 minutes"
  else
    let testSpec ← requireStructure (field input "testSpec") "task.testSpec"
    let snapshotManifest ←
      requireStructure (field input "snapshotManifest") "task.snapshotManifest"
    let id ← requireNonEmptyString (field input "id") "task.id"
    let projectId ← requireNonEmptyString (field input "projectId") "task.projectId"
    let executionId ← requireNonEmptyString (field input "executionId") "task.executionId"
    let runnerId ← requireNonEmptyString (field input "runnerId") "task.runnerId"
    let nonce ← requireNonEmptyString (field input "nonce") "task.nonce"
    let policyHash ← requireHash (field input "policyHash") "task.policyHash"
    return { id, projectId, executionId, runnerId, nonce, policyHash
             issuedAt := { text := issuedText, time := issuedTime }
             expiresAt := { text := expiresText, time := expiresTime }
             testSpec, snapshotManifest }

/-- What is signed: the task as it is normalized, without fields of any other name. -/
def runnerTaskSigningPayload (task : Option Json) : Except Failure String := do
  let normalized ← createRunnerTask dateParse task
  return canonicalJson (.obj (("kind", .str "RUNNER_TASK") :: normalized.fields))

variable (sha256 : String → String) (hmac : String → String → String)

def signRunnerTask (task : Option Json) (secret : String) : Except Failure Json := do
  let _ ← requireNonEmptyString (some (.str secret)) "runner task secret"
  let normalized ← createRunnerTask dateParse task
  let payload ← runnerTaskSigningPayload dateParse (some (.obj normalized.fields))
  return .obj (normalized.fields ++ [("attestation",
    .obj [("algorithm", .str "HMAC-SHA256"), ("signature", .str (hmac secret payload))])])

/-- Both digests are lower-case hexadecimal, so their bytes agree when their texts do. -/
def verifyRunnerTask (task : Json) (secret : String) : Bool :=
  match field (field (some task) "attestation") "algorithm",
    field (field (some task) "attestation") "signature" with
  | some (.str "HMAC-SHA256"), some (.str signature) =>
    isSignature signature &&
      match runnerTaskSigningPayload dateParse (some task) with
      | .ok payload => signature = hmac secret payload
      | .error _ => false
  | _, _ => false

def authenticateRunnerTask (task : Json) (runnerId secret : String) (now : Int)
    (usedNonces : Nonces) : Except RunnerError RunnerTask :=
  if !verifyRunnerTask dateParse hmac task secret then
    policyError "Runner task signature is invalid"
  else do
    let normalized ← ofDomain (createRunnerTask dateParse (some task))
    if normalized.runnerId ≠ runnerId then policyError "Runner task targets another Runner"
    else if now < normalized.issuedAt.time ∨ now ≥ normalized.expiresAt.time then
      policyError "Runner task is not within its validity window"
    else if normalized.nonce ∈ usedNonces then
      policyError "Runner task nonce has already been used"
    else return normalized

/-- The hash of a policy that is made of parsed values. -/
def runnerPolicyHash (policy : Json) : String := "sha256:" ++ sha256 (canonicalJson policy)

/-- The task, and the nonces with its own. -/
def bindRunnerTaskPolicy (task : RunnerTask) (policy : Json) (usedNonces : Nonces) :
    Except RunnerError (RunnerTask × Nonces) :=
  if task.nonce ∈ usedNonces then policyError "Runner task nonce has already been used"
  else if task.policyHash ≠ runnerPolicyHash sha256 policy then
    policyError "Runner task policyHash does not match the local target policy"
  else .ok (task, usedNonces ++ [task.nonce])

end Tasks

/-! ## What the two checks say -/

section Checks

variable {dateParse : String → Option Int} {sha256 : String → String}
  {hmac : String → String → String}

/-- A task that the runner may run: it is signed for it, it names it, and it is valid now. -/
structure Authentic (dateParse : String → Option Int) (hmac : String → String → String)
    (attested : Json) (runnerId secret : String) (now : Int) (task : RunnerTask) : Prop where
  signed : verifyRunnerTask dateParse hmac attested secret = true
  read : createRunnerTask dateParse (some attested) = .ok task
  named : task.runnerId = runnerId
  valid : task.issuedAt.time ≤ now ∧ now < task.expiresAt.time

theorem authenticateRunnerTask_ok {attested : Json} {runnerId secret : String} {now : Int}
    {usedNonces : Nonces} {task : RunnerTask}
    (h : authenticateRunnerTask dateParse hmac attested runnerId secret now usedNonces =
      .ok task) :
    Authentic dateParse hmac attested runnerId secret now task ∧ task.nonce ∉ usedNonces := by
  unfold authenticateRunnerTask at h
  split at h
  · cases h
  · rename_i hsigned
    cases hread : createRunnerTask dateParse (some attested) with
    | error e =>
      rw [hread] at h
      cases h
    | ok normalized =>
      rw [hread] at h
      change (if normalized.runnerId ≠ runnerId then _ else _) = _ at h
      split at h
      · cases h
      · rename_i hnamed
        split at h
        · cases h
        · rename_i hvalid
          split at h
          · cases h
          · rename_i hunused
            cases h
            refine ⟨⟨by simpa using hsigned, hread, not_not.mp hnamed, ?_⟩, hunused⟩
            omega

theorem bindRunnerTaskPolicy_ok {task bound : RunnerTask} {policy : Json}
    {usedNonces nonces : Nonces}
    (h : bindRunnerTaskPolicy sha256 task policy usedNonces = .ok (bound, nonces)) :
    bound = task ∧ nonces = usedNonces ++ [task.nonce] ∧ task.nonce ∉ usedNonces ∧
      task.policyHash = runnerPolicyHash sha256 policy := by
  unfold bindRunnerTaskPolicy at h
  split at h
  · cases h
  · rename_i hunused
    split at h
    · cases h
    · rename_i hhash
      cases h
      exact ⟨rfl, rfl, hunused, not_not.mp hhash⟩

end Checks

end Traqen.RunnerTasks
