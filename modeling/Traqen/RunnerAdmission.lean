-- What `ControlledRunner.run` checks between the binding of a task and its first action
-- (`runner/controlled-runner.js`): the specification, the snapshot and the target policy.
import Traqen.RunnerTasks
import Traqen.TestSpecs

open Js

namespace Traqen.RunnerAdmission

open ExecutionEvidence RunnerErrors RunnerTasks TestSpecs

/-! ## The snapshot -/

/-- One component as the target policy binds it. -/
def isBound (snapshotManifest : Json) (binding : Fields) (componentName : String) : Bool :=
  let expected := binding.lookup componentName
  let actual := field (field (some snapshotManifest) "components") componentName
  truthy expected && strictEq (field expected "id") (field actual "id") &&
    strictEq (field expected "digest") (field actual "digest")

def assertSnapshotBinding (snapshotManifest targetPolicy : Json) : Except RunnerError Unit :=
  match field (some targetPolicy) "snapshotBinding" with
  | some (.obj binding) =>
    match snapshotComponentNames.find? fun name => !isBound snapshotManifest binding name with
    | some componentName =>
      policyError ("Task " ++ componentName ++
        " component does not match the Runner's locally observed target")
    | none => .ok ()
  | _ => policyError "Target policy must bind the locally observed Snapshot components"

/-- `(targetPolicy.allowedOperationLevels ?? []).includes(level)`: of an array or a string. -/
def allowsLevel (targetPolicy : Json) (level : Option Json) : Except RunnerError Bool :=
  match nullish (field (some targetPolicy) "allowedOperationLevels") (.arr []) with
  | .arr items => .ok (items.any fun item => strictEq (some item) level)
  | .str s => .ok (s.toList.tails.any (templateText level).toList.isPrefixOf)
  | _ => .error (.other { name := .TypeError, message := "includes is not a function" })

/-! ## The checks in their order -/

/-- A task that may be executed, with what the run reads of it. -/
structure Admission where
  deploymentId : Json
  operationLevel : TestOperationLevel

section Admit

variable (toUpperCase : String → String) (dateParse : String → Option Int)

def checkTestSpec (testSpec : Json) (now : Instant) : Except RunnerError Unit := do
  let validation ← ofDomain (validateTestSpec toUpperCase dateParse (some testSpec) now)
  if validation.executable then return ()
  else
    policyError ("TestSpec is not executable: " ++
      ", ".intercalate (validation.violations.map fun item => item.code.text))

def levelOf (testSpec : Json) : Option Json :=
  field (field (some testSpec) "environment") "operationLevel"

def targetOf (testSpec : Json) : Option Json :=
  field (field (some testSpec) "environment") "target"

def checkSnapshot (snapshotManifest targetPolicy : Json) : Except RunnerError Json := do
  if !truthy (field (some snapshotManifest) "complete") then
    policyError "Runner requires a complete snapshot manifest"
  else
    let deploymentId := field (field (field (some snapshotManifest) "components") "deployment") "id"
    if !truthy deploymentId then policyError "Snapshot manifest has no deployment component"
    else
      assertSnapshotBinding snapshotManifest targetPolicy
      return deploymentId.getD .null

def checkLevel (testSpec targetPolicy : Json) (hasFixtures : Bool) :
    Except RunnerError TestOperationLevel := do
  let level := levelOf testSpec
  let allowed ← allowsLevel targetPolicy level
  if !allowed then
    policyError ("Operation level " ++ templateText level ++ " is not allowed for target " ++
      templateText (targetOf testSpec))
  else if isMember level TestOperationLevel.SAFE_READ then return .SAFE_READ
  else if !isMember level TestOperationLevel.CONTROLLED_WRITE then
    policyError ("Runner does not execute operation level " ++ templateText level)
  else if !hasFixtures then
    policyError "CONTROLLED_WRITE requires a trusted fixture lifecycle executor"
  else return .CONTROLLED_WRITE

def admitTask (task : RunnerTask) (targetPolicy : Json) (hasFixtures : Bool) (now : Instant) :
    Except RunnerError Admission := do
  checkTestSpec toUpperCase dateParse task.testSpec now
  let deploymentId ← checkSnapshot task.snapshotManifest targetPolicy
  let operationLevel ← checkLevel task.testSpec targetPolicy hasFixtures
  return { deploymentId, operationLevel }

end Admit

section Admitted

variable {toUpperCase : String → String} {dateParse : String → Option Int} {task : RunnerTask}
  {targetPolicy : Json} {hasFixtures : Bool} {now : Instant} {admission : Admission}

theorem checkLevel_ok {testSpec : Json} {level : TestOperationLevel}
    (h : checkLevel testSpec targetPolicy hasFixtures = .ok level) :
    isMember (levelOf testSpec) level = true ∧
      (level = .SAFE_READ ∨ level = .CONTROLLED_WRITE ∧ hasFixtures = true) := by
  obtain ⟨allowed, _, h⟩ := bind_ok h
  split at h
  · cases h
  · split at h
    · rename_i hread
      cases h
      exact ⟨hread, Or.inl rfl⟩
    · split at h
      · cases h
      · rename_i hwrite
        split at h
        · cases h
        · rename_i hfixtures
          cases h
          exact ⟨by simpa using hwrite, Or.inr ⟨rfl, by simpa using hfixtures⟩⟩

/-- What is admitted is executable, and of one of the two levels that a runner executes. -/
theorem admit_ok
    (h : admitTask toUpperCase dateParse task targetPolicy hasFixtures now = .ok admission) :
    checkTestSpec toUpperCase dateParse task.testSpec now = .ok () ∧
      isMember (levelOf task.testSpec) admission.operationLevel = true ∧
      (admission.operationLevel = .SAFE_READ ∨
        admission.operationLevel = .CONTROLLED_WRITE ∧ hasFixtures = true) := by
  obtain ⟨_, hspec, h⟩ := bind_ok h
  obtain ⟨_, _, h⟩ := bind_ok h
  obtain ⟨level, hlevel, h⟩ := bind_ok h
  cases h
  exact ⟨hspec, checkLevel_ok hlevel⟩

/-- A controlled write is only admitted where fixtures are configured. -/
theorem admit_write
    (h : admitTask toUpperCase dateParse task targetPolicy hasFixtures now = .ok admission)
    (hwrite : admission.operationLevel = .CONTROLLED_WRITE) : hasFixtures = true := by
  rcases (admit_ok h).2.2 with hread | ⟨_, hfixtures⟩
  · rw [hread] at hwrite
    cases hwrite
  · exact hfixtures

end Admitted

/-! ## What the sample runs observe -/

def sampleComponents : Json :=
  .obj (["source", "build", "deployment", "runtime"].map fun name =>
    (name, .obj [("id", .str name), ("digest", .str "d")]))

/-- `Date.parse` on the window of the sample tasks. -/
def parsedInstant (text : String) : Option Int :=
  [("2026-07-15T12:00:00Z", 1784116800000), ("2026-07-15T12:05:00Z", 1784117100000)].lookup text

def sampleNow : Instant where
  time := 1784116860000
  iso := "2026-07-15T12:00:00Z"

end Traqen.RunnerAdmission
