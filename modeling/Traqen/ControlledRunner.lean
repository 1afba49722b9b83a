-- One run of an accepted task (`ControlledRunner.run` of `runner/controlled-runner.js`): the setup of
-- its fixture, its steps, the evaluation of its assertions and the cleanup.
import Traqen.FixtureLifecycle
import Traqen.RunnerAdmission

open Js

namespace Traqen.ControlledRunner

open ExecutionEvidence FixtureLifecycle RunnerAssertions RunnerErrors RunnerTasks RunnerValues
  TestSpecs

/-! ## The course of a run -/

/-- What a run calls on its target, in the order of the calls. -/
inductive Event (σ : Type) where
  | setup (seed : Json)
  | step (index : Nat)
  | cleanup (input : CleanupInput σ)

/-- An executor, told the number of the step and the step with its templates filled in. -/
abbrev Executor := Nat → Json → Except Thrown (Option Json)

structure Course (σ : Type) where
  events : List (Event σ)
  vars : Fields
  fixtureState : Option σ
  setupSucceeded : Bool
  rawSetupResult : Json
  rawStepResults : List (Option Json)
  stepResultsById : StepResults
  executionError : Option Thrown
  rawAssertionResults : List Json
  rawCleanupResult : Json
  /-- What the run rejects with, when an error leaves it. -/
  rejected : Option Thrown

def skippedResult : Json := .obj [("status", .str "SKIPPED")]

def beginCourse {σ : Type} (vars : Fields) : Course σ where
  events := []
  vars
  fixtureState := none
  setupSucceeded := false
  rawSetupResult := skippedResult
  rawStepResults := []
  stepResultsById := []
  executionError := none
  rawAssertionResults := []
  rawCleanupResult := skippedResult
  rejected := none

/-- `error.message` of null or undefined throws out of the catch clause. -/
def nullishMessage : Thrown :=
  .error (.other { name := .TypeError
                   message := "Cannot read properties of null (reading 'message')" })

/-- `!executionError` is false. -/
def Course.failed {σ : Type} (c : Course σ) : Bool := c.executionError.any Thrown.isTruthy

def mergeFixtureBindings (vars bindings : Fields) : Except RunnerError Fields :=
  bindings.foldlM (fun merged entry =>
    if (merged.lookup entry.1).isSome then
      policyError ("Fixture binding " ++ entry.1 ++ " conflicts with a TestSpec variable")
    else .ok (assign merged entry.1 entry.2)) vars

section Setup

variable {σ : Type} (session : Session σ)

/-- What the output of a setup makes of the run. -/
def applySetup (vars : Fields) (output : SetupOutput σ) : Except RunnerError (Fields × Setup σ) := do
  let setup ← setupOf session output
  let merged ← mergeFixtureBindings vars setup.bindings
  return (merged, setup)

/-- The catch clause around the setup. -/
def catchSetup (c : Course σ) (error : Thrown) : Course σ :=
  if error.isNullish then { c with executionError := some error, rejected := some nullishMessage }
  else
    { c with
      executionError := some error
      rawSetupResult := objectOf [("status", some (.str "ERROR")),
        ("seedRef", some (.str session.seedRef)), ("message", error.message)] }

def setupPhase (c : Course σ) : Course σ :=
  match interpolateValue c.vars session.seed with
  | .error e => catchSetup session c (.error e)
  | .ok seed =>
    let c := { c with events := c.events ++ [.setup seed] }
    match session.handler.setup seed with
    | .error thrown => catchSetup session c thrown
    | .ok output =>
      match applySetup session c.vars output with
      | .error e => catchSetup session c (.error e)
      | .ok (vars, setup) =>
        { c with
          vars, fixtureState := setup.state, rawSetupResult := setup.result
          setupSucceeded := true }

end Setup

section Steps

variable {σ : Type} (executors : String → Option Executor)

/-- A step that failed, as it is recorded. -/
def failedStep (step : Json) (error : Thrown) : Json :=
  objectOf [("id", field (some step) "id"), ("executor", field (some step) "executor"),
    ("status", some (.str "ERROR")), ("message", error.message)]

/-- The catch clause around a step. -/
def catchStep (c : Course σ) (step : Json) (error : Thrown) : Course σ :=
  if error.isNullish then { c with executionError := some error, rejected := some nullishMessage }
  else
    { c with
      executionError := some error
      rawStepResults := c.rawStepResults ++ [some (failedStep step error)] }

def executorOf (step : Json) : Option Executor :=
  match field (some step) "executor" with
  | some (.str name) => executors name
  | _ => none

/-- No executor has a name that is not a string. -/
def missingExecutor (step : Json) : Thrown :=
  match field (some step) "executor" with
  | some (.str name) => .error (.policy ("Executor " ++ name ++ " is not configured"))
  | executor => .error (.spec (.executorUnnamed executor))

def recordStep (c : Course σ) (step : Json) (result : Option Json) : Course σ :=
  { c with
    rawStepResults := c.rawStepResults ++ [result]
    stepResultsById := OrderedMap.set c.stepResultsById
      (templateText (field (some step) "id")) result }

/-- The loop over the steps, from the step with a number. -/
def runSteps : Nat → List Json → Course σ → Course σ
  | _, [], c => c
  | index, step :: rest, c =>
    match executorOf executors step with
    | none => catchStep c step (missingExecutor step)
    | some execute =>
      match interpolateValue c.vars step with
      | .error e => catchStep c step (.error e)
      | .ok resolvedStep =>
        let c := { c with events := c.events ++ [.step index] }
        match execute index resolvedStep with
        | .error thrown => catchStep c step thrown
        | .ok result => runSteps (index + 1) rest (recordStep c step result)

def stepsOf (testSpec : Json) : List Json := itemsOf (field (some testSpec) "steps")

def stepsPhase (testSpec : Json) (c : Course σ) : Course σ :=
  if c.rejected.isSome || c.failed then c else runSteps executors 0 (stepsOf testSpec) c

end Steps

section Assertions

variable {σ : Type} (toLowerCase : String → String)

def notEvaluated (assertion : Json) (message : Option Json) : Json :=
  objectOf [("id", field (some assertion) "id"), ("status", some (.str "ERROR")),
    ("message", message)]

def assertionResult (c : Course σ) (assertion : Json) : Json :=
  match c.executionError.filter Thrown.isTruthy with
  | some error =>
    notEvaluated assertion
      (some (.str ("Assertion was not evaluated: " ++ templateText error.message)))
  | none =>
    match evaluateAssertion toLowerCase assertion c.stepResultsById with
    | .ok result => result
    | .error e => notEvaluated assertion (some (.str e.message))

def assertionsPhase (testSpec : Json) (c : Course σ) : Course σ :=
  if c.rejected.isSome then c
  else
    { c with
      rawAssertionResults := (itemsOf (field (some testSpec) "assertions")).map
        (assertionResult toLowerCase c) }

end Assertions

section Cleanup

variable {σ : Type} (session : Session σ)

/-- The catch clause around the cleanup. -/
def catchCleanup (c : Course σ) (error : Thrown) : Course σ :=
  if error.isNullish then { c with rejected := some nullishMessage }
  else
    { c with
      rawCleanupResult := objectOf [("status", some (.str "ERROR")),
        ("seedRef", some (.str session.seedRef)), ("message", error.message),
        ("isolationRequired", some (.bool true)),
        ("compensationRef", some ((session.compensationRef.map Json.str).getD .null))] }

def cleanupPhase (c : Course σ) : Course σ :=
  if c.rejected.isSome then c
  else
    match cleanupInput session c.vars c.fixtureState c.setupSucceeded with
    | .error e => catchCleanup session c (.error e)
    | .ok input =>
      let c := { c with events := c.events ++ [.cleanup input] }
      match session.handler.cleanup input with
      | .error thrown => catchCleanup session c thrown
      | .ok output =>
        match cleanupResult session output with
        | .error e => catchCleanup session c (.error e)
        | .ok result => { c with rawCleanupResult := result }

end Cleanup

section Execute

variable {σ : Type} (toLowerCase : String → String) (executors : String → Option Executor)

/-- A run of a controlled write, from its variables to its cleanup. -/
def executeWrite (session : Session σ) (testSpec : Json) (vars : Fields) : Course σ :=
  cleanupPhase session (assertionsPhase toLowerCase testSpec
    (stepsPhase executors testSpec (setupPhase session (beginCourse vars))))

/-- A run of a safe read. -/
def executeRead (testSpec : Json) (vars : Fields) : Course σ :=
  assertionsPhase toLowerCase testSpec (stepsPhase executors testSpec (beginCourse vars))

/-- What surrounds a run: the runner, its clock, and what its collaborators answer. `executors`
and the handlers may depend on all of it. -/
structure Host (σ : Type) where
  runnerId : String
  runnerSecret : String
  usedNonces : Nonces
  acceptedAt : Instant
  validatedAt : Instant
  targetPolicy : Option Json → String → Except Thrown (Option Json)
  secret : String → Except Thrown (Option Json)
  fixtures : Option (String → Except Thrown (Option (Handler σ)))
  executors : String → Option Executor

/-- The task with its policy, as both are bound. -/
structure Accepted where
  task : RunnerTask
  policy : Json
  admission : RunnerAdmission.Admission

section Accept

variable (toUpperCase : String → String) (dateParse : String → Option Int)
  (sha256 : String → String) (hmac : String → String → String)

/-- `run` up to its first wait after the nonce is used up. -/
def accept (host : Host σ) (attested : Json) : Except Thrown Accepted := do
  let authenticated ← (authenticateRunnerTask dateParse hmac attested host.runnerId
    host.runnerSecret host.acceptedAt.time host.usedNonces).mapError .error
  let target := RunnerAdmission.targetOf authenticated.testSpec
  let answer ← host.targetPolicy target authenticated.projectId
  match answer.filter fun policy => truthy (some policy) with
  | none => .error (.error (.policy ("Target " ++ templateText target ++ " is not configured")))
  | some policy =>
    let (task, _) ←
      (bindRunnerTaskPolicy sha256 authenticated policy host.usedNonces).mapError .error
    let admission ← (RunnerAdmission.admitTask toUpperCase dateParse task policy
      host.fixtures.isSome host.validatedAt).mapError .error
    return { task, policy, admission }

/-- The run of an accepted task up to its cleanup, with the secrets that it resolved. -/
def course (host : Host σ) (accepted : Accepted) : Except Thrown (Course σ × List String) := do
  let testSpec := accepted.task.testSpec
  let resolved ← resolveVariables host.secret (field (some testSpec) "variables")
  match accepted.admission.operationLevel, host.fixtures with
  | .CONTROLLED_WRITE, some handlerResolver =>
    let session ← createSession testSpec accepted.policy handlerResolver
    return (executeWrite toLowerCase host.executors session testSpec resolved.variableValues,
      resolved.secretValues)
  | _, _ =>
    return (executeRead toLowerCase host.executors testSpec resolved.variableValues,
      resolved.secretValues)

end Accept

end Execute

end Traqen.ControlledRunner
