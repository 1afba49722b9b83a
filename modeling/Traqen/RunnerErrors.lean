-- The errors of the runner (`runner/errors.js`), and the values that trusted handlers and
-- executors throw.
import Traqen.Model

open Js

namespace Traqen.RunnerErrors

/-- Why a test specification cannot be run by any policy or target. -/
inductive SpecCause where
  | unsupportedJsonPath (expression : Option Json)
  | unknownStep (assertionId stepId : Option Json)
  | executorRequired (type executor : String)
  | headerNameRequired
  | rowInvalid
  | fieldRequired
  | unsupportedAssertion (type : Option Json)
  | requestBody (method : String)
  | oneSeedRequired
  | seedRefRequired
  | cleanupRequired
  | strategyRequired
  | executorUnnamed (executor : Option Json)
deriving DecidableEq

/-- The text of a value in a template literal. -/
def templateText (value : Option Json) : String := (value.map Json.toText).getD "undefined"

def SpecCause.message : SpecCause → String
  | .unsupportedJsonPath expression =>
    "Unsupported JSONPath expression: " ++ templateText expression
  | .unknownStep assertionId stepId =>
    "Assertion " ++ templateText assertionId ++ " references unknown step " ++ templateText stepId
  | .executorRequired type executor => type ++ " requires " ++ executor ++ " step"
  | .headerNameRequired => "RESPONSE_HEADER requires a header name"
  | .rowInvalid => "DATABASE_FIELD row must be a non-negative integer"
  | .fieldRequired => "DATABASE_FIELD requires a field"
  | .unsupportedAssertion type => "Unsupported assertion type " ++ templateText type
  | .requestBody method => "HTTP " ++ method ++ " must not include a request body"
  | .oneSeedRequired => "CONTROLLED_WRITE requires exactly one trusted Seed precondition"
  | .seedRefRequired => "Seed precondition seedRef must be a non-empty string"
  | .cleanupRequired => "TestSpec cleanup must be an object"
  | .strategyRequired => "TestSpec cleanup strategy must be a non-empty string"
  | .executorUnnamed executor => "Executor " ++ templateText executor ++ " is not configured"

/-- The errors that the code of the runner throws. `spec` is a RunnerPolicyError whose cause lies
in the specification alone, `policy` any other one, `execution` a RunnerExecutionError, and
`other` an error of the domain or of the engine. -/
inductive RunnerError where
  | spec (cause : SpecCause)
  | policy (message : String)
  | execution (message : String)
  | other (failure : Failure)
deriving DecidableEq

def RunnerError.message : RunnerError → String
  | .spec cause => cause.message
  | .policy message | .execution message => message
  | .other failure => failure.message

/-- The specification is the cause. -/
def RunnerError.isSpec : RunnerError → Bool
  | .spec _ => true
  | _ => false

def specError {α : Type} (cause : SpecCause) : Except RunnerError α := .error (.spec cause)

def policyError {α : Type} (message : String) : Except RunnerError α := .error (.policy message)

def executionError {α : Type} (message : String) : Except RunnerError α :=
  .error (.execution message)

def ofDomain {α : Type} (result : Except Failure α) : Except RunnerError α :=
  result.mapError .other

/-- A result is reached through the results of its steps. -/
theorem mapErrorOk {ε δ α : Type} {x : Except ε α} {f : ε → δ} {a : α}
    (h : x.mapError f = .ok a) : x = .ok a := by
  cases x with
  | error e => cases h
  | ok b =>
    cases h
    rfl

theorem toOptionOk {ε α : Type} {x : Except ε α} {a : α} (h : x.toOption = some a) :
    x = .ok a := by
  cases x with
  | error e => cases h
  | ok b =>
    cases h
    rfl

/-- The outcome is an error, and the specification is its cause. -/
def blamesSpec {α : Type} : Except RunnerError α → Bool
  | .error e => e.isSpec
  | .ok _ => false

@[simp] theorem blamesSpec_ok {α : Type} (a : α) : blamesSpec (.ok a) = false := rfl

theorem blamesSpec_bind {α β : Type} {x : Except RunnerError α} {f : α → Except RunnerError β}
    (hx : blamesSpec x = false) (hf : ∀ a, x = .ok a → blamesSpec (f a) = false) :
    blamesSpec (x >>= f) = false := by
  cases x with
  | error e => exact hx
  | ok a => exact hf a rfl

/-- What a catch clause of the runner gets: an error of its own code, or whatever value a handler
or an executor throws. -/
inductive Thrown where
  | error (e : RunnerError)
  | value (v : Option Json)

namespace Thrown

/-- `error.message`, where the thrown value has properties. -/
def message : Thrown → Option Json
  | .error e => some (.str e.message)
  | .value v => field v "message"

/-- Reading a property of null or undefined throws again. -/
def isNullish : Thrown → Bool
  | .value none | .value (some .null) => true
  | _ => false

/-- The specification is the cause of an error that the runner throws. -/
def isSpec : Thrown → Bool
  | .error e => e.isSpec
  | .value _ => false

/-- What `if (error)` asks. -/
def isTruthy : Thrown → Bool
  | .error _ => true
  | .value v => truthy v

end Thrown

end Traqen.RunnerErrors
