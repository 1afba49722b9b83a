-- The assertions of a run (`runner/assertions.js`), evaluated on the results of its steps.
import Traqen.RunnerValues

open Js

namespace Traqen.RunnerAssertions

open ExecutionEvidence RunnerErrors RunnerValues TestSpecs

/-- An object whose undefined fields are left out. -/
def objectOf (entries : List (String × Option Json)) : Json :=
  .obj (entries.filterMap fun e => e.2.map fun value => (e.1, value))

def engineError {α : Type} (message : String) : Except RunnerError α :=
  .error (.other { name := .TypeError, message })

/-- `value.key`, which throws on null and undefined. -/
def member (value : Option Json) (key : String) : Except RunnerError (Option Json) :=
  match value with
  | none => engineError ("Cannot read properties of undefined (reading '" ++ key ++ "')")
  | some .null => engineError ("Cannot read properties of null (reading '" ++ key ++ "')")
  | some v => .ok (ownProperty v key)

/-- The methods of `Object.prototype`. -/
def objectMethods : List String :=
  ["constructor", "__defineGetter__", "__defineSetter__", "hasOwnProperty", "__lookupGetter__",
    "__lookupSetter__", "isPrototypeOf", "propertyIsEnumerable", "toString", "valueOf",
    "toLocaleString"]

/-- `object[name]`: a value, a method that is inherited, or undefined. -/
inductive Property where
  | value (v : Json)
  | method
  | missing

/-- The headers and the rows of a result are objects. Their prototype has no keys of its own that
are listed. -/
def property (object : Json) (name : String) : Property :=
  match ownProperty object name with
  | some v => .value v
  | none =>
    if name = "__proto__" then .value (.obj [])
    else if name ∈ objectMethods then .method
    else .missing

/-- `String(value)`. -/
def stringOf (value : Json) : Except RunnerError String := do
  let text ← textOf value
  return String.ofList text

/-! ## JSON paths -/

/-- The text with each `[n]` as `.n`; `skip` characters belong to a match. -/
def dottedFrom : Nat → List Char → List Char
  | _, [] => []
  | skip + 1, _ :: rest => dottedFrom skip rest
  | 0, '[' :: rest =>
    let digits := rest.takeWhile Char.isDigit
    if digits ≠ [] ∧ (rest.drop digits.length).head? = some ']' then
      '.' :: digits ++ dottedFrom (digits.length + 1) rest
    else '[' :: dottedFrom 0 rest
  | 0, c :: rest => c :: dottedFrom 0 rest

def pathTokens (expression : List Char) : List (List Char) :=
  ((dottedFrom 0 expression).splitOn '.').filter (· ≠ [])

/-- `typeof expression === "string" && expression.startsWith("$.")`, and what follows. -/
def jsonPath? (expression : Option Json) : Option (List Char) :=
  match expression with
  | some (.str text) =>
    match text.toList with
    | '$' :: '.' :: rest => some rest
    | _ => none
  | _ => none

def jsonPathValue (value expression : Option Json) : Except RunnerError (Option Json) :=
  match jsonPath? expression with
  | none => specError (.unsupportedJsonPath expression)
  | some rest =>
    .ok ((pathTokens rest).foldl
      (fun current token => current.bind fun v => ownProperty v (String.ofList token)) value)

/-! ## Evaluation -/

/-- `canonicalJson(actual) === canonicalJson(expected)`; an undefined value has no text. -/
def valuesEqual (actual expected : Option Json) : Bool :=
  actual.map canonicalJson = expected.map canonicalJson

/-- `JSON.stringify` in a template literal. -/
def stringified (value : Option Json) : String := (value.map Json.stringify).getD "undefined"

def result (id actual expected : Option Json) : Json :=
  let passed := valuesEqual actual expected
  let message :=
    if passed then .null
    else .str ("Expected " ++ stringified expected ++ " but received " ++ stringified actual)
  objectOf [("id", id), ("status", some (.str (if passed then "PASS" else "FAIL"))),
    ("actual", actual), ("expected", expected), ("message", some message)]

def requireStepOf (step : Json) (type executor article : String) : Except RunnerError Unit :=
  if strictEq (field (some step) "executor") (some (.str executor)) then .ok ()
  else specError (.executorRequired type (article ++ " " ++ executor))

/-- `Number.isInteger(rowIndex) && rowIndex >= 0`. -/
def rowIndex? (row : Option Json) : Option Nat :=
  match nullish row (.num (Number.ofNat 0)) with
  | .num n => if n.isInteger && 0 ≤ n.mantissa then some n.toInt.toNat else none
  | _ => none

/-- `headers[name] ?? null`; a method has no text, as undefined has none. -/
def headerValue (headers : Json) (name : String) : Option Json :=
  match property headers name with
  | .value v => some v
  | .method => none
  | .missing => some .null

/-- `row?.[field]`. -/
def rowValue (row : Json) (name : String) : Option Json :=
  match row, property row name with
  | .null, _ => none
  | _, .value v => some v
  | _, _ => none

section Evaluate

variable (toLowerCase : String → String)

def evaluateHeader (assertion step : Json) : Except RunnerError Json := do
  requireStepOf step "RESPONSE_HEADER" "HTTP" "an"
  let text ← stringOf (nullish (field (some assertion) "name") (.str ""))
  let name := toLowerCase text
  if name = "" then specError .headerNameRequired
  else
    let response ← member (some step) "response"
    let headers ← member response "headers"
    let _ ← member headers name
    return result (field (some assertion) "id") (headerValue (nullish headers .null) name)
      (field (some assertion) "expected")

def evaluateField (assertion step : Json) : Except RunnerError Json := do
  requireStepOf step "DATABASE_FIELD" "DATABASE" "a"
  match rowIndex? (field (some assertion) "row") with
  | none => specError .rowInvalid
  | some rowIndex =>
    let name ← stringOf (nullish (field (some assertion) "field") (.str ""))
    if name = "" then specError .fieldRequired
    else
      let rows ← member (some step) "rows"
      let row ← member rows (toString rowIndex)
      return result (field (some assertion) "id") (rowValue (nullish row .null) name)
        (field (some assertion) "expected")

/-- What an assertion compares with its expected value, by its type. -/
def evaluateOn (assertion step : Json) : Except RunnerError Json := do
  let id := field (some assertion) "id"
  let expected := field (some assertion) "expected"
  match field (some assertion) "type" with
  | some (.str "HTTP_STATUS") =>
    requireStepOf step "HTTP_STATUS" "HTTP" "an"
    let response ← member (some step) "response"
    let status ← member response "status"
    return result id status expected
  | some (.str "RESPONSE_HEADER") => evaluateHeader toLowerCase assertion step
  | some (.str "JSON_PATH") =>
    requireStepOf step "JSON_PATH" "HTTP" "an"
    let response ← member (some step) "response"
    let json ← member response "json"
    let actual ← jsonPathValue json (field (some assertion) "expression")
    return result id actual expected
  | some (.str "DATABASE_ROW_COUNT") =>
    requireStepOf step "DATABASE_ROW_COUNT" "DATABASE" "a"
    let rows ← member (some step) "rows"
    let length ← member rows "length"
    return result id length expected
  | some (.str "DATABASE_FIELD") => evaluateField assertion step
  | some (.str "EXISTING_TEST_EXIT_CODE") =>
    requireStepOf step "EXISTING_TEST_EXIT_CODE" "EXISTING_TEST" "an"
    return result id (field (some step) "exitCode") expected
  | type => specError (.unsupportedAssertion type)

/-- The results of the steps, by the ids of the steps. -/
abbrev StepResults := List (String × Option Json)

def evaluateAssertion (assertion : Json) (stepResults : StepResults) : Except RunnerError Json :=
  let id := field (some assertion) "id"
  let stepId := field (some assertion) "stepId"
  let step := (stepResults.find? fun e => strictEq stepId (some (.str e.1))).bind (·.2)
  match step with
  | some step =>
    if !truthy (some step) then specError (.unknownStep id stepId)
    else if !strictEq (field (some step) "status") (some (.str "PASS")) then
      executionError ("Assertion " ++ templateText id ++ " cannot run because step " ++
        templateText stepId ++ " failed")
    else evaluateOn toLowerCase assertion step
  | none => specError (.unknownStep id stepId)

end Evaluate

end Traqen.RunnerAssertions
