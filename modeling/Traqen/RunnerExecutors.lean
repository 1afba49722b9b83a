-- The executors of the steps (`runner/http-executor.js`, `database-executor.js` and
-- `existing-test-executor.js`): what they check of a step before they turn to the target, and the
-- result that they make of its answer.
import Traqen.ControlledRunner

open Js

namespace Traqen.RunnerExecutors

open ControlledRunner ExecutionEvidence RunnerAssertions RunnerErrors RunnerValues TestSpecs

/-! ## Upper case -/

attribute [local simp] interpolateValue

/-- `toUpperCase`, character by character; `table` gives the upper case outside of ASCII. -/
def upperWith (table : Char → List Char) (text : String) : String :=
  String.ofList (text.toList.flatMap fun c => if c.toNat < 128 then [c.toUpper] else table c)

/-! ## Answers -/

/-- What a request leads to. -/
structure HttpAnswer where
  durationMs : Number
  request : Json
  status : Json
  headers : Json
  body : String
  json : Json

/-- What an executor throws on the way to its target: an error of the runner that the policy or the
target is the cause of, or an error of the engine. -/
inductive Refusal where
  | policy (message : String)
  | execution (message : String)
  | other (failure : Failure)

def Refusal.thrown : Refusal → Thrown
  | .policy message => .error (.policy message)
  | .execution message => .error (.execution message)
  | .other failure => .error (.other failure)

/-- What the targets answer to a step: the secrets in a URL, the allowlists and the limits of the
policy are checked on the way to them. -/
structure Answers where
  http : Nat → Json → Except Refusal HttpAnswer
  database : Nat → Json → Except Refusal (List Json × Json)
  existingTest : Nat → Json → Except Refusal (Json × Json)

/-- The fields that the result of every executor has. -/
def stepResult (step : Json) (executor : String) (others : List (String × Option Json)) : Json :=
  objectOf ([("id", field (some step) "id"), ("executor", some (.str executor)),
    ("status", some (.str "PASS"))] ++ others)

section Http

variable (toUpperCase : String → String) (level : TestOperationLevel)

/-- `String(step.method ?? "GET").toUpperCase()`. -/
def requestMethod (step : Json) : Except RunnerError String := do
  let text ← stringOf (nullish (field (some step) "method") (.str "GET"))
  return toUpperCase text

def checkMethod (method : String) : Except RunnerError Unit :=
  match level with
  | .SAFE_READ =>
    if method ∈ readMethods then .ok ()
    else policyError ("HTTP " ++ method ++ " is not allowed for SAFE_READ execution")
  | .CONTROLLED_WRITE =>
    if method ∈ writeMethods then .ok ()
    else policyError ("HTTP " ++ method ++ " is not allowed for CONTROLLED_WRITE execution")
  | level =>
    policyError ("HTTP execution is blocked for operation level " ++ EnumValues.name level)

/-- The checks of a request that read only the step. -/
def checkRequest (step : Json) : Except RunnerError Unit := do
  let method ← requestMethod toUpperCase step
  checkMethod level method
  if method ∈ readMethods ∧ (field (some step) "body").isSome then specError (.requestBody method)
  else if isForeignPath (field (some step) "path") then
    policyError "HTTP step path must be a non-empty relative path"
  else return ()

def httpExecutor (answer : Nat → Json → Except Refusal HttpAnswer) : Executor := fun index step => do
  (checkRequest toUpperCase level step).mapError .error
  let answer ← (answer index step).mapError Refusal.thrown
  return some (stepResult step "HTTP" [("durationMs", some (.num answer.durationMs)),
    ("request", some answer.request),
    ("response", some (.obj [("status", answer.status), ("headers", answer.headers),
      ("body", .str answer.body), ("json", answer.json)]))])

end Http

/-- The query is answered with rows; `others` are the query and its parameters. -/
def databaseExecutor (answer : Nat → Json → Except Refusal (List Json × Json)) : Executor :=
  fun index step => do
    if (field (some step) "sql").isSome ∨ (field (some step) "query").isSome then
      .error (.error (.policy "Raw SQL is forbidden in TestSpec; use an allowlisted queryRef"))
    else
      let (rows, query) ← (answer index step).mapError Refusal.thrown
      return some (stepResult step "DATABASE" [("query", some query), ("rows", some (.arr rows))])

def existingTestExecutor (answer : Nat → Json → Except Refusal (Json × Json)) : Executor :=
  fun index step => do
    match forbiddenTestFields.find? fun name => (field (some step) name).isSome with
    | some forbidden =>
      .error (.error (.policy ("EXISTING_TEST step cannot supply " ++ forbidden ++
        "; use a trusted testRef")))
    | none =>
      let (exitCode, output) ← (answer index step).mapError Refusal.thrown
      return some (stepResult step "EXISTING_TEST" [("exitCode", some exitCode),
        ("output", some output)])

/-- The three executors under their names. -/
def standardExecutors (toUpperCase : String → String) (level : TestOperationLevel)
    (answers : Answers) (name : String) : Option Executor :=
  if name = "HTTP" then some (httpExecutor toUpperCase level answers.http)
  else if name = "DATABASE" then some (databaseExecutor answers.database)
  else if name = "EXISTING_TEST" then some (existingTestExecutor answers.existingTest)
  else none

/-! ## Filled templates -/

section Filled

variable {vars : Fields}

theorem partsFrom_plain {text : List Char} (h : '$' ∉ text) : partsFrom 0 text = text.map .text := by
  induction text with
  | nil => rfl
  | cons c rest ih =>
    obtain ⟨hc, hrest⟩ := not_or.mp (mt List.mem_cons.mpr h)
    have hstart : templateStart (c :: rest) = none := by
      unfold templateStart
      split
      · rename_i heq
        exact absurd (List.cons.inj heq).1.symm hc
      · rfl
    unfold partsFrom
    rw [hstart, ih hrest]
    rfl

theorem fillParts_plain (text : List Char) :
    (text.map Part.text).mapM (fillPart vars) = .ok (text.map fun c => [c]) := by
  induction text with
  | nil => rfl
  | cons c rest ih =>
    rw [List.map_cons, List.mapM_cons, ih]
    rfl

/-- A text without a dollar sign has no template. -/
theorem interpolateValue_plain {text : String} (h : '$' ∉ text.toList) :
    interpolateValue vars (.str text) = .ok (.str text) := by
  unfold interpolateValue interpolateText
  rw [partsFrom_plain h]
  split
  · rename_i path heq
    obtain ⟨c, _, hc⟩ := List.map_eq_cons_iff.mp heq
    cases hc.2.1
  · rw [fillParts_plain]
    change Except.ok (Json.str (String.ofList (text.toList.map fun c => [c]).flatten)) = _
    rw [← List.flatMap_def, List.flatMap_singleton', String.ofList_toList]

/-- The fields of an object are filled in one by one. -/
theorem interpolateFields_lookup {fields filled : Fields}
    (h : interpolateFields vars fields = .ok filled) (key : String) :
    match fields.lookup key with
    | none => filled.lookup key = none
    | some value => ∃ value', interpolateValue vars value = .ok value' ∧
        filled.lookup key = some value' := by
  induction fields generalizing filled with
  | nil =>
    cases h
    rfl
  | cons e fields ih =>
    obtain ⟨name, child⟩ := e
    rw [interpolateFields] at h
    obtain ⟨value', hvalue, h⟩ := bind_ok h
    obtain ⟨rest, hrest, h⟩ := bind_ok h
    cases h
    rw [List.lookup_cons, List.lookup_cons]
    by_cases hname : key == name
    · rw [hname]
      exact ⟨value', hvalue, rfl⟩
    · rw [Bool.not_eq_true] at hname
      rw [hname]
      exact ih hrest

/-- A field without a template is filled in with itself. -/
theorem field_plain {step resolved : Json} (h : interpolateValue vars step = .ok resolved)
    {key text : String} (hfield : field (some step) key = some (.str text))
    (hplain : '$' ∉ text.toList) : field (some resolved) key = some (.str text) := by
  cases step with
  | obj fields =>
    rw [interpolateValue] at h
    obtain ⟨filled, hfilled, h⟩ := bind_ok h
    cases h
    have hlookup := interpolateFields_lookup hfilled key
    change fields.lookup key = _ at hfield
    rw [hfield] at hlookup
    obtain ⟨value, hvalue, hresolved⟩ := hlookup
    rw [interpolateValue_plain hplain] at hvalue
    cases hvalue
    exact hresolved
  | _ => cases hfield

/-- Filling templates in neither adds a field nor drops one. -/
theorem field_isSome {step resolved : Json} (h : interpolateValue vars step = .ok resolved)
    (hobject : step.isObject = true) (key : String) :
    (field (some resolved) key).isSome = (field (some step) key).isSome := by
  cases step with
  | obj fields =>
    rw [interpolateValue] at h
    obtain ⟨filled, hfilled, h⟩ := bind_ok h
    cases h
    have hlookup := interpolateFields_lookup hfilled key
    change (filled.lookup key).isSome = (fields.lookup key).isSome
    cases hfield : fields.lookup key with
    | none =>
      rw [hfield] at hlookup
      rw [hlookup]
    | some value =>
      rw [hfield] at hlookup
      obtain ⟨value', _, hresolved⟩ := hlookup
      rw [hresolved]
      rfl
  | _ => cases hobject

/-- The upper case of a text has a dollar sign where the text has one. -/
theorem upperWith_dollar (table : Char → List Char) {text : String} (h : '$' ∈ text.toList) :
    '$' ∈ (upperWith table text).toList := by
  unfold upperWith
  rw [String.toList_ofList]
  refine List.mem_flatMap.mpr ⟨'$', h, ?_⟩
  rw [if_pos (by decide)]
  decide

end Filled

/-! ## Results -/

/-- A step that passes has a result of its executor, with what the assertions of that executor
read. -/
structure Passed (name : String) (result : Json) : Prop where
  executor : field (some result) "executor" = some (.str name)
  status : field (some result) "status" = some (.str "PASS")
  isObject : result.isObject = true
  response : name = "HTTP" → ∃ fields, field (some result) "response" = some (.obj fields)

theorem passed_stepResult (step : Json) (name : String) (others : List (String × Option Json))
    (h : name = "HTTP" → ∃ fields, ((others.filterMap fun e => e.2.map fun value =>
      (e.1, value)).lookup "response") = some (.obj fields)) :
    Passed name (stepResult step name others) := by
  unfold stepResult objectOf
  cases hid : field (some step) "id" with
  | none => exact ⟨rfl, rfl, rfl, h⟩
  | some id => exact ⟨rfl, rfl, rfl, h⟩

/-- A body that a request of this step may not have: its methods only read. -/
def bodyRefused (level : TestOperationLevel) (step : Json) : Bool :=
  decide (level = .SAFE_READ) && isMember (field (some step) "executor") TestExecutor.HTTP &&
    (field (some step) "body").isSome

theorem Refusal.not_spec (r : Refusal) : r.thrown.isSpec = false := by
  cases r <;> rfl

theorem Refusal.truthy (r : Refusal) : r.thrown.isTruthy = true := by
  cases r <;> rfl

section Outcomes

variable {table : Char → List Char} {level : TestOperationLevel} {answers : Answers}
  {vars : Fields} {step resolved : Json}

/-- What the executor of a step may do: pass with a result of its own, or throw an error that the
specification is the cause of exactly where its request has a body that it may not have. -/
structure Outcome (level : TestOperationLevel) (step : Json) (name : String)
    (outcome : Except Thrown (Option Json)) : Prop where
  passed : ∀ result, outcome = .ok result → bodyRefused level step = false ∧
    ∃ value, result = some value ∧ Passed name value
  thrown : ∀ t, outcome = .error t → t.isTruthy = true ∧ t.isSpec = bodyRefused level step

/-- An answer that comes back makes the step pass, and a refusal does not blame it. -/
theorem outcome_of_answer {α : Type} {name : String} {answer : Except Refusal α}
    {f : α → Except Thrown (Option Json)} (hbody : bodyRefused level step = false)
    (h : ∀ a, ∃ value, f a = .ok (some value) ∧ Passed name value) :
    Outcome level step name (answer.mapError Refusal.thrown >>= f) := by
  cases answer with
  | error r =>
    refine ⟨fun result heq => (by cases heq), fun t heq => ?_⟩
    cases heq
    exact ⟨r.truthy, r.not_spec.trans hbody.symm⟩
  | ok a =>
    obtain ⟨value, hvalue, hpassed⟩ := h a
    change Outcome level step name (f a)
    rw [hvalue]
    refine ⟨fun result heq => ?_, fun t heq => (by cases heq)⟩
    cases heq
    exact ⟨hbody, value, rfl, hpassed⟩

theorem bodyRefused_other {name : String}
    (h : field (some step) "executor" = some (.str name)) (hname : name ≠ "HTTP") :
    bodyRefused level step = false := by
  unfold bodyRefused isMember
  rw [h]
  have hnot : strictEq (some (.str name)) (some (enumJson TestExecutor.HTTP)) = false := by
    simp [strictEq, enumJson, EnumValues.name, hname]
  rw [hnot, Bool.and_false, Bool.false_and]

theorem databaseExecutor_outcome (index : Nat)
    (h : field (some step) "executor" = some (.str "DATABASE")) :
    Outcome level step "DATABASE" (databaseExecutor answers.database index resolved) := by
  have hbody : bodyRefused level step = false := bodyRefused_other h (by decide)
  unfold databaseExecutor
  split
  · refine ⟨fun result heq => (by cases heq), fun t heq => ?_⟩
    cases heq
    exact ⟨rfl, hbody.symm⟩
  · refine outcome_of_answer hbody fun a => ⟨_, rfl, ?_⟩
    exact passed_stepResult _ _ _ fun hname => absurd hname (by decide)

theorem existingTestExecutor_outcome (index : Nat)
    (h : field (some step) "executor" = some (.str "EXISTING_TEST")) :
    Outcome level step "EXISTING_TEST"
      (existingTestExecutor answers.existingTest index resolved) := by
  have hbody : bodyRefused level step = false := bodyRefused_other h (by decide)
  unfold existingTestExecutor
  split
  · refine ⟨fun result heq => (by cases heq), fun t heq => ?_⟩
    cases heq
    exact ⟨rfl, hbody.symm⟩
  · refine outcome_of_answer hbody fun a => ⟨_, rfl, ?_⟩
    exact passed_stepResult _ _ _ fun hname => absurd hname (by decide)

/-- The method of a checked step is one of those that its level allows, and it stays as it is. -/
theorem requestMethod_checked {method : String}
    (hmethod : field (some step) "method" = some (.str method))
    (hallowed : upperWith table method ∈ readMethods ∨ upperWith table method ∈ writeMethods)
    (hresolved : interpolateValue vars step = .ok resolved) :
    requestMethod (upperWith table) resolved = .ok (upperWith table method) := by
  have hplain : '$' ∉ method.toList := by
    intro h
    have hupper := upperWith_dollar table h
    have hnone : ∀ m ∈ readMethods ++ writeMethods, '$' ∉ m.toList := by decide
    exact hnone _ (List.mem_append.mpr hallowed) hupper
  unfold requestMethod
  rw [field_plain hresolved hmethod hplain]
  change (stringOf (.str method) >>= _) = _
  unfold stringOf textOf
  change Except.ok (upperWith table (String.ofList method.toList)) = _
  rw [String.ofList_toList]

theorem httpExecutor_outcome (index : Nat) {method : String}
    (hexecutor : field (some step) "executor" = some (.str "HTTP"))
    (hmethod : field (some step) "method" = some (.str method))
    (hread : level = .SAFE_READ → upperWith table method ∈ readMethods)
    (hwrite : level = .CONTROLLED_WRITE → upperWith table method ∈ writeMethods)
    (hlevel : level = .SAFE_READ ∨ level = .CONTROLLED_WRITE)
    (hresolved : interpolateValue vars step = .ok resolved) :
    Outcome level step "HTTP" (httpExecutor (upperWith table) level answers.http index resolved) := by
  have hobject : step.isObject = true := by
    cases step with
    | obj fields => rfl
    | _ => cases hexecutor
  have hallowed : upperWith table method ∈ readMethods ∨ upperWith table method ∈ writeMethods :=
    hlevel.imp hread hwrite
  have hcheck : checkMethod level (upperWith table method) = .ok () := by
    rcases hlevel with rfl | rfl
    · exact if_pos (hread rfl)
    · exact if_pos (hwrite rfl)
  have hrequest := requestMethod_checked hmethod hallowed hresolved
  have hmember : isMember (field (some step) "executor") TestExecutor.HTTP = true := by
    rw [hexecutor]
    rfl
  have hrefused : bodyRefused level step = true ↔
      upperWith table method ∈ readMethods ∧ (field (some resolved) "body").isSome := by
    unfold bodyRefused
    rw [hmember, field_isSome hresolved hobject, Bool.and_true, Bool.and_eq_true,
      decide_eq_true_iff]
    refine and_congr_left fun _ => ⟨hread, fun hreads => ?_⟩
    rcases hlevel with hlevel | hlevel
    · exact hlevel
    · have hnone : ∀ m ∈ writeMethods, m ∉ readMethods := by decide
      exact absurd hreads (hnone _ (hwrite hlevel))
  unfold httpExecutor checkRequest
  rw [hrequest]
  change Outcome level step "HTTP" (Except.mapError Thrown.error
    (checkMethod level (upperWith table method) >>= _) >>= _)
  rw [hcheck]
  change Outcome level step "HTTP" (Except.mapError Thrown.error (if _ then _ else _) >>= _)
  split
  · rename_i hrefusal
    refine ⟨fun result heq => (by cases heq), fun t heq => ?_⟩
    cases heq
    exact ⟨rfl, (hrefused.mpr hrefusal).symm⟩
  · rename_i hallowed
    have hbody : bodyRefused level step = false :=
      Bool.eq_false_iff.mpr fun h => hallowed (hrefused.mp h)
    split
    · refine ⟨fun result heq => (by cases heq), fun t heq => ?_⟩
      cases heq
      exact ⟨rfl, hbody.symm⟩
    · refine outcome_of_answer hbody fun a => ⟨_, rfl, ?_⟩
      exact passed_stepResult _ _ _ fun _ => ⟨_, rfl⟩

end Outcomes

end Traqen.RunnerExecutors
