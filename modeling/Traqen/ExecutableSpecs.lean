-- When an executable specification can be executed: exactly which runs of an admitted task meet no
-- error that the specification is the cause of, in their fixture, their steps and their assertions.
import Traqen.FixtureCleanup
import Traqen.RunnerExecutors
import Traqen.RunnerNonces
import Traqen.SpecValidation

open Js

namespace Traqen.ExecutableSpecs

open ControlledRunner ExecutionEvidence FixtureCleanup FixtureLifecycle RunnerAdmission
  RunnerAssertions RunnerErrors RunnerExecutors RunnerTasks RunnerValues SpecValidation TestSpecs

/-! ## What a run needs -/

section Definitions

variable (toLowerCase : String → String)

/-- Text that a lookup needs is there; an object without a text fails elsewhere. -/
def isTextual (value : Option Json) (accepts : String → Bool) : Bool :=
  match stringOf (nullish value (.str "")) with
  | .ok text => accepts text
  | .error _ => true

/-- The assertion has what its type needs. -/
def wellFormed (assertion : Json) : Bool :=
  match field (some assertion) "type" with
  | some (.str "RESPONSE_HEADER") =>
    isTextual (field (some assertion) "name") fun text => toLowerCase text ≠ ""
  | some (.str "JSON_PATH") => (jsonPath? (field (some assertion) "expression")).isSome
  | some (.str "DATABASE_FIELD") =>
    (rowIndex? (field (some assertion) "row")).isSome &&
      isTextual (field (some assertion) "field") fun text => text ≠ ""
  | _ => true

def assertionsOf (testSpec : Json) : List Json := itemsOf (field (some testSpec) "assertions")

/-- There is one seed, with a reference. -/
def oneSeed (testSpec : Json) : Bool :=
  match (itemsOf (field (some testSpec) "preconditions")).filter fun item =>
      seedTypes.any fun type => strictEq (field (some item) "type") (some (.str type)) with
  | [seed] => !isMissingText (field (some seed) "seedRef")
  | _ => false

/-- There is a cleanup, with a strategy. -/
def namedStrategy (testSpec : Json) : Bool :=
  match field (some testSpec) "cleanup" with
  | some (.obj cleanup) => !isMissingText (cleanup.lookup "strategy")
  | _ => false

variable (executors : String → Option Executor) (level : TestOperationLevel)

/-- No step that is reached names its executor by another value than a string, or has a body that
its request may not have; if all of them pass, `sound` holds. -/
def stepsSound (vars : Fields) (sound : Bool) : Nat → List Json → Bool
  | _, [] => sound
  | index, step :: rest =>
    match executorOf executors step with
    | none => isText (field (some step) "executor")
    | some execute =>
      match interpolateValue vars step with
      | .error _ => true
      | .ok resolved =>
        !bodyRefused level step &&
          match execute index resolved with
          | .error _ => true
          | .ok _ => stepsSound vars sound (index + 1) rest

/-- The steps, and the assertions after them. -/
def courseSound (testSpec : Json) (vars : Fields) : Bool :=
  stepsSound executors level vars ((assertionsOf testSpec).all (wellFormed toLowerCase)) 0
    (stepsOf testSpec)

variable {σ : Type}

/-- After its setup a run goes on only where nothing was thrown. -/
def writeSound (session : Session σ) (testSpec : Json) (vars : Fields) : Bool :=
  let c := setupPhase session (beginCourse vars)
  c.rejected.isSome || c.failed || courseSound toLowerCase executors level testSpec c.vars

/-- What the specification of a task needs, as far as its run gets. -/
def runSound (host : Host σ) (accepted : Accepted) : Bool :=
  let testSpec := accepted.task.testSpec
  match resolveVariables host.secret (field (some testSpec) "variables") with
  | .error _ => true
  | .ok resolved =>
    match accepted.admission.operationLevel, host.fixtures with
    | .CONTROLLED_WRITE, some handlerResolver =>
      oneSeed testSpec && namedStrategy testSpec &&
        match createSession testSpec accepted.policy handlerResolver with
        | .error _ => true
        | .ok session => writeSound toLowerCase host.executors .CONTROLLED_WRITE session testSpec
            resolved.variableValues
    | level, _ =>
      courseSound toLowerCase host.executors level testSpec resolved.variableValues

/-- Assertions are evaluated where nothing was thrown before. -/
def evaluates (c : Course σ) : Bool :=
  !c.executionError.any fun t => t.isTruthy || t.isNullish

/-- What the cleanup of a run throws. -/
def cleanupThrown (session : Session σ) (c : Course σ) : Option Thrown :=
  match cleanupInput session c.vars c.fixtureState c.setupSucceeded with
  | .error e => some (.error e)
  | .ok input =>
    match session.handler.cleanup input with
    | .error thrown => some thrown
    | .ok output =>
      match cleanupResult session output with
      | .error e => some (.error e)
      | .ok _ => none

/-- Nothing that a run throws has the specification as its cause: not its session, its setup or its
steps, no assertion that it evaluates, and not its cleanup. -/
structure NeverBlamed (host : Host σ) (accepted : Accepted)
    (outcome : Except Thrown (Course σ × List String)) : Prop where
  session : ∀ t, outcome = .error t → t.isSpec = false
  steps : ∀ c secrets, outcome = .ok (c, secrets) →
    ∀ t, c.executionError = some t → t.isSpec = false
  assertions : ∀ c secrets, outcome = .ok (c, secrets) → evaluates c = true →
    ∀ assertion ∈ assertionsOf accepted.task.testSpec,
      blamesSpec (evaluateAssertion toLowerCase assertion c.stepResultsById) = false
  cleanup : ∀ c secrets, outcome = .ok (c, secrets) → ∀ handlerResolver session,
    host.fixtures = some handlerResolver →
    createSession accepted.task.testSpec accepted.policy handlerResolver = .ok session →
    ∀ t, cleanupThrown session c = some t → t.isSpec = false

/-- What is thrown outside of the runner is none of its errors about a specification. -/
structure Foreign (host : Host σ) : Prop where
  secret : ∀ ref t, host.secret ref = .error t → t.isSpec = false
  resolver : ∀ handlerResolver, host.fixtures = some handlerResolver →
    ∀ seedRef t, handlerResolver seedRef = .error t → t.isSpec = false
  handler : ∀ handlerResolver, host.fixtures = some handlerResolver →
    ∀ seedRef handler, handlerResolver seedRef = .ok (some handler) →
      (∀ seed t, handler.setup seed = .error t → t.isSpec = false) ∧
      ∀ input t, handler.cleanup input = .error t → t.isSpec = false

end Definitions

/-! ## Assertions -/

section Assertions

variable {toLowerCase : String → String}

theorem member_blameless (value : Option Json) (key : String) :
    blamesSpec (member value key) = false := by
  unfold member
  split <;> rfl

theorem stringOf_blameless (value : Json) : blamesSpec (stringOf value) = false := by
  unfold stringOf textOf
  split <;> rfl

/-- What reads a text fails by the specification exactly where the text is not accepted. -/
theorem blames_text {value : Option Json} {accepts : String → Bool}
    {f : String → Except RunnerError Json} (hf : ∀ text, blamesSpec (f text) = !accepts text) :
    blamesSpec (stringOf (nullish value (.str "")) >>= f) = !isTextual value accepts := by
  unfold isTextual
  have hfree := stringOf_blameless (nullish value (.str ""))
  cases htext : stringOf (nullish value (.str "")) with
  | error e =>
    rw [htext] at hfree
    exact hfree
  | ok text => exact hf text

theorem requireStepOf_passed {step : Json} {type executor article : String}
    (h : Passed executor step) : requireStepOf step type executor article = .ok () := by
  unfold requireStepOf
  rw [h.executor, if_pos (by simp [strictEq])]

theorem member_field {step : Json} (h : step.isObject = true) (key : String) :
    member (some step) key = .ok (field (some step) key) := by
  cases step with
  | obj fields => rfl
  | _ => cases h

theorem evaluateHeader_blames {assertion step : Json} (h : Passed "HTTP" step) :
    blamesSpec (evaluateHeader toLowerCase assertion step) =
      !isTextual (field (some assertion) "name") fun text => toLowerCase text ≠ "" := by
  unfold evaluateHeader
  rw [requireStepOf_passed h]
  refine blames_text fun text => ?_
  dsimp only
  by_cases hname : toLowerCase text = ""
  · rw [if_pos hname]
    simp [hname, specError, blamesSpec, RunnerError.isSpec]
  · rw [if_neg hname]
    rw [decide_eq_true hname]
    refine blamesSpec_bind (member_blameless _ _) fun response _ => ?_
    refine blamesSpec_bind (member_blameless _ _) fun headers _ => ?_
    exact blamesSpec_bind (member_blameless _ _) fun value _ => rfl

theorem evaluateField_blames {assertion step : Json} (h : Passed "DATABASE" step) :
    blamesSpec (evaluateField assertion step) =
      !((rowIndex? (field (some assertion) "row")).isSome &&
        isTextual (field (some assertion) "field") fun text => text ≠ "") := by
  unfold evaluateField
  rw [requireStepOf_passed h]
  dsimp only [bind, Except.bind]
  cases rowIndex? (field (some assertion) "row") with
  | none => rfl
  | some rowIndex =>
    refine blames_text fun name => ?_
    by_cases hname : name = ""
    · rw [if_pos hname]
      simp [hname, specError, blamesSpec, RunnerError.isSpec]
    · rw [if_neg hname, decide_eq_true hname]
      refine blamesSpec_bind (member_blameless _ _) fun rows _ => ?_
      exact blamesSpec_bind (member_blameless _ _) fun row _ => rfl

/-- On a step that has passed, an assertion of its executor fails by the specification exactly where
it is not well formed. -/
theorem evaluateOn_blames {assertion step : Json} {type name : String} {executor : TestExecutor}
    (htype : field (some assertion) "type" = some (.str type))
    (hexecutor : assertionExecutors.lookup type = some executor)
    (hname : name = EnumValues.name executor) (hpassed : Passed name step) :
    blamesSpec (evaluateOn toLowerCase assertion step) = !wellFormed toLowerCase assertion := by
  rw [OrderedMap.lookup_eq_get?] at hexecutor
  have hrow := OrderedMap.get?_mem hexecutor
  simp only [assertionExecutors, List.mem_cons, Prod.mk.injEq, List.not_mem_nil, or_false] at hrow
  unfold evaluateOn wellFormed
  rw [htype]
  rcases hrow with ⟨rfl, rfl⟩ | ⟨rfl, rfl⟩ | ⟨rfl, rfl⟩ | ⟨rfl, rfl⟩ | ⟨rfl, rfl⟩ | ⟨rfl, rfl⟩
  · obtain rfl : name = "HTTP" := hname
    change blamesSpec (requireStepOf step "HTTP_STATUS" "HTTP" "an" >>= _) = _
    rw [requireStepOf_passed hpassed]
    refine blamesSpec_bind rfl fun _ _ => ?_
    refine blamesSpec_bind (member_blameless _ _) fun response _ => ?_
    exact blamesSpec_bind (member_blameless _ _) fun status _ => rfl
  · obtain rfl : name = "HTTP" := hname
    exact evaluateHeader_blames hpassed
  · obtain rfl : name = "HTTP" := hname
    obtain ⟨fields, hresponse⟩ := hpassed.response rfl
    change blamesSpec (requireStepOf step "JSON_PATH" "HTTP" "an" >>= _) = _
    rw [requireStepOf_passed hpassed]
    change blamesSpec (member (some step) "response" >>= _) = _
    rw [member_field hpassed.isObject, hresponse]
    change blamesSpec (jsonPathValue (fields.lookup "json") _ >>= _) = _
    unfold jsonPathValue
    cases jsonPath? (field (some assertion) "expression") with
    | none => rfl
    | some rest => rfl
  · obtain rfl : name = "DATABASE" := hname
    change blamesSpec (requireStepOf step "DATABASE_ROW_COUNT" "DATABASE" "a" >>= _) = _
    rw [requireStepOf_passed hpassed]
    refine blamesSpec_bind rfl fun _ _ => ?_
    refine blamesSpec_bind (member_blameless _ _) fun rows _ => ?_
    exact blamesSpec_bind (member_blameless _ _) fun length _ => rfl
  · obtain rfl : name = "DATABASE" := hname
    exact evaluateField_blames hpassed
  · obtain rfl : name = "EXISTING_TEST" := hname
    change blamesSpec (requireStepOf step "EXISTING_TEST_EXIT_CODE" "EXISTING_TEST" "an" >>= _) = _
    rw [requireStepOf_passed hpassed]
    rfl

/-! ## Results of steps -/

/-- The steps have passed, each with a result of its executor under its id. -/
def Recorded (steps : List Json) (results : StepResults) : Prop :=
  ∀ step ∈ steps, ∃ id name result, field (some step) "id" = some (.str id) ∧
    field (some step) "executor" = some (.str name) ∧
    OrderedMap.get? results id = some (some result) ∧ Passed name result

theorem truthy_object {v : Json} (h : v.isObject = true) : truthy (some v) = true := by
  cases v with
  | obj fields => rfl
  | _ => cases h

/-- Where all steps have passed, a checked assertion fails by the specification exactly where it is
not well formed. -/
theorem evaluateAssertion_blames {steps : List Json} {assertion : Json} {results : StepResults}
    (hchecked : AssertionChecked steps assertion) (hrecorded : Recorded steps results) :
    blamesSpec (evaluateAssertion toLowerCase assertion results) =
      !wellFormed toLowerCase assertion := by
  obtain ⟨type, executor, step, htype, hexecutor, hstep, hid, hkind⟩ := hchecked.target
  obtain ⟨id, name, result, hstepId, hname, hresult, hpassed⟩ := hrecorded step hstep
  have hstepId' : field (some assertion) "stepId" = some (.str id) :=
    (eq_of_strictEq hid).trans hstepId
  have hfound : (results.find? fun e =>
      strictEq (field (some assertion) "stepId") (some (.str e.1))).bind (·.2) = some result := by
    unfold OrderedMap.get? at hresult
    have hsame : (fun e : String × Option Json =>
        strictEq (field (some assertion) "stepId") (some (.str e.1))) =
        fun e => decide (e.1 = id) := by
      funext e
      rw [hstepId']
      simp [strictEq, eq_comm]
    rw [hsame]
    obtain ⟨e, he, hvalue⟩ := Option.map_eq_some_iff.mp hresult
    rw [he]
    exact hvalue
  have hexecutorName : name = EnumValues.name executor := by
    unfold isMember at hkind
    rw [hname] at hkind
    have heq := eq_of_strictEq hkind
    exact Json.str.inj (Option.some.inj heq)
  unfold evaluateAssertion
  dsimp only
  rw [hfound]
  dsimp only
  rw [truthy_object hpassed.isObject, hpassed.status]
  exact evaluateOn_blames htype hexecutor hexecutorName hpassed

end Assertions

/-! ## Steps -/

section Steps

variable {σ : Type} {executors : String → Option Executor} {level : TestOperationLevel}

/-- Every step, with its templates filled in, has an outcome of its executor. -/
def StepsAnswered (executors : String → Option Executor) (level : TestOperationLevel)
    (vars : Fields) (steps : List Json) : Prop :=
  ∀ step ∈ steps, ∀ execute, executorOf executors step = some execute → ∃ name,
    field (some step) "executor" = some (.str name) ∧
    ∀ index resolved, interpolateValue vars step = .ok resolved →
      Outcome level step name (execute index resolved)

/-- Templates that cannot be filled in are not an error of the kinds that a specification is the
cause of. -/
theorem interpolateText_blameless (vars : Fields) (text : String) :
    blamesSpec (interpolateText vars text) = false := by
  have hlookup : ∀ path, blamesSpec (lookupVariable vars path) = false := by
    intro path
    unfold lookupVariable
    split <;> rfl
  have hpart : ∀ part, blamesSpec (fillPart vars part) = false := by
    intro part
    cases part with
    | text c => rfl
    | reference path =>
      refine blamesSpec_bind (hlookup path) fun value _ => ?_
      unfold textOf
      split <;> rfl
  have hparts : ∀ parts : List Part, blamesSpec (parts.mapM (fillPart vars)) = false := by
    intro parts
    induction parts with
    | nil => rfl
    | cons part parts ih =>
      rw [List.mapM_cons]
      refine blamesSpec_bind (hpart part) fun text _ => ?_
      exact blamesSpec_bind ih fun texts _ => rfl
  unfold interpolateText
  split
  · exact hlookup _
  · exact blamesSpec_bind (hparts _) fun texts _ => rfl

mutual

theorem interpolateValue_blameless (vars : Fields) :
    ∀ value : Json, blamesSpec (interpolateValue vars value) = false
  | .str text => by
    rw [interpolateValue]
    exact interpolateText_blameless vars text
  | .arr items => by
    rw [interpolateValue]
    exact blamesSpec_bind (interpolateItems_blameless vars items) fun _ _ => rfl
  | .obj fields => by
    rw [interpolateValue]
    exact blamesSpec_bind (interpolateFields_blameless vars fields) fun _ _ => rfl
  | .null => by
    rw [interpolateValue]
    · rfl
    all_goals simp
  | .bool b => by
    rw [interpolateValue]
    · rfl
    all_goals simp
  | .num n => by
    rw [interpolateValue]
    · rfl
    all_goals simp

theorem interpolateItems_blameless (vars : Fields) :
    ∀ items : List Json, blamesSpec (interpolateItems vars items) = false
  | [] => by
    rw [interpolateItems]
    rfl
  | v :: vs => by
    rw [interpolateItems]
    refine blamesSpec_bind (interpolateValue_blameless vars v) fun _ _ => ?_
    exact blamesSpec_bind (interpolateItems_blameless vars vs) fun _ _ => rfl

theorem interpolateFields_blameless (vars : Fields) :
    ∀ fields : Fields, blamesSpec (interpolateFields vars fields) = false
  | [] => by
    rw [interpolateFields]
    rfl
  | (name, child) :: rest => by
    rw [interpolateFields]
    refine blamesSpec_bind (interpolateValue_blameless vars child) fun _ _ => ?_
    exact blamesSpec_bind (interpolateFields_blameless vars rest) fun _ _ => rfl

end

theorem missingExecutor_spec (step : Json) :
    (missingExecutor step).isSpec = !isText (field (some step) "executor") ∧
      (missingExecutor step).isTruthy = true := by
  unfold missingExecutor
  split
  · rename_i name hname
    rw [hname]
    exact ⟨rfl, rfl⟩
  · rename_i hother
    refine ⟨?_, rfl⟩
    unfold isText
    split
    · rename_i name hname
      exact absurd hname (hother name)
    · rfl

/-- What the steps throw is true, and the specification is its cause exactly where the steps are
not sound. -/
theorem firstThrown_spec {vars : Fields} (sound : Bool) (steps : List Json) (index : Nat)
    (h : StepsAnswered executors level vars steps) :
    match firstThrown executors vars index steps with
    | none => stepsSound executors level vars sound index steps = sound
    | some t => t.isTruthy = true ∧
        t.isSpec = !stepsSound executors level vars sound index steps := by
  induction steps generalizing index with
  | nil => rfl
  | cons step rest ih =>
    have hrest : StepsAnswered executors level vars rest :=
      fun s hs => h s (List.mem_cons_of_mem _ hs)
    unfold firstThrown stepsSound
    cases hexecutor : executorOf executors step with
    | none =>
      obtain ⟨hspec, htruthy⟩ := missingExecutor_spec step
      exact ⟨htruthy, hspec⟩
    | some execute =>
      obtain ⟨name, _, houtcome⟩ := h step List.mem_cons_self execute hexecutor
      dsimp only
      cases hresolved : interpolateValue vars step with
      | error e =>
        refine ⟨rfl, ?_⟩
        have hblameless := interpolateValue_blameless vars step
        rw [hresolved] at hblameless
        exact hblameless
      | ok resolved =>
        have hstep := houtcome index resolved hresolved
        dsimp only
        cases hresult : execute index resolved with
        | error t =>
          obtain ⟨htruthy, hspec⟩ := hstep.thrown t hresult
          refine ⟨htruthy, ?_⟩
          rw [hspec, Bool.and_true, Bool.not_not]
        | ok result =>
          obtain ⟨hbody, _⟩ := hstep.passed result hresult
          rw [hbody, Bool.not_false, Bool.true_and]
          exact ih (index + 1) hrest

theorem catchStep_error {c : Course σ} {step : Json} {t : Thrown} :
    (catchStep c step t).executionError = some t := by
  unfold catchStep
  split <;> rfl

variable (executors) in
/-- The error of the steps is what the first of them throws. -/
theorem runSteps_error (steps : List Json) (index : Nat) (c : Course σ) :
    (runSteps executors index steps c).executionError =
      (firstThrown executors c.vars index steps).or c.executionError := by
  induction steps generalizing index c with
  | nil => rfl
  | cons step rest ih =>
    unfold runSteps firstThrown
    cases executorOf executors step with
    | none => exact catchStep_error
    | some execute =>
      dsimp only
      cases interpolateValue c.vars step with
      | error e => exact catchStep_error
      | ok resolved =>
        dsimp only
        cases execute index resolved with
        | error t => exact catchStep_error
        | ok result =>
          exact ih (index + 1)
            (recordStep { c with events := c.events ++ [.step index] } step result)

/-- Steps that all pass are recorded, beside the steps that were recorded before. -/
theorem runSteps_recorded (steps done : List Json) (index : Nat) {c : Course σ}
    (hids : ∀ step ∈ steps, ∃ id, field (some step) "id" = some (.str id))
    (hnodup : ((done ++ steps).map fun step => field (some step) "id").Nodup)
    (hdone : Recorded done c.stepResultsById)
    (hanswered : StepsAnswered executors level c.vars steps)
    (hpassed : firstThrown executors c.vars index steps = none) :
    Recorded (done ++ steps) (runSteps executors index steps c).stepResultsById := by
  induction steps generalizing index c done with
  | nil =>
    rw [List.append_nil]
    exact hdone
  | cons step rest ih =>
    unfold firstThrown at hpassed
    unfold runSteps
    cases hexecutor : executorOf executors step with
    | none =>
      rw [hexecutor] at hpassed
      cases hpassed
    | some execute =>
      rw [hexecutor] at hpassed
      dsimp only at hpassed ⊢
      cases hresolved : interpolateValue c.vars step with
      | error e =>
        rw [hresolved] at hpassed
        cases hpassed
      | ok resolved =>
        rw [hresolved] at hpassed
        dsimp only at hpassed ⊢
        cases hresult : execute index resolved with
        | error t =>
          rw [hresult] at hpassed
          cases hpassed
        | ok result =>
          rw [hresult] at hpassed
          obtain ⟨name, hname, houtcome⟩ :=
            hanswered step List.mem_cons_self execute hexecutor
          obtain ⟨_, value, rfl, hvalue⟩ := (houtcome index resolved hresolved).passed _ hresult
          obtain ⟨id, hid⟩ := hids step List.mem_cons_self
          have hkey : templateText (field (some step) "id") = id := by
            rw [hid]
            rfl
          have hrecorded : Recorded (done ++ [step])
              (OrderedMap.set c.stepResultsById id (some value)) := by
            intro s hs
            rcases List.mem_append.mp hs with hs | hs
            · obtain ⟨id', name', result', hid', hname', hresult', hvalue'⟩ := hdone s hs
              have hne : id' ≠ id := by
                rintro rfl
                rw [List.map_append, List.map_cons] at hnodup
                refine (List.nodup_append.mp hnodup).2.2 _
                  (List.mem_map.mpr ⟨s, hs, hid'⟩) _ List.mem_cons_self ?_
                exact hid.symm
              refine ⟨id', name', result', hid', hname', ?_, hvalue'⟩
              rw [OrderedMap.get?_of_set, if_neg hne]
              exact hresult'
            · rw [List.mem_singleton.mp hs]
              refine ⟨id, name, value, hid, hname, ?_, hvalue⟩
              rw [OrderedMap.get?_of_set, if_pos rfl]
          have hlast := @ih (done ++ [step]) (index + 1)
            (recordStep { c with events := c.events ++ [.step index] } step (some value))
            (fun s hs => hids s (List.mem_cons_of_mem _ hs)) (by simpa using hnodup)
            (by
              change Recorded _ (OrderedMap.set c.stepResultsById
                (templateText (field (some step) "id")) (some value))
              rw [hkey]
              exact hrecorded)
            (fun s hs => hanswered s (List.mem_cons_of_mem _ hs)) hpassed
          simpa using hlast

/-- Neither the steps of a course nor an assertion that it evaluates has an error that the
specification is the cause of. -/
structure CourseBlameless (toLowerCase : String → String) (testSpec : Json) (c : Course σ) :
    Prop where
  steps : ∀ t, c.executionError = some t → t.isSpec = false
  assertions : evaluates c = true → ∀ assertion ∈ assertionsOf testSpec,
    blamesSpec (evaluateAssertion toLowerCase assertion c.stepResultsById) = false

/-- A course that has only begun its setup meets no error of its specification exactly when its
steps and assertions are sound. -/
theorem stepsPhase_blameless_iff {toLowerCase toUpperCase : String → String} {testSpec : Json}
    {c : Course σ} {declared : Option Json}
    (hchecked : Checked toUpperCase declared (stepsOf testSpec) (assertionsOf testSpec))
    (hanswered : StepsAnswered executors level c.vars (stepsOf testSpec))
    (hopen : c.rejected = none) (hfailed : c.failed = false)
    (hblameless : ∀ t, c.executionError = some t → t.isSpec = false ∧ t.isNullish = false) :
    CourseBlameless toLowerCase testSpec (stepsPhase executors testSpec c) ↔
      courseSound toLowerCase executors level testSpec c.vars = true := by
  have hphase : stepsPhase executors testSpec c = runSteps executors 0 (stepsOf testSpec) c := by
    unfold stepsPhase
    rw [hopen, hfailed]
    rfl
  have herror := runSteps_error executors (stepsOf testSpec) 0 c
  have hspec := firstThrown_spec ((assertionsOf testSpec).all (wellFormed toLowerCase))
    (stepsOf testSpec) 0 hanswered
  rw [hphase]
  unfold courseSound
  cases hthrown : firstThrown executors c.vars 0 (stepsOf testSpec) with
  | some t =>
    rw [hthrown] at hspec herror
    obtain ⟨htruthy, hblamed⟩ := hspec
    rw [Option.some_or] at herror
    have hnot : evaluates (runSteps executors 0 (stepsOf testSpec) c) = false := by
      unfold evaluates
      rw [herror]
      simp [htruthy]
    constructor
    · intro h
      have hfree := h.steps t herror
      rw [hblamed] at hfree
      simpa using hfree
    · intro h
      refine ⟨fun t' ht' => ?_, fun heval => ?_⟩
      · rw [herror] at ht'
        cases ht'
        rw [hblamed, h]
        rfl
      · rw [hnot] at heval
        cases heval
  | none =>
    rw [hthrown] at hspec herror
    rw [Option.none_or] at herror
    dsimp only at hspec
    rw [hspec, List.all_eq_true]
    have heval : evaluates (runSteps executors 0 (stepsOf testSpec) c) = true := by
      unfold evaluates
      rw [herror]
      cases hprior : c.executionError with
      | none => rfl
      | some t =>
        have htruthy : t.isTruthy = false := by
          unfold Course.failed at hfailed
          rw [hprior] at hfailed
          exact hfailed
        simp [htruthy, (hblameless t hprior).2]
    have hrecorded := runSteps_recorded (stepsOf testSpec) [] 0 (c := c)
      (fun step hstep => by
        obtain ⟨id, hid, _⟩ := (hchecked.eachStep step hstep).id
        exact ⟨id, hid⟩)
      hchecked.stepIds (fun step hstep => absurd hstep List.not_mem_nil) hanswered hthrown
    have hassertion : ∀ assertion ∈ assertionsOf testSpec,
        blamesSpec (evaluateAssertion toLowerCase assertion
          (runSteps executors 0 (stepsOf testSpec) c).stepResultsById) =
          !wellFormed toLowerCase assertion := fun assertion hmem =>
      evaluateAssertion_blames (hchecked.eachAssertion assertion hmem) hrecorded
    constructor
    · intro h assertion hmem
      have hfree := h.assertions heval assertion hmem
      rw [hassertion assertion hmem] at hfree
      simpa using hfree
    · intro h
      refine ⟨fun t ht => ?_, fun _ assertion hmem => ?_⟩
      · rw [herror] at ht
        exact (hblameless t ht).1
      · rw [hassertion assertion hmem, h assertion hmem]
        rfl

end Steps

/-! ## Fixtures -/

section Fixtures

variable {σ : Type} {testSpec policy : Json}

theorem requireString_of_text (value : Option Json) (error : RunnerError) :
    isMissingText value = true ∧ requireString value error = .error error ∨
      isMissingText value = false ∧ ∃ text, requireString value error = .ok text := by
  cases value with
  | none => exact Or.inl ⟨rfl, rfl⟩
  | some v =>
    cases v with
    | str s =>
      by_cases hblank : isBlank s = true
      · exact Or.inl ⟨hblank, if_pos hblank⟩
      · exact Or.inr ⟨Bool.eq_false_iff.mpr hblank, s, if_neg hblank⟩
    | _ => exact Or.inl ⟨rfl, rfl⟩

/-- The seed of a specification is refused by its own fault alone. -/
theorem requireSeed_iff (testSpec : Json) :
    oneSeed testSpec = true ∧ (∃ seed, requireSeed testSpec = .ok seed) ∨
      oneSeed testSpec = false ∧ ∃ cause, requireSeed testSpec = .error (.spec cause) := by
  unfold oneSeed requireSeed
  generalize (itemsOf (field (some testSpec) "preconditions")).filter _ = seeds
  rcases seeds with _ | ⟨seed, _ | ⟨other, more⟩⟩
  · exact Or.inr ⟨rfl, .oneSeedRequired, rfl⟩
  · rcases requireString_of_text (field (some seed) "seedRef") (.spec .seedRefRequired) with
      ⟨hmissing, htext⟩ | ⟨hmissing, text, htext⟩
    · refine Or.inr ⟨?_, .seedRefRequired, ?_⟩
      · change (!isMissingText (field (some seed) "seedRef")) = false
        rw [hmissing]
        rfl
      · change (requireString (field (some seed) "seedRef") _ >>= _) = _
        rw [htext]
        rfl
    · refine Or.inl ⟨?_, (seed, text), ?_⟩
      · change (!isMissingText (field (some seed) "seedRef")) = true
        rw [hmissing]
        rfl
      · change (requireString (field (some seed) "seedRef") _ >>= _) = _
        rw [htext]
        rfl
  · exact Or.inr ⟨rfl, .oneSeedRequired, rfl⟩

/-- So is its cleanup. -/
theorem requireCleanup_iff (testSpec : Json) :
    namedStrategy testSpec = true ∧ (∃ cleanup, requireCleanup testSpec = .ok cleanup) ∨
      namedStrategy testSpec = false ∧ ∃ cause, requireCleanup testSpec = .error (.spec cause) := by
  unfold namedStrategy requireCleanup
  generalize field (some testSpec) "cleanup" = declared
  rcases declared with _ | (_ | _ | _ | _ | _ | cleanup)
  case some.obj =>
    rcases requireString_of_text (cleanup.lookup "strategy") (.spec .strategyRequired) with
      ⟨hmissing, htext⟩ | ⟨hmissing, text, htext⟩
    · refine Or.inr ⟨?_, .strategyRequired, ?_⟩
      · change (!isMissingText (cleanup.lookup "strategy")) = false
        rw [hmissing]
        rfl
      · change (requireString (cleanup.lookup "strategy") _ >>= _) = _
        rw [htext]
        rfl
    · refine Or.inl ⟨?_, (.obj cleanup, text), ?_⟩
      · change (!isMissingText (cleanup.lookup "strategy")) = true
        rw [hmissing]
        rfl
      · change (requireString (cleanup.lookup "strategy") _ >>= _) = _
        rw [htext]
        rfl
  all_goals exact Or.inr ⟨rfl, .cleanupRequired, rfl⟩

theorem mapError_error {ε δ α : Type} {x : Except ε α} {f : ε → δ} {t : δ}
    (h : x.mapError f = .error t) : ∃ e, x = .error e ∧ t = f e := by
  cases x with
  | error e =>
    cases h
    exact ⟨e, rfl, rfl⟩
  | ok a => cases h

theorem not_spec_of_blameless {α : Type} {x : Except RunnerError α} {e : RunnerError}
    (hx : blamesSpec x = false) (h : x = .error e) : (Thrown.error e).isSpec = false := by
  rw [h] at hx
  exact hx

theorem requireString_blameless {value : Option Json} {error : RunnerError}
    (h : error.isSpec = false) : blamesSpec (requireString value error) = false := by
  unfold requireString
  split
  · split
    · exact h
    · rfl
  · exact h

theorem requireDefinition_blameless (policy : Json) (seedRef strategy : String) :
    blamesSpec (requireDefinition policy seedRef strategy) = false := by
  unfold requireDefinition
  split
  · split <;> rfl
  · rfl

theorem compensationRefOf_blameless (definition : Json) (seedRef : String) :
    blamesSpec (compensationRefOf definition seedRef) = false := by
  unfold compensationRefOf
  split
  · rfl
  · rfl
  · exact blamesSpec_bind (requireString_blameless rfl) fun _ _ => rfl

variable (policy) in
/-- A session is refused by the fault of the specification exactly where its seed or its cleanup
are not as they have to be. -/
theorem createSession_blames {resolved : String → Except Thrown (Option (Handler σ))}
    (hlevel : isMember (levelOf testSpec) TestOperationLevel.CONTROLLED_WRITE = true)
    (hresolved : ∀ seedRef t, resolved seedRef = .error t → t.isSpec = false) :
    (∀ t, createSession testSpec policy resolved = .error t → t.isSpec = false) ↔
      oneSeed testSpec = true ∧ namedStrategy testSpec = true := by
  have hwrite : (!strictEq (field (field (some testSpec) "environment") "operationLevel")
      (some (.str "CONTROLLED_WRITE"))) = false := by
    rw [Bool.not_eq_false']
    exact hlevel
  unfold createSession
  rw [hwrite]
  rcases requireSeed_iff testSpec with ⟨hone, seed, hseed⟩ | ⟨hone, cause, hseed⟩
  · rcases requireCleanup_iff testSpec with
      ⟨hstrategy, cleanup, hcleanup⟩ | ⟨hstrategy, cause, hcleanup⟩
    · refine ⟨fun _ => ⟨hone, hstrategy⟩, fun _ t ht => ?_⟩
      rw [hseed, hcleanup] at ht
      -- behind the two declarations only the policy and the resolver refuse
      rcases bind_error (x := (requireDefinition policy seed.2 cleanup.2).mapError Thrown.error) ht with
        ht | ⟨definition, _, ht⟩
      · obtain ⟨e, he, rfl⟩ := mapError_error ht
        exact not_spec_of_blameless (requireDefinition_blameless _ _ _) he
      · rcases bind_error ht with ht | ⟨handler, _, ht⟩
        · exact hresolved _ t ht
        · cases handler with
          | none =>
            cases ht
            rfl
          | some handler =>
            rcases bind_error ht with ht | ⟨protocolVersion, _, ht⟩
            · obtain ⟨e, he, rfl⟩ := mapError_error ht
              exact not_spec_of_blameless (requireString_blameless rfl) he
            · rcases bind_error ht with ht | ⟨compensationRef, _, ht⟩
              · obtain ⟨e, he, rfl⟩ := mapError_error ht
                exact not_spec_of_blameless (compensationRefOf_blameless _ _) he
              · cases ht
    · refine ⟨fun h => ?_, fun h => ?_⟩
      · rw [hseed, hcleanup] at h
        cases h _ rfl
      · rw [hstrategy] at h
        cases h.2
  · refine ⟨fun h => ?_, fun h => ?_⟩
    · rw [hseed] at h
      cases h _ rfl
    · rw [hone] at h
      cases h.1

/-- The handler of a session is the one that the resolver has. -/
theorem createSession_handler {resolved : String → Except Thrown (Option (Handler σ))}
    {session : Session σ} (h : createSession testSpec policy resolved = .ok session) :
    ∃ seedRef, resolved seedRef = .ok (some session.handler) := by
  unfold createSession at h
  split at h
  · cases h
  · obtain ⟨seed, _, h⟩ := bind_ok h
    obtain ⟨cleanup, _, h⟩ := bind_ok h
    obtain ⟨definition, _, h⟩ := bind_ok h
    obtain ⟨handler, hhandler, h⟩ := bind_ok h
    cases handler with
    | none => cases h
    | some handler =>
      obtain ⟨protocolVersion, _, h⟩ := bind_ok h
      obtain ⟨compensationRef, _, h⟩ := bind_ok h
      cases h
      exact ⟨_, hhandler⟩

theorem applySetup_blameless (session : Session σ) (vars : Fields) (output : SetupOutput σ) :
    blamesSpec (applySetup session vars output) = false := by
  have hdetails : ∀ (evidence : Option HandlerField) (name : String),
      blamesSpec (evidenceDetails evidence name) = false := by
    intro evidence name
    unfold evidenceDetails
    split <;> rfl
  have hclone : ∀ (bindings : Option HandlerField),
      blamesSpec (cloneBindings bindings session.seedRef) = false := by
    intro bindings
    unfold cloneBindings
    split <;> rfl
  have hmerge : ∀ (bindings merged : Fields),
      blamesSpec (mergeFixtureBindings merged bindings) = false := by
    intro bindings
    induction bindings with
    | nil => exact fun merged => rfl
    | cons entry bindings ih =>
      intro merged
      unfold mergeFixtureBindings
      rw [List.foldlM_cons]
      refine blamesSpec_bind ?_ fun next _ => ih next
      split <;> rfl
  unfold applySetup
  refine blamesSpec_bind ?_ fun setup _ => blamesSpec_bind (hmerge _ _) fun _ _ => rfl
  unfold setupOf
  split
  · rfl
  · rfl
  · refine blamesSpec_bind (hclone _) fun bindings _ => ?_
    exact blamesSpec_bind (hdetails _ _) fun details _ => rfl

/-- What a setup leaves: an error that blames no specification, and one that leaves the run only
where it is null or undefined. -/
structure SetUp (c : Course σ) : Prop where
  blameless : ∀ t, c.executionError = some t → t.isSpec = false
  rejected : c.rejected.isSome = c.executionError.any Thrown.isNullish

theorem catchSetup_setUp (session : Session σ) {c : Course σ} {t : Thrown}
    (hopen : c.rejected = none) (ht : t.isSpec = false) : SetUp (catchSetup session c t) := by
  unfold catchSetup
  cases hnullish : t.isNullish with
  | true =>
    refine ⟨fun t' ht' => ?_, ?_⟩
    · cases ht'
      exact ht
    · simp [hnullish]
  | false =>
    refine ⟨fun t' ht' => ?_, ?_⟩
    · cases ht'
      exact ht
    · simp [hnullish, hopen]

theorem setupPhase_setUp {session : Session σ}
    (hsetup : ∀ seed t, session.handler.setup seed = .error t → t.isSpec = false)
    (vars : Fields) : SetUp (setupPhase session (beginCourse vars)) := by
  unfold setupPhase
  cases hseed : interpolateValue (beginCourse vars : Course σ).vars session.seed with
  | error e =>
    exact catchSetup_setUp session rfl
      (not_spec_of_blameless (interpolateValue_blameless _ _) hseed)
  | ok seed =>
    dsimp only
    cases hcalled : session.handler.setup seed with
    | error t => exact catchSetup_setUp session rfl (hsetup seed t hcalled)
    | ok output =>
      dsimp only
      cases happly : applySetup session (beginCourse vars : Course σ).vars output with
      | error e =>
        exact catchSetup_setUp session rfl
          (not_spec_of_blameless (applySetup_blameless _ _ _) happly)
      | ok applied => exact ⟨fun t ht => (by cases ht), rfl⟩

/-- A cleanup blames no specification. -/
theorem cleanupThrown_blameless {session : Session σ}
    (hcleanup : ∀ input t, session.handler.cleanup input = .error t → t.isSpec = false)
    (c : Course σ) {t : Thrown} (ht : cleanupThrown session c = some t) : t.isSpec = false := by
  unfold cleanupThrown at ht
  cases hinput : cleanupInput session c.vars c.fixtureState c.setupSucceeded with
  | error e =>
    rw [hinput] at ht
    cases ht
    refine not_spec_of_blameless ?_ hinput
    unfold cleanupInput
    refine blamesSpec_bind (interpolateValue_blameless _ _) fun _ _ => ?_
    exact blamesSpec_bind (interpolateValue_blameless _ _) fun _ _ => rfl
  | ok input =>
    rw [hinput] at ht
    dsimp only at ht
    cases hcalled : session.handler.cleanup input with
    | error t' =>
      rw [hcalled] at ht
      cases ht
      exact hcleanup input t hcalled
    | ok output =>
      rw [hcalled] at ht
      dsimp only at ht
      cases hresult : cleanupResult session output with
      | error e =>
        rw [hresult] at ht
        cases ht
        refine not_spec_of_blameless ?_ hresult
        unfold cleanupResult
        split
        · rfl
        · rfl
        · refine blamesSpec_bind ?_ fun _ _ => rfl
          unfold evidenceDetails
          split <;> rfl
      | ok result =>
        rw [hresult] at ht
        cases ht

/-- The cleanup changes neither the error nor the results of the steps. -/
theorem cleanupPhase_frame (session : Session σ) (c : Course σ) :
    (cleanupPhase session c).executionError = c.executionError ∧
      (cleanupPhase session c).stepResultsById = c.stepResultsById := by
  have hcatch : ∀ (d : Course σ) t, (catchCleanup session d t).executionError = d.executionError ∧
      (catchCleanup session d t).stepResultsById = d.stepResultsById := by
    intro d t
    unfold catchCleanup
    split <;> exact ⟨rfl, rfl⟩
  unfold cleanupPhase
  split
  · exact ⟨rfl, rfl⟩
  · split
    · exact hcatch _ _
    · dsimp only
      split
      · exact hcatch _ _
      · split
        · exact hcatch _ _
        · exact ⟨rfl, rfl⟩

/-- A course is blamed by its error and its results alone. -/
theorem courseBlameless_congr {toLowerCase : String → String} {c d : Course σ}
    (herror : c.executionError = d.executionError)
    (hresults : c.stepResultsById = d.stepResultsById) :
    CourseBlameless toLowerCase testSpec c ↔ CourseBlameless toLowerCase testSpec d := by
  have hevaluates : evaluates c = evaluates d := by
    unfold evaluates
    rw [herror]
  constructor
  · exact fun h => ⟨herror ▸ h.steps, hevaluates ▸ hresults ▸ h.assertions⟩
  · exact fun h => ⟨herror ▸ h.steps, hevaluates ▸ hresults ▸ h.assertions⟩

theorem assertionsPhase_blameless (toLowerCase : String → String) (c : Course σ) :
    CourseBlameless toLowerCase testSpec (assertionsPhase toLowerCase testSpec c) ↔
      CourseBlameless toLowerCase testSpec c := by
  obtain ⟨results, hframe⟩ := assertionsPhase_frame toLowerCase testSpec c
  refine courseBlameless_congr ?_ ?_
  · rw [hframe]
  · rw [hframe]

end Fixtures

/-! ## Admitted tasks -/

section Admitted

variable {table : Char → List Char} {level : TestOperationLevel} {answers : Answers}

theorem executorOf_standard {toUpperCase : String → String} {step : Json} {execute : Executor}
    (h : executorOf (standardExecutors toUpperCase level answers) step = some execute) :
    field (some step) "executor" = some (.str "HTTP") ∧
        execute = httpExecutor toUpperCase level answers.http ∨
      field (some step) "executor" = some (.str "DATABASE") ∧
        execute = databaseExecutor answers.database ∨
      field (some step) "executor" = some (.str "EXISTING_TEST") ∧
        execute = existingTestExecutor answers.existingTest := by
  unfold executorOf at h
  split at h
  · rename_i name hname
    unfold standardExecutors at h
    split at h
    · rename_i hhttp
      cases h
      exact Or.inl ⟨hhttp ▸ hname, rfl⟩
    · split at h
      · rename_i hdatabase
        cases h
        exact Or.inr (Or.inl ⟨hdatabase ▸ hname, rfl⟩)
      · split at h
        · rename_i htest
          cases h
          exact Or.inr (Or.inr ⟨htest ▸ hname, rfl⟩)
        · cases h
  · cases h

/-- The standard executors answer the steps of a checked specification. -/
theorem standard_answered {declared : Option Json} {steps assertions : List Json}
    (hchecked : Checked (upperWith table) declared steps assertions)
    (hdeclared : isMember declared level = true)
    (hlevel : level = .SAFE_READ ∨ level = .CONTROLLED_WRITE) (vars : Fields) :
    StepsAnswered (standardExecutors (upperWith table) level answers) level vars steps := by
  intro step hstep execute hexecute
  rcases executorOf_standard hexecute with ⟨hname, rfl⟩ | ⟨hname, rfl⟩ | ⟨hname, rfl⟩
  · obtain ⟨method, hmethod, hread, hwrite⟩ :=
      (hchecked.eachStep step hstep).method (by rw [hname]; rfl)
    exact ⟨"HTTP", hname, fun index resolved hresolved =>
      httpExecutor_outcome index hname hmethod (fun h => hread (h ▸ hdeclared))
        (fun h => hwrite (h ▸ hdeclared)) hlevel hresolved⟩
  · exact ⟨"DATABASE", hname, fun index resolved _ => databaseExecutor_outcome index hname⟩
  · exact ⟨"EXISTING_TEST", hname, fun index resolved _ =>
      existingTestExecutor_outcome index hname⟩

end Admitted

/-! ## The law -/

section Law

variable {σ : Type} {toLowerCase : String → String} {host : Host σ} {accepted : Accepted}

/-- Of a run that is not blamed before, only the course is left to be asked. -/
theorem neverBlamed_ok {c : Course σ} {secrets : List String} (hforeign : Foreign host) :
    NeverBlamed toLowerCase host accepted (.ok (c, secrets)) ↔
      CourseBlameless toLowerCase accepted.task.testSpec c := by
  constructor
  · intro h
    exact ⟨h.steps c secrets rfl, h.assertions c secrets rfl⟩
  · rintro ⟨hsteps, hassertions⟩
    refine ⟨fun t ht => (by cases ht), ?_, ?_, ?_⟩
    · rintro c' secrets' heq
      cases heq
      exact hsteps
    · rintro c' secrets' heq
      cases heq
      exact hassertions
    · rintro c' secrets' _ handlerResolver session hresolver hsession t ht
      obtain ⟨seedRef, hhandler⟩ := createSession_handler hsession
      have hcleanup := (hforeign.handler handlerResolver hresolver seedRef _ hhandler).2
      exact cleanupThrown_blameless hcleanup c' ht

theorem neverBlamed_error {t : Thrown} :
    NeverBlamed toLowerCase host accepted (.error t) ↔ t.isSpec = false := by
  constructor
  · exact fun h => h.session t rfl
  · intro h
    refine ⟨fun t' ht' => ?_, fun c secrets heq => (by cases heq),
      fun c secrets heq => (by cases heq), fun c secrets heq => (by cases heq)⟩
    cases ht'
    exact h

theorem resolveVariables_blameless (hforeign : Foreign host) (declared : Option Json) {t : Thrown}
    (h : resolveVariables host.secret declared = .error t) : t.isSpec = false := by
  have hentry : ∀ resolved entry t, resolveVariable host.secret resolved entry = .error t →
      t.isSpec = false := by
    intro resolved entry t ht
    unfold resolveVariable at ht
    split at ht
    · rcases bind_error ht with ht | ⟨secret, _, ht⟩
      · exact hforeign.secret _ t ht
      · split at ht
        · split at ht <;> cases ht
          rfl
        · cases ht
          rfl
    · cases ht
  have hentries : ∀ (entries : Fields) resolved t,
      entries.foldlM (resolveVariable host.secret) resolved = .error t → t.isSpec = false := by
    intro entries
    induction entries with
    | nil => exact fun resolved t ht => by cases ht
    | cons entry entries ih =>
      intro resolved t ht
      rw [List.foldlM_cons] at ht
      rcases bind_error ht with ht | ⟨next, _, ht⟩
      · exact hentry _ _ _ ht
      · exact ih _ _ ht
  unfold resolveVariables at h
  split at h
  · exact hentries _ _ _ h
  · cases h
    rfl

/-- A safe read is never blamed exactly when its steps and its assertions are sound. -/
theorem executeRead_blameless_iff {table : Char → List Char} {declared : Option Json}
    {answers : Answers} {testSpec : Json} (vars : Fields)
    (hchecked : Checked (upperWith table) declared (stepsOf testSpec) (assertionsOf testSpec))
    (hdeclared : isMember declared TestOperationLevel.SAFE_READ = true)
    (hexecutors : host.executors = standardExecutors (upperWith table) .SAFE_READ answers) :
    CourseBlameless toLowerCase testSpec
        (executeRead toLowerCase host.executors testSpec vars : Course σ) ↔
      courseSound toLowerCase host.executors .SAFE_READ testSpec vars = true := by
  unfold executeRead
  rw [assertionsPhase_blameless, hexecutors]
  exact stepsPhase_blameless_iff hchecked
    (standard_answered hchecked hdeclared (Or.inl rfl) vars) rfl rfl
    (fun t ht => by cases ht)

/-- A controlled write is never blamed exactly when its steps and its assertions are sound with the
variables that the setup leaves, if it gets so far. -/
theorem executeWrite_blameless_iff {table : Char → List Char} {declared : Option Json}
    {answers : Answers} {testSpec : Json} {session : Session σ} (vars : Fields)
    (hchecked : Checked (upperWith table) declared (stepsOf testSpec) (assertionsOf testSpec))
    (hdeclared : isMember declared TestOperationLevel.CONTROLLED_WRITE = true)
    (hexecutors : host.executors = standardExecutors (upperWith table) .CONTROLLED_WRITE answers)
    (hsetup : ∀ seed t, session.handler.setup seed = .error t → t.isSpec = false) :
    CourseBlameless toLowerCase testSpec
        (executeWrite toLowerCase host.executors session testSpec vars) ↔
      writeSound toLowerCase host.executors .CONTROLLED_WRITE session testSpec vars = true := by
  have hsetUp := setupPhase_setUp hsetup vars
  unfold executeWrite writeSound
  generalize setupPhase session (beginCourse vars) = c at hsetUp
  dsimp only
  obtain ⟨herror, hresults⟩ := cleanupPhase_frame session
    (assertionsPhase toLowerCase testSpec (stepsPhase host.executors testSpec c))
  rw [courseBlameless_congr herror hresults, assertionsPhase_blameless]
  -- a setup that threw leaves nothing to be evaluated
  have hstopped : (c.rejected.isSome || c.failed) = true →
      CourseBlameless toLowerCase testSpec (stepsPhase host.executors testSpec c) := by
    intro h
    have hphase : stepsPhase host.executors testSpec c = c := by
      unfold stepsPhase
      rw [h]
      rfl
    rw [hphase]
    refine ⟨hsetUp.blameless, fun heval => ?_⟩
    rw [hsetUp.rejected] at h
    unfold evaluates at heval
    unfold Course.failed at h
    cases hthrown : c.executionError with
    | none =>
      rw [hthrown] at h
      cases h
    | some t =>
      rw [hthrown] at h heval
      rw [Option.any_some, Option.any_some, Bool.or_comm] at h
      rw [Option.any_some, h] at heval
      cases heval
  cases hopen : (c.rejected.isSome || c.failed) with
  | true => exact ⟨fun _ => rfl, fun _ => hstopped hopen⟩
  | false =>
    rw [Bool.false_or, hexecutors]
    obtain ⟨hrejected, hfailed⟩ := Bool.or_eq_false_iff.mp hopen
    refine stepsPhase_blameless_iff hchecked
      (standard_answered hchecked hdeclared (Or.inr rfl) c.vars)
      (Option.isSome_eq_false_iff.mp hrejected |> Option.isNone_iff_eq_none.mp) hfailed ?_
    intro t ht
    refine ⟨hsetUp.blameless t ht, ?_⟩
    rw [hsetUp.rejected, ht] at hrejected
    exact hrejected

end Law

open RunnerNonces (samplePolicy policyDigest)

/-- A request, and an assertion on what an expression selects of its response. -/
def pathTestSpec (expression : String) : Json :=
  .obj [("id", .str "T"), ("version", .num (Number.ofNat 1)), ("name", .str "N"),
    ("risk", .str "LOW"), ("featureId", .str "F"),
    ("verifiesClaims", .arr [.obj [("id", .str "C"), ("version", .num (Number.ofNat 1))]]),
    ("environment", .obj [("target", .str "t"), ("operationLevel", .str "SAFE_READ")]),
    ("variables", .obj []),
    ("steps", .arr [.obj [("id", .str "S"), ("executor", .str "HTTP"), ("method", .str "GET"),
      ("path", .str "/")]]),
    ("assertions", .arr [.obj [("id", .str "A"), ("type", .str "JSON_PATH"),
      ("stepId", .str "S"), ("expression", .str expression), ("expected", .str "ok")]]),
    ("policy", .obj [("approvalRequired", .bool false)])]

def pathTask (expression : String) : List (String × Json) :=
  [("id", .str "K"), ("projectId", .str "P"), ("executionId", .str "E"), ("runnerId", .str "R"),
    ("nonce", .str "once"),
    ("policyHash", .str "sha256:b5ea234daa8dbe7985c1a1e8e872d381d857fc84a109be9bde4079bbb15d52c8"),
    ("issuedAt", .str "2026-07-15T12:00:00Z"), ("expiresAt", .str "2026-07-15T12:05:00Z"),
    ("testSpec", pathTestSpec expression),
    ("snapshotManifest", .obj [("complete", .bool true), ("components", sampleComponents)])]

/-- HMAC-SHA256 of the tasks of two expressions under the secret of the runner. -/
def pathHmac (_ : String) : String → String :=
  tabledDigest [(68154, "861d5f1115626ebfc31fb405382fb0270269048d08c5b74024a3f7c31eda391b"),
    (68236, "7fa9f0364760adbbe9e3c91800f9a3ebbb716d744cfc08e8d6c67758ea966b7d")]

def attestedPath (expression signature : String) : Json :=
  .obj (pathTask expression ++ [("attestation", .obj [("algorithm", .str "HMAC-SHA256"),
    ("signature", .str signature)])])

/-- The target answers with a status in JSON. -/
def statusAnswers : Answers where
  http _ _ := .ok { durationMs := Number.ofNat 3, request := .obj []
                    status := .num (Number.ofNat 200), headers := .obj []
                    body := "\x7b\"status\":\"ok\"\x7d", json := .obj [("status", .str "ok")] }
  database _ _ := .error (.policy "Database adapter undefined is unavailable")
  existingTest _ _ := .error (.policy "EXISTING_TEST is not configured")

def noUpper (c : Char) : List Char := [c]

def pathHost : Host Unit where
  runnerId := "R"
  runnerSecret := "shared"
  usedNonces := []
  acceptedAt := sampleNow
  validatedAt := sampleNow
  targetPolicy _ _ := .ok (some samplePolicy)
  secret _ := .ok none
  fixtures := none
  executors := standardExecutors (upperWith noUpper) .SAFE_READ statusAnswers

theorem pathHost_foreign : Foreign pathHost where
  secret _ _ h := by cases h
  resolver _ h := by cases h
  handler _ h := by cases h

def acceptPath (expression signature : String) : Except Thrown Accepted :=
  accept (upperWith noUpper) parsedInstant policyDigest pathHmac pathHost
    (attestedPath expression signature)

/-- The level of a run, whether it is sound, and whether an assertion that it evaluates is blamed
on the specification. -/
def pathRun (expression signature : String) : Option (TestOperationLevel × Bool × Bool) := do
  let accepted ← (acceptPath expression signature).toOption
  let (c, _) ← (course id pathHost accepted).toOption
  return (accepted.admission.operationLevel, runSound id pathHost accepted,
    evaluates c && (assertionsOf accepted.task.testSpec).any fun assertion =>
      blamesSpec (evaluateAssertion id assertion c.stepResultsById))

/-- The parts of a run that was evaluated. -/
theorem pathRun_some {expression signature : String} {level : TestOperationLevel}
    {sound blamed : Bool} (h : pathRun expression signature = some (level, sound, blamed)) :
    ∃ accepted c secrets, acceptPath expression signature = .ok accepted ∧
      accepted.admission.operationLevel = level ∧ runSound id pathHost accepted = sound ∧
      course id pathHost accepted = .ok (c, secrets) ∧
      (evaluates c && (assertionsOf accepted.task.testSpec).any fun assertion =>
        blamesSpec (evaluateAssertion id assertion c.stepResultsById)) = blamed := by
  simp only [pathRun, Option.bind_eq_bind, Option.bind_eq_some_iff] at h
  obtain ⟨accepted, haccepted, ⟨c, secrets⟩, hcourse, h⟩ := h
  have hparts := Option.some.inj h
  rw [Prod.mk.injEq, Prod.mk.injEq] at hparts
  obtain ⟨hlevel, hsound, hblamed⟩ := hparts
  exact ⟨accepted, c, secrets, toOptionOk haccepted, hlevel, hsound, toOptionOk hcourse, hblamed⟩

end Traqen.ExecutableSpecs
