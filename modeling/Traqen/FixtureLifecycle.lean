-- Fixtures around a controlled write (`runner/fixture-lifecycle.js`): a session sets a fixture up
-- with a trusted handler, and cleans it up with the state that the setup returned.
import Traqen.RunnerAssertions

open Js

namespace Traqen.FixtureLifecycle

open ExecutionEvidence RunnerAssertions RunnerErrors RunnerValues TestSpecs

/-! ## Handlers -/

/-- A field of what a handler returns: parsed values, or a value that `structuredClone` refuses
(a function, or an object that holds one). -/
inductive HandlerField where
  | json (value : Json)
  | uncloneable (isObject : Bool)

/-- What a setup resolves to; `σ` is the type of its state, of which the runner reads nothing. -/
inductive SetupOutput (σ : Type) where
  | undefined
  | noObject
  | object (bindings : Option HandlerField) (state : Option σ) (evidence : Option HandlerField)

inductive CleanupOutput where
  | undefined
  | noObject
  | object (evidence : Option HandlerField)

structure CleanupInput (σ : Type) where
  seed : Json
  cleanup : Json
  state : Option σ
  setupSucceeded : Bool

/-- A trusted handler. What exceeds the timeout throws the RunnerExecutionError that says so. -/
structure Handler (σ : Type) where
  setup : Json → Except Thrown (SetupOutput σ)
  cleanup : CleanupInput σ → Except Thrown CleanupOutput

/-! ## Sessions -/

structure Session (σ : Type) where
  seedRef : String
  seed : Json
  cleanup : Json
  strategy : String
  protocolVersion : String
  compensationRef : Option String
  handler : Handler σ

def requireString (value : Option Json) (error : RunnerError) : Except RunnerError String :=
  match value with
  | some (.str s) => if isBlank s then .error error else .ok s
  | _ => .error error

/-- The only seed of a specification, with its reference. -/
def requireSeed (testSpec : Json) : Except RunnerError (Json × String) :=
  match (itemsOf (field (some testSpec) "preconditions")).filter fun item =>
      seedTypes.any fun type => strictEq (field (some item) "type") (some (.str type)) with
  | [seed] => do
    let seedRef ← requireString (field (some seed) "seedRef") (.spec .seedRefRequired)
    return (seed, seedRef)
  | _ => specError .oneSeedRequired

def requireCleanup (testSpec : Json) : Except RunnerError (Json × String) :=
  match field (some testSpec) "cleanup" with
  | some (.obj cleanup) => do
    let strategy ← requireString (cleanup.lookup "strategy") (.spec .strategyRequired)
    return (.obj cleanup, strategy)
  | _ => specError .cleanupRequired

/-- The entry of the fixture catalog for a seed. -/
def requireDefinition (targetPolicy : Json) (seedRef strategy : String) :
    Except RunnerError Json :=
  match (field (some targetPolicy) "fixtureCatalog").bind fun catalog => ownProperty catalog seedRef with
  | some (.obj definition) =>
    if (itemsOf (definition.lookup "cleanupStrategies")).any fun allowed =>
        strictEq (some allowed) (some (.str strategy)) then .ok (.obj definition)
    else
      policyError ("Cleanup strategy " ++ strategy ++ " is not allowlisted for Seed " ++ seedRef)
  | _ => policyError ("Seed " ++ seedRef ++ " is not allowlisted by the target policy")

def catalogField (seedRef name : String) : RunnerError :=
  .policy ("fixtureCatalog." ++ seedRef ++ "." ++ name ++ " must be a non-empty string")

def compensationRefOf (definition : Json) (seedRef : String) :
    Except RunnerError (Option String) :=
  match field (some definition) "compensationRef" with
  | none | some .null => .ok none
  | value => do
    let ref ← requireString value (catalogField seedRef "compensationRef")
    return some ref

/-- `resolved` is what the handler resolver gives for a seed: no handler is one that lacks a setup
or a cleanup. -/
def createSession {σ : Type} (testSpec targetPolicy : Json)
    (resolved : String → Except Thrown (Option (Handler σ))) : Except Thrown (Session σ) := do
  if !strictEq (field (field (some testSpec) "environment") "operationLevel")
      (some (.str "CONTROLLED_WRITE")) then
    .error (.error (.policy "Fixture lifecycle sessions are only valid for CONTROLLED_WRITE"))
  else
    let (seed, seedRef) ← (requireSeed testSpec).mapError .error
    let (cleanup, strategy) ← (requireCleanup testSpec).mapError .error
    let definition ← (requireDefinition targetPolicy seedRef strategy).mapError .error
    let handler ← resolved seedRef
    match handler with
    | none => .error (.error (.policy ("Trusted fixture handler " ++ seedRef ++ " is unavailable")))
    | some handler =>
      let protocolVersion ←
        (requireString (some (nullish (field (some definition) "protocolVersion") (.str "1.0.0")))
          (catalogField seedRef "protocolVersion")).mapError .error
      let compensationRef ← (compensationRefOf definition seedRef).mapError .error
      return { seedRef, seed, cleanup, strategy, protocolVersion, compensationRef, handler }

/-! ## Setup -/

structure Setup (σ : Type) where
  bindings : Fields
  state : Option σ
  result : Json

def evidenceDetails (value : Option HandlerField) (fieldName : String) : Except RunnerError Json :=
  match value with
  | none => .ok .null
  | some (.json value) => .ok value
  | some (.uncloneable _) =>
    executionError (fieldName ++ " must be structured-clone serializable")

/-- `structuredClone(output.bindings ?? {})`, of an object. -/
def cloneBindings (bindings : Option HandlerField) (seedRef : String) :
    Except RunnerError Fields :=
  match bindings with
  | none | some (.json .null) => .ok []
  | some (.json (.obj fields)) => .ok fields
  | some (.uncloneable true) => engineError "The object could not be cloned."
  | _ => executionError ("Fixture setup " ++ seedRef ++ " bindings must be an object")

section Session

variable {σ : Type} (session : Session σ)

/-- What the session makes of the output of a setup. -/
def setupOf : SetupOutput σ → Except RunnerError (Setup σ)
  | .noObject => executionError ("Fixture setup " ++ session.seedRef ++ " must return an object")
  | .undefined =>
    .ok { bindings := [], state := none, result := passed .null }
  | .object bindings state evidence => do
    let bindings ← cloneBindings bindings session.seedRef
    let details ←
      evidenceDetails evidence ("Fixture setup " ++ session.seedRef ++ " evidence")
    return { bindings, state, result := passed details }
where
  passed (details : Json) : Json :=
    .obj [("status", .str "PASS"), ("seedRef", .str session.seedRef),
      ("protocolVersion", .str session.protocolVersion), ("details", details)]

def cleanupResult : CleanupOutput → Except RunnerError Json
  | .noObject => executionError ("Fixture cleanup " ++ session.seedRef ++ " must return an object")
  | .undefined => .ok (passed .null)
  | .object evidence => do
    let details ←
      evidenceDetails evidence ("Fixture cleanup " ++ session.seedRef ++ " evidence")
    return passed details
where
  passed (details : Json) : Json :=
    .obj [("status", .str "PASS"), ("seedRef", .str session.seedRef),
      ("strategy", .str session.strategy), ("protocolVersion", .str session.protocolVersion),
      ("details", details)]

/-- The declarations that a cleanup is called with. -/
def cleanupInput (vars : Fields) (state : Option σ) (setupSucceeded : Bool) :
    Except RunnerError (CleanupInput σ) := do
  let cleanup ← interpolateValue vars session.cleanup
  let seed ← interpolateValue vars session.seed
  return { seed, cleanup, state, setupSucceeded }

end Session

end Traqen.FixtureLifecycle
