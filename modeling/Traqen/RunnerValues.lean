-- The values of a run (`runner/values.js`): templates are filled in from the variables and the
-- resolved secrets.
import Traqen.RunnerErrors
import Traqen.TestSpecs
import Traqen.Lib.CodeUnits

open Js

namespace Traqen.RunnerValues

open ExecutionEvidence RunnerErrors TestSpecs

/-! ## Templates -/

/-- `Object.hasOwn(value, key)` and `value[key]`, of an object or an array. -/
def ownProperty (value : Json) (key : String) : Option Json :=
  match value with
  | .obj fields => fields.lookup key
  | .arr items =>
    if key = "length" then some (.num (Number.ofNat items.length))
    else (arrayIndex? key).bind fun index => items[index]?
  | _ => none

def undefinedVariable {α : Type} (path : List Char) : Except RunnerError α :=
  policyError ("Template variable " ++ String.ofList path ++ " is not defined")

def lookupVariable (vars : Fields) (path : List Char) : Except RunnerError Json :=
  match (path.splitOn '.').foldl
      (fun value segment => value.bind fun v => ownProperty v (String.ofList segment))
      (some (.obj vars)) with
  | some value => .ok value
  | none => undefinedVariable path

/-- A part of a text: a character, or a reference to a variable. -/
inductive Part where
  | text (c : Char)
  | reference (path : List Char)

/-- The text cut at the matches of `/\$\{([^}]+)\}/g`; `skip` characters belong to a match. -/
def partsFrom : Nat → List Char → List Part
  | _, [] => []
  | skip + 1, _ :: rest => partsFrom skip rest
  | 0, c :: rest =>
    match templateStart (c :: rest) with
    | some (path, _) => .reference path :: partsFrom (path.length + 2) rest
    | none => .text c :: partsFrom 0 rest

/-- `String(value)`. -/
def textOf (value : Json) : Except RunnerError (List Char) :=
  if value.hidesToString then
    .error (.other { name := .TypeError, message := "Cannot convert object to primitive value" })
  else .ok value.toText.toList

def fillPart (vars : Fields) : Part → Except RunnerError (List Char)
  | .text c => .ok [c]
  | .reference path => do
    let value ← lookupVariable vars path
    textOf value

/-- A text that is one reference becomes the value itself. -/
def interpolateText (vars : Fields) (text : String) : Except RunnerError Json :=
  match partsFrom 0 text.toList with
  | [.reference path] => lookupVariable vars path
  | parts => do
    let filled ← parts.mapM (fillPart vars)
    return .str (String.ofList filled.flatten)

mutual

def interpolateValue (vars : Fields) : Json → Except RunnerError Json
  | .str text => interpolateText vars text
  | .arr items => do
    let items ← interpolateItems vars items
    return .arr items
  | .obj fields => do
    let fields ← interpolateFields vars fields
    return .obj fields
  | value => .ok value

def interpolateItems (vars : Fields) : List Json → Except RunnerError (List Json)
  | [] => .ok []
  | v :: vs => do
    let item ← interpolateValue vars v
    let rest ← interpolateItems vars vs
    return item :: rest

def interpolateFields (vars : Fields) :
    List (String × Json) → Except RunnerError (List (String × Json))
  | [] => .ok []
  | (name, child) :: rest => do
    let value ← interpolateValue vars child
    let rest ← interpolateFields vars rest
    return (name, value) :: rest

end

/-! ## Variables -/

/-- `object[name] = value`: this name sets the prototype and makes no own property. -/
def assign (object : Fields) (name : String) (value : Json) : Fields :=
  if name = "__proto__" then object else OrderedMap.set object name value

structure ResolvedVariables where
  variableValues : Fields
  secretValues : List String

/-- `typeof value.secretRef === "string"`, of an object. -/
def secretRefOf (value : Json) : Option String :=
  match value.get? "secretRef" with
  | some (.str ref) => some ref
  | _ => none

section Resolve

variable (secretResolver : String → Except Thrown (Option Json))

def resolveVariable (resolved : ResolvedVariables) (entry : String × Json) :
    Except Thrown ResolvedVariables :=
  match secretRefOf entry.2 with
  | some ref => do
    let secret ← secretResolver ref
    match secret with
    | some (.str text) =>
      if text = "" then
        .error (.error (.policy ("Secret " ++ ref ++ " could not be resolved")))
      else
        return { variableValues := assign resolved.variableValues entry.1 (.str text)
                 secretValues := (resolved.secretValues ++ [text]).eraseDups }
    | _ => .error (.error (.policy ("Secret " ++ ref ++ " could not be resolved")))
  | none => return { resolved with variableValues := assign resolved.variableValues entry.1 entry.2 }

/-- `Object.entries` throws where there are no variables. -/
def resolveVariables (declared : Option Json) : Except Thrown ResolvedVariables :=
  match declared with
  | some (.obj entries) =>
    entries.foldlM (resolveVariable secretResolver) { variableValues := [], secretValues := [] }
  | _ =>
    .error (.error (.other { name := .TypeError
                             message := "Cannot convert undefined or null to object" }))

end Resolve

end Traqen.RunnerValues
