-- Identities of deterministic facts (`deterministic-facts/identity.js`): an id is the digest of a
-- domain and of the fields that make the record the one it is.
import Mathlib.Data.List.Sort
import Traqen.ScopeLifecycle

open Js

namespace Traqen.FactIdentity

open ScopeLifecycle (canonicalDigest isHexId)
open SourceIdentity (sortKeys)

/-! ## Checks -/

/-- The fields of an anchor. -/
abbrev Anchor := List (String × Json)

def requireString (value field : String) : Except Failure String :=
  if value = "" then typeError (field ++ " must be a non-empty string") else .ok value

def requireHexId (value : Option String) (field : String) : Except Failure String :=
  match value.filter isHexId with
  | some id => .ok id
  | none => typeError (field ++ " must be a 64-character lowercase SHA-256 id")

/-- `sortedStrings(values, field)`: without duplicates, in the order of the UTF-8 bytes. -/
def sortedStrings (values : List String) (field : String) : Except Failure (List String) :=
  if "" ∈ values then typeError (field ++ " must be an array of non-empty strings")
  else .ok (values.eraseDups.insertionSort (· ≤ ·))

def texts (values : List String) : Json := .arr (values.map .str)

def orNull : Option String → Json
  | some text => .str text
  | none => .null

/-! ## Ids -/

structure RuleRef where
  id : String
  version : String
  deriving DecidableEq

def RuleRef.toJson (r : RuleRef) : Json := .obj [("id", .str r.id), ("version", .str r.version)]

section Ids

variable (sha256 : String → String)

/-- `createMaterialId`, of a path that was decoded before. -/
def createMaterialId (workspaceId bundleId componentId pathBytes : String) :
    Except Failure String := do
  let workspaceId ← requireString workspaceId "workspaceId"
  let bundleId ← requireHexId (some bundleId) "bundleId"
  let componentId ← requireHexId (some componentId) "componentId"
  return canonicalDigest sha256 "MATERIAL" (.obj [("workspaceId", .str workspaceId),
    ("bundleId", .str bundleId), ("componentId", .str componentId), ("pathBytes", .str pathBytes)])

def createObjectId (materialId objectKind : String) (anchor : Anchor) : Except Failure String := do
  let materialId ← requireHexId (some materialId) "materialId"
  let objectKind ← requireString objectKind "objectKind"
  return canonicalDigest sha256 "OBJECT" (.obj [("materialId", .str materialId),
    ("objectKind", .str objectKind), ("anchor", .obj anchor)])

def createEvidenceId (materialId : String) (contentDigest : Option String) (anchor : Anchor)
    (evidenceKind : String) : Except Failure String := do
  let materialId ← requireHexId (some materialId) "materialId"
  let contentDigest ← requireHexId contentDigest "contentDigest"
  let evidenceKind ← requireString evidenceKind "evidenceKind"
  return canonicalDigest sha256 "EVIDENCE" (.obj [("materialId", .str materialId),
    ("contentDigest", .str contentDigest), ("anchor", .obj anchor),
    ("evidenceKind", .str evidenceKind)])

/-- What a fact says of its subject: a target or a typed value. -/
def factObject (typedValue : Option Anchor) (targetId : Option String) :
    Except Failure (String × Json) :=
  match typedValue, targetId with
  | some value, none => .ok ("typedValue", .obj value)
  | none, some target => do
    let target ← requireString target "targetId"
    return ("targetId", .str target)
  | _, _ => typeError "fact must contain exactly one of typedValue or targetId"

def createFactId (subjectId predicate : String) (typedValue : Option Anchor)
    (targetId : Option String) (basis : String) (evidenceIds : List String)
    (ruleRef : Option RuleRef) (premiseFactIds : List String) : Except Failure String := do
  let object ← factObject typedValue targetId
  let subjectId ← requireString subjectId "subjectId"
  let predicate ← requireString predicate "predicate"
  let basis ← requireString basis "basis"
  let evidenceIds ← sortedStrings evidenceIds "evidenceIds"
  let premiseFactIds ← sortedStrings premiseFactIds "premiseFactIds"
  return canonicalDigest sha256 "FACT" (.obj [("subjectId", .str subjectId),
    ("predicate", .str predicate), object, ("basis", .str basis),
    ("evidenceIds", texts evidenceIds),
    ("ruleRef", ruleRef.elim .null RuleRef.toJson), ("premiseFactIds", texts premiseFactIds)])

def createGapId (origin : String) (materialId objectId : Option String) (capability code : String)
    (location : Option Anchor) (reason : Anchor) : Except Failure String := do
  let origin ← requireString origin "origin"
  let capability ← requireString capability "capability"
  let code ← requireString code "code"
  return canonicalDigest sha256 "GAP" (.obj [("origin", .str origin), ("scopeId", .null),
    ("materialId", orNull materialId), ("objectId", orNull objectId),
    ("capability", .str capability), ("code", .str code), ("location", location.elim .null .obj),
    ("reason", .obj reason)])

end Ids

/-! ## What an id tells -/

variable {sha256 : String → String}

theorem canonicalDigest_injective (hsha : Function.Injective sha256) {domain : String} {v w : Json}
    (h : canonicalDigest sha256 domain v = canonicalDigest sha256 domain w) :
    sortKeys v = sortKeys w :=
  (SourceIdentity.payload_of_text (hsha h)).2

/-- A field that both payloads have. -/
theorem field_eq {fs gs : List (String × Json)}
    (h : sortKeys (.obj fs) = sortKeys (.obj gs)) (key : String)
    (v w : Json) (hv : (key, v) ∈ fs) (hw : ∀ x, (key, x) ∈ gs → x = w) :
    sortKeys v = sortKeys w := by
  obtain ⟨x, hx, hsame⟩ := SourceIdentity.field_of_sortKeys h key hv
  rw [hw x hx] at hsame
  exact hsame

theorem requireString_ok {value field text : String} (h : requireString value field = .ok text) :
    text = value := by
  unfold requireString at h
  by_cases hempty : value = ""
  · rw [if_pos hempty] at h
    cases h
  · rw [if_neg hempty] at h
    exact (Except.ok.inj h).symm

theorem requireHexId_ok {value : Option String} {field id : String}
    (h : requireHexId value field = .ok id) : value = some id ∧ isHexId id = true := by
  unfold requireHexId at h
  cases hfound : value.filter isHexId with
  | none =>
    rw [hfound] at h
    cases h
  | some found =>
    rw [hfound] at h
    cases h
    exact Option.filter_eq_some_iff.mp hfound

theorem createMaterialId_ok {workspaceId bundleId componentId pathBytes id : String}
    (h : createMaterialId sha256 workspaceId bundleId componentId pathBytes = .ok id) :
    id = canonicalDigest sha256 "MATERIAL" (.obj [("workspaceId", .str workspaceId),
      ("bundleId", .str bundleId), ("componentId", .str componentId),
      ("pathBytes", .str pathBytes)]) := by
  obtain ⟨w, hw, h⟩ := bind_ok h
  obtain ⟨b, hb, h⟩ := bind_ok h
  obtain ⟨c, hc, h⟩ := bind_ok h
  rw [← requireString_ok hw, Option.some.inj (requireHexId_ok hb).1,
    Option.some.inj (requireHexId_ok hc).1]
  exact (Except.ok.inj h).symm

/-- A material id tells the place of the material. -/
theorem location_of_materialId (hsha : Function.Injective sha256)
    {workspaceId bundleId componentId pathBytes component path id : String}
    (h : createMaterialId sha256 workspaceId bundleId componentId pathBytes = .ok id)
    (h' : createMaterialId sha256 workspaceId bundleId component path = .ok id) :
    componentId = component ∧ pathBytes = path := by
  have hsame := canonicalDigest_injective hsha
    ((createMaterialId_ok h).symm.trans (createMaterialId_ok h'))
  have hcomponent := field_eq hsame "componentId" (.str componentId) (.str component) (by simp)
    (by simp)
  have hpath := field_eq hsame "pathBytes" (.str pathBytes) (.str path) (by simp) (by simp)
  exact ⟨Json.str.inj hcomponent, Json.str.inj hpath⟩

/-- An object id tells its material. -/
theorem material_of_objectId (hsha : Function.Injective sha256)
    {materialId kind material kind' id : String} {anchor anchor' : Anchor}
    (h : createObjectId sha256 materialId kind anchor = .ok id)
    (h' : createObjectId sha256 material kind' anchor' = .ok id) : materialId = material := by
  obtain ⟨m, hm, h⟩ := bind_ok h
  obtain ⟨k, -, h⟩ := bind_ok h
  obtain ⟨m', hm', h'⟩ := bind_ok h'
  obtain ⟨k', -, h'⟩ := bind_ok h'
  obtain ⟨rfl, -⟩ := And.imp_left Option.some.inj (requireHexId_ok hm)
  obtain ⟨rfl, -⟩ := And.imp_left Option.some.inj (requireHexId_ok hm')
  have hsame := canonicalDigest_injective hsha ((Except.ok.inj h).trans (Except.ok.inj h').symm)
  exact Json.str.inj (field_eq hsame "materialId" (.str materialId) (.str material) (by simp)
    (by simp))

theorem orNull_injective {a b : Option String}
    (h : sortKeys (orNull a) = sortKeys (orNull b)) : a = b := by
  cases a with
  | none =>
    cases b with
    | none => rfl
    | some b => cases h
  | some a =>
    cases b with
    | none => cases h
    | some b => exact congrArg some (Json.str.inj h)

/-- A gap id tells its material. -/
theorem material_of_gapId (hsha : Function.Injective sha256)
    {origin origin' capability capability' code code' id : String}
    {materialId materialId' objectId objectId' : Option String} {location location' : Option Anchor}
    {reason reason' : Anchor}
    (h : createGapId sha256 origin materialId objectId capability code location reason = .ok id)
    (h' : createGapId sha256 origin' materialId' objectId' capability' code' location' reason' =
      .ok id) : materialId = materialId' := by
  obtain ⟨o, -, h⟩ := bind_ok h
  obtain ⟨c, -, h⟩ := bind_ok h
  obtain ⟨d, -, h⟩ := bind_ok h
  obtain ⟨o', -, h'⟩ := bind_ok h'
  obtain ⟨c', -, h'⟩ := bind_ok h'
  obtain ⟨d', -, h'⟩ := bind_ok h'
  have hsame := canonicalDigest_injective hsha ((Except.ok.inj h).trans (Except.ok.inj h').symm)
  exact orNull_injective (field_eq hsame "materialId" (orNull materialId) (orNull materialId')
    (by simp) (by simp))

end Traqen.FactIdentity
