-- The continuous protection assessment (`domain/continuous-protection.js`): which tests a
-- change calls for, and the quality gate over them and the features they belong to. The
-- input is any value, as `JSON.parse` gives it.
import Traqen.CanonicalJson
import Traqen.Model
import Traqen.Lib.CodeUnits
import Traqen.Lib.OrderedMap

open Js

namespace Traqen.ContinuousProtection

/-! ## Policies -/

inductive QualityGateMode where
  | ADVISORY
  | MANUAL_APPROVAL
  | ENFORCED
deriving DecidableEq, Repr

inductive QualityGateStatus where
  | UNKNOWN
  | BLOCKED
  | PASS
deriving DecidableEq, Repr

inductive Enforcement where
  | PASS
  | FAIL
  | REQUIRE_APPROVAL
  | WARN
deriving DecidableEq, Repr

inductive SelectionReason where
  | MAPPED_IMPLEMENTATION_CHANGE
  | FIXED_HIGH_RISK_SET
  | CONSERVATIVE_FALLBACK
deriving DecidableEq, Repr

def SelectionReason.text : SelectionReason → String
  | .MAPPED_IMPLEMENTATION_CHANGE => "MAPPED_IMPLEMENTATION_CHANGE"
  | .FIXED_HIGH_RISK_SET => "FIXED_HIGH_RISK_SET"
  | .CONSERVATIVE_FALLBACK => "CONSERVATIVE_FALLBACK"

inductive GateReason where
  | CHANGESET_INCOMPLETE
  | CHANGESET_WARNINGS
  | TEST_SPEC_UNRESOLVED
  | TEST_SPEC_NOT_APPROVED
  | HIGH_RISK_TEST_SET_MISSING
  | FEATURE_TRACEABILITY_UNAVAILABLE
  | FEATURE_PROOF_CHAIN_INCOMPLETE
deriving DecidableEq, Repr

inductive RequiredAction where
  | EXPAND_REGRESSION_SCOPE
  | REPAIR_FACT_COLLECTION
  | REVIEW_CHANGESET_WARNINGS
  | REPAIR_TEST_CATALOG
  | APPROVE_SELECTED_TEST_SPECS
  | CONFIGURE_HIGH_RISK_REGRESSION_SET
  | RECOMPUTE_FEATURE_TRACEABILITY
  | REPAIR_TRACE_GAPS
  | RERUN_SELECTED_TESTS
deriving DecidableEq, Repr

inductive SelectionStrategy where
  | TARGETED_UNION_HIGH_RISK
  | CONSERVATIVE_UNION
deriving DecidableEq, Repr

structure Policy where
  mode : QualityGateMode
  highRiskFeatureIds : List String
  fixedHighRiskTestSpecIds : List String
  conservativeTestSpecIds : List String
deriving DecidableEq

/-- The text of a non-blank string. -/
def namedText? : Json → Option String
  | .str s => if isBlank s then none else some s
  | _ => none

def stringArray (value : Option Json) (fieldName : String) : Except Failure (List String) :=
  match value with
  | none | some .null => .ok []
  | some (.arr items) =>
    if items.any fun item => (namedText? item).isNone then
      typeError (fieldName ++ " must be an array of non-empty strings")
    else .ok (sortTexts ((items.filterMap namedText?).map trim).eraseDups)
  | _ => typeError (fieldName ++ " must be an array of non-empty strings")

def policyMode (value : Option Json) : Except Failure QualityGateMode :=
  match nullish value (.str "ADVISORY") with
  | .str "ADVISORY" => .ok .ADVISORY
  | .str "MANUAL_APPROVAL" => .ok .MANUAL_APPROVAL
  | .str "ENFORCED" => .ok .ENFORCED
  | _ => typeError "policy.mode must be ADVISORY, MANUAL_APPROVAL, or ENFORCED"

/-- A policy that is left out is the empty one; null is no policy. -/
def normalizePolicy (input : Option Json) : Except Failure Policy :=
  match input.getD (.obj []) with
  | .obj fields => do
    let mode ← policyMode (fields.lookup "mode")
    let highRiskFeatureIds ←
      stringArray (fields.lookup "highRiskFeatureIds") "policy.highRiskFeatureIds"
    let fixedHighRiskTestSpecIds ←
      stringArray (fields.lookup "fixedHighRiskTestSpecIds") "policy.fixedHighRiskTestSpecIds"
    let conservativeTestSpecIds ←
      stringArray (fields.lookup "conservativeTestSpecIds") "policy.conservativeTestSpecIds"
    return { mode, highRiskFeatureIds, fixedHighRiskTestSpecIds, conservativeTestSpecIds }
  | _ => typeError "continuous protection policy must be an object"

def enforcementFor (status : QualityGateStatus) (mode : QualityGateMode) : Enforcement :=
  if status = .PASS then .PASS
  else
    match mode with
    | .ENFORCED => .FAIL
    | .MANUAL_APPROVAL => .REQUIRE_APPROVAL
    | .ADVISORY => .WARN

/-! ## Traceabilities -/

/-- `(v ?? []).length > 0`, where what is neither an array nor a string has no use: a value
that comes here is spread, or its `every` is called, later on. -/
def lengthPositive : Option Json → Bool
  | some (.arr items) => !items.isEmpty
  | some (.str s) => s ≠ ""
  | _ => false

/-- `(v ?? []).length === 0`. -/
def lengthZero (v : Option Json) : Bool :=
  match nullish v (.arr []) with
  | .arr items => items.isEmpty
  | .str s => s = ""
  | .obj fields => strictEq (fields.lookup "length") (some (.num (Number.ofNat 0)))
  | _ => false

/-- `chains.every((chain) => chain.complete === true)`, which ends at the first chain that is
not complete. -/
def everyComplete : List Json → Except Failure Bool
  | [] => .ok true
  | .null :: _ => typeError "Cannot read properties of null (reading 'complete')"
  | chain :: chains =>
    if strictEq (field (some chain) "complete") (some (.bool true)) then everyComplete chains
    else .ok false

def traceabilityComplete (traceability : Option Json) : Except Failure Bool :=
  if truthy traceability && lengthPositive (field traceability "traceChains") then
    match field traceability "traceChains" with
    | some (.arr chains) => do
      let complete ← everyComplete chains
      return complete && lengthZero (field traceability "gaps")
    | _ => typeError "traceability.traceChains.every is not a function"
  else .ok false

/-! ## The assessment -/

structure SelectedTest where
  id : String
  version : Option Json
  featureId : Option Json
  name : Option Json
  approved : Bool
  operationLevel : Json
  reasons : List SelectionReason
deriving DecidableEq

structure FeatureAssessment where
  featureId : Option Json
  highRisk : Bool
  available : Bool
  chainComplete : Bool
  dimensions : Json
  gaps : Json
deriving DecidableEq

structure RegressionPlan where
  selectionStrategy : SelectionStrategy
  complete : Bool
  selectedTests : List SelectedTest
  unresolvedTestSpecIds : List String
  changeSetWarnings : List Json

structure QualityGate where
  status : QualityGateStatus
  policyMode : QualityGateMode
  enforcement : Enforcement
  reasons : List GateReason
  requiredActions : List RequiredAction

structure Assessment where
  id : String
  projectId : String
  changeSetId : String
  snapshotManifestId : String
  createdAt : Json
  regressionPlan : RegressionPlan
  featureAssessments : List FeatureAssessment
  qualityGate : QualityGate

abbrev Selection := List (String × List SelectionReason)

def select (reason : SelectionReason) (selection : Selection) (testSpecId : Json) :
    Except Failure Selection := do
  let id ← requireNonEmptyString (some testSpecId) "selected testSpecId"
  let reasons := (OrderedMap.get? selection id).getD []
  return OrderedMap.set selection id (if reason ∈ reasons then reasons else reasons ++ [reason])

/-- The value of a loop or a spread over it. -/
def iterate (value : Option Json) (text : String) : Except Failure (List Json) :=
  match spread? value with
  | some items => .ok items
  | none => typeError (text ++ " is not iterable")

def reasonsByTest (changeSet impact : Option Json) (policy : Policy) : Except Failure Selection := do
  let affected ← iterate (field impact "affectedTestSpecIds") "impact.affectedTestSpecIds"
  let mapped ← affected.foldlM (select .MAPPED_IMPLEMENTATION_CHANGE) []
  let fixed ← (policy.fixedHighRiskTestSpecIds.map .str).foldlM (select .FIXED_HIGH_RISK_SET) mapped
  if strictEq (field changeSet "complete") (some (.bool true)) &&
      !lengthPositive (field changeSet "warnings") then return fixed
  else (policy.conservativeTestSpecIds.map .str).foldlM (select .CONSERVATIVE_FALLBACK) fixed

/-- The entry of a test specification in `testSpecsById`. -/
def testSpecEntry : Json → Except Failure (Option Json × Json)
  | .null => typeError "Cannot read properties of null (reading 'id')"
  | testSpec => .ok (field (some testSpec) "id", testSpec)

def traceabilityEntry (traceability : Json) : Option Json × Json :=
  (field (field (some traceability) "feature") "id", traceability)

def selectedTest (id : String) (testSpec : Json) (reasons : List SelectionReason) : SelectedTest :=
  let spec := some testSpec
  { id
    version := field spec "version"
    featureId := field spec "featureId"
    name := field spec "name"
    approved := strictEq (field spec "approved") (some (.bool true))
    operationLevel := nullish (field (field spec "environment") "operationLevel")
      (nullish (field spec "operationLevel") (.str "UNKNOWN"))
    reasons := reasons.insertionSort fun a b => codeUnits a.text ≤ codeUnits b.text }

/-- The text of a value; undefined has one too. -/
def valueText (v : Option Json) : String := (v.map Json.toText).getD "undefined"

/-- The order of the selected tests. A feature id that is no string makes the call throw when
it is the one whose `localeCompare` is called; which calls are made is up to the engine, and
here there is an order in any case. -/
def comesBefore (localeCompare : String → String → Ordering) (left right : SelectedTest) : Bool :=
  (localeCompare (valueText left.featureId) (valueText right.featureId)).then
    (localeCompare left.id right.id) ≠ .gt

def selectedTests (localeCompare : String → String → Ordering)
    (testSpecsById : List (Option Json × Json)) (selection : Selection) : List SelectedTest :=
  (selection.filterMap fun (id, reasons) =>
    (lastEntry testSpecsById (some (.str id))).map fun testSpec =>
      selectedTest id testSpec reasons).insertionSort fun left right =>
    comesBefore localeCompare left right = true

/-- `[...new Set(values)]`. -/
def distinct (values : List (Option Json)) : List (Option Json) :=
  values.foldl (fun seen v => if seen.any (strictEq v) then seen else seen ++ [v]) []

/-- The default `sort`: undefined goes to the end. -/
def textLe (a b : Option Json) : Bool :=
  match a, b with
  | _, none => true
  | none, some _ => false
  | some v, some w => decide (codeUnits v.toText ≤ codeUnits w.toText)

def assessFeature (traceabilityByFeature : List (Option Json × Json)) (policy : Policy)
    (featureId : Option Json) : Except Failure FeatureAssessment := do
  let traceability := lastEntry traceabilityByFeature featureId
  let chainComplete ← traceabilityComplete traceability
  return {
    featureId
    highRisk := policy.highRiskFeatureIds.any fun id => featureId = some (.str id)
    available := traceability.isSome
    chainComplete
    dimensions := nullish (field traceability "dimensions") .null
    gaps := nullish (field traceability "gaps") (.arr []) }

/-- What the gate looks for, in order: the reason it gives, and what it asks to do. -/
def findings (changeSet : Option Json) (policy : Policy) (unresolvedTestSpecIds : List String)
    (tests : List SelectedTest) (features : List FeatureAssessment) :
    List (Bool × GateReason × List RequiredAction) :=
  [(!strictEq (field changeSet "complete") (some (.bool true)), .CHANGESET_INCOMPLETE,
      [.EXPAND_REGRESSION_SCOPE, .REPAIR_FACT_COLLECTION]),
    (lengthPositive (field changeSet "warnings"), .CHANGESET_WARNINGS,
      [.REVIEW_CHANGESET_WARNINGS]),
    (!unresolvedTestSpecIds.isEmpty, .TEST_SPEC_UNRESOLVED, [.REPAIR_TEST_CATALOG]),
    (tests.any fun t => !t.approved, .TEST_SPEC_NOT_APPROVED, [.APPROVE_SELECTED_TEST_SPECS]),
    (policy.highRiskFeatureIds.any fun featureId =>
        !tests.any fun t => strictEq t.featureId (some (.str featureId)),
      .HIGH_RISK_TEST_SET_MISSING, [.CONFIGURE_HIGH_RISK_REGRESSION_SET]),
    (features.any fun f => !f.available, .FEATURE_TRACEABILITY_UNAVAILABLE,
      [.RECOMPUTE_FEATURE_TRACEABILITY]),
    (features.any fun f => f.available && !f.chainComplete, .FEATURE_PROOF_CHAIN_INCOMPLETE,
      [.REPAIR_TRACE_GAPS, .RERUN_SELECTED_TESTS])]

def GateReason.isUnknown (reason : GateReason) : Bool :=
  reason ∈ [GateReason.CHANGESET_INCOMPLETE, .CHANGESET_WARNINGS, .TEST_SPEC_UNRESOLVED,
    .FEATURE_TRACEABILITY_UNAVAILABLE, .HIGH_RISK_TEST_SET_MISSING]

def GateReason.isBlocked (reason : GateReason) : Bool :=
  reason ∈ [GateReason.TEST_SPEC_NOT_APPROVED, .FEATURE_PROOF_CHAIN_INCOMPLETE]

def gateStatus (reasons : List GateReason) : QualityGateStatus :=
  if reasons.any GateReason.isUnknown then .UNKNOWN
  else if reasons.any GateReason.isBlocked then .BLOCKED
  else .PASS

def qualityGate (policy : Policy) (found : List (Bool × GateReason × List RequiredAction)) :
    QualityGate :=
  let raised := found.filter (·.1)
  let reasons := raised.map (·.2.1)
  let status := gateStatus reasons
  { status
    policyMode := policy.mode
    enforcement := enforcementFor status policy.mode
    reasons := reasons.eraseDups
    requiredActions := (raised.flatMap (·.2.2)).eraseDups }

/-- `input.items ?? []`, which has to be an array. -/
def arrayOf (value : Option Json) (message : String) : Except Failure (List Json) :=
  match nullish value (.arr []) with
  | .arr items => .ok items
  | _ => typeError message

def objectOf (value : Option Json) (message : String) : Except Failure Json :=
  match value with
  | some (.obj fields) => .ok (.obj fields)
  | _ => typeError message

def createContinuousProtectionAssessment (sha256 : String → String)
    (localeCompare : String → String → Ordering) (dateParse : String → Option Int)
    (clock : Instant) (value : Option Json) : Except Failure Assessment := do
  let input ← objectOf value "continuous protection assessment input must be an object"
  let changeImpact ← objectOf (field input "changeImpact") "changeImpact must be an object"
  let changeSet := field changeImpact "changeSet"
  let impact := field changeImpact "impact"
  let changeSetId ← requireNonEmptyString (field changeSet "id") "changeImpact.changeSet.id"
  let snapshotManifestId ← requireNonEmptyString (field impact "toSnapshotManifestId")
    "changeImpact.impact.toSnapshotManifestId"
  let testSpecs ← arrayOf (field input "testSpecs") "testSpecs must be an array"
  let traceabilities ← arrayOf (field input "traceabilities") "traceabilities must be an array"
  let policy ← normalizePolicy (field input "policy")
  let testSpecsById ← testSpecs.mapM testSpecEntry
  let traceabilityByFeature :=
    (traceabilities.filter fun t => truthy (some t)).map traceabilityEntry
  let selection ← reasonsByTest changeSet impact policy
  let unresolvedTestSpecIds := sortTexts ((selection.map (·.1)).filter fun id =>
    (lastEntry testSpecsById (some (.str id))).isNone)
  let tests := selectedTests localeCompare testSpecsById selection
  let affectedFeatureIds ← iterate (field impact "affectedFeatureIds") "impact.affectedFeatureIds"
  let featureIds := (distinct (affectedFeatureIds.map some ++ tests.map (·.featureId) ++
    policy.highRiskFeatureIds.map fun id => some (.str id))).insertionSort fun a b =>
      textLe a b = true
  let features ← featureIds.mapM (assessFeature traceabilityByFeature policy)
  let gate :=
    qualityGate policy (findings changeSet policy unresolvedTestSpecIds tests features)
  let createdAt := nullish (field input "createdAt") (.str clock.iso)
  let _ ← requireIsoTimestamp dateParse (some createdAt) "createdAt"
  let projectId ← requireNonEmptyString (field input "projectId") "projectId"
  let changeSetWarnings ← iterate (field changeSet "warnings") "changeSet.warnings"
  return {
    id := contentId sha256 "CONTINUOUS-PROTECTION" (.obj [("changeSetId", .str changeSetId),
      ("toSnapshotManifestId", .str snapshotManifestId)])
    projectId, changeSetId, snapshotManifestId, createdAt
    regressionPlan := {
      selectionStrategy :=
        if strictEq (field changeSet "complete") (some (.bool true)) &&
            !lengthPositive (field changeSet "warnings") then .TARGETED_UNION_HIGH_RISK
        else .CONSERVATIVE_UNION
      complete := gate.status ≠ .UNKNOWN
      selectedTests := tests
      unresolvedTestSpecIds, changeSetWarnings }
    featureAssessments := features
    qualityGate := gate }

/-! ## What a passing gate stands on -/

/-- `[...(v ?? [])]`, where the call has a value. -/
def spread (v : Option Json) : List Json := (spread? v).getD []

def changeSetField (input : Json) (name : String) : Option Json :=
  path input ["changeImpact", "changeSet", name]

def impactField (input : Json) (name : String) : Option Json :=
  path input ["changeImpact", "impact", name]

/-- The ids of the policy, without the blanks around them. -/
def policyIds (input : Json) (name : String) : List String :=
  ((itemsOf (path input ["policy", name])).filterMap namedText?).map trim

/-- The test specification of the catalogue that the id leads to: the last one with it. -/
def resolve (input : Json) (testSpecId : Json) : Option Json :=
  lastEntry ((itemsOf (field input "testSpecs")).map fun t => (field (some t) "id", t))
    (some testSpecId)

/-- The traceability of the feature: the last one with its id. -/
def traceabilityOf (input : Json) (featureId : Option Json) : Option Json :=
  lastEntry (((itemsOf (field input "traceabilities")).filter fun t => truthy (some t)).map
    traceabilityEntry) featureId

/-- The id leads to a test specification that is approved. -/
def ResolvesToApproved (input testSpecId : Json) : Prop :=
  ∃ t, resolve input testSpecId = some t ∧ field (some t) "approved" = some (.bool true)

/-- The test specification of an affected id or of the fixed high-risk set. -/
def IsSelected (input testSpec : Json) : Prop :=
  ∃ id, (id ∈ spread (impactField input "affectedTestSpecIds") ∨
      ∃ text ∈ policyIds input "fixedHighRiskTestSpecIds", id = .str text) ∧
    resolve input id = some testSpec

/-- The features that the gate is about. -/
inductive IsConcerned (input : Json) : Option Json → Prop
  | affected {f : Json} (h : f ∈ spread (impactField input "affectedFeatureIds")) :
    IsConcerned input (some f)
  | selected {t : Json} (h : IsSelected input t) : IsConcerned input (field (some t) "featureId")
  | highRisk {text : String} (h : text ∈ policyIds input "highRiskFeatureIds") :
    IsConcerned input (some (.str text))

/-- At least one trace chain, all of them complete, and no gaps. -/
structure IsTraced (traceability : Json) : Prop where
  chains : ∃ chains, field (some traceability) "traceChains" = some (.arr chains) ∧ chains ≠ [] ∧
    ∀ c ∈ chains, field (some c) "complete" = some (.bool true)
  gaps : lengthZero (field (some traceability) "gaps") = true

/-- All that a passing gate promises. -/
structure Justified (input : Json) : Prop where
  complete : changeSetField input "complete" = some (.bool true)
  warnings : spread (changeSetField input "warnings") = []
  affected : ∀ id ∈ spread (impactField input "affectedTestSpecIds"), ResolvesToApproved input id
  fixed : ∀ text ∈ policyIds input "fixedHighRiskTestSpecIds",
    ResolvesToApproved input (.str text)
  highRisk : ∀ text ∈ policyIds input "highRiskFeatureIds",
    ∃ t, IsSelected input t ∧ field (some t) "featureId" = some (.str text)
  traced : ∀ f, IsConcerned input f → ∃ t, traceabilityOf input f = some t ∧ IsTraced t

/-! ## The gate -/

theorem isUnknown_or_isBlocked (reason : GateReason) :
    reason.isUnknown = true ∨ reason.isBlocked = true := by
  cases reason <;> decide

theorem gateStatus_pass {reasons : List GateReason} :
    gateStatus reasons = .PASS ↔ reasons = [] := by
  constructor
  · intro h
    unfold gateStatus at h
    split at h
    · cases h
    · rename_i hunknown
      split at h
      · cases h
      · rename_i hblocked
        rw [List.eq_nil_iff_forall_not_mem]
        intro r hr
        rcases isUnknown_or_isBlocked r with hk | hk
        · exact hunknown (List.any_eq_true.mpr ⟨r, hr, hk⟩)
        · exact hblocked (List.any_eq_true.mpr ⟨r, hr, hk⟩)
  · rintro rfl
    rfl

theorem enforcement_pass {status : QualityGateStatus} {mode : QualityGateMode} :
    enforcementFor status mode = .PASS ↔ status = .PASS := by
  cases status <;> cases mode <;> decide

variable {policy : Policy}

/-- The gate passes when nothing is found. -/
theorem qualityGate_pass {found : List (Bool × GateReason × List RequiredAction)} :
    (qualityGate policy found).status = .PASS ↔ ∀ f ∈ found, f.1 = false := by
  unfold qualityGate
  simp only [gateStatus_pass, List.map_eq_nil_iff, List.filter_eq_nil_iff, Bool.not_eq_true]

theorem findings_none {changeSet : Option Json} {unresolved : List String}
    {tests : List SelectedTest} {features : List FeatureAssessment} :
    (∀ f ∈ findings changeSet policy unresolved tests features, f.1 = false) ↔
      strictEq (field changeSet "complete") (some (.bool true)) = true ∧
      lengthPositive (field changeSet "warnings") = false ∧
      unresolved = [] ∧
      (∀ t ∈ tests, t.approved = true) ∧
      (∀ id ∈ policy.highRiskFeatureIds, ∃ t ∈ tests,
        strictEq t.featureId (some (.str id)) = true) ∧
      ∀ f ∈ features, f.available = true ∧ f.chainComplete = true := by
  unfold findings
  simp only [List.forall_mem_cons, List.not_mem_nil, false_implies, implies_true, and_true,
    Bool.not_eq_false', List.any_eq_false, List.any_eq_true, List.isEmpty_iff, Bool.not_eq_true,
    Bool.and_eq_false_iff]
  constructor
  · rintro ⟨h1, h2, h3, h4, h5, h6, h7⟩
    refine ⟨h1, h2, h3, h4, h5, ?_⟩
    intro f hf
    have h := h7 f hf
    rw [h6 f hf] at h
    exact ⟨h6 f hf, by simpa using h⟩
  · rintro ⟨h1, h2, h3, h4, h5, h6⟩
    exact ⟨h1, h2, h3, h4, h5, fun f hf => (h6 f hf).1, fun f hf => Or.inr (by simp [(h6 f hf).2])⟩

/-! ## What the parts of an accepted input are -/

variable {v : Option Json}

theorem mem_distinct {values : List (Option Json)} : v ∈ distinct values ↔ v ∈ values := by
  have hfold : ∀ seen : List (Option Json),
      v ∈ values.foldl (fun seen v => if seen.any (strictEq v) then seen else seen ++ [v]) seen ↔
        v ∈ seen ∨ v ∈ values := by
    induction values with
    | nil => simp
    | cons w values ih =>
      intro seen
      rw [List.foldl_cons, ih, List.mem_cons]
      split
      · rename_i hany
        obtain ⟨x, hx, hwx⟩ := List.any_eq_true.mp hany
        rw [eq_of_strictEq hwx]
        constructor
        · rintro (h | h)
          · exact Or.inl h
          · exact Or.inr (Or.inr h)
        · rintro (h | rfl | h)
          · exact Or.inl h
          · exact Or.inl hx
          · exact Or.inr h
      · simp [or_assoc]
  unfold distinct
  rw [hfold]
  simp

theorem stringArray_ok {name : String} {ids : List String}
    (h : stringArray v name = .ok ids) (id : String) :
    id ∈ ids ↔ id ∈ ((itemsOf v).filterMap namedText?).map trim := by
  unfold stringArray typeError at h
  split at h
  · cases h
    simp [itemsOf]
  · cases h
    simp [itemsOf]
  · split at h
    · cases h
    · cases h
      rw [mem_sortTexts, List.mem_eraseDups]
      rfl
  · cases h

theorem normalizePolicy_ok {input : Json}
    (h : normalizePolicy (field (some input) "policy") = .ok policy) :
    (∀ id, id ∈ policy.highRiskFeatureIds ↔ id ∈ policyIds input "highRiskFeatureIds") ∧
    ∀ id, id ∈ policy.fixedHighRiskTestSpecIds ↔
      id ∈ policyIds input "fixedHighRiskTestSpecIds" := by
  unfold normalizePolicy at h
  split at h
  · rename_i fields hfields
    obtain ⟨mode, _, h⟩ := bind_ok h
    obtain ⟨highRisk, hhigh, h⟩ := bind_ok h
    obtain ⟨fixed, hfixed, h⟩ := bind_ok h
    obtain ⟨conservative, _, h⟩ := bind_ok h
    cases h
    have hlookup : ∀ name, fields.lookup name = path input ["policy", name] := by
      intro name
      change _ = field (field (some input) "policy") name
      cases hp : field (some input) "policy" with
      | none =>
        rw [hp, Option.getD_none, Json.obj.injEq] at hfields
        rw [← hfields]
        rfl
      | some p =>
        rw [hp, Option.getD_some] at hfields
        rw [hfields]
        rfl
    refine ⟨?_, ?_⟩
    · intro id
      unfold policyIds
      rw [stringArray_ok hhigh, hlookup]
    · intro id
      unfold policyIds
      rw [stringArray_ok hfixed, hlookup]
  · cases h

variable {items : List Json}

theorem arrayOf_ok {message : String} (h : arrayOf v message = .ok items) : items = itemsOf v := by
  unfold arrayOf nullish typeError at h
  split at h
  · rename_i hitems
    split at hitems
    · cases hitems
      cases h
      rfl
    · cases hitems
      cases h
      rfl
    · cases h
      rw [hitems]
      rfl
  · cases h

theorem iterate_ok {text : String} (h : iterate v text = .ok items) : spread v = items := by
  unfold iterate typeError at h
  split at h
  · rename_i hspread
    cases h
    unfold spread
    rw [hspread]
    rfl
  · cases h

/-- What is spread is empty when its length is not positive. -/
theorem spread_nil {text : String}
    (h : iterate v text = .ok items) : lengthPositive v = false ↔ spread v = [] := by
  unfold iterate typeError at h
  unfold lengthPositive spread
  split at h
  · unfold spread? at *
    split
    · simp
    · simp
    · rename_i hitems _ hnot hstr
      split at hitems <;> grind
  · cases h

theorem testSpecEntries_ok {entries : List (Option Json × Json)}
    (h : items.mapM testSpecEntry = .ok entries) :
    entries = items.map fun t => (field (some t) "id", t) := by
  have hid := mapM_ok_map (g := id) (k := fun t => (field (some t) "id", t)) h (by
    intro t e he
    unfold testSpecEntry typeError at he
    split at he
    · cases he
    · cases he
      rfl)
  simpa using hid

/-! ## The selection -/

variable {selection selection' : Selection} {reason : SelectionReason}

theorem select_ok {id : Json} (h : select reason selection id = .ok selection') :
    ∃ text, id = .str text ∧ ∀ k, (∃ e ∈ selection', e.1 = k) ↔ k = text ∨ ∃ e ∈ selection, e.1 = k := by
  unfold select at h
  obtain ⟨text, htext, h⟩ := bind_ok h
  cases h
  have hid := (requireNonEmptyString_ok htext).1
  rw [Option.some.injEq] at hid
  exact ⟨text, hid, fun k => OrderedMap.key_mem_set _ _ _ _⟩

theorem selectAll_ok {ids : List Json}
    (h : ids.foldlM (select reason) selection = .ok selection') (k : String) :
    (∃ e ∈ selection', e.1 = k) ↔ (∃ e ∈ selection, e.1 = k) ∨ .str k ∈ ids := by
  induction ids generalizing selection with
  | nil =>
    cases h
    simp
  | cons id ids ih =>
    rw [List.foldlM_cons] at h
    obtain ⟨next, hnext, hrest⟩ := bind_ok h
    obtain ⟨text, htext, hkeys⟩ := select_ok hnext
    rw [ih hrest, hkeys, htext, List.mem_cons, Json.str.injEq]
    constructor
    · rintro ((h | h) | h)
      · exact Or.inr (Or.inl h)
      · exact Or.inl h
      · exact Or.inr (Or.inr h)
    · rintro (h | h | h)
      · exact Or.inl (Or.inr h)
      · exact Or.inl (Or.inl h)
      · exact Or.inr h

/-- All the ids that are selected are strings. -/
theorem selectAll_texts {ids : List Json}
    (h : ids.foldlM (select reason) selection = .ok selection')
    {id : Json} (hid : id ∈ ids) : ∃ text, id = .str text := by
  induction ids generalizing selection with
  | nil => cases hid
  | cons i ids ih =>
    rw [List.foldlM_cons] at h
    obtain ⟨next, hnext, h⟩ := bind_ok h
    rcases List.mem_cons.mp hid with rfl | hid
    · obtain ⟨text, htext, _⟩ := select_ok hnext
      exact ⟨text, htext⟩
    · exact ih h hid

/-- For a complete change set without warnings, the affected ids and the fixed set are
selected. -/
theorem reasonsByTest_ok {changeSet impact : Option Json}
    (h : reasonsByTest changeSet impact policy = .ok selection)
    (hcomplete : strictEq (field changeSet "complete") (some (.bool true)) = true)
    (hwarnings : lengthPositive (field changeSet "warnings") = false) :
    (∀ k, (∃ e ∈ selection, e.1 = k) ↔ .str k ∈ spread (field impact "affectedTestSpecIds") ∨
      k ∈ policy.fixedHighRiskTestSpecIds) ∧
    ∀ id ∈ spread (field impact "affectedTestSpecIds"), ∃ text, id = .str text := by
  unfold reasonsByTest at h
  obtain ⟨affected, haffected, h⟩ := bind_ok h
  obtain ⟨mapped, hmapped, h⟩ := bind_ok h
  obtain ⟨fixed, hfixed, h⟩ := bind_ok h
  rw [hcomplete, hwarnings] at h
  cases h
  rw [iterate_ok haffected]
  refine ⟨?_, fun id hid => selectAll_texts hmapped hid⟩
  intro k
  rw [selectAll_ok hfixed, selectAll_ok hmapped]
  simp

theorem mem_selectedTests {localeCompare : String → String → Ordering}
    {testSpecsById : List (Option Json × Json)} {test : SelectedTest} :
    test ∈ selectedTests localeCompare testSpecsById selection ↔
      ∃ e ∈ selection, ∃ t, lastEntry testSpecsById (some (.str e.1)) = some t ∧
        selectedTest e.1 t e.2 = test := by
  unfold selectedTests
  rw [List.mem_insertionSort, List.mem_filterMap]
  simp only [Option.map_eq_some_iff, Prod.exists]

/-! ## Features -/

theorem everyComplete_ok {chains : List Json} {b : Bool} (h : everyComplete chains = .ok b) :
    b = true ↔ ∀ c ∈ chains, field (some c) "complete" = some (.bool true) := by
  induction chains with
  | nil =>
    cases h
    simp
  | cons c chains ih =>
    unfold everyComplete typeError at h
    split at h
    · rename_i heq
      cases heq
    · cases h
    · rename_i heq
      cases heq
      rw [List.forall_mem_cons]
      split at h
      · rename_i hc
        rw [ih h]
        simp [eq_of_strictEq hc]
      · rename_i hc
        cases h
        have hne : field (some c) "complete" ≠ some (.bool true) := by
          intro heq
          rw [heq] at hc
          exact hc rfl
        simp [hne]

theorem traceabilityComplete_ok {t : Json} (ht : truthy (some t) = true) {b : Bool}
    (h : traceabilityComplete (some t) = .ok b) : b = true ↔ IsTraced t := by
  unfold traceabilityComplete typeError at h
  rw [ht, Bool.true_and] at h
  split at h
  · rename_i hpositive
    split at h
    · rename_i chains hchains
      obtain ⟨complete, hcomplete, h⟩ := bind_ok h
      cases h
      rw [Bool.and_eq_true, everyComplete_ok hcomplete]
      constructor
      · rintro ⟨hall, hgaps⟩
        refine ⟨⟨chains, hchains, ?_, hall⟩, hgaps⟩
        rintro rfl
        rw [hchains] at hpositive
        cases hpositive
      · rintro ⟨⟨chains', hchains', _, hall⟩, hgaps⟩
        rw [hchains] at hchains'
        cases hchains'
        exact ⟨hall, hgaps⟩
    · cases h
  · rename_i hpositive
    cases h
    constructor
    · intro h
      cases h
    · rintro ⟨⟨chains, hchains, hne, _⟩, _⟩
      rw [hchains] at hpositive
      cases chains with
      | nil => exact absurd rfl hne
      | cons c cs => exact absurd rfl hpositive

theorem assessFeature_ok {entries : List (Option Json × Json)}
    (htruthy : ∀ e ∈ entries, truthy (some e.2) = true) {f : Option Json}
    {feature : FeatureAssessment} (h : assessFeature entries policy f = .ok feature) :
    (feature.available = true ∧ feature.chainComplete = true) ↔
      ∃ t, lastEntry entries f = some t ∧ IsTraced t := by
  unfold assessFeature at h
  obtain ⟨chainComplete, hcomplete, h⟩ := bind_ok h
  cases h
  cases hentry : lastEntry entries f with
  | none => simp
  | some t =>
    rw [hentry] at hcomplete
    have ht : truthy (some t) = true := by
      unfold lastEntry at hentry
      obtain ⟨e, he, rfl⟩ := Option.map_eq_some_iff.mp hentry
      exact htruthy e (List.mem_reverse.mp (List.mem_of_find?_eq_some he))
    simp [traceabilityComplete_ok ht hcomplete]

/-! ## An accepted input -/

theorem objectOf_ok {message : String} {o : Json}
    (h : objectOf v message = .ok o) : v = some o := by
  unfold objectOf typeError at h
  split at h
  · cases h
    rfl
  · cases h

/-- The traceabilities as the code looks them up. -/
def traceabilityEntries (input : Json) : List (Option Json × Json) :=
  ((itemsOf (field input "traceabilities")).filter fun t => truthy (some t)).map traceabilityEntry

/-- The test specifications as the code looks them up. -/
def testSpecEntries (input : Json) : List (Option Json × Json) :=
  (itemsOf (field input "testSpecs")).map fun t => (field (some t) "id", t)

/-- The feature ids that the code assesses. -/
def assessedIds (input : Json) (policy : Policy) (tests : List SelectedTest) : List (Option Json) :=
  (distinct ((spread (impactField input "affectedFeatureIds")).map some ++
    tests.map (·.featureId) ++ policy.highRiskFeatureIds.map fun id => some (.str id))).insertionSort
      fun a b => textLe a b = true

/-- How the gate of an accepted input came about. -/
structure GateOf (localeCompare : String → String → Ordering) (input : Json) (gate : QualityGate)
    (policy : Policy) (selection : Selection) (features : List FeatureAssessment) : Prop where
  policyOk : normalizePolicy (field input "policy") = .ok policy
  selectionOk : reasonsByTest (field (field input "changeImpact") "changeSet")
    (field (field input "changeImpact") "impact") policy = .ok selection
  featuresOk : (assessedIds input policy (selectedTests localeCompare (testSpecEntries input)
    selection)).mapM (assessFeature (traceabilityEntries input) policy) = .ok features
  warningsOk : ∃ ws, iterate (changeSetField input "warnings") "changeSet.warnings" = .ok ws
  gateEq : gate = qualityGate policy (findings (field (field input "changeImpact") "changeSet") policy
    (sortTexts ((selection.map (·.1)).filter fun id =>
      (lastEntry (testSpecEntries input) (some (.str id))).isNone))
    (selectedTests localeCompare (testSpecEntries input) selection) features)

section Accepted

variable {sha256 : String → String} {localeCompare : String → String → Ordering}
  {dateParse : String → Option Int} {clock : Instant} {input : Json} {a : Assessment}

theorem create_ok
    (h : createContinuousProtectionAssessment sha256 localeCompare dateParse clock (some input) =
      .ok a) :
    ∃ policy selection features,
      GateOf localeCompare input a.qualityGate policy selection features := by
  unfold createContinuousProtectionAssessment at h
  obtain ⟨object, hobject, h⟩ := bind_ok h
  have hinput := objectOf_ok hobject
  cases hinput
  obtain ⟨changeImpact, hchange, h⟩ := bind_ok h
  have hchange := objectOf_ok hchange
  obtain ⟨changeSetId, _, h⟩ := bind_ok h
  obtain ⟨snapshotManifestId, _, h⟩ := bind_ok h
  obtain ⟨testSpecs, hspecs, h⟩ := bind_ok h
  obtain ⟨traceabilities, htraces, h⟩ := bind_ok h
  obtain ⟨policy, hpolicy, h⟩ := bind_ok h
  obtain ⟨entries, hentries, h⟩ := bind_ok h
  obtain ⟨selection, hselection, h⟩ := bind_ok h
  obtain ⟨affectedFeatureIds, haffected, h⟩ := bind_ok h
  obtain ⟨features, hfeatures, h⟩ := bind_ok h
  obtain ⟨_, _, h⟩ := bind_ok h
  obtain ⟨projectId, _, h⟩ := bind_ok h
  obtain ⟨warnings, hwarnings, h⟩ := bind_ok h
  cases h
  rw [arrayOf_ok hspecs] at hentries
  rw [testSpecEntries_ok hentries] at hfeatures ⊢
  rw [arrayOf_ok htraces, ← iterate_ok haffected] at hfeatures
  have hset : changeSetField input "warnings" = field (field changeImpact "changeSet") "warnings" := by
    change field (field (field (some input) "changeImpact") "changeSet") "warnings" = _
    rw [hchange]
  have himpact : impactField input "affectedFeatureIds" =
      field (field changeImpact "impact") "affectedFeatureIds" := by
    change field (field (field (some input) "changeImpact") "impact") "affectedFeatureIds" = _
    rw [hchange]
  rw [← himpact] at hfeatures
  refine ⟨policy, selection, features, hpolicy, ?_, hfeatures, ⟨warnings, ?_⟩, ?_⟩
  · rw [hchange]
    exact hselection
  · rw [hset]
    exact hwarnings
  · rw [hchange]
    rfl

end Accepted

section Gate

variable {localeCompare : String → String → Ordering} {input : Json} {gate : QualityGate}
  {policy : Policy} {selection : Selection} {features : List FeatureAssessment}

theorem changeSetField_eq (input : Json) (name : String) :
    changeSetField input name = field (field (field input "changeImpact") "changeSet") name := rfl

/-- The feature assessments are all good when every assessed feature is traced. -/
theorem features_good (hg : GateOf localeCompare input gate policy selection features) :
    (∀ f ∈ features, f.available = true ∧ f.chainComplete = true) ↔
      ∀ f ∈ assessedIds input policy (selectedTests localeCompare (testSpecEntries input) selection),
        ∃ t, traceabilityOf input f = some t ∧ IsTraced t := by
  have htruthy : ∀ e ∈ traceabilityEntries input, truthy (some e.2) = true := by
    intro e he
    obtain ⟨t, ht, rfl⟩ := List.mem_map.mp he
    exact (List.mem_filter.mp ht).2
  have hall := mapM_ok hg.featuresOk
  constructor
  · intro h f hf
    obtain ⟨feature, hfeature, hassess⟩ := exists_of_mem hall hf
    exact (assessFeature_ok htruthy hassess).mp (h feature hfeature)
  · intro h feature hfeature
    obtain ⟨f, hf, hassess⟩ := exists_source hall hfeature
    exact (assessFeature_ok htruthy hassess).mpr (h f hf)

/-- The selected tests are the selected test specifications. -/
theorem exists_selectedTest (p : SelectedTest → Prop) :
    (∃ test ∈ selectedTests localeCompare (testSpecEntries input) selection, p test) ↔
      ∃ e ∈ selection, ∃ t, resolve input (.str e.1) = some t ∧ p (selectedTest e.1 t e.2) := by
  constructor
  · rintro ⟨test, htest, hp⟩
    obtain ⟨e, he, t, ht, rfl⟩ := mem_selectedTests.mp htest
    exact ⟨e, he, t, ht, hp⟩
  · rintro ⟨e, he, t, ht, hp⟩
    exact ⟨_, mem_selectedTests.mpr ⟨e, he, t, ht, rfl⟩, hp⟩

section Complete

variable (hg : GateOf localeCompare input gate policy selection features)
  (hcomplete : strictEq (changeSetField input "complete") (some (.bool true)) = true)
  (hwarnings : lengthPositive (changeSetField input "warnings") = false)
include hg hcomplete hwarnings

/-- The keys of the selection are the affected ids and the fixed high-risk set. -/
theorem selected_keys (k : String) :
    (∃ e ∈ selection, e.1 = k) ↔ .str k ∈ spread (impactField input "affectedTestSpecIds") ∨
      k ∈ policyIds input "fixedHighRiskTestSpecIds" := by
  rw [(reasonsByTest_ok hg.selectionOk hcomplete hwarnings).1, (normalizePolicy_ok hg.policyOk).2]
  rfl

theorem isSelected_iff (t : Json) :
    IsSelected input t ↔ ∃ e ∈ selection, resolve input (.str e.1) = some t := by
  constructor
  · rintro ⟨id, hid | ⟨text, htext, rfl⟩, ht⟩
    · obtain ⟨text, rfl⟩ := (reasonsByTest_ok hg.selectionOk hcomplete hwarnings).2 id hid
      obtain ⟨e, he, rfl⟩ := (selected_keys hg hcomplete hwarnings text).mpr (Or.inl hid)
      exact ⟨e, he, ht⟩
    · obtain ⟨e, he, rfl⟩ := (selected_keys hg hcomplete hwarnings text).mpr (Or.inr htext)
      exact ⟨e, he, ht⟩
  · rintro ⟨e, he, ht⟩
    rcases (selected_keys hg hcomplete hwarnings e.1).mp ⟨e, he, rfl⟩ with hid | htext
    · exact ⟨_, Or.inl hid, ht⟩
    · exact ⟨_, Or.inr ⟨_, htext, rfl⟩, ht⟩

/-- Nothing is unresolved and nothing unapproved when every id leads to an approved test
specification. -/
theorem resolved_iff :
    (sortTexts ((selection.map (·.1)).filter fun id =>
        (lastEntry (testSpecEntries input) (some (.str id))).isNone) = [] ∧
      ∀ test ∈ selectedTests localeCompare (testSpecEntries input) selection,
        test.approved = true) ↔
    (∀ id ∈ spread (impactField input "affectedTestSpecIds"), ResolvesToApproved input id) ∧
      ∀ text ∈ policyIds input "fixedHighRiskTestSpecIds", ResolvesToApproved input (.str text) := by
  have hresolved : sortTexts ((selection.map (·.1)).filter fun id =>
      (lastEntry (testSpecEntries input) (some (.str id))).isNone) = [] ↔
      ∀ e ∈ selection, ∃ t, resolve input (.str e.1) = some t := by
    rw [List.eq_nil_iff_forall_not_mem]
    constructor
    · intro h e he
      rw [← Option.isSome_iff_exists]
      by_contra hnone
      rw [Bool.not_eq_true, Option.isSome_eq_false_iff] at hnone
      exact h e.1 (mem_sortTexts.mpr (List.mem_filter.mpr ⟨List.mem_map_of_mem he, hnone⟩))
    · intro h id hid
      obtain ⟨hmem, hnone⟩ := List.mem_filter.mp (mem_sortTexts.mp hid)
      obtain ⟨e, he, rfl⟩ := List.mem_map.mp hmem
      obtain ⟨t, ht⟩ := h e he
      unfold resolve at ht
      unfold testSpecEntries at hnone
      rw [ht] at hnone
      cases hnone
  rw [hresolved]
  constructor
  · rintro ⟨hsome, happroved⟩
    have hkey : ∀ e ∈ selection, ResolvesToApproved input (.str e.1) := by
      intro e he
      obtain ⟨t, ht⟩ := hsome e he
      refine ⟨t, ht, ?_⟩
      exact eq_of_strictEq (happroved _ (mem_selectedTests.mpr ⟨e, he, t, ht, rfl⟩))
    refine ⟨?_, ?_⟩
    · intro id hid
      obtain ⟨text, rfl⟩ := (reasonsByTest_ok hg.selectionOk hcomplete hwarnings).2 id hid
      obtain ⟨e, he, rfl⟩ := (selected_keys hg hcomplete hwarnings text).mpr (Or.inl hid)
      exact hkey e he
    · intro text htext
      obtain ⟨e, he, rfl⟩ := (selected_keys hg hcomplete hwarnings text).mpr (Or.inr htext)
      exact hkey e he
  · rintro ⟨haffected, hfixed⟩
    have hkey : ∀ e ∈ selection, ResolvesToApproved input (.str e.1) := by
      intro e he
      rcases (selected_keys hg hcomplete hwarnings e.1).mp ⟨e, he, rfl⟩ with hid | htext
      · exact haffected _ hid
      · exact hfixed _ htext
    refine ⟨?_, ?_⟩
    · intro e he
      obtain ⟨t, ht, _⟩ := hkey e he
      exact ⟨t, ht⟩
    · intro test htest
      obtain ⟨e, he, t, ht, rfl⟩ := mem_selectedTests.mp htest
      obtain ⟨t', ht', happroved⟩ := hkey e he
      unfold resolve at ht'
      unfold testSpecEntries at ht
      rw [ht] at ht'
      cases ht'
      unfold selectedTest
      dsimp only
      rw [happroved]
      rfl

theorem highRisk_iff :
    (∀ id ∈ policy.highRiskFeatureIds,
      ∃ test ∈ selectedTests localeCompare (testSpecEntries input) selection,
        strictEq test.featureId (some (.str id)) = true) ↔
    ∀ text ∈ policyIds input "highRiskFeatureIds",
      ∃ t, IsSelected input t ∧ field (some t) "featureId" = some (.str text) := by
  have hone : ∀ id, (∃ test ∈ selectedTests localeCompare (testSpecEntries input) selection,
      strictEq test.featureId (some (.str id)) = true) ↔
      ∃ t, IsSelected input t ∧ field (some t) "featureId" = some (.str id) := by
    intro id
    rw [exists_selectedTest]
    constructor
    · rintro ⟨e, he, t, ht, heq⟩
      exact ⟨t, (isSelected_iff hg hcomplete hwarnings t).mpr ⟨e, he, ht⟩, eq_of_strictEq heq⟩
    · rintro ⟨t, hselected, heq⟩
      obtain ⟨e, he, ht⟩ := (isSelected_iff hg hcomplete hwarnings t).mp hselected
      exact ⟨e, he, t, ht, (strictEq_str _ _).mpr heq⟩
  constructor
  · intro h text htext
    exact (hone text).mp (h text (((normalizePolicy_ok hg.policyOk).1 text).mpr htext))
  · intro h id hid
    exact (hone id).mpr (h id (((normalizePolicy_ok hg.policyOk).1 id).mp hid))

theorem mem_assessedIds (f : Option Json) :
    f ∈ assessedIds input policy (selectedTests localeCompare (testSpecEntries input) selection) ↔
      IsConcerned input f := by
  unfold assessedIds
  rw [List.mem_insertionSort, mem_distinct, List.mem_append, List.mem_append]
  constructor
  · rintro ((h | h) | h)
    · obtain ⟨v, hv, rfl⟩ := List.mem_map.mp h
      exact .affected hv
    · obtain ⟨test, htest, rfl⟩ := List.mem_map.mp h
      obtain ⟨e, he, t, ht, rfl⟩ := mem_selectedTests.mp htest
      exact .selected ((isSelected_iff hg hcomplete hwarnings t).mpr ⟨e, he, ht⟩)
    · obtain ⟨id, hid, rfl⟩ := List.mem_map.mp h
      exact .highRisk (((normalizePolicy_ok hg.policyOk).1 id).mp hid)
  · intro h
    cases h with
    | affected h => exact Or.inl (Or.inl (List.mem_map_of_mem h))
    | selected h =>
      obtain ⟨e, he, ht⟩ := (isSelected_iff hg hcomplete hwarnings _).mp h
      exact Or.inl (Or.inr (List.mem_map.mpr ⟨_, mem_selectedTests.mpr ⟨e, he, _, ht, rfl⟩, rfl⟩))
    | highRisk h =>
      exact Or.inr (List.mem_map.mpr ⟨_, ((normalizePolicy_ok hg.policyOk).1 _).mpr h, rfl⟩)

end Complete

theorem gate_pass_iff (hg : GateOf localeCompare input gate policy selection features) :
    gate.status = .PASS ↔ Justified input := by
  rw [hg.gateEq, qualityGate_pass, findings_none, ← changeSetField_eq, ← changeSetField_eq]
  obtain ⟨ws, hws⟩ := hg.warningsOk
  constructor
  · rintro ⟨hcomplete, hwarnings, hunresolved, happroved, hhigh, hfeatures⟩
    have hresolved := (resolved_iff hg hcomplete hwarnings).mp ⟨hunresolved, happroved⟩
    refine ⟨eq_of_strictEq hcomplete, (spread_nil hws).mp hwarnings, hresolved.1, hresolved.2,
      (highRisk_iff hg hcomplete hwarnings).mp hhigh, ?_⟩
    intro f hf
    exact (features_good hg).mp hfeatures f ((mem_assessedIds hg hcomplete hwarnings f).mpr hf)
  · intro h
    have hcomplete : strictEq (changeSetField input "complete") (some (.bool true)) = true := by
      rw [h.complete]
      rfl
    have hwarnings := (spread_nil hws).mpr h.warnings
    have hresolved := (resolved_iff hg hcomplete hwarnings).mpr ⟨h.affected, h.fixed⟩
    refine ⟨hcomplete, hwarnings, hresolved.1, hresolved.2,
      (highRisk_iff hg hcomplete hwarnings).mpr h.highRisk, (features_good hg).mpr ?_⟩
    intro f hf
    exact h.traced f ((mem_assessedIds hg hcomplete hwarnings f).mp hf)

end Gate

/-- The gate of an accepted input passes exactly when it is justified, and otherwise the
enforcement passes in no mode. -/
theorem passing_gate_is_justified {sha256 : String → String}
    {localeCompare : String → String → Ordering} {dateParse : String → Option Int}
    {clock : Instant} {input : Json} {a : Assessment}
    (h : createContinuousProtectionAssessment sha256 localeCompare dateParse clock (some input) =
      .ok a) :
    (a.qualityGate.status = .PASS ↔ Justified input) ∧
      (¬ Justified input → a.qualityGate.enforcement ≠ .PASS) := by
  obtain ⟨policy, selection, features, hg⟩ := create_ok h
  have hpass := gate_pass_iff hg
  refine ⟨hpass, ?_⟩
  intro hnot henforced
  rw [hg.gateEq] at henforced hpass
  exact hnot (hpass.mp (enforcement_pass.mp henforced))

/-! ## A change that passes -/

def assessedAt : Instant := { time := 1784073600000, iso := "2026-07-15T00:00:00.000Z" }

def assessedParse (text : String) : Option Int :=
  if text = assessedAt.iso then some assessedAt.time else none

def approvedTest (id featureId : String) : Json :=
  .obj [("id", .str id), ("featureId", .str featureId), ("approved", .bool true)]

def completeTraceability (featureId : String) : Json :=
  .obj [("feature", .obj [("id", .str featureId)]),
    ("traceChains", .arr [.obj [("complete", .bool true)]]), ("gaps", .arr [])]

/-- One affected test, and a high-risk feature with its smoke test. -/
def smokeInput : Json :=
  .obj [("projectId", .str "P"),
    ("changeImpact", .obj [
      ("changeSet", .obj [("id", .str "CS"), ("complete", .bool true), ("warnings", .arr [])]),
      ("impact", .obj [("toSnapshotManifestId", .str "SM"),
        ("affectedFeatureIds", .arr [.str "F1"]), ("affectedTestSpecIds", .arr [.str "T1"])])]),
    ("testSpecs", .arr [approvedTest "T1" "F1", approvedTest "SMOKE" "HIGH"]),
    ("traceabilities", .arr [completeTraceability "F1", completeTraceability "HIGH"]),
    ("policy", .obj [("mode", .str "ENFORCED"), ("highRiskFeatureIds", .arr [.str "HIGH"]),
      ("fixedHighRiskTestSpecIds", .arr [.str " SMOKE "])])]

def unitOrder (a b : String) : Ordering := compare (codeUnits a) (codeUnits b)

theorem smoke_tested_change_is_justified :
    (createContinuousProtectionAssessment id unitOrder assessedParse assessedAt
      (some smokeInput)).toOption.map (·.qualityGate.status) = some .PASS ∧
    Justified smokeInput := by
  have hstatus : (createContinuousProtectionAssessment id unitOrder assessedParse assessedAt
      (some smokeInput)).toOption.map (·.qualityGate.status) = some .PASS := by decide +kernel
  refine ⟨hstatus, ?_⟩
  cases hcreate : createContinuousProtectionAssessment id unitOrder assessedParse assessedAt
      (some smokeInput) with
  | error e =>
    rw [hcreate] at hstatus
    cases hstatus
  | ok a =>
    rw [hcreate] at hstatus
    exact (passing_gate_is_justified hcreate).1.mp (Option.some.inj hstatus)

end Traqen.ContinuousProtection
