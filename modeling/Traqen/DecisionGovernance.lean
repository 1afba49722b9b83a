-- Governed Decisions (`domain/decision-governance.js`, and `createDecision` of
-- `domain/governance.js`): the case, its review events, and the evaluation of the
-- events since the last REOPEN.
import Traqen.CanonicalJson
import Traqen.Model

open Js

namespace Traqen

/-! ## Records -/

inductive DecisionType where
  | CONFIRMED
  | REJECTED
  | EXCEPTION_RECORDED
  | INSUFFICIENT_EVIDENCE
  | DEFERRED
  | DEPRECATED
deriving DecidableEq, Repr

instance : EnumValues DecisionType where
  names := ["CONFIRMED", "REJECTED", "EXCEPTION_RECORDED", "INSUFFICIENT_EVIDENCE", "DEFERRED",
    "DEPRECATED"]
  name
    | .CONFIRMED => "CONFIRMED"
    | .REJECTED => "REJECTED"
    | .EXCEPTION_RECORDED => "EXCEPTION_RECORDED"
    | .INSUFFICIENT_EVIDENCE => "INSUFFICIENT_EVIDENCE"
    | .DEFERRED => "DEFERRED"
    | .DEPRECATED => "DEPRECATED"

inductive DecisionApprovalMode where
  | SINGLE
  | DUAL
  | BUSINESS_COMPLIANCE
  | BREAK_GLASS
deriving DecidableEq, Repr

instance : EnumValues DecisionApprovalMode where
  names := ["SINGLE", "DUAL", "BUSINESS_COMPLIANCE", "BREAK_GLASS"]
  name
    | .SINGLE => "SINGLE"
    | .DUAL => "DUAL"
    | .BUSINESS_COMPLIANCE => "BUSINESS_COMPLIANCE"
    | .BREAK_GLASS => "BREAK_GLASS"

inductive DecisionReviewAction where
  | APPROVE
  | REJECT
  | REVOKE
  | DISPUTE
  | REOPEN
  | POST_REVIEW
deriving DecidableEq, Repr

instance : EnumValues DecisionReviewAction where
  names := ["APPROVE", "REJECT", "REVOKE", "DISPUTE", "REOPEN", "POST_REVIEW"]
  name
    | .APPROVE => "APPROVE"
    | .REJECT => "REJECT"
    | .REVOKE => "REVOKE"
    | .DISPUTE => "DISPUTE"
    | .REOPEN => "REOPEN"
    | .POST_REVIEW => "POST_REVIEW"

structure DecisionReviewEvent where
  id : String
  caseId : String
  action : Json
  actorId : String
  actorRole : String
  rationale : String
  createdAt : String
deriving DecidableEq

def DecisionReviewEvent.toJson (e : DecisionReviewEvent) : Json :=
  .obj [("id", .str e.id), ("caseId", .str e.caseId), ("action", e.action),
    ("actorId", .str e.actorId), ("actorRole", .str e.actorRole),
    ("rationale", .str e.rationale), ("createdAt", .str e.createdAt)]

/-- An array action that `assertEnum` lets through is none of the actions. -/
def DecisionReviewEvent.is (e : DecisionReviewEvent) (action : DecisionReviewAction) : Bool :=
  decide (e.action = enumJson action)

structure Decision where
  id : String
  claimId : String
  claimVersion : Number
  scopeId : String
  scopeVersion : Number
  type : Json
  content : Option String
  actorId : String
  actorRole : String
  evidenceRefs : List String
  validUntil : Option String
  createdAt : String
deriving DecidableEq

def orNull (s : Option String) : Json := (s.map Json.str).getD .null

/-- `recordIdentity`: the stored record without its creation time. -/
def Decision.recordIdentity (d : Decision) : Json :=
  .obj [("id", .str d.id), ("claimId", .str d.claimId), ("claimVersion", .num d.claimVersion),
    ("scopeId", .str d.scopeId), ("scopeVersion", .num d.scopeVersion), ("type", d.type),
    ("content", orNull d.content), ("actorId", .str d.actorId), ("actorRole", .str d.actorRole),
    ("evidenceRefs", .arr (d.evidenceRefs.map .str)), ("validUntil", orNull d.validUntil)]

structure ProposedDecision where
  id : String
  type : Json
  content : Option String
  evidenceRefs : List String
  validUntil : Option String

structure DecisionReviewCase where
  id : String
  claimId : String
  claimVersion : Number
  scopeId : String
  scopeVersion : Number
  approvalMode : Json
  proposedDecision : ProposedDecision
  postReviewDueAt : Option String
  proposerId : String
  expiresAt : String

/-! ## Creation -/

section Creation

variable (dateParse : String → Option Int)

def optionalString (value : Option Json) (fieldName : String) : Except Failure (Option String) :=
  match value with
  | none | some .null => .ok none
  | v => (requireNonEmptyString v fieldName).map some

def createDecisionReviewEvent (input : Json) (caseId actorId actorRole : String) (now : Instant) :
    Except Failure DecisionReviewEvent := do
  let id ← requireNonEmptyString (field input "id") "decisionReviewEvent.id"
  let caseId ← requireNonEmptyString (some (.str caseId)) "decisionReviewEvent.caseId"
  let action ← assertEnum DecisionReviewAction (field input "action") "decisionReviewEvent.action"
  let actorId ← requireNonEmptyString (some (.str actorId)) "decisionReviewEvent.actorId"
  let actorRole ← requireNonEmptyString (some (.str actorRole)) "decisionReviewEvent.actorRole"
  let rationale ← requireNonEmptyString (field input "rationale") "decisionReviewEvent.rationale"
  return { id, caseId, action, actorId, actorRole, rationale, createdAt := now.iso }

/-- The checks of `createDecision`, on a record whose parts the application put together. -/
def createDecision (d : Decision) : Except Failure Decision := do
  let validUntil ← optionalString (some (orNull d.validUntil)) "decision.validUntil"
  let _ ← validUntil.mapM fun s => requireIsoTimestamp dateParse (some (.str s)) "decision.validUntil"
  let evidenceRefs ← d.evidenceRefs.zipIdx.mapM fun (item, index) =>
    requireNonEmptyString (some (.str item)) ("decision.evidenceRefs[" ++ toString index ++ "]")
  let type ← assertEnum DecisionType (some d.type) "decision.type"
  let content ← optionalString (some (orNull d.content)) "decision.content"
  if type = enumJson DecisionType.EXCEPTION_RECORDED && content.isNone then
    typeError "decision.content is required for EXCEPTION_RECORDED"
  else
    let id ← requireNonEmptyString (some (.str d.id)) "decision.id"
    let claimId ← requireNonEmptyString (some (.str d.claimId)) "decision.claimId"
    let claimVersion ← requirePositiveInteger (some (.num d.claimVersion)) "decision.claimVersion"
    let scopeId ← requireNonEmptyString (some (.str d.scopeId)) "decision.scopeId"
    let scopeVersion ← requirePositiveInteger (some (.num d.scopeVersion)) "decision.scopeVersion"
    let actorId ← requireNonEmptyString (some (.str d.actorId)) "decision.actorId"
    let actorRole ← requireNonEmptyString (some (.str d.actorRole)) "decision.actorRole"
    return { id, claimId, claimVersion, scopeId, scopeVersion, type, content, actorId, actorRole,
             evidenceRefs := evidenceRefs.eraseDups, validUntil, createdAt := d.createdAt }

end Creation

/-! ## Evaluation -/

inductive ReviewStatus where
  | PENDING
  | APPROVED
  | REJECTED
  | REVOKED
  | DISPUTED
  | EXPIRED
  | POST_REVIEW_OVERDUE
deriving DecidableEq, Repr

instance : EnumValues ReviewStatus where
  names := ["PENDING", "APPROVED", "REJECTED", "REVOKED", "DISPUTED", "EXPIRED",
    "POST_REVIEW_OVERDUE"]
  name
    | .PENDING => "PENDING"
    | .APPROVED => "APPROVED"
    | .REJECTED => "REJECTED"
    | .REVOKED => "REVOKED"
    | .DISPUTED => "DISPUTED"
    | .EXPIRED => "EXPIRED"
    | .POST_REVIEW_OVERDUE => "POST_REVIEW_OVERDUE"

/-- `policy.decisionGovernance`; a role list that is not configured is empty. -/
structure GovernancePolicy where
  approvalRoles : List String := []
  businessRoles : List String := []
  complianceRoles : List String := []
  breakGlassRoles : List String := []
  lifecycleRoles : List String := []

def configuredRoles (roles : List String) (fieldName : String) : Except Failure (List String) :=
  if roles.any isBlank then
    typeError ("decision governance policy." ++ fieldName ++ " must be an array of roles")
  else .ok roles

structure Requirements where
  minimumApprovals : Nat
  requiredRoleGroups : List (List String)

structure Evaluation where
  status : ReviewStatus
  approvals : List DecisionReviewEvent
  ignoredApprovalEventIds : List String
  approvalActorCount : Nat
  approvalRoleCount : Nat
  requirements : Requirements
  postReviewed : Bool
  mayMaterializeDecision : Bool
  latestEvent : Option DecisionReviewEvent
  eventCount : Nat
  observedApprovalActorCount : Nat

/-- The events after the last REOPEN. -/
def activeEvents (events : List DecisionReviewEvent) : List DecisionReviewEvent :=
  (events.reverse.takeWhile fun e => !e.is .REOPEN).reverse

def lastReopen (events : List DecisionReviewEvent) : Option DecisionReviewEvent :=
  events.reverse.find? fun e => e.is .REOPEN

/-- The status that ends a round, for the actions that end one. -/
def terminalStatus (e : DecisionReviewEvent) : Option ReviewStatus :=
  if e.is .REJECT then some .REJECTED
  else if e.is .REVOKE then some .REVOKED
  else if e.is .DISPUTE then some .DISPUTED
  else none

/-- The status of the last active event that ends a round. -/
def terminal (active : List DecisionReviewEvent) : Option ReviewStatus :=
  active.reverse.findSome? terminalStatus

section Evaluate

variable (dateParse : String → Option Int) (identity : String → Option String)
  (policy : GovernancePolicy) (reviewCase : DecisionReviewCase)

/-- The identity that the resolver gives for an actor; an empty one counts as none. -/
def actorIdentity (actorId : String) : Option String := (identity actorId).filter (· ≠ "")

def mode (m : DecisionApprovalMode) : Bool := decide (reviewCase.approvalMode = enumJson m)

def minimumApprovals : Nat :=
  if mode reviewCase .DUAL || mode reviewCase .BUSINESS_COMPLIANCE then 2 else 1

def requiredRoleGroups : List (List String) :=
  if mode reviewCase .BUSINESS_COMPLIANCE then
    [policy.businessRoles.eraseDups, policy.complianceRoles.eraseDups]
  else []

/-- The roles whose approvals count; each list is checked as it is read. -/
def allowedRoles : Except Failure (List String) := do
  let approvalRoles ← configuredRoles policy.approvalRoles "approvalRoles"
  if mode reviewCase .BUSINESS_COMPLIANCE then
    let businessRoles ← configuredRoles policy.businessRoles "businessRoles"
    let complianceRoles ← configuredRoles policy.complianceRoles "complianceRoles"
    return businessRoles ++ complianceRoles
  else if mode reviewCase .BREAK_GLASS then
    configuredRoles policy.breakGlassRoles "breakGlassRoles"
  else return approvalRoles

/-- An approval counts when its actor is known, is not the proposer, and has the role. -/
def validApproval (roles : List String) (e : DecisionReviewEvent) : Bool :=
  (actorIdentity identity reviewCase.proposerId).isSome &&
    (actorIdentity identity e.actorId).isSome &&
    decide (actorIdentity identity e.actorId ≠ actorIdentity identity reviewCase.proposerId) &&
    decide (e.actorRole ∈ roles)

def validApprovals (roles : List String) (active : List DecisionReviewEvent) :
    List DecisionReviewEvent :=
  (active.filter fun e => e.is .APPROVE).filter (validApproval identity reviewCase roles)

def distinctValidActors (roles : List String) (active : List DecisionReviewEvent) :
    List (Option String) :=
  ((validApprovals identity reviewCase roles active).map fun e =>
    actorIdentity identity e.actorId).dedup

def roleGroupsSatisfied (roles : List String) (active : List DecisionReviewEvent) : Bool :=
  (requiredRoleGroups policy reviewCase).all fun group => group.any fun role =>
    (validApprovals identity reviewCase roles active).any fun e => e.actorRole = role

def approvalSatisfied (roles : List String) (active : List DecisionReviewEvent) : Bool :=
  decide (minimumApprovals reviewCase ≤
      (distinctValidActors identity reviewCase roles active).length) &&
    roleGroupsSatisfied identity policy reviewCase roles active

/-- `now.getTime() >= Date.parse(text)`, where a text that is no date is never reached. -/
def reached (now : Instant) (text : Option String) : Bool :=
  match text.bind dateParse with
  | some t => decide (t ≤ now.time)
  | none => false

def postReviewed (active : List DecisionReviewEvent) : Bool := active.any fun e => e.is .POST_REVIEW

def reviewStatus (roles : List String) (active : List DecisionReviewEvent) (now : Instant) :
    ReviewStatus :=
  match terminal active with
  | some status => status
  | none =>
    if approvalSatisfied identity policy reviewCase roles active then
      if mode reviewCase .BREAK_GLASS && reached dateParse now reviewCase.postReviewDueAt &&
          !postReviewed active then .POST_REVIEW_OVERDUE
      else .APPROVED
    else if reached dateParse now (some reviewCase.expiresAt) then .EXPIRED
    else .PENDING

def evaluateDecisionReviewCase (events : List DecisionReviewEvent) (now : Instant) :
    Except Failure Evaluation := do
  let roles ← allowedRoles policy reviewCase
  let active := activeEvents events
  let approvals := active.filter fun e => e.is .APPROVE
  let valid := validApprovals identity reviewCase roles active
  return {
    status := reviewStatus dateParse identity policy reviewCase roles active now
    approvals := valid
    ignoredApprovalEventIds :=
      (approvals.filter fun e => !validApproval identity reviewCase roles e).map (·.id)
    approvalActorCount := (distinctValidActors identity reviewCase roles active).length
    approvalRoleCount := (approvals.map (·.actorRole)).dedup.length
    requirements := {
      minimumApprovals := minimumApprovals reviewCase
      requiredRoleGroups := requiredRoleGroups policy reviewCase }
    postReviewed := postReviewed active
    mayMaterializeDecision :=
      approvalSatisfied identity policy reviewCase roles active && (terminal active).isNone
    latestEvent := events.getLast?
    eventCount := events.length
    observedApprovalActorCount :=
      (approvals.filterMap fun e => actorIdentity identity e.actorId).dedup.length }

end Evaluate

end Traqen
