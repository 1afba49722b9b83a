-- Review requests (`appendDecisionReviewEvent` of the application). A request reads
-- the case, evaluates it with and without its event, makes the Decision that goes with
-- the event, and hands both to the store; other requests run between the read and
-- the write.
import Traqen.DecisionReviewStore

open Js Traqen.DecisionReviewStore

namespace Traqen.DecisionReview

structure Reviewer where
  actorId : String
  actorRole : String

/-- The id of a Decision that a REOPEN, a REVOKE or a DISPUTE leads to. -/
def taggedId (proposedId tag eventId : String) : String :=
  proposedId ++ ":" ++ tag ++ ":" ++ eventId

section Requests

variable (dateParse : String → Option Int) (identity : String → Option String)
  (policy : GovernancePolicy) (reviewCase : DecisionReviewCase)

/-! ## The checks of a request -/

def approvalRoles : List String :=
  if mode reviewCase .BUSINESS_COMPLIANCE then policy.businessRoles ++ policy.complianceRoles
  else if mode reviewCase .BREAK_GLASS then policy.breakGlassRoles
  else policy.approvalRoles

def checkRoles (event : DecisionReviewEvent) : Except Failure Unit :=
  if (event.is .APPROVE || event.is .REJECT) &&
      event.actorRole ∉ approvalRoles policy reviewCase then
    authorizationError ("Role " ++ event.actorRole ++ " cannot " ++ event.action.toText.toLower ++
      " this Decision case")
  else if (event.is .REVOKE || event.is .DISPUTE || event.is .REOPEN || event.is .POST_REVIEW) &&
      event.actorRole ∉ policy.lifecycleRoles then
    authorizationError ("Role " ++ event.actorRole ++ " cannot perform Decision lifecycle action " ++
      event.action.toText)
  else .ok ()

/-- An approval comes from a known actor who is not the proposer and has not approved yet. -/
def checkApproval (events : List DecisionReviewEvent) (status : ReviewStatus)
    (event : DecisionReviewEvent) : Except Failure Unit :=
  if !event.is .APPROVE then .ok ()
  else if (actorIdentity identity event.actorId).isNone ||
      (actorIdentity identity reviewCase.proposerId).isNone then
    authorizationError "Complete the proposer and approver identity mapping before approval"
  else if identity event.actorId = identity reviewCase.proposerId then
    authorizationError "The proposer cannot approve their own governed Decision"
  else if ((activeEvents events).any fun x =>
      x.is .APPROVE && identity x.actorId = identity event.actorId) && status = .PENDING then
    conflictError ("Actor " ++ event.actorId ++ " already approved this active review round")
  else if status ≠ .PENDING then
    conflictError ("Cannot approve a case in " ++ EnumValues.name status)
  else .ok ()

def checkStatus (status : ReviewStatus) (event : DecisionReviewEvent) : Except Failure Unit :=
  if event.is .REJECT && status ≠ .PENDING then
    conflictError ("Cannot reject a case in " ++ EnumValues.name status)
  else if (event.is .REVOKE || event.is .DISPUTE) &&
      status ∉ [.APPROVED, .POST_REVIEW_OVERDUE] then
    conflictError ("Cannot " ++ event.action.toText.toLower ++ " a case in " ++
      EnumValues.name status)
  else if event.is .REOPEN && status ∉ [.REJECTED, .REVOKED, .DISPUTED] then
    conflictError ("Cannot reopen a case in " ++ EnumValues.name status)
  else if event.is .POST_REVIEW && (!mode reviewCase .BREAK_GLASS ||
      status ∉ [.APPROVED, .POST_REVIEW_OVERDUE]) then
    conflictError "POST_REVIEW is only valid for an approved Break-glass case"
  else .ok ()

/-- The proposed Decision, as an approval that completes the round makes it. -/
def approvedDecision (events : List DecisionReviewEvent) (decisions : List Decision)
    (event : DecisionReviewEvent) (now : Instant) : Decision :=
  { id :=
      if decisions.isEmpty then reviewCase.proposedDecision.id
      else taggedId reviewCase.proposedDecision.id "REOPEN"
        (((lastReopen events).map (·.id)).getD event.id)
    claimId := reviewCase.claimId, claimVersion := reviewCase.claimVersion
    scopeId := reviewCase.scopeId, scopeVersion := reviewCase.scopeVersion
    type := reviewCase.proposedDecision.type, content := reviewCase.proposedDecision.content
    actorId := event.actorId, actorRole := event.actorRole
    evidenceRefs := reviewCase.proposedDecision.evidenceRefs
    validUntil := reviewCase.proposedDecision.validUntil, createdAt := now.iso }

/-- The Decision that takes an approved one back. -/
def withdrawnDecision (tag : String) (type : DecisionType) (event : DecisionReviewEvent)
    (now : Instant) : Decision :=
  { id := taggedId reviewCase.proposedDecision.id tag event.id
    claimId := reviewCase.claimId, claimVersion := reviewCase.claimVersion
    scopeId := reviewCase.scopeId, scopeVersion := reviewCase.scopeVersion
    type := enumJson type, content := some event.rationale
    actorId := event.actorId, actorRole := event.actorRole
    evidenceRefs := [], validUntil := none, createdAt := now.iso }

def decisionOf (events : List DecisionReviewEvent) (decisions : List Decision)
    (event : DecisionReviewEvent) (next : Evaluation) (now : Instant) :
    Except Failure (Option Decision) :=
  if event.is .APPROVE && next.mayMaterializeDecision then
    (createDecision dateParse (approvedDecision reviewCase events decisions event now)).map some
  else if event.is .REVOKE then
    (createDecision dateParse
      (withdrawnDecision reviewCase "REVOKE" .DEPRECATED event now)).map some
  else if event.is .DISPUTE then
    (createDecision dateParse
      (withdrawnDecision reviewCase "DISPUTE" .DEFERRED event now)).map some
  else .ok none

/-- The part of a request between its read of the case and its write. The clock is read
four times. -/
def reviewWrite (events : List DecisionReviewEvent) (decisions : List Decision) (input : Json)
    (reviewer : Reviewer) (clock : Nat → Instant) : Except Failure Write := do
  let current ← evaluateDecisionReviewCase dateParse identity policy reviewCase events (clock 0)
  let event ←
    createDecisionReviewEvent input reviewCase.id reviewer.actorId reviewer.actorRole (clock 1)
  checkRoles policy reviewCase event
  checkApproval identity reviewCase events current.status event
  checkStatus reviewCase current.status event
  let next ← evaluateDecisionReviewCase dateParse identity policy reviewCase (events ++ [event])
    (clock 2)
  if event.is .APPROVE && event.id ∈ next.ignoredApprovalEventIds then
    authorizationError "This approval does not satisfy the configured role and separation policy"
  else
    let decision ← decisionOf dateParse reviewCase events decisions event next (clock 3)
    return { event, decision }

/-! ## Requests on one case -/

inductive Request where
  /-- The case was read. -/
  | loaded (events : List DecisionReviewEvent) (decisions : List Decision) (input : Json)
      (reviewer : Reviewer)
  /-- The store waits for `appendDecision`. -/
  | storing (events : List DecisionReviewEvent) (decisions : List Decision) (write : Write)
      (held : Nat) (found : Bool)
  | settled (result : Except Failure DecisionReviewEvent)

structure Review where
  store : Store
  requests : List Request

inductive Turn where
  | read (input : Json) (reviewer : Reviewer)
  | submit (request : Nat) (clock : Nat → Instant)
  | resume (request : Nat)

def serverFields : List String := ["caseId", "actorId", "actorRole", "createdAt"]

def readRequest (s : Store) (input : Json) (reviewer : Reviewer) : Request :=
  if !input.isObject then
    .settled (typeError "decision review event input must be an object")
  else
    match serverFields.find? fun key => (input.get? key).isSome with
    | some key =>
      .settled (typeError ("decisionReviewEvent." ++ key ++ " is assigned by the server"))
    | none => .loaded s.events s.caseDecisions input reviewer

def submitRequest (s : Store) (events : List DecisionReviewEvent) (decisions : List Decision)
    (input : Json) (reviewer : Reviewer) (clock : Nat → Instant) : Store × Request :=
  match reviewWrite dateParse identity policy reviewCase events decisions input reviewer clock with
  | .error e => (s, .settled (.error e))
  | .ok w =>
    match appendDecisionReviewEvent s w with
    | (s', .rejected e) => (s', .settled (.error e))
    | (s', .returned e) => (s', .settled (.ok e))
    | (s', .waiting w held found) => (s', .storing events decisions w held found)

def step (s : Review) : Turn → Option Review
  | .read input reviewer =>
    some { s with requests := s.requests ++ [readRequest s.store input reviewer] }
  | .submit i clock =>
    match s.requests[i]? with
    | some (.loaded events decisions input reviewer) =>
      let (store, request) := submitRequest dateParse identity policy reviewCase s.store events
        decisions input reviewer clock
      some { store, requests := s.requests.set i request }
    | _ => none
  | .resume i =>
    match s.requests[i]? with
    | some (.storing _ _ w held found) =>
      some { store := writeBack s.store w held found,
             requests := s.requests.set i (.settled (.ok w.event)) }
    | _ => none

end Requests

/-- The case when it was created: no event, and no Decision of its own. -/
def start (claims : List Claim) (decisions : List Decision) : Review :=
  { store := { claims, decisions, arrays := [], stored := none, materializations := [] },
    requests := [] }

/-! ## Stages of a round -/

/-- Where a round stands, whatever the clock says. -/
inductive Stage where
  | pending
  | approved
  | ended
deriving DecidableEq, Repr

/-- The roles of the evaluation; with a role list that is no list of roles it throws. -/
def countedRoles (policy : GovernancePolicy) (reviewCase : DecisionReviewCase) : List String :=
  (allowedRoles policy reviewCase).toOption.getD []

section Stages

variable (identity : String → Option String) (policy : GovernancePolicy)
  (reviewCase : DecisionReviewCase)

def satisfied (active : List DecisionReviewEvent) : Bool :=
  approvalSatisfied identity policy reviewCase (countedRoles policy reviewCase) active

def stage (events : List DecisionReviewEvent) : Stage :=
  if (terminal (activeEvents events)).isSome then .ended
  else if satisfied identity policy reviewCase (activeEvents events) then .approved
  else .pending

end Stages

def isApproved (status : ReviewStatus) : Bool :=
  status = .APPROVED || status = .POST_REVIEW_OVERDUE

variable {a action : DecisionReviewAction} {e : DecisionReviewEvent}

theorem is_eq (h : e.is a = true) : e.action = enumJson a := by
  simpa [DecisionReviewEvent.is] using h

/-- An event has one action at most. -/
theorem is_unique {b : DecisionReviewAction} (h : e.is a = true)
    (hne : a ≠ b) : e.is b = false := by
  have hnames : enumJson a ≠ enumJson b := by
    cases a <;> cases b <;> first | exact absurd rfl hne | decide
  simpa [DecisionReviewEvent.is, is_eq h] using hnames

theorem activeEvents_append (events : List DecisionReviewEvent) (e : DecisionReviewEvent) :
    activeEvents (events ++ [e]) = if e.is .REOPEN then [] else activeEvents events ++ [e] := by
  unfold activeEvents
  rw [List.reverse_append, List.reverse_singleton, List.singleton_append, List.takeWhile_cons]
  cases e.is .REOPEN <;> simp

theorem lastReopen_append (events : List DecisionReviewEvent) (e : DecisionReviewEvent) :
    lastReopen (events ++ [e]) = if e.is .REOPEN then some e else lastReopen events := by
  unfold lastReopen
  rw [List.reverse_append, List.reverse_singleton, List.singleton_append, List.find?_cons]
  cases e.is .REOPEN <;> rfl

theorem terminal_append (active : List DecisionReviewEvent) (e : DecisionReviewEvent) :
    terminal (active ++ [e]) = (terminalStatus e).or (terminal active) := by
  unfold terminal
  rw [List.reverse_append, List.reverse_singleton, List.singleton_append, List.findSome?_cons]
  cases terminalStatus e <;> rfl

theorem terminalStatus_of_is
    (h : e.is a = true) (hr : a ≠ .REJECT) (hv : a ≠ .REVOKE) (hd : a ≠ .DISPUTE) :
    terminalStatus e = none := by
  simp [terminalStatus, is_unique h hr, is_unique h hv, is_unique h hd]

theorem terminal_mem {active : List DecisionReviewEvent} {status : ReviewStatus}
    (h : terminal active = some status) : status ∈ [.REJECTED, .REVOKED, .DISPUTED] := by
  obtain ⟨_, e, _, _, he, _⟩ := List.findSome?_eq_some_iff.mp h
  unfold terminalStatus at he
  split_ifs at he <;> cases he <;> simp

section Laws

variable {dateParse : String → Option Int} {identity : String → Option String}
  {policy : GovernancePolicy} {reviewCase : DecisionReviewCase}

theorem satisfied_nil : satisfied identity policy reviewCase [] = false := by
  have hmin : ¬ minimumApprovals reviewCase ≤ 0 := by
    unfold minimumApprovals
    split <;> simp
  have hnone : ∀ roles, distinctValidActors identity reviewCase roles [] = [] := fun _ => rfl
  simp [satisfied, approvalSatisfied, hnone, hmin]

/-- Only an approval is counted. -/
theorem satisfied_append {active : List DecisionReviewEvent} (h : e.is .APPROVE = false) :
    satisfied identity policy reviewCase (active ++ [e]) =
      satisfied identity policy reviewCase active := by
  have hvalid : ∀ roles, validApprovals identity reviewCase roles (active ++ [e]) =
      validApprovals identity reviewCase roles active := fun roles => by
    simp [validApprovals, h]
  unfold satisfied approvalSatisfied distinctValidActors roleGroupsSatisfied
  rw [hvalid]

variable {events : List DecisionReviewEvent}

theorem stage_ends (h : e.is a = true) (ha : a = .REJECT ∨ a = .REVOKE ∨ a = .DISPUTE) :
    stage identity policy reviewCase (events ++ [e]) = .ended := by
  have hreopen : e.is .REOPEN = false := is_unique h (by rcases ha with rfl | rfl | rfl <;> decide)
  have hsome : (terminalStatus e).isSome = true := by
    unfold terminalStatus
    rcases ha with rfl | rfl | rfl <;> split_ifs <;> simp_all
  obtain ⟨status, hs⟩ := Option.isSome_iff_exists.mp hsome
  simp [stage, activeEvents_append, hreopen, terminal_append, hs]

theorem stage_reopens
    (h : e.is .REOPEN = true) : stage identity policy reviewCase (events ++ [e]) = .pending := by
  simp [stage, activeEvents_append, h, terminal, satisfied_nil]

/-- A POST_REVIEW, or an event without one of the actions, leaves the stage as it is. -/
theorem stage_stays (happrove : e.is .APPROVE = false) (hreopen : e.is .REOPEN = false)
    (hends : terminalStatus e = none) :
    stage identity policy reviewCase (events ++ [e]) = stage identity policy reviewCase events := by
  simp only [stage, activeEvents_append, hreopen, Bool.false_eq_true, if_false, terminal_append,
    hends, Option.none_or, satisfied_append happrove]

/-- An approval ends no round. -/
theorem stage_approves
    (h : e.is .APPROVE = true) (hp : stage identity policy reviewCase events = .pending) :
    stage identity policy reviewCase (events ++ [e]) ≠ .ended := by
  have hends : terminalStatus e = none :=
    terminalStatus_of_is h (by decide) (by decide) (by decide)
  have hreopen : e.is .REOPEN = false := is_unique h (by decide)
  have hnone : (terminal (activeEvents events)).isSome = false := by
    rw [Bool.eq_false_iff]
    intro hsome
    simp [stage, hsome] at hp
  simp only [stage, activeEvents_append, hreopen, Bool.false_eq_true, if_false, terminal_append,
    hends, Option.none_or, hnone]
  split <;> simp

/-! ## The evaluation and the stage -/

theorem evaluate_ok {now : Instant} {ev : Evaluation}
    (h : evaluateDecisionReviewCase dateParse identity policy reviewCase events now = .ok ev) :
    ev.status = reviewStatus dateParse identity policy reviewCase
        (countedRoles policy reviewCase) (activeEvents events) now ∧
      (ev.mayMaterializeDecision = true ↔
        stage identity policy reviewCase events = .approved) := by
  obtain ⟨roles, hroles, hev⟩ := bind_ok h
  have hcount : countedRoles policy reviewCase = roles := by
    simp [countedRoles, hroles, Except.toOption]
  cases hev
  refine ⟨by rw [hcount], ?_⟩
  simp only [stage, satisfied, hcount]
  rcases terminal (activeEvents events) with _ | status
  · simp
  · simp

variable (dateParse identity policy reviewCase) in
theorem reviewStatus_stage (events : List DecisionReviewEvent) (now : Instant) :
    match stage identity policy reviewCase events with
    | .ended => reviewStatus dateParse identity policy reviewCase (countedRoles policy reviewCase)
        (activeEvents events) now ∈ [.REJECTED, .REVOKED, .DISPUTED]
    | .approved => reviewStatus dateParse identity policy reviewCase (countedRoles policy reviewCase)
        (activeEvents events) now ∈ [.APPROVED, .POST_REVIEW_OVERDUE]
    | .pending => reviewStatus dateParse identity policy reviewCase (countedRoles policy reviewCase)
        (activeEvents events) now ∈ [.EXPIRED, .PENDING] := by
  unfold stage satisfied reviewStatus
  rcases hterm : terminal (activeEvents events) with _ | status
  · simp only [Option.isSome_none, Bool.false_eq_true, if_false]
    by_cases hsat : approvalSatisfied identity policy reviewCase (countedRoles policy reviewCase)
        (activeEvents events) = true
    · simp only [hsat, if_true]
      split <;> simp
    · simp only [hsat, Bool.false_eq_true, if_false]
      split <;> simp
  · simpa using terminal_mem hterm

theorem stage_of_evaluate {now : Instant} {ev : Evaluation}
    (h : evaluateDecisionReviewCase dateParse identity policy reviewCase events now = .ok ev) :
    (ev.status = .PENDING → stage identity policy reviewCase events = .pending) ∧
      (ev.status ∈ [.APPROVED, .POST_REVIEW_OVERDUE] ↔
        stage identity policy reviewCase events = .approved) ∧
      (ev.status ∈ [.REJECTED, .REVOKED, .DISPUTED] →
        stage identity policy reviewCase events = .ended) := by
  have hstage := reviewStatus_stage dateParse identity policy reviewCase events now
  rw [← (evaluate_ok h).1] at hstage
  generalize ev.status = status at hstage ⊢
  cases hs : stage identity policy reviewCase events with
  | pending =>
    rw [hs] at hstage
    refine ⟨fun _ => rfl, ?_, ?_⟩ <;> cases status <;> simp at hstage ⊢
  | approved =>
    rw [hs] at hstage
    refine ⟨?_, ?_, ?_⟩ <;> cases status <;> simp at hstage ⊢
  | ended =>
    rw [hs] at hstage
    refine ⟨?_, ?_, fun _ => rfl⟩ <;> cases status <;> simp at hstage ⊢

/-! ## What a request can write -/

theorem createDecision_ok {d d' : Decision} (h : createDecision dateParse d = .ok d') :
    d'.id = d.id ∧ d'.type = d.type := by
  obtain ⟨validUntil, _, h⟩ := bind_ok h
  obtain ⟨_, _, h⟩ := bind_ok h
  obtain ⟨evidenceRefs, _, h⟩ := bind_ok h
  obtain ⟨type, htype, h⟩ := bind_ok h
  obtain ⟨content, _, h⟩ := bind_ok h
  split at h
  · cases h
  · obtain ⟨id, hid, h⟩ := bind_ok h
    obtain ⟨claimId, _, h⟩ := bind_ok h
    obtain ⟨claimVersion, _, h⟩ := bind_ok h
    obtain ⟨scopeId, _, h⟩ := bind_ok h
    obtain ⟨scopeVersion, _, h⟩ := bind_ok h
    obtain ⟨actorId, _, h⟩ := bind_ok h
    obtain ⟨actorRole, _, h⟩ := bind_ok h
    cases h
    obtain ⟨hid', _⟩ := requireNonEmptyString_ok hid
    obtain ⟨htype', _⟩ := assertEnum_ok htype
    simp only [Option.some.injEq, Json.str.injEq] at hid' htype'
    exact ⟨hid'.symm, htype'.symm⟩

/-- The stage that an action asks for, and the Decision that goes with it. -/
structure Planned (identity : String → Option String) (policy : GovernancePolicy)
    (reviewCase : DecisionReviewCase) (events : List DecisionReviewEvent)
    (decisions : List Decision) (w : Write) : Prop where
  approve : w.event.is .APPROVE = true →
    stage identity policy reviewCase events = .pending ∧
    (stage identity policy reviewCase (events ++ [w.event]) = .approved ↔
      w.decision.isSome = true) ∧
    ∀ d, w.decision = some d → d.type = reviewCase.proposedDecision.type ∧
      d.id = if decisions.isEmpty then reviewCase.proposedDecision.id
        else taggedId reviewCase.proposedDecision.id "REOPEN"
          (((lastReopen events).map (·.id)).getD w.event.id)
  withdraw : ∀ action tag type, (action, tag, type) ∈
      [(DecisionReviewAction.REVOKE, "REVOKE", DecisionType.DEPRECATED),
        (.DISPUTE, "DISPUTE", .DEFERRED)] →
    w.event.is action = true → stage identity policy reviewCase events = .approved ∧
    ∃ d, w.decision = some d ∧ d.type = enumJson type ∧
      d.id = taggedId reviewCase.proposedDecision.id tag w.event.id
  others : w.event.is .APPROVE = false → w.event.is .REVOKE = false →
    w.event.is .DISPUTE = false → w.decision = none
  reject : w.event.is .REJECT = true → stage identity policy reviewCase events = .pending
  reopen : w.event.is .REOPEN = true → stage identity policy reviewCase events = .ended

theorem checkStatus_ok {status : ReviewStatus} (h : checkStatus reviewCase status e = .ok ()) :
    (e.is .REJECT = true → status = .PENDING) ∧
      (e.is .REVOKE = true ∨ e.is .DISPUTE = true → status ∈ [.APPROVED, .POST_REVIEW_OVERDUE]) ∧
      (e.is .REOPEN = true → status ∈ [.REJECTED, .REVOKED, .DISPUTED]) := by
  unfold checkStatus conflictError at h
  split at h
  · cases h
  · rename_i hreject
    split at h
    · cases h
    · rename_i hwithdraw
      split at h
      · cases h
      · rename_i hreopen
        simp only [Bool.and_eq_true, Bool.or_eq_true, decide_eq_true_eq, not_and, not_not]
          at hreject hwithdraw hreopen
        exact ⟨hreject, hwithdraw, hreopen⟩

theorem checkApproval_ok {status : ReviewStatus}
    (h : checkApproval identity reviewCase events status e = .ok ())
    (ha : e.is .APPROVE = true) : status = .PENDING := by
  unfold checkApproval authorizationError conflictError at h
  simp only [ha, Bool.not_true, Bool.false_eq_true, if_false] at h
  split at h
  · cases h
  · split at h
    · cases h
    · split at h
      · cases h
      · split at h
        · cases h
        · rename_i hpending
          exact not_not.mp hpending

variable {decisions : List Decision}

theorem reviewWrite_planned {input : Json} {reviewer : Reviewer} {clock : Nat → Instant} {w : Write}
    (h : reviewWrite dateParse identity policy reviewCase events decisions input reviewer clock =
      .ok w) : Planned identity policy reviewCase events decisions w := by
  obtain ⟨current, hcurrent, h⟩ := bind_ok h
  obtain ⟨event, _, h⟩ := bind_ok h
  obtain ⟨_, _, h⟩ := bind_ok h
  obtain ⟨_, happroval, h⟩ := bind_ok h
  obtain ⟨_, hstatus, h⟩ := bind_ok h
  obtain ⟨next, hnext, h⟩ := bind_ok h
  obtain ⟨hpending, hdone, hended⟩ := stage_of_evaluate hcurrent
  obtain ⟨hreject, hwithdraw, hreopen⟩ := checkStatus_ok hstatus
  have hmay := (evaluate_ok hnext).2
  split at h
  · cases h
  · obtain ⟨decision, hdecision, h⟩ := bind_ok h
    cases h
    unfold decisionOf at hdecision
    refine ⟨fun ha => ?_, fun action tag type hmem ha => ?_, fun h1 h2 h3 => ?_,
      fun ha => hpending (hreject ha), fun ha => hended (hreopen ha)⟩
    · have hp := hpending (checkApproval_ok happroval ha)
      by_cases hm : next.mayMaterializeDecision = true
      · rw [if_pos (by simp [ha, hm])] at hdecision
        rcases hd : createDecision dateParse
          (approvedDecision reviewCase events decisions event (clock 3)) with e | d
        · simp [hd, Except.map] at hdecision
        · simp only [hd, Except.map, Except.ok.injEq] at hdecision
          subst hdecision
          obtain ⟨hid, htype⟩ := createDecision_ok hd
          refine ⟨hp, by simp [← hmay, hm], ?_⟩
          rintro d' hd'
          cases hd'
          exact ⟨htype, hid⟩
      · have hr : event.is .REVOKE = false := is_unique ha (by decide)
        have hs : event.is .DISPUTE = false := is_unique ha (by decide)
        simp only [hm, hr, hs, Bool.and_false, Bool.false_eq_true, if_false, Except.ok.injEq]
          at hdecision
        subst hdecision
        exact ⟨hp, by simp [← hmay, hm], by simp⟩
    · simp only [List.mem_cons, Prod.mk.injEq, List.not_mem_nil, or_false] at hmem
      have happrove : event.is .APPROVE = false :=
        is_unique ha (by rcases hmem with ⟨rfl, _⟩ | ⟨rfl, _⟩ <;> decide)
      have hst := hdone.mp (hwithdraw (by
        rcases hmem with ⟨rfl, _⟩ | ⟨rfl, _⟩
        · exact Or.inl ha
        · exact Or.inr ha))
      refine ⟨hst, ?_⟩
      rcases hd : createDecision dateParse (withdrawnDecision reviewCase tag type event (clock 3))
        with e | d
      · exfalso
        rcases hmem with ⟨rfl, rfl, rfl⟩ | ⟨rfl, rfl, rfl⟩
        · simp [happrove, ha, hd, Except.map] at hdecision
        · have hr : event.is .REVOKE = false := is_unique ha (by decide)
          simp [happrove, hr, ha, hd, Except.map] at hdecision
      · have hsome : decision = some d := by
          rcases hmem with ⟨rfl, rfl, rfl⟩ | ⟨rfl, rfl, rfl⟩
          · simpa [happrove, ha, hd, Except.map] using hdecision.symm
          · have hr : event.is .REVOKE = false := is_unique ha (by decide)
            simpa [happrove, hr, ha, hd, Except.map] using hdecision.symm
        obtain ⟨hid, htype⟩ := createDecision_ok hd
        exact ⟨d, hsome, htype, hid⟩
    · simpa [h1, h2, h3] using hdecision.symm

/-! ## The ids of the Decisions of a case -/

theorem taggedId_ne (proposedId tag eventId : String) :
    taggedId proposedId tag eventId ≠ proposedId := by
  intro h
  have := congrArg String.length h
  simp only [taggedId, String.length_append] at this
  have hc : ":".length = 1 := by decide
  omega

theorem taggedId_inj {proposedId tag e e' : String}
    (h : taggedId proposedId tag e = taggedId proposedId tag e') : e = e' := by
  simpa [taggedId] using h

/-- The three tags make three kinds of ids. -/
theorem taggedId_tag {proposedId tag tag' e e' : String}
    (ht : tag ∈ ["REOPEN", "REVOKE", "DISPUTE"]) (ht' : tag' ∈ ["REOPEN", "REVOKE", "DISPUTE"])
    (h : taggedId proposedId tag e = taggedId proposedId tag' e') : tag = tag' := by
  have hlist := congrArg String.toList h
  simp only [taggedId, String.toList_append, List.append_assoc, List.append_cancel_left_eq] at hlist
  simp only [List.mem_cons, List.not_mem_nil, or_false] at ht ht'
  rcases ht with rfl | rfl | rfl <;> rcases ht' with rfl | rfl | rfl <;>
    first | rfl | simp at hlist

/-- The actions that take an approved Decision back, with the type of the Decision they make. -/
def withdrawals : List (DecisionReviewAction × String × DecisionType) :=
  [(.REVOKE, "REVOKE", .DEPRECATED), (.DISPUTE, "DISPUTE", .DEFERRED)]

theorem withdrawal_tag {tag : String} {type : DecisionType}
    (h : (action, tag, type) ∈ withdrawals) :
    tag ∈ ["REOPEN", "REVOKE", "DISPUTE"] ∧ tag ≠ "REOPEN" := by
  simp only [withdrawals, List.mem_cons, Prod.mk.injEq, List.not_mem_nil, or_false] at h
  rcases h with ⟨_, rfl, _⟩ | ⟨_, rfl, _⟩ <;> simp

/-- The id of a Decision that an approval makes. -/
def IsProposedId (reviewCase : DecisionReviewCase) (id : String) : Prop :=
  id = reviewCase.proposedDecision.id ∨
    ∃ r, id = taggedId reviewCase.proposedDecision.id "REOPEN" r

theorem not_isProposedId {tag e : String} {type : DecisionType}
    (h : (action, tag, type) ∈ withdrawals) :
    ¬ IsProposedId reviewCase (taggedId reviewCase.proposedDecision.id tag e) := by
  obtain ⟨hmem, hne⟩ := withdrawal_tag h
  rintro (heq | ⟨r, heq⟩)
  · exact taggedId_ne _ _ _ heq
  · exact hne (taggedId_tag hmem (by simp) heq)

/-! ## The log and the Decisions in step -/

/-- The case as it is stored when an event is written is, for the checks of the request, the
case that the request read. -/
structure InStep (identity : String → Option String) (policy : GovernancePolicy)
    (reviewCase : DecisionReviewCase) (events : List DecisionReviewEvent)
    (decisions : List Decision) (e : DecisionReviewEvent) (s : Store) : Prop where
  fresh : ∀ x ∈ s.events, x.id ≠ e.id
  before : stage identity policy reviewCase s.events = stage identity policy reviewCase events
  after : stage identity policy reviewCase (s.events ++ [e]) =
    stage identity policy reviewCase (events ++ [e])
  round : (lastReopen s.events).map (·.id) = (lastReopen events).map (·.id)
  decided : s.caseDecisions.isEmpty = decisions.isEmpty
  revoke : e.is .REVOKE = true → reviewCase.proposedDecision.type ≠ enumJson DecisionType.DEPRECATED
  dispute : e.is .DISPUTE = true → reviewCase.proposedDecision.type ≠ enumJson DecisionType.DEFERRED

instance (events : List DecisionReviewEvent) (decisions : List Decision) (e : DecisionReviewEvent)
    (s : Store) : Decidable (InStep identity policy reviewCase events decisions e s) :=
  decidable_of_iff
    ((∀ x ∈ s.events, x.id ≠ e.id) ∧
      stage identity policy reviewCase s.events = stage identity policy reviewCase events ∧
      stage identity policy reviewCase (s.events ++ [e]) =
        stage identity policy reviewCase (events ++ [e]) ∧
      (lastReopen s.events).map (·.id) = (lastReopen events).map (·.id) ∧
      s.caseDecisions.isEmpty = decisions.isEmpty ∧
      (e.is .REVOKE = true →
        reviewCase.proposedDecision.type ≠ enumJson DecisionType.DEPRECATED) ∧
      (e.is .DISPUTE = true →
        reviewCase.proposedDecision.type ≠ enumJson DecisionType.DEFERRED))
    ⟨fun ⟨h1, h2, h3, h4, h5, h6, h7⟩ => ⟨h1, h2, h3, h4, h5, h6, h7⟩,
      fun h => ⟨h.fresh, h.before, h.after, h.round, h.decided, h.revoke, h.dispute⟩⟩

/-- Where the materialized ids come from, and what they say of the stage. -/
structure Linked (identity : String → Option String) (policy : GovernancePolicy)
    (reviewCase : DecisionReviewCase) (events : List DecisionReviewEvent) (ids : List String) :
    Prop where
  kinds : ∀ id ∈ ids, id = reviewCase.proposedDecision.id ∨
    (∃ x ∈ events, id = taggedId reviewCase.proposedDecision.id "REOPEN" x.id) ∨
    ∃ action tag type, (action, tag, type) ∈ withdrawals ∧
      reviewCase.proposedDecision.type ≠ enumJson type ∧
      ∃ x ∈ events, id = taggedId reviewCase.proposedDecision.id tag x.id
  firstRound : ids ≠ [] → lastReopen events = none →
    stage identity policy reviewCase events ≠ .pending
  thisRound : ∀ r, lastReopen events = some r →
    taggedId reviewCase.proposedDecision.id "REOPEN" r.id ∈ ids →
    stage identity policy reviewCase events ≠ .pending
  last : stage identity policy reviewCase events = .approved ↔
    ∃ id, ids.getLast? = some id ∧ IsProposedId reviewCase id

/-- What one write in step does to the stage and to the ids. -/
inductive Effect (identity : String → Option String) (policy : GovernancePolicy)
    (reviewCase : DecisionReviewCase) (events : List DecisionReviewEvent) (ids : List String)
    (e : DecisionReviewEvent) : List String → Prop
  | completed (id : String)
      (hreopen : e.is .REOPEN = false)
      (hbefore : stage identity policy reviewCase events = .pending)
      (hafter : stage identity policy reviewCase (events ++ [e]) = .approved)
      (hnew : id ∉ ids)
      (hid : id = reviewCase.proposedDecision.id ∨ ∃ r, lastReopen events = some r ∧
        id = taggedId reviewCase.proposedDecision.id "REOPEN" r.id) :
      Effect identity policy reviewCase events ids e (ids ++ [id])
  | withdrawn (action : DecisionReviewAction) (tag : String) (type : DecisionType)
      (hmem : (action, tag, type) ∈ withdrawals)
      (hreopen : e.is .REOPEN = false)
      (hbefore : stage identity policy reviewCase events = .approved)
      (hafter : stage identity policy reviewCase (events ++ [e]) = .ended)
      (htype : reviewCase.proposedDecision.type ≠ enumJson type) :
      Effect identity policy reviewCase events ids e
        (ids ++ [taggedId reviewCase.proposedDecision.id tag e.id])
  | reopened
      (hreopen : e.is .REOPEN = true)
      (hbefore : stage identity policy reviewCase events = .ended)
      (hafter : stage identity policy reviewCase (events ++ [e]) = .pending) :
      Effect identity policy reviewCase events ids e ids
  | noted
      (hreopen : e.is .REOPEN = false)
      (hafter : stage identity policy reviewCase (events ++ [e]) =
          stage identity policy reviewCase events ∨
        stage identity policy reviewCase events = .pending ∧
          stage identity policy reviewCase (events ++ [e]) = .ended) :
      Effect identity policy reviewCase events ids e ids

theorem lastReopen_mem {r : DecisionReviewEvent} (h : lastReopen events = some r) : r ∈ events :=
  List.mem_reverse.mp (List.mem_of_find?_eq_some h)

variable {ids : List String}

variable (hl : Linked identity policy reviewCase events ids)
include hl

/-- The id of a completed round is new. -/
theorem completed_id_new (hp : stage identity policy reviewCase events = .pending) {id : String}
    (hid : id = if ids.isEmpty then reviewCase.proposedDecision.id
      else taggedId reviewCase.proposedDecision.id "REOPEN"
        (((lastReopen events).map (·.id)).getD e.id)) :
    id ∉ ids ∧ (id = reviewCase.proposedDecision.id ∨ ∃ r, lastReopen events = some r ∧
      id = taggedId reviewCase.proposedDecision.id "REOPEN" r.id) := by
  rcases hids : ids with _ | ⟨i, is⟩
  · subst hids
    exact ⟨by simp, Or.inl (by simpa using hid)⟩
  · rw [← hids]
    rw [hids] at hid
    simp only [List.isEmpty_cons, Bool.false_eq_true, if_false] at hid
    rcases hr : lastReopen events with _ | r
    · exact absurd hp (hl.firstRound (by simp [hids]) hr)
    · rw [hr] at hid
      simp only [Option.map_some, Option.getD_some] at hid
      refine ⟨fun hmem => ?_, Or.inr ⟨r, rfl, hid⟩⟩
      exact hl.thisRound r hr (hid ▸ hmem) hp

/-- A withdrawal has an id that no earlier Decision of the case has. -/
theorem withdrawn_id_new (hfresh : ∀ x ∈ events, x.id ≠ e.id) {tag : String}
    {type : DecisionType} (hmem : (action, tag, type) ∈ withdrawals) :
    taggedId reviewCase.proposedDecision.id tag e.id ∉ ids := by
  obtain ⟨htag, hne⟩ := withdrawal_tag hmem
  intro hin
  rcases hl.kinds _ hin with h | ⟨x, _, h⟩ | ⟨action', tag', type', hmem', _, x, hx, h⟩
  · exact taggedId_ne _ _ _ h
  · exact hne (taggedId_tag htag (by simp) h)
  · obtain rfl := taggedId_tag htag (withdrawal_tag hmem').1 h
    exact hfresh x hx (taggedId_inj h).symm

variable {s t : Store}

omit hl in
theorem effect_of_write {w : Write}
    (hl : Linked identity policy reviewCase s.events s.materializations)
    (hempty : s.caseDecisions.isEmpty = s.materializations.isEmpty)
    (hp : Planned identity policy reviewCase events decisions w)
    (hin : InStep identity policy reviewCase events decisions w.event s) :
    Effect identity policy reviewCase s.events s.materializations w.event
      (noteDecision s.materializations w.decision) := by
  by_cases happrove : w.event.is .APPROVE = true
  · have hreopen : w.event.is .REOPEN = false := is_unique happrove (by decide)
    obtain ⟨hpending, hcomplete, hids⟩ := hp.approve happrove
    rw [← hin.before] at hpending
    rw [← hin.after] at hcomplete
    rcases hd : w.decision with _ | d
    · have hnot : stage identity policy reviewCase (s.events ++ [w.event]) ≠ .approved := by
        simp [hcomplete, hd]
      have hends : stage identity policy reviewCase (s.events ++ [w.event]) ≠ .ended :=
        stage_approves happrove hpending
      refine .noted hreopen (Or.inl ?_)
      rw [hpending]
      cases hst : stage identity policy reviewCase (s.events ++ [w.event]) with
      | pending => rfl
      | approved => exact absurd hst hnot
      | ended => exact absurd hst hends
    · obtain ⟨_, hid⟩ := hids d hd
      have hround : ((lastReopen events).map (·.id)).getD w.event.id =
          ((lastReopen s.events).map (·.id)).getD w.event.id := by rw [hin.round]
      rw [hround, ← hin.decided, hempty] at hid
      obtain ⟨hnew, hkind⟩ := completed_id_new hl hpending hid
      simp only [noteDecision, hnew, if_false]
      exact .completed d.id hreopen hpending (hcomplete.mpr (by simp [hd])) hnew hkind
  · rw [Bool.not_eq_true] at happrove
    by_cases hwithdraw : ∃ action tag type, (action, tag, type) ∈ withdrawals ∧
        w.event.is action = true
    · obtain ⟨action, tag, type, hmem, ha⟩ := hwithdraw
      obtain ⟨hst, d, hd, _, hid⟩ := hp.withdraw action tag type hmem ha
      have hnew := withdrawn_id_new hl hin.fresh hmem
      have haction : (action = .REVOKE ∨ action = .DISPUTE) ∧
          reviewCase.proposedDecision.type ≠ enumJson type := by
        simp only [withdrawals, List.mem_cons, Prod.mk.injEq, List.not_mem_nil, or_false] at hmem
        rcases hmem with ⟨rfl, _, rfl⟩ | ⟨rfl, _, rfl⟩
        · exact ⟨Or.inl rfl, hin.revoke ha⟩
        · exact ⟨Or.inr rfl, hin.dispute ha⟩
      have hreopen : w.event.is .REOPEN = false :=
        is_unique ha (by rcases haction.1 with rfl | rfl <;> decide)
      simp only [hd, noteDecision, hid, hnew, if_false]
      exact .withdrawn action tag type hmem hreopen (hin.before ▸ hst)
        (stage_ends ha (Or.inr haction.1)) haction.2
    · have hrevoke : w.event.is .REVOKE = false := by
        rw [Bool.eq_false_iff]
        exact fun h => hwithdraw ⟨.REVOKE, "REVOKE", .DEPRECATED, by simp [withdrawals], h⟩
      have hdispute : w.event.is .DISPUTE = false := by
        rw [Bool.eq_false_iff]
        exact fun h => hwithdraw ⟨.DISPUTE, "DISPUTE", .DEFERRED, by simp [withdrawals], h⟩
      rw [hp.others happrove hrevoke hdispute]
      by_cases hreopen : w.event.is .REOPEN = true
      · exact .reopened hreopen (hin.before ▸ hp.reopen hreopen) (stage_reopens hreopen)
      · rw [Bool.not_eq_true] at hreopen
        by_cases hreject : w.event.is .REJECT = true
        · exact .noted hreopen
            (Or.inr ⟨hin.before ▸ hp.reject hreject, stage_ends hreject (Or.inl rfl)⟩)
        · exact .noted hreopen (Or.inl (stage_stays happrove hreopen
            (by simp [terminalStatus, hrevoke, hdispute, hreject])))

theorem linked_of_effect {ids' : List String} (hfresh : ∀ x ∈ events, x.id ≠ e.id)
    (heff : Effect identity policy reviewCase events ids e ids') :
    Linked identity policy reviewCase (events ++ [e]) ids' := by
  -- the kinds of the ids that were there
  have hkinds : ∀ id ∈ ids, id = reviewCase.proposedDecision.id ∨
      (∃ x ∈ events ++ [e], id = taggedId reviewCase.proposedDecision.id "REOPEN" x.id) ∨
      ∃ action tag type, (action, tag, type) ∈ withdrawals ∧
        reviewCase.proposedDecision.type ≠ enumJson type ∧
        ∃ x ∈ events ++ [e], id = taggedId reviewCase.proposedDecision.id tag x.id := by
    intro id hid
    rcases hl.kinds id hid with h | ⟨x, hx, h⟩ | ⟨action, tag, type, hmem, htype, x, hx, h⟩
    · exact Or.inl h
    · exact Or.inr (Or.inl ⟨x, by simp [hx], h⟩)
    · exact Or.inr (Or.inr ⟨action, tag, type, hmem, htype, x, by simp [hx], h⟩)
  cases heff with
  | completed id hreopen hbefore hafter hnew hid =>
    refine ⟨?_, by simp [hafter], by simp [hafter], ?_⟩
    · intro i hi
      rcases List.mem_append.mp hi with h | h
      · exact hkinds i h
      · rw [List.mem_singleton] at h
        subst h
        rcases hid with h | ⟨r, hr, h⟩
        · exact Or.inl h
        · exact Or.inr (Or.inl ⟨r, by simp [lastReopen_mem hr], h⟩)
    · have hprop : IsProposedId reviewCase id := by
        rcases hid with h | ⟨r, _, h⟩
        · exact Or.inl h
        · exact Or.inr ⟨r.id, h⟩
      simp [hafter, hprop]
  | withdrawn action tag type hmem hreopen hbefore hafter htype =>
    refine ⟨?_, by simp [hafter], by simp [hafter], ?_⟩
    · intro i hi
      rcases List.mem_append.mp hi with h | h
      · exact hkinds i h
      · rw [List.mem_singleton] at h
        exact Or.inr (Or.inr ⟨action, tag, type, hmem, htype, e, by simp, h⟩)
    · simp [hafter, not_isProposedId hmem]
  | reopened hreopen hbefore hafter =>
    refine ⟨hkinds, by simp [lastReopen_append, hreopen], ?_, ?_⟩
    · intro r hr hmem
      rw [lastReopen_append, hreopen, if_pos rfl] at hr
      cases hr
      -- no id of an earlier round names the new REOPEN
      rcases hl.kinds _ hmem with h | ⟨x, hx, h⟩ | ⟨_, tag, _, hw, _, _, _, h⟩
      · exact absurd h (taggedId_ne _ _ _)
      · exact absurd (taggedId_inj h).symm (hfresh x hx)
      · obtain ⟨htag, hne⟩ := withdrawal_tag hw
        exact absurd (taggedId_tag (by simp) htag h).symm hne
    · rw [← hl.last, hafter, hbefore]
      simp
  | noted hreopen hafter =>
    have hround : lastReopen (events ++ [e]) = lastReopen events := by
      rw [lastReopen_append, hreopen, if_neg (by simp)]
    have hpending : stage identity policy reviewCase (events ++ [e]) = .pending →
        stage identity policy reviewCase events = .pending := by
      rcases hafter with h | ⟨_, h⟩ <;> rw [h] <;> simp
    refine ⟨hkinds, fun hne hr hp => hl.firstRound hne (hround ▸ hr) (hpending hp),
      fun r hr hmem hp => hl.thisRound r (hround ▸ hr) hmem (hpending hp), ?_⟩
    rw [← hl.last]
    rcases hafter with h | ⟨hb, h⟩
    · rw [h]
    · rw [h, hb]
      simp

omit hl

/-! ## The stored Decisions -/

/-- A Decision under an id of the case has the type that goes with the id. -/
def Typed (reviewCase : DecisionReviewCase) (d : Decision) : Prop :=
  (IsProposedId reviewCase d.id → d.type = reviewCase.proposedDecision.type) ∧
    ∀ action tag type, (action, tag, type) ∈ withdrawals →
      ∀ e, d.id = taggedId reviewCase.proposedDecision.id tag e → d.type = enumJson type

theorem planned_typed {w : Write}
    {d : Decision} (hp : Planned identity policy reviewCase events decisions w)
    (hd : w.decision = some d) : Typed reviewCase d := by
  by_cases happrove : w.event.is .APPROVE = true
  · obtain ⟨_, _, hids⟩ := hp.approve happrove
    obtain ⟨htype, hid⟩ := hids d hd
    have hprop : IsProposedId reviewCase d.id := by
      rw [hid]
      split
      · exact Or.inl rfl
      · exact Or.inr ⟨_, rfl⟩
    refine ⟨fun _ => htype, fun action tag type hmem e he => ?_⟩
    exact absurd (he ▸ hprop) (not_isProposedId hmem)
  · have hwithdraw : ∃ action tag type, (action, tag, type) ∈ withdrawals ∧
        w.event.is action = true := by
      by_contra hnot
      have hnone := hp.others (by simpa using happrove)
        (by rw [Bool.eq_false_iff]
            exact fun h => hnot ⟨.REVOKE, "REVOKE", .DEPRECATED, by simp [withdrawals], h⟩)
        (by rw [Bool.eq_false_iff]
            exact fun h => hnot ⟨.DISPUTE, "DISPUTE", .DEFERRED, by simp [withdrawals], h⟩)
      rw [hnone] at hd
      cases hd
    obtain ⟨action, tag, type, hmem, ha⟩ := hwithdraw
    obtain ⟨_, d', hd', htype, hid⟩ := hp.withdraw action tag type hmem ha
    obtain rfl : d' = d := Option.some.inj (hd'.symm.trans hd)
    refine ⟨fun h => absurd (hid ▸ h) (not_isProposedId hmem), fun action' tag' type' hmem' e he => ?_⟩
    have htag := taggedId_tag (withdrawal_tag hmem).1 (withdrawal_tag hmem').1 (hid.symm.trans he)
    subst htag
    rw [htype]
    simp only [withdrawals, List.mem_cons, Prod.mk.injEq, List.not_mem_nil, or_false] at hmem hmem'
    rcases hmem with ⟨_, ht, rfl⟩ | ⟨_, ht, rfl⟩ <;>
      rcases hmem' with ⟨_, ht', rfl⟩ | ⟨_, ht', rfl⟩ <;>
      first | rfl | exact absurd (ht.symm.trans ht') (by decide)

/-- Every materialized id is the id of a stored Decision. -/
def Kept (s : Store) (ids : List String) : Prop := ∀ id ∈ ids, ∃ d ∈ s.decisions, d.id = id

theorem find_kept (h : Kept s ids) {id : String} (hid : id ∈ ids) :
    ∃ d ∈ s.decisions, (s.decisions.find? fun d => d.id = id) = some d ∧ d.id = id := by
  obtain ⟨x, hx, hxid⟩ := h id hid
  rcases hfind : s.decisions.find? (fun d => d.id = id) with _ | d
  · exact absurd hxid (by simpa using List.find?_eq_none.mp hfind x hx)
  · exact ⟨d, List.mem_of_find?_eq_some hfind, hfind, by simpa using List.find?_some hfind⟩

theorem caseDecisions_isEmpty (h : Kept s s.materializations) :
    s.caseDecisions.isEmpty = s.materializations.isEmpty := by
  unfold Store.caseDecisions
  rcases hm : s.materializations with _ | ⟨id, ids⟩
  · rfl
  · have hmem : id ∈ s.materializations := by simp [hm]
    obtain ⟨d, _, hd, _⟩ := find_kept h hmem
    simp [hd]

/-- The last Decision of the case, by the last id. -/
theorem lastDecision (h : Kept s s.materializations) :
    (s.materializations.getLast? = none → s.caseDecisions.getLast? = none) ∧
      ∀ id, s.materializations.getLast? = some id →
        ∃ d ∈ s.decisions, d.id = id ∧ s.caseDecisions.getLast? = some d := by
  unfold Store.caseDecisions
  refine ⟨fun hnone => by simp [List.getLast?_eq_none_iff.mp hnone], fun id hid => ?_⟩
  obtain ⟨d, hd, hfind, hdid⟩ := find_kept h (List.mem_of_getLast? hid)
  obtain ⟨ids, hids⟩ := List.getLast?_eq_some_iff.mp hid
  refine ⟨d, hd, hdid, ?_⟩
  rw [hids, List.filterMap_append]
  simp [hfind]

/-- The last Decision has the proposed type exactly when its id is one of an approval. -/
theorem lastDecision_proposed (htyped : ∀ d ∈ s.decisions, Typed reviewCase d)
    (hkept : Kept s s.materializations)
    (hl : Linked identity policy reviewCase s.events s.materializations) :
    s.caseDecisions.getLast?.map (·.type) = some reviewCase.proposedDecision.type ↔
      ∃ id, s.materializations.getLast? = some id ∧ IsProposedId reviewCase id := by
  obtain ⟨hnone, hsome⟩ := lastDecision hkept
  rcases hlast : s.materializations.getLast? with _ | id
  · simp [hnone hlast]
  · obtain ⟨d, hd, hid, heq⟩ := hsome id hlast
    obtain ⟨hproposed, hwithdrawn⟩ := htyped d hd
    rw [heq]
    simp only [Option.map_some, Option.some.injEq, exists_eq_left']
    constructor
    · intro htype
      rcases hl.kinds id (List.mem_of_getLast? hlast) with h | ⟨x, _, h⟩ |
        ⟨action, tag, type, hmem, hne, x, _, h⟩
      · exact Or.inl h
      · exact Or.inr ⟨x.id, h⟩
      · exact absurd (htype.symm.trans (hwithdrawn action tag type hmem x.id (hid.trans h))) hne
    · intro h
      exact hproposed (hid ▸ h)

/-! ## Steps -/

def Request.Fits (identity : String → Option String) (policy : GovernancePolicy)
    (reviewCase : DecisionReviewCase) (s : Store) : Request → Prop
  | .loaded .. => True
  | .storing events decisions w held found =>
    Planned identity policy reviewCase events decisions w ∧
      (Call.waiting w held found).Fits s ∧ Kept s (w.decision.toList.map (·.id))
  | .settled _ => True

structure Good (identity : String → Option String) (policy : GovernancePolicy)
    (reviewCase : DecisionReviewCase) (s : Review) : Prop where
  store : s.store.Good
  linked : Linked identity policy reviewCase s.store.events s.store.materializations
  typed : ∀ d ∈ s.store.decisions, Typed reviewCase d
  kept : Kept s.store s.store.materializations
  fits : ∀ r ∈ s.requests, r.Fits identity policy reviewCase s.store

theorem kept_mono (h : Kept s ids) (hsub : ∀ d ∈ s.decisions, d ∈ t.decisions) : Kept t ids := by
  intro id hid
  obtain ⟨d, hd, heq⟩ := h id hid
  exact ⟨d, hsub d hd, heq⟩

theorem request_fits_grows {r : Request}
    (h : r.Fits identity policy reviewCase s) (hgrow : Grows s t)
    (hsub : ∀ d ∈ s.decisions, d ∈ t.decisions) : r.Fits identity policy reviewCase t := by
  cases r with
  | loaded => trivial
  | storing events decisions w held found =>
    exact ⟨h.1, fits_grows h.2.1 hgrow, kept_mono h.2.2 hsub⟩
  | settled => trivial

/-- What a turn does to the log and to the ids: nothing, or one write. -/
def Moves (identity : String → Option String) (policy : GovernancePolicy)
    (reviewCase : DecisionReviewCase) (s t : Store) : Prop :=
  t.events = s.events ∧ t.materializations = s.materializations ∨
    ∃ e, t.events = s.events ++ [e] ∧
      Effect identity policy reviewCase s.events s.materializations e t.materializations

/-- A write in step keeps the log and the Decisions in step. -/
theorem write_keeps {w : Write} {held : Nat} {found : Bool} (hg : s.Good)
    (hl : Linked identity policy reviewCase s.events s.materializations)
    (hkept : Kept s s.materializations)
    (hp : Planned identity policy reviewCase events decisions w)
    (hin : InStep identity policy reviewCase events decisions w.event s)
    (hplace : InPlace s w held found) (hfits : (Call.waiting w held found).Fits s)
    (hdecision : Kept s (w.decision.toList.map (·.id))) :
    Moves identity policy reviewCase s (writeBack s w held found) ∧
      Linked identity policy reviewCase (writeBack s w held found).events
        (writeBack s w held found).materializations ∧
      Kept (writeBack s w held found) (writeBack s w held found).materializations := by
  obtain ⟨hlt, hpresent⟩ := hfits
  have hnew : found = false := by
    rw [Bool.eq_false_iff]
    intro hf
    obtain ⟨x, hx, hid, _⟩ := hpresent hf
    rw [← events_of_held hg hlt hplace.1] at hx
    exact hin.fresh x hx hid
  have hevents := writeBack_events hg hlt hplace
  rw [hnew, if_neg (by simp), ← hnew] at hevents
  have heff := effect_of_write hl (caseDecisions_isEmpty hkept) hp hin
  rw [hevents]
  refine ⟨Or.inr ⟨w.event, hevents, heff⟩, linked_of_effect hl hin.fresh heff, ?_⟩
  intro id hid
  have hmem : id ∈ s.materializations ∨ id ∈ w.decision.toList.map (·.id) := by
    simp only [writeBack, noteDecision] at hid
    rcases hd : w.decision with _ | d
    · rw [hd] at hid
      exact Or.inl hid
    · simp only [hd] at hid
      split at hid
      · exact Or.inl hid
      · simpa using hid
  rcases hmem with h | h
  · exact hkept id h
  · exact hdecision id h

/-- The submitted write, and the write after a wait, meet the case that the request read. -/
def turnInStep (dateParse : String → Option Int) (identity : String → Option String)
    (policy : GovernancePolicy) (reviewCase : DecisionReviewCase) (s : Review) : Turn → Bool
  | .read .. => true
  | .submit i clock =>
    match s.requests[i]? with
    | some (.loaded events decisions input reviewer) =>
      match reviewWrite dateParse identity policy reviewCase events decisions input reviewer clock
      with
      | .ok w => decide (InStep identity policy reviewCase events decisions w.event s.store)
      | .error _ => true
    | _ => true
  | .resume i =>
    match s.requests[i]? with
    | some (.storing events decisions w held found) =>
      decide (InStep identity policy reviewCase events decisions w.event s.store ∧
        InPlace s.store w held found)
    | _ => true

theorem submit_keeps {input : Json} {reviewer : Reviewer} {clock : Nat → Instant} (hg : s.Good)
    (hl : Linked identity policy reviewCase s.events s.materializations)
    (htyped : ∀ d ∈ s.decisions, Typed reviewCase d) (hkept : Kept s s.materializations)
    (hin : ∀ w, reviewWrite dateParse identity policy reviewCase events decisions input reviewer
      clock = .ok w → InStep identity policy reviewCase events decisions w.event s)
    {r : Request} (h : submitRequest dateParse identity policy reviewCase s events
      decisions input reviewer clock = (t, r)) :
    Good identity policy reviewCase { store := t, requests := [r] } ∧ Grows s t ∧
      (∀ d ∈ s.decisions, d ∈ t.decisions) ∧ Moves identity policy reviewCase s t := by
  unfold submitRequest at h
  rcases hw : reviewWrite dateParse identity policy reviewCase events decisions input reviewer clock
    with e | w
  · rw [hw] at h
    cases h
    exact ⟨⟨hg, hl, htyped, hkept, by simp [Request.Fits]⟩,
      ⟨fun r hr => ⟨hr, fun x hx => hx⟩, fun x hx => hx⟩, fun d hd => hd, Or.inl ⟨rfl, rfl⟩⟩
  · rw [hw] at h
    have hplanned := reviewWrite_planned hw
    obtain ⟨hgood, hgrow, hlt, _, hevents⟩ := openEvents_spec hg
    obtain ⟨hdec, hmat⟩ := openEvents_frame s
    rcases append_cases hg w with ⟨e, ha⟩ | ⟨found, hfound, hplace, ⟨hd, ha⟩ | ⟨d, after, hd, hap, ha⟩⟩
    · simp only [ha] at h
      cases h
      refine ⟨⟨hgood, ?_, ?_, ?_, by simp [Request.Fits]⟩, hgrow, ?_, Or.inl ⟨hevents, hmat⟩⟩
      · rw [hevents, hmat]
        exact hl
      · rw [hdec]
        exact htyped
      · rw [hmat]
        exact kept_mono hkept (by simp [hdec])
      · simp [hdec]
    · simp only [ha] at h
      cases h
      have hin' : InStep identity policy reviewCase events decisions w.event (openEvents s).1 := by
        obtain ⟨h1, h2, h3, h4, h5, h6, h7⟩ := hin w hw
        refine ⟨hevents ▸ h1, hevents ▸ h2, hevents ▸ h3, hevents ▸ h4, ?_, h6, h7⟩
        rw [← h5]
        simp [Store.caseDecisions, hdec, hmat]
      have hkept' : Kept (openEvents s).1 (openEvents s).1.materializations := by
        rw [hmat]
        exact kept_mono hkept (by simp [hdec])
      have hl' : Linked identity policy reviewCase (openEvents s).1.events
          (openEvents s).1.materializations := by
        rw [hevents, hmat]
        exact hl
      obtain ⟨hmoves, hlink, hk⟩ := write_keeps hgood hl' hkept' hplanned hin' hplace
        ⟨hlt, hfound⟩ (by simp [hd, Kept])
      refine ⟨⟨writeBack_good hgood hlt hplace, hlink, ?_, hk, by simp [Request.Fits]⟩,
        hgrow.trans (writeBack_grows hgood hlt hplace), ?_, ?_⟩
      · simpa [writeBack, hdec] using htyped
      · simp [writeBack, hdec]
      · unfold Moves at hmoves ⊢
        rw [hevents, hmat] at hmoves
        exact hmoves
    · simp only [ha] at h
      cases h
      obtain ⟨all, rfl, hsub, hstored, hnew⟩ := appendDecision_spec hap
      have hkept' : Kept { (openEvents s).1 with decisions := all } s.materializations :=
        kept_mono hkept (by rw [← hdec]; exact hsub)
      refine ⟨⟨⟨hgood.stored_lt, hgood.unstored, hgood.nodup⟩, ?_, ?_, ?_, ?_⟩,
        ⟨hgrow.arrays, hgrow.events⟩, by rw [← hdec]; exact hsub, Or.inl ⟨hevents, hmat⟩⟩
      · show Linked identity policy reviewCase (openEvents s).1.events
          (openEvents s).1.materializations
        rw [hevents, hmat]
        exact hl
      · intro x hx
        rcases hnew x hx with h1 | h1
        · exact htyped x (hdec ▸ h1)
        · exact h1 ▸ planned_typed hplanned hd
      · show Kept { (openEvents s).1 with decisions := all } (openEvents s).1.materializations
        rw [hmat]
        exact hkept'
      · intro r hr
        rw [List.mem_singleton] at hr
        subst hr
        exact ⟨hplanned, ⟨hlt, hfound⟩, by simpa [hd, Kept] using hstored⟩

theorem step_keeps {s t : Review} {a : Turn} (hg : Good identity policy reviewCase s)
    (hin : turnInStep dateParse identity policy reviewCase s a = true)
    (h : step dateParse identity policy reviewCase s a = some t) :
    Good identity policy reviewCase t ∧ Moves identity policy reviewCase s.store t.store := by
  cases a with
  | read input reviewer =>
    cases h
    refine ⟨⟨hg.store, hg.linked, hg.typed, hg.kept, fun r hr => ?_⟩, Or.inl ⟨rfl, rfl⟩⟩
    rcases List.mem_append.mp hr with h1 | h1
    · exact hg.fits r h1
    · rw [List.mem_singleton.mp h1]
      unfold readRequest
      split
      · trivial
      · split <;> trivial
  | submit i clock =>
    simp only [step] at h
    split at h
    · rename_i events decisions input reviewer hi
      rcases hsubmit : submitRequest dateParse identity policy reviewCase s.store events decisions
        input reviewer clock with ⟨store, request⟩
      rw [hsubmit] at h
      cases h
      have hcheck : ∀ w, reviewWrite dateParse identity policy reviewCase events decisions input
          reviewer clock = .ok w →
          InStep identity policy reviewCase events decisions w.event s.store := by
        intro w hw
        simpa [turnInStep, hi, hw] using hin
      obtain ⟨hgood, hgrow, hsub, hmoves⟩ :=
        submit_keeps hg.store hg.linked hg.typed hg.kept hcheck hsubmit
      refine ⟨⟨hgood.store, hgood.linked, hgood.typed, hgood.kept, fun r hr => ?_⟩, hmoves⟩
      rcases List.mem_or_eq_of_mem_set hr with h1 | h1
      · exact request_fits_grows (hg.fits r h1) hgrow hsub
      · exact hgood.fits r (by simp [h1])
    · cases h
  | resume i =>
    simp only [step] at h
    split at h
    · rename_i events decisions w held found hi
      cases h
      simp only [turnInStep, hi, decide_eq_true_eq] at hin
      obtain ⟨hp, hfits, hdecision⟩ := hg.fits _ (List.mem_of_getElem? hi)
      obtain ⟨hmoves, hlink, hk⟩ :=
        write_keeps hg.store hg.linked hg.kept hp hin.1 hin.2 hfits hdecision
      refine ⟨⟨writeBack_good hg.store hfits.1 hin.2, hlink, hg.typed, hk, fun r hr => ?_⟩, hmoves⟩
      rcases List.mem_or_eq_of_mem_set hr with h1 | h1
      · exact request_fits_grows (hg.fits r h1) (writeBack_grows hg.store hfits.1 hin.2)
          fun d hd => hd
      · rw [h1]
        trivial
    · cases h

/-! ## Rounds -/

/-- The number of the round that the next event belongs to. -/
def round (events : List DecisionReviewEvent) : Nat := (events.filter fun e => e.is .REOPEN).length

/-- The round of the Decision of the proposed type that a turn materializes. -/
def materialized (reviewCase : DecisionReviewCase) (s : Review) (_ : Turn) (t : Review) : List Nat :=
  if t.store.materializations ≠ s.store.materializations ∧
      t.store.caseDecisions.getLast?.map (·.type) = some reviewCase.proposedDecision.type then
    [round t.store.events]
  else []

structure RoundsGood (identity : String → Option String) (policy : GovernancePolicy)
    (reviewCase : DecisionReviewCase) (events : List DecisionReviewEvent) (rounds : List Nat) :
    Prop where
  nodup : rounds.Nodup
  past : ∀ k ∈ rounds, k ≤ round events
  current : round events ∈ rounds → stage identity policy reviewCase events ≠ .pending

theorem round_append (events : List DecisionReviewEvent) (e : DecisionReviewEvent) :
    round (events ++ [e]) = round events + if e.is .REOPEN then 1 else 0 := by
  unfold round
  rw [List.filter_append, List.length_append]
  cases h : e.is .REOPEN <;> simp [h]

theorem rounds_keep {s t : Review} {a : Turn} {rounds : List Nat}
    (ht : Good identity policy reviewCase t)
    (hmoves : Moves identity policy reviewCase s.store t.store)
    (hr : RoundsGood identity policy reviewCase s.store.events rounds) :
    RoundsGood identity policy reviewCase t.store.events
      (rounds ++ materialized reviewCase s a t) := by
  have hshows : materialized reviewCase s a t =
      if t.store.materializations ≠ s.store.materializations ∧
        stage identity policy reviewCase t.store.events = .approved then
        [round t.store.events]
      else [] := by
    unfold materialized
    simp only [lastDecision_proposed ht.typed ht.kept ht.linked, ← ht.linked.last]
  rw [hshows]
  rcases hmoves with ⟨hevents, hids⟩ | ⟨e, hevents, heff⟩
  · rw [if_neg (by simp [hids]), hevents, List.append_nil]
    exact hr
  · rw [hevents]
    have hround := round_append s.store.events e
    generalize hids : t.store.materializations = ids at heff
    cases heff with
    | completed id hreopen hbefore hafter hnew hid =>
      rw [hreopen, if_neg (by simp), Nat.add_zero] at hround
      rw [if_pos (by simp [hafter]), hround]
      have hnot : round s.store.events ∉ rounds := fun hmem => hr.current hmem hbefore
      refine ⟨List.nodup_append.mpr ⟨hr.nodup, by simp, ?_⟩, ?_, by simp [hafter]⟩
      · intro k hk l hl heq
        rw [List.mem_singleton] at hl
        exact hnot (hl ▸ heq ▸ hk)
      · intro k hk
        rcases List.mem_append.mp hk with h | h
        · exact hround ▸ hr.past k h
        · rw [List.mem_singleton.mp h, hround]
    | withdrawn action tag type hmem hreopen hbefore hafter htype =>
      rw [hreopen, if_neg (by simp), Nat.add_zero] at hround
      rw [if_neg (by simp [hafter]), List.append_nil]
      exact ⟨hr.nodup, hround ▸ hr.past, by simp [hafter]⟩
    | reopened hreopen hbefore hafter =>
      rw [hreopen, if_pos rfl] at hround
      rw [if_neg (by simp [hafter]), List.append_nil]
      refine ⟨hr.nodup, fun k hk => ?_, fun hmem => ?_⟩
      · have := hr.past k hk
        omega
      · have := hr.past _ hmem
        omega
    | noted hreopen hafter =>
      rw [hreopen, if_neg (by simp), Nat.add_zero] at hround
      rw [if_neg (by simp), List.append_nil]
      refine ⟨hr.nodup, hround ▸ hr.past, fun hmem hp => ?_⟩
      rw [hround] at hmem
      rcases hafter with h | ⟨_, h⟩
      · exact hr.current hmem (h ▸ hp)
      · rw [h] at hp
        cases hp

theorem good_start {claims : List Claim} (h : ∀ d ∈ decisions, Typed reviewCase d) :
    Good identity policy reviewCase (start claims decisions) := by
  have hstage : stage identity policy reviewCase [] = .pending := by
    simp [stage, activeEvents, terminal, satisfied_nil]
  refine ⟨⟨by simp [start], by simp [start], by simp [start, Store.events]⟩, ?_, h,
    by simp [start, Kept], by simp [start]⟩
  refine ⟨by simp [start], by simp [start], ?_, ?_⟩
  · simp [start, Store.events, lastReopen]
  · simp [start, Store.events, hstage]

/-- The case evaluates to an approved status exactly when its last Decision is the proposed one. -/
def InAgreement (dateParse : String → Option Int) (identity : String → Option String)
    (policy : GovernancePolicy) (reviewCase : DecisionReviewCase) (s : Store) : Prop :=
  ∀ now ev, evaluateDecisionReviewCase dateParse identity policy reviewCase s.events now = .ok ev →
    (ev.status ∈ [.APPROVED, .POST_REVIEW_OVERDUE] ↔
      s.caseDecisions.getLast?.map (·.type) = some reviewCase.proposedDecision.type)

end Laws

/-- For every interleaving of requests on one case: when each event is written to the case that
its request read, the evaluation and the last Decision agree in every state, and no round has two
Decisions of the proposed type. -/
theorem reviews_and_decisions_agree (dateParse : String → Option Int)
    (identity : String → Option String) (policy : GovernancePolicy)
    (reviewCase : DecisionReviewCase) (claims : List Claim) (decisions : List Decision)
    (htyped : ∀ d ∈ decisions, Typed reviewCase d) (schedule : List Turn) (s : Review)
    (rounds : List Nat)
    (h : Machine.run (Machine.watch (step dateParse identity policy reviewCase)
      (materialized reviewCase)) (start claims decisions, []) schedule = some (s, rounds))
    (hc : Machine.Along (Machine.watch (step dateParse identity policy reviewCase)
      (materialized reviewCase))
      (fun s a => turnInStep dateParse identity policy reviewCase s.1 a = true)
      (start claims decisions, []) schedule) :
    InAgreement dateParse identity policy reviewCase s.store ∧ rounds.Nodup := by
  have hkeep : ∀ p a q, (Good identity policy reviewCase p.1 ∧
      RoundsGood identity policy reviewCase p.1.store.events p.2) →
      turnInStep dateParse identity policy reviewCase p.1 a = true →
      Machine.watch (step dateParse identity policy reviewCase) (materialized reviewCase) p a =
        some q →
      Good identity policy reviewCase q.1 ∧
        RoundsGood identity policy reviewCase q.1.store.events q.2 := by
    intro p a q hp hin hst
    obtain ⟨hst', hseen⟩ := Machine.watch_some hst
    obtain ⟨hgood, hmoves⟩ := step_keeps hp.1 hin hst'
    exact ⟨hgood, hseen ▸ rounds_keep hgood hmoves hp.2⟩
  obtain ⟨hgood, hrounds⟩ := Machine.run_keeps_along hkeep h hc
    ⟨good_start htyped, by simp, by simp, by simp⟩
  refine ⟨fun now ev hev => ?_, hrounds.nodup⟩
  rw [(stage_of_evaluate hev).2.1, hgood.linked.last,
    lastDecision_proposed hgood.typed hgood.kept hgood.linked]

/-! ## Approvals in a row, and approvals that cross -/

def unread : String → Option Int := fun _ => some 1000

/-- Every actor is their own person. -/
def ownIdentity : String → Option String := some

def owners : GovernancePolicy := { approvalRoles := ["OWNER"], lifecycleRoles := ["OWNER"] }

def dualCase : DecisionReviewCase :=
  { id := "CASE", claimId := "CL", claimVersion := one, scopeId := "SC", scopeVersion := one
    approvalMode := enumJson DecisionApprovalMode.DUAL
    proposedDecision := { id := "D", type := enumJson DecisionType.CONFIRMED, content := none,
                          evidenceRefs := [], validUntil := none }
    postReviewDueAt := none, proposerId := "peter", expiresAt := "2026-02-01T00:00:00.000Z" }

def request (id action : String) : Json :=
  .obj [("id", .str id), ("action", .str action), ("rationale", .str "checked")]

def owner (actorId : String) : Reviewer := { actorId, actorRole := "OWNER" }

def early : Nat → Instant := fun _ => { time := 0, iso := "2026-01-01T00:00:00.000Z" }

/-- Approved, revoked, reopened, and approved again. -/
def inARow : List Turn :=
  [.read (request "E1" "APPROVE") (owner "alice"), .submit 0 early,
    .read (request "E2" "APPROVE") (owner "bob"), .submit 1 early, .resume 1,
    .read (request "E3" "REVOKE") (owner "alice"), .submit 2 early, .resume 2,
    .read (request "E4" "REOPEN") (owner "alice"), .submit 3 early,
    .read (request "E5" "APPROVE") (owner "alice"), .submit 4 early,
    .read (request "E6" "APPROVE") (owner "bob"), .submit 5 early, .resume 5]

theorem approvals_in_a_row_agree :
    ∃ s, Machine.run (Machine.watch (step unread ownIdentity owners dualCase)
        (materialized dualCase)) (start [claim] [], []) inARow = some (s, [0, 1]) ∧
      s.store.materializations = ["D", "D:REVOKE:E3", "D:REOPEN:E4"] ∧
      InAgreement unread ownIdentity owners dualCase s.store ∧ [0, 1].Nodup := by
  have hrun : (Machine.run (Machine.watch (step unread ownIdentity owners dualCase)
      (materialized dualCase)) (start [claim] [], []) inARow).map
      (fun p => (p.2, p.1.store.materializations)) =
      some ([0, 1], ["D", "D:REVOKE:E3", "D:REOPEN:E4"]) := by decide +kernel
  obtain ⟨⟨s, rounds⟩, hs, he⟩ := Option.map_eq_some_iff.mp hrun
  simp only [Prod.mk.injEq] at he
  obtain ⟨rfl, hids⟩ := he
  exact ⟨s, hs, hids, reviews_and_decisions_agree unread ownIdentity owners dualCase [claim] []
    (by simp) inARow s [0, 1] hs (by decide +kernel)⟩

def crossing : List Turn :=
  [.read (request "E1" "APPROVE") (owner "alice"), .read (request "E2" "APPROVE") (owner "bob"),
    .submit 0 early, .submit 1 early]

/-- Each approval is evaluated without the other, so the approved case has no Decision. -/
theorem crossing_approvals_disagree :
    ¬ ∀ (claims : List Claim) (decisions : List Decision) (schedule : List Turn) (s : Review)
      (rounds : List Nat), Machine.run (Machine.watch (step unread ownIdentity owners dualCase)
        (materialized dualCase)) (start claims decisions, []) schedule = some (s, rounds) →
      InAgreement unread ownIdentity owners dualCase s.store ∧ rounds.Nodup := by
  intro h
  have hrun : (Machine.run (Machine.watch (step unread ownIdentity owners dualCase)
      (materialized dualCase)) (start [claim] [], []) crossing).map
      (fun p => ((evaluateDecisionReviewCase unread ownIdentity owners dualCase p.1.store.events
        (early 0)).toOption.map (·.status), p.1.store.caseDecisions)) =
      some (some .APPROVED, []) := by decide +kernel
  obtain ⟨⟨s, rounds⟩, hs, he⟩ := Option.map_eq_some_iff.mp hrun
  simp only [Prod.mk.injEq] at he
  obtain ⟨hstatus, hdecisions⟩ := he
  rcases hev : evaluateDecisionReviewCase unread ownIdentity owners dualCase s.store.events (early 0)
    with e | ev
  · simp [hev, Except.toOption] at hstatus
  · have happroved : ev.status = .APPROVED := by simpa [hev, Except.toOption] using hstatus
    have hagree := ((h _ _ _ s rounds hs).1 (early 0) ev hev).mp (by simp [happroved])
    simp [hdecisions] at hagree

end Traqen.DecisionReview
