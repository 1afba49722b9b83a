-- Separation of duty (`domain/decision-governance.js`): what an evaluation that lets a Decision be
-- made says of the people who approved it.
import Traqen.DecisionGovernance

open Js

namespace Traqen.SeparationOfDuty

/-! ## The last round -/

/-- The events after the last REOPEN, if there is one. -/
structure LastRound (events active : List DecisionReviewEvent) : Prop where
  split : ∃ before, events = before ++ active ∧ ∀ e ∈ before.getLast?, e.is .REOPEN = true
  noReopen : ∀ e ∈ active, e.is .REOPEN = false

theorem lastRound (events : List DecisionReviewEvent) : LastRound events (activeEvents events) := by
  refine ⟨⟨(events.reverse.dropWhile fun e => !e.is .REOPEN).reverse, ?_, fun e he => ?_⟩,
    fun e he => ?_⟩
  · rw [activeEvents, ← List.reverse_append, List.takeWhile_append_dropWhile, List.reverse_reverse]
  · rw [List.getLast?_reverse] at he
    have hhead := List.head?_dropWhile_not (fun e => !e.is .REOPEN) events.reverse
    rw [Option.mem_def.mp he] at hhead
    simpa using hhead
  · have hkept := List.mem_takeWhile_imp (List.mem_reverse.mp he)
    simpa using hkept

/-! ## Approvals -/

section Approvals

variable (identity : String → Option String) (reviewCase : DecisionReviewCase)

/-- The person, who is not the proposer and both of whom are known, approved in one of the roles in
the last round. -/
def Approved (events : List DecisionReviewEvent) (person : String) (roles : List String) : Prop :=
  ∃ e ∈ activeEvents events, e.is .APPROVE = true ∧ actorIdentity identity e.actorId = some person ∧
    e.actorRole ∈ roles ∧
    ∃ proposer, actorIdentity identity reviewCase.proposerId = some proposer ∧ person ≠ proposer

variable {identity reviewCase} {events : List DecisionReviewEvent} {roles : List String}

theorem mem_validApprovals {e : DecisionReviewEvent} :
    e ∈ validApprovals identity reviewCase roles (activeEvents events) ↔
      e ∈ activeEvents events ∧ e.is .APPROVE = true ∧ e.actorRole ∈ roles ∧
        ∃ person, actorIdentity identity e.actorId = some person ∧
          ∃ proposer, actorIdentity identity reviewCase.proposerId = some proposer ∧
            person ≠ proposer := by
  unfold validApprovals validApproval
  rw [List.mem_filter, List.mem_filter, Bool.and_eq_true, Bool.and_eq_true, Bool.and_eq_true,
    decide_eq_true_eq, decide_eq_true_eq, Option.isSome_iff_exists, Option.isSome_iff_exists]
  constructor
  · rintro ⟨⟨hmem, happrove⟩, ⟨⟨⟨proposer, hproposer⟩, ⟨person, hperson⟩⟩, hne⟩, hrole⟩
    refine ⟨hmem, happrove, hrole, person, hperson, proposer, hproposer, ?_⟩
    rintro rfl
    exact hne (hperson.trans hproposer.symm)
  · rintro ⟨hmem, happrove, hrole, person, hperson, proposer, hproposer, hne⟩
    refine ⟨⟨hmem, happrove⟩, ⟨⟨⟨proposer, hproposer⟩, ⟨person, hperson⟩⟩, ?_⟩, hrole⟩
    rw [hperson, hproposer]
    exact fun heq => hne (Option.some.inj heq)

theorem mem_distinctValidActors {actor : Option String} :
    actor ∈ distinctValidActors identity reviewCase roles (activeEvents events) ↔
      ∃ person, actor = some person ∧ Approved identity reviewCase events person roles := by
  unfold distinctValidActors
  rw [List.mem_dedup, List.mem_map]
  constructor
  · rintro ⟨e, he, rfl⟩
    obtain ⟨hmem, happrove, hrole, person, hperson, hproposer⟩ := mem_validApprovals.mp he
    exact ⟨person, hperson, e, hmem, happrove, hperson, hrole, hproposer⟩
  · rintro ⟨person, rfl, e, hmem, happrove, hperson, hrole, hproposer⟩
    exact ⟨e, mem_validApprovals.mpr ⟨hmem, happrove, hrole, person, hperson, hproposer⟩, hperson⟩

/-- Enough distinct people approved. -/
theorem one_approved (h : 1 ≤
    (distinctValidActors identity reviewCase roles (activeEvents events)).length) :
    ∃ person, Approved identity reviewCase events person roles := by
  obtain ⟨actor, hactor⟩ := List.exists_mem_of_length_pos h
  obtain ⟨person, -, happroved⟩ := mem_distinctValidActors.mp hactor
  exact ⟨person, happroved⟩

theorem two_approved (h : 2 ≤
    (distinctValidActors identity reviewCase roles (activeEvents events)).length) :
    ∃ person other, person ≠ other ∧ Approved identity reviewCase events person roles ∧
      Approved identity reviewCase events other roles := by
  have hnodup : (distinctValidActors identity reviewCase roles (activeEvents events)).Nodup :=
    List.nodup_dedup _
  have hmem := fun actor => @mem_distinctValidActors identity reviewCase events roles actor
  rcases hactors : distinctValidActors identity reviewCase roles (activeEvents events) with
    _ | ⟨a, _ | ⟨b, rest⟩⟩
  · rw [hactors] at h
    simp at h
  · rw [hactors] at h
    simp at h
  · rw [hactors] at hnodup hmem
    obtain ⟨person, rfl, hperson⟩ := (hmem a).mp (by simp)
    obtain ⟨other, rfl, hother⟩ := (hmem b).mp (by simp)
    refine ⟨person, other, ?_, hperson, hother⟩
    rintro rfl
    simp at hnodup

/-- Two groups that each have a member, and two people each of whom is in a group: then the groups
have distinct members. -/
theorem distinct_representatives {α : Type} {p q : α → Prop} {x y a b : α} (hx : p x) (hy : q y)
    (hab : a ≠ b) (ha : p a ∨ q a) (hb : p b ∨ q b) : ∃ x y, x ≠ y ∧ p x ∧ q y := by
  by_cases hxy : x = y
  · -- One person represents both groups: another one of the two takes one of them over.
    subst hxy
    have hother : ∀ c, c ≠ x → p c ∨ q c → ∃ x y, x ≠ y ∧ p x ∧ q y := by
      rintro c hc (hpc | hqc)
      · exact ⟨c, x, hc, hpc, hy⟩
      · exact ⟨x, c, hc.symm, hx, hqc⟩
    by_cases hax : a = x
    · exact hother b (fun hbx => hab (hax.trans hbx.symm)) hb
    · exact hother a hax ha
  · exact ⟨x, y, hxy, hx, hy⟩

/-! ## The law -/

variable {dateParse : String → Option Int} {policy : GovernancePolicy} {now : Instant}
  {evaluation : Evaluation}

/-- No event of the round ends it. -/
theorem no_terminal {active : List DecisionReviewEvent} (h : (terminal active).isNone = true) :
    ∀ e ∈ active, e.is .REJECT = false ∧ e.is .REVOKE = false ∧ e.is .DISPUTE = false := by
  intro e he
  have hnone : terminalStatus e = none := by
    unfold terminal at h
    rw [Option.isNone_iff_eq_none, List.findSome?_eq_none_iff] at h
    exact h e (List.mem_reverse.mpr he)
  unfold terminalStatus at hnone
  cases hreject : e.is .REJECT <;> cases hrevoke : e.is .REVOKE <;> cases hdispute : e.is .DISPUTE
  all_goals simp [hreject, hrevoke, hdispute] at hnone ⊢

theorem configuredRoles_ok {roles checked : List String} {fieldName : String}
    (h : configuredRoles roles fieldName = .ok checked) : checked = roles := by
  unfold configuredRoles at h
  by_cases hblank : roles.any isBlank = true
  · rw [if_pos hblank] at h
    cases h
  · rw [if_neg hblank] at h
    exact (Except.ok.inj h).symm

theorem evaluated (h : evaluateDecisionReviewCase dateParse identity policy reviewCase events now =
    .ok evaluation) (hmay : evaluation.mayMaterializeDecision = true) :
    ∃ roles, allowedRoles policy reviewCase = .ok roles ∧
      minimumApprovals reviewCase ≤
        (distinctValidActors identity reviewCase roles (activeEvents events)).length ∧
      roleGroupsSatisfied identity policy reviewCase roles (activeEvents events) = true ∧
      (terminal (activeEvents events)).isNone = true := by
  obtain ⟨roles, hroles, h⟩ := bind_ok h
  cases h
  dsimp only at hmay
  rw [Bool.and_eq_true, approvalSatisfied, Bool.and_eq_true, decide_eq_true_eq] at hmay
  exact ⟨roles, hroles, hmay.1.1, hmay.1.2, hmay.2⟩

/-- One person approved in a role of the group. -/
theorem group_approved {group : List String}
    (h : (group.any fun role => (validApprovals identity reviewCase roles
      (activeEvents events)).any fun e => e.actorRole = role) = true) :
    ∃ person, Approved identity reviewCase events person group := by
  obtain ⟨role, hrole, h⟩ := List.any_eq_true.mp h
  obtain ⟨e, he, heq⟩ := List.any_eq_true.mp h
  obtain ⟨hmem, happrove, -, person, hperson, hproposer⟩ := mem_validApprovals.mp he
  exact ⟨person, e, hmem, happrove, hperson, of_decide_eq_true heq ▸ hrole, hproposer⟩

theorem approved_mono {person : String} {first second : List String}
    (hsub : ∀ role, role ∈ first → role ∈ second)
    (h : Approved identity reviewCase events person first) :
    Approved identity reviewCase events person second := by
  obtain ⟨e, hmem, happrove, hperson, hrole, hproposer⟩ := h
  exact ⟨e, hmem, happrove, hperson, hsub _ hrole, hproposer⟩

theorem approved_append {person : String} {first second : List String}
    (h : Approved identity reviewCase events person (first ++ second)) :
    Approved identity reviewCase events person first ∨
      Approved identity reviewCase events person second := by
  obtain ⟨e, hmem, happrove, hperson, hrole, hproposer⟩ := h
  rcases List.mem_append.mp hrole with hrole | hrole
  · exact .inl ⟨e, hmem, happrove, hperson, hrole, hproposer⟩
  · exact .inr ⟨e, hmem, happrove, hperson, hrole, hproposer⟩

theorem mode_eq {m : DecisionApprovalMode} (h : mode reviewCase m = true)
    (other : DecisionApprovalMode) : mode reviewCase other = decide (m = other) := by
  unfold mode at h ⊢
  rw [of_decide_eq_true h]
  cases m <;> cases other <;> decide

/-- The roles that count, by the mode. -/
theorem allowedRoles_ok {roles : List String} (h : allowedRoles policy reviewCase = .ok roles) :
    roles =
      if mode reviewCase .BUSINESS_COMPLIANCE then policy.businessRoles ++ policy.complianceRoles
      else if mode reviewCase .BREAK_GLASS then policy.breakGlassRoles
      else policy.approvalRoles := by
  obtain ⟨approvalRoles, happroval, h⟩ := bind_ok h
  obtain rfl := configuredRoles_ok happroval
  by_cases hboth : mode reviewCase .BUSINESS_COMPLIANCE = true
  · rw [if_pos hboth] at h ⊢
    obtain ⟨businessRoles, hbusiness, h⟩ := bind_ok h
    obtain ⟨complianceRoles, hcompliance, h⟩ := bind_ok h
    rw [← configuredRoles_ok hbusiness, ← configuredRoles_ok hcompliance]
    exact (Except.ok.inj h).symm
  · rw [if_neg hboth] at h ⊢
    by_cases hglass : mode reviewCase .BREAK_GLASS = true
    · rw [if_pos hglass] at h ⊢
      exact configuredRoles_ok h
    · rw [if_neg hglass] at h ⊢
      exact (Except.ok.inj h).symm

/-- Where a Decision may be made, nothing ended the last round, and the people who approved it are
known, are not the proposer, and are two where the mode asks for two. -/
theorem separation_of_duty (h : evaluateDecisionReviewCase dateParse identity policy reviewCase
      events now = .ok evaluation) (hmay : evaluation.mayMaterializeDecision = true) :
    LastRound events (activeEvents events) ∧
    (∀ e ∈ activeEvents events,
      e.is .REJECT = false ∧ e.is .REVOKE = false ∧ e.is .DISPUTE = false) ∧
    (mode reviewCase .SINGLE = true →
      ∃ person, Approved identity reviewCase events person policy.approvalRoles) ∧
    (mode reviewCase .BREAK_GLASS = true →
      ∃ person, Approved identity reviewCase events person policy.breakGlassRoles) ∧
    (mode reviewCase .DUAL = true → ∃ person other, person ≠ other ∧
      Approved identity reviewCase events person policy.approvalRoles ∧
      Approved identity reviewCase events other policy.approvalRoles) ∧
    (mode reviewCase .BUSINESS_COMPLIANCE = true → ∃ person other, person ≠ other ∧
      Approved identity reviewCase events person policy.businessRoles ∧
      Approved identity reviewCase events other policy.complianceRoles) := by
  obtain ⟨roles, hroles, hmany, hgroups, hterminal⟩ := evaluated h hmay
  have hroles := allowedRoles_ok hroles
  have hpositive : 1 ≤ minimumApprovals reviewCase := by
    unfold minimumApprovals
    by_cases htwo : (mode reviewCase .DUAL || mode reviewCase .BUSINESS_COMPLIANCE) = true
    · rw [if_pos htwo]
      decide
    · rw [if_neg htwo]
  refine ⟨lastRound events, no_terminal hterminal, fun hmode => ?_, fun hmode => ?_,
    fun hmode => ?_, fun hmode => ?_⟩
  · have hboth : mode reviewCase .BUSINESS_COMPLIANCE = false := mode_eq hmode _
    have hglass : mode reviewCase .BREAK_GLASS = false := mode_eq hmode _
    simp only [hboth, hglass, Bool.false_eq_true, if_false] at hroles
    exact one_approved (hroles ▸ hpositive.trans hmany)
  · have hboth : mode reviewCase .BUSINESS_COMPLIANCE = false := mode_eq hmode _
    simp only [hboth, hmode, Bool.false_eq_true, if_false, if_true] at hroles
    exact one_approved (hroles ▸ hpositive.trans hmany)
  · have hboth : mode reviewCase .BUSINESS_COMPLIANCE = false := mode_eq hmode _
    have hglass : mode reviewCase .BREAK_GLASS = false := mode_eq hmode _
    simp only [hboth, hglass, Bool.false_eq_true, if_false] at hroles
    have htwo : minimumApprovals reviewCase = 2 := by simp [minimumApprovals, hmode]
    exact two_approved (hroles ▸ htwo ▸ hmany)
  · have htwo : minimumApprovals reviewCase = 2 := by simp [minimumApprovals, hmode]
    simp only [hmode, if_true] at hroles
    subst hroles
    obtain ⟨a, c, hac, ha, hc⟩ := two_approved (htwo ▸ hmany)
    have hgroup : requiredRoleGroups policy reviewCase =
        [policy.businessRoles.eraseDups, policy.complianceRoles.eraseDups] := if_pos hmode
    unfold roleGroupsSatisfied at hgroups
    rw [hgroup, List.all_cons, List.all_cons, Bool.and_eq_true, Bool.and_eq_true] at hgroups
    obtain ⟨business, hbusiness⟩ := group_approved hgroups.1
    obtain ⟨compliance, hcompliance⟩ := group_approved hgroups.2.1
    exact distinct_representatives (approved_mono (fun _ => List.mem_eraseDups.mp) hbusiness)
      (approved_mono (fun _ => List.mem_eraseDups.mp) hcompliance) hac (approved_append ha)
      (approved_append hc)

end Approvals

/-! ## Two people, one of them in both roles -/

def bothRoles : GovernancePolicy where
  businessRoles := ["business-owner"]
  complianceRoles := ["compliance-owner"]

/-- The two accounts of Ann are one person. -/
def people (actorId : String) : Option String :=
  [("proposer", "P"), ("ann", "A"), ("ann-2", "A"), ("bob", "B")].lookup actorId

def payoutCase : DecisionReviewCase where
  id := "CASE-1"
  claimId := "CLAIM-1"
  claimVersion := Number.ofNat 1
  scopeId := "SCOPE-1"
  scopeVersion := Number.ofNat 1
  approvalMode := enumJson DecisionApprovalMode.BUSINESS_COMPLIANCE
  proposedDecision :=
    { id := "D", type := enumJson DecisionType.CONFIRMED, content := none, evidenceRefs := []
      validUntil := none }
  postReviewDueAt := none
  proposerId := "proposer"
  expiresAt := ""

def approvalBy (id actorId actorRole : String) : DecisionReviewEvent :=
  { id, caseId := "CASE-1", action := enumJson DecisionReviewAction.APPROVE, actorId, actorRole
    rationale := "checked", createdAt := "" }

def annInBothRoles : List DecisionReviewEvent :=
  [approvalBy "1" "ann" "business-owner", approvalBy "2" "ann-2" "compliance-owner"]

/-- Ann alone is not enough, however many accounts she has. -/
example : (evaluateDecisionReviewCase (fun _ => none) people bothRoles payoutCase annInBothRoles
    { time := 0, iso := "" }).toOption.map (·.mayMaterializeDecision) = some false := by
  decide

def withBob : List DecisionReviewEvent :=
  annInBothRoles ++ [approvalBy "3" "bob" "business-owner"]

theorem withBob_evaluated : (evaluateDecisionReviewCase (fun _ => none) people bothRoles payoutCase
    withBob { time := 0, iso := "" }).toOption.isSome = true := by
  decide

theorem ann_and_bob : ∃ person other, person ≠ other ∧
    Approved people payoutCase withBob person ["business-owner"] ∧
    Approved people payoutCase withBob other ["compliance-owner"] :=
  (separation_of_duty (ok_get withBob_evaluated) (by decide)).2.2.2.2.2 (by decide)

end Traqen.SeparationOfDuty
