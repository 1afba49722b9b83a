-- What is published (`publication-service.js`), over whole histories of a workspace: the rows that a
-- confirmation rests on, the one operation that a run commits, and the answers of its repetitions.
import Traqen.SourceLifecycle

open Js

namespace Traqen.SourceReceipts

open SourceRuns SourcePublication SourceLifecycle

/-! ## Confirmations -/

/-- The key of a gap, which is unique. -/
def gapKeyOf (g : Gap) : String × String := (g.componentId, g.gapKey)

/-- The gap that an acceptance is of. -/
def acceptedKey (a : Acceptance) : String × String := (a.componentId, a.gapKey)

/-- A confirmation is of this candidate, with its gaps. -/
structure Names (c : Confirmation) (p : Candidate) : Prop where
  run : p.runId = c.runId
  candidateId : c.candidateId = p.id
  payload : c.payload.candidateId = p.id
  gapSetId : c.payload.gapSetId = p.payload.gapSetId
  gapCount : c.payload.gapCount = p.counts.gapCount
  expiresAt : c.expiresAt = c.payload.expiresAt

/-- A run has one candidate, an acceptance is of a gap of the candidate of its run, and so is what is
bound to a confirmation. -/
structure Confirmable (s : State) : Prop where
  prepared : (s.prepared.map Candidate.runId).Nodup
  gapCount : ∀ p ∈ s.prepared, p.counts.gapCount = (gapsOf s.gaps p).length
  acceptances : (s.acceptances.map Acceptance.id).Nodup
  accepted : ∀ a ∈ s.acceptances, ∃ p ∈ s.prepared, p.runId = a.runId ∧
    acceptedKey a ∈ (gapsOf s.gaps p).map gapKeyOf
  confirmations : (s.confirmations.map Confirmation.id).Nodup
  named : ∀ c ∈ s.confirmations, ∃ p ∈ s.prepared, Names c p
  confirmed : ∀ b ∈ s.confirmed, ∃ c ∈ s.confirmations, c.id = b.1 ∧
    ∃ a ∈ s.acceptances, a.id = b.2 ∧ a.runId = c.runId

variable {access : Authorization} {actorId clientToken confirmationId runId : String}

section Confirmable

variable {s t : State}

theorem nodup_append_singleton {α κ : Type} {key : α → κ} {rows : List α} {row : α}
    (h : (rows.map key).Nodup) (hfresh : ∀ r ∈ rows, key r ≠ key row) :
    ((rows ++ [row]).map key).Nodup := by
  rw [List.map_append, List.map_singleton, List.nodup_append]
  refine ⟨h, List.nodup_singleton _, ?_⟩
  intro a ha b hb
  obtain ⟨r, hr, rfl⟩ := List.mem_map.mp ha
  rw [List.mem_singleton.mp hb]
  exact hfresh r hr

theorem initial_confirmable : Confirmable SourcePublication.initial := by
  refine ⟨List.nodup_nil, ?_, List.nodup_nil, ?_, List.nodup_nil, ?_, ?_⟩
  all_goals
    intro x hx
    cases hx

theorem gapsOf_append {gaps new : List Gap} {p : Candidate}
    (h : ∀ g ∈ new, g.componentId ∉ p.payload.components.map ComponentRef.id) :
    gapsOf (gaps ++ new) p = gapsOf gaps p := by
  have hnone : gapsOf new p = [] := by
    refine List.filter_eq_nil_iff.mpr fun g hg => ?_
    simpa using h g hg
  unfold gapsOf at hnone ⊢
  rw [List.filter_append, hnone, List.append_nil]

/-- The rows of confirmations do not rest on other rows. -/
theorem confirmable_rows (hs : Confirmable s) (hprepared : t.prepared = s.prepared)
    (hgaps : t.gaps = s.gaps) (hacceptances : t.acceptances = s.acceptances)
    (hconfirmations : t.confirmations = s.confirmations) (hconfirmed : t.confirmed = s.confirmed) :
    Confirmable t :=
  ⟨hprepared ▸ hs.prepared, hprepared ▸ hgaps ▸ hs.gapCount, hacceptances ▸ hs.acceptances,
    hacceptances ▸ hprepared ▸ hgaps ▸ hs.accepted, hconfirmations ▸ hs.confirmations,
    hconfirmations ▸ hprepared ▸ hs.named,
    hconfirmed ▸ hconfirmations ▸ hacceptances ▸ hs.confirmed⟩

theorem confirmable_prepare {candidate : Candidate} {gaps : List Gap}
    (hs : Confirmable s) (h : prepare candidate gaps s = some t) : Confirmable t := by
  obtain ⟨hrun, hnew, hcount, rfl⟩ := prepare_some h
  have hsame : ∀ p ∈ s.prepared, gapsOf (s.gaps ++ gaps) p = gapsOf s.gaps p :=
    fun p hp => gapsOf_append fun g hg => hnew g hg p hp
  refine ⟨nodup_append_singleton hs.prepared hrun, ?_, hs.acceptances, ?_, hs.confirmations, ?_,
    hs.confirmed⟩
  · intro p hp
    rcases List.mem_append.mp hp with hold | hnew
    · rw [hs.gapCount p hold, hsame p hold]
    · rw [List.mem_singleton.mp hnew]
      exact hcount
  · intro a ha
    obtain ⟨p, hp, hrun, hkey⟩ := hs.accepted a ha
    refine ⟨p, List.mem_append_left _ hp, hrun, ?_⟩
    rw [hsame p hp]
    exact hkey
  · intro c hc
    obtain ⟨p, hp, hnames⟩ := hs.named c hc
    exact ⟨p, List.mem_append_left _ hp, hnames⟩

theorem confirmable_accept {dateParse : String → Option Int}
    {id : String} {input : GapInput} {row : Acceptance} (hs : Confirmable s)
    (h : acceptCandidateGap dateParse access actorId runId input id s = .ok (t, row)) :
    Confirmable t := by
  obtain rfl | ⟨candidate, hmem, hrun, ⟨g, hg, hcomponent, hgap⟩, hknown, hrow, -, -, hfresh, rfl⟩ :=
    acceptCandidateGap_ok h
  · exact hs
  refine ⟨hs.prepared, hs.gapCount, nodup_append_singleton hs.acceptances hfresh, ?_,
    hs.confirmations, hs.named, ?_⟩
  · intro a ha
    rcases List.mem_append.mp ha with hold | hnew
    · exact hs.accepted a hold
    · rw [List.mem_singleton.mp hnew]
      refine ⟨candidate, hmem, hrun.trans hrow.symm, List.mem_map.mpr ⟨g, ?_, ?_⟩⟩
      · unfold gapsOf
        rw [List.mem_filter, hcomponent]
        exact ⟨hg, decide_eq_true hknown⟩
      · rw [gapKeyOf, acceptedKey, hcomponent, hgap]
  · intro b hb
    obtain ⟨c, hc, hcid, a, ha, haid⟩ := hs.confirmed b hb
    exact ⟨c, hc, hcid, a, List.mem_append_left _ ha, haid⟩

theorem mem_latestGapAcceptances {candidateId : String} {a : Acceptance}
    (h : a ∈ s.latestGapAcceptances runId candidateId) : a ∈ s.acceptances ∧ a.runId = runId := by
  unfold State.latestGapAcceptances at h
  have hrows := List.mem_filter.mp (List.mem_filter.mp h).1
  exact ⟨hrows.1, (of_decide_eq_true hrows.2).1⟩

theorem confirmable_confirm {dateParse : String → Option Int}
    {id : String} {input : ConfirmInput} {row : Confirmation} (hs : Confirmable s)
    (h : confirmCandidate dateParse access actorId runId input id s = .ok (t, row)) :
    Confirmable t := by
  obtain rfl | ⟨run, candidate, -, -, hmem, hrun, hrow, hfresh, -, hcandidate, hpayload, hgapSet,
    hgapCount, hexpires, rfl⟩ := confirmCandidate_ok h
  · exact hs
  refine ⟨hs.prepared, hs.gapCount, hs.acceptances, hs.accepted,
    nodup_append_singleton hs.confirmations hfresh, ?_, ?_⟩
  · intro c hc
    rcases List.mem_append.mp hc with hold | hnew
    · exact hs.named c hold
    · rw [List.mem_singleton.mp hnew]
      exact ⟨candidate, hmem, hrun.trans hrow.symm, hcandidate, hpayload, hgapSet, hgapCount, hexpires⟩
  · intro b hb
    rcases List.mem_append.mp hb with hold | hnew
    · obtain ⟨c, hc, hbound⟩ := hs.confirmed b hold
      exact ⟨c, List.mem_append_left _ hc, hbound⟩
    · refine ⟨row, List.mem_append_right _ (List.mem_singleton_self row), ?_⟩
      split_ifs at hnew with hindividual
      · obtain ⟨a, ha, rfl⟩ := List.mem_map.mp hnew
        obtain ⟨hacceptance, haccrun⟩ := mem_latestGapAcceptances ha
        exact ⟨rfl, a, hacceptance, rfl, haccrun.trans hrow.symm⟩
      · cases hnew

end Confirmable

/-! ## What stands at a commit -/

/-- At the commit of an operation: the latest confirmation of the run is its confirmation and names the
candidate of the run; with gaps it has not expired, and of single acceptances exactly one of each gap
is bound to it, each of which expires later. -/
structure Endorsed (s : State) (o : Operation) (c : Confirmation) (p : Candidate) : Prop where
  latest : s.latestConfirmation o.runId = some c
  confirmation : c.id = o.confirmationId
  prepared : s.candidate? o.runId = some p
  names : Names c p
  unexpired : gapsOf s.gaps p ≠ [] → leaseValid c.expiresAt s.store.clock
  individual : gapsOf s.gaps p ≠ [] → c.payload.individual.isSome = true →
    (∀ g ∈ gapsOf s.gaps p, ∃! a, a ∈ s.boundAcceptances c.id ∧ acceptedKey a = gapKeyOf g) ∧
    ∀ a ∈ s.boundAcceptances c.id, a.candidateId = p.id ∧ s.store.clock < a.expiresAt

variable {c : Confirmation}

section Endorsed

variable {s : State}

theorem candidate?_eq {p : Candidate} (hs : Confirmable s) (hp : p ∈ s.prepared) :
    s.candidate? p.runId = some p := by
  cases hfound : s.candidate? p.runId with
  | none => simpa using List.find?_eq_none.mp hfound p hp
  | some found =>
    obtain ⟨hmem, hrun⟩ := candidate?_some hfound
    rw [List.inj_on_of_nodup_map hs.prepared hmem hp hrun]

theorem latestConfirmation_mem
    (h : s.latestConfirmation runId = some c) : c ∈ s.confirmations ∧ c.runId = runId := by
  have hmem := List.mem_filter.mp (FirstMaximum.firstMax?_mem h)
  exact ⟨hmem.1, of_decide_eq_true hmem.2⟩

/-- What is bound to a confirmation is of the gaps of its candidate. -/
theorem bound_key (hs : Confirmable s) {p : Candidate} (hc : c ∈ s.confirmations)
    (hp : p ∈ s.prepared) (hnames : Names c p) {a : Acceptance} (ha : a ∈ s.boundAcceptances c.id) :
    acceptedKey a ∈ (gapsOf s.gaps p).map gapKeyOf := by
  obtain ⟨hacceptance, hbound⟩ := List.mem_filter.mp ha
  obtain ⟨c', hc', hcid, a', ha', haid, hrun⟩ := hs.confirmed _ (of_decide_eq_true hbound)
  rw [List.inj_on_of_nodup_map hs.acceptances ha' hacceptance haid,
    List.inj_on_of_nodup_map hs.confirmations hc' hc hcid] at hrun
  obtain ⟨p', hp', hprun, hkey⟩ := hs.accepted a hacceptance
  rw [← List.inj_on_of_nodup_map hs.prepared hp' hp (hprun.trans (hrun.trans hnames.run.symm))]
  exact hkey

theorem nodup_of_dedup_length {α : Type} [DecidableEq α] {l : List α} (h : l.dedup.length = l.length) :
    l.Nodup := by
  rw [← (List.dedup_sublist l).eq_of_length h]
  exact List.nodup_dedup l

/-- As many keys as there are gaps, none of them twice, are all of them. -/
theorem exists_unique_key {rows : List Acceptance} {gaps : List Gap}
    (hrows : (rows.map acceptedKey).Nodup) (hsub : ∀ a ∈ rows, acceptedKey a ∈ gaps.map gapKeyOf)
    (hlength : gaps.length ≤ rows.length)
    {g : Gap} (hg : g ∈ gaps) : ∃! a, a ∈ rows ∧ acceptedKey a = gapKeyOf g := by
  have hperm : (rows.map acceptedKey).Perm (gaps.map gapKeyOf) := by
    refine (List.subperm_of_subset hrows ?_).perm_of_length_le (by simpa using hlength)
    intro key hkey
    obtain ⟨a, ha, rfl⟩ := List.mem_map.mp hkey
    exact hsub a ha
  obtain ⟨a, ha, hkey⟩ := List.mem_map.mp (hperm.mem_iff.mpr (List.mem_map_of_mem hg))
  refine ⟨a, ⟨ha, hkey⟩, ?_⟩
  rintro b ⟨hb, hbkey⟩
  exact List.inj_on_of_nodup_map hrows hb ha (hbkey.trans hkey.symm)

/-- What the check of single acceptances says. -/
theorem assertIndividualAcceptance_ok {payload : ConfirmationPayload}
    (hindividual : payload.individual.isSome = true)
    (h : assertIndividualAcceptance confirmationId payload s = .ok ()) :
    (s.boundAcceptances confirmationId).length = payload.gapCount ∧
      ((s.boundAcceptances confirmationId).map acceptedKey).Nodup ∧
      (∀ a ∈ s.boundAcceptances confirmationId, a.candidateId = payload.candidateId) ∧
      ((s.boundAcceptances confirmationId).map Acceptance.expiresAt).min? = payload.expiresAt := by
  obtain ⟨revision, hrevision⟩ := Option.isSome_iff_exists.mp hindividual
  unfold assertIndividualAcceptance at h
  rw [hrevision] at h
  obtain ⟨htotal, hunique, hbound, -, hearliest, -⟩ := require_ok h
  refine ⟨htotal, nodup_of_dedup_length ?_, ?_, hearliest⟩
  · rw [List.length_map, htotal]
    exact hunique
  · intro a ha
    have hall := List.length_filter_eq_length_iff.mp (hbound.trans htotal.symm) a ha
    exact (of_decide_eq_true hall).1

theorem endorsed_of_commit (hs : Confirmable s) {o : Operation}
    (hc : c ∈ s.confirmations) (hconfirms : c.id = o.confirmationId)
    (hlatest : (s.latestConfirmation o.runId).map Confirmation.id = some c.id)
    (haccepted : assertAcceptance c s = .ok ()) : ∃ p, Endorsed s o c p := by
  obtain ⟨latest, hfound, hid⟩ := Option.map_eq_some_iff.mp hlatest
  obtain ⟨hmem, hrun⟩ := latestConfirmation_mem hfound
  obtain rfl := List.inj_on_of_nodup_map hs.confirmations hmem hc hid
  obtain ⟨p, hp, hnames⟩ := hs.named latest hc
  have hprepared : s.candidate? o.runId = some p := by
    rw [← hrun, ← hnames.run]
    exact candidate?_eq hs hp
  have hcount := hnames.gapCount.trans (hs.gapCount p hp)
  have hgaps : gapsOf s.gaps p ≠ [] → leaseValid latest.expiresAt s.store.clock ∧
      assertIndividualAcceptance latest.id latest.payload s = .ok () := by
    intro hne
    rcases assertAcceptance_ok haccepted with hzero | hvalid
    · rw [hcount] at hzero
      exact absurd (List.length_eq_zero_iff.mp hzero) hne
    · exact hvalid
  refine ⟨p, hfound, hconfirms, hprepared, hnames, fun hne => (hgaps hne).1, ?_⟩
  intro hne hindividual
  obtain ⟨⟨deadline, hdeadline, hclock⟩, hchecked⟩ := hgaps hne
  obtain ⟨htotal, hunique, hbound, hearliest⟩ := assertIndividualAcceptance_ok hindividual hchecked
  constructor
  · intro g hg
    refine exists_unique_key hunique (fun a ha => bound_key hs hc hp hnames ha) ?_ hg
    rw [htotal, hcount]
  · intro a ha
    refine ⟨(hbound a ha).trans hnames.payload, ?_⟩
    rw [hnames.expiresAt, ← hearliest] at hdeadline
    have hle := (List.min?_eq_some_iff.mp hdeadline).2 a.expiresAt (List.mem_map_of_mem ha)
    omega

end Endorsed

/-! ## Operations, receipts and tokens -/

def Succeeded (s : Store) (id : String) : Prop := ∃ r ∈ s.runs, r.id = id ∧ r.status = .SUCCEEDED

/-- A confirmation has one operation, a run that has succeeded has one that is committed, and each
committed operation one receipt. -/
structure Published (s : State) : Prop where
  ids : (s.operations.map Operation.id).Nodup
  confirmations : (s.operations.map Operation.confirmationId).Nodup
  confirmed : ∀ o ∈ s.operations, ∃ c ∈ s.confirmations, c.id = o.confirmationId ∧ c.runId = o.runId
  succeeded : ∀ id, Succeeded s.store id ↔ ∃ o ∈ s.operations, o.runId = id ∧ o.result.isSome = true
  single : ∀ o ∈ s.operations, ∀ o' ∈ s.operations, o.runId = o'.runId → o.result.isSome = true →
    o'.result.isSome = true → o = o'
  receipts : (s.receipts.map Receipt.operationId).Nodup
  receiptOf : ∀ r ∈ s.receipts, ∃ o ∈ s.operations, o.id = r.operationId ∧ o.result.isSome = true
  tokens : (s.tokens.map Token.clientToken).Nodup
  tokenOf : ∀ k ∈ s.tokens, ∃ o ∈ s.operations, o.id = k.operationId ∧ o.runId = k.binding.runId ∧
    o.confirmationId = k.binding.confirmationId
  sealings : ∀ x ∈ s.sealings, x.confirmation ∈ s.confirmations ∧ ∃ o ∈ s.operations,
    o.id = x.operation.id ∧ o.runId = x.context.runId ∧ o.confirmationId = x.confirmation.id

section Published

variable {s t : State} {a : Act}

theorem initial_published : Published SourcePublication.initial := by
  refine ⟨List.nodup_nil, List.nodup_nil, ?_, ?_, ?_, List.nodup_nil, ?_, List.nodup_nil, ?_, ?_⟩
  case refine_2 =>
    intro id
    constructor
    · rintro ⟨r, hr, -⟩
      cases hr
    · rintro ⟨o, ho, -⟩
      cases ho
  all_goals
    intro x hx
    cases hx

/-- Only a commit makes a run succeed, and no step undoes it. -/
theorem effect_succeeded {store : Store} (hs : RunsOk s.store) (h : Effect s.store a store)
    (hcommits : a.commits = false) (id : String) : Succeeded store id ↔ Succeeded s.store id := by
  cases h with
  | quiet _ _ hruns _ => rw [Succeeded, hruns]; rfl
  | drafted _ _ _ hruns => rw [Succeeded, hruns]; rfl
  | started run _ _ _ hstore _ hstatus _ _ =>
    rw [hstore]
    constructor
    · rintro ⟨r, hr, hid, hsucceeded⟩
      rcases List.mem_append.mp hr with hold | hnew
      · exact ⟨r, hold, hid, hsucceeded⟩
      · rw [List.mem_singleton.mp hnew, hstatus] at hsucceeded
        cases hsucceeded
    · rintro ⟨r, hr, hid, hsucceeded⟩
      exact ⟨r, List.mem_append_left _ hr, hid, hsucceeded⟩
  | written run f hfound hactive _ hstore _ hsucceeds =>
    rw [hstore]
    constructor
    · rintro ⟨r, hr, hid, hsucceeded⟩
      rcases mem_setRun_of hs.ids hfound hr with rfl | ⟨hold, -⟩
      · rw [hsucceeds hsucceeded] at hcommits
        cases hcommits
      · exact ⟨r, hold, hid, hsucceeded⟩
    · rintro ⟨r, hr, hid, hsucceeded⟩
      refine ⟨r, mem_setRun.mpr ⟨r, hr, ?_⟩, hid, hsucceeded⟩
      rw [if_neg]
      intro hsame
      obtain ⟨hrun, -⟩ := run?_some hfound
      rw [List.inj_on_of_nodup_map hs.ids hr hrun hsame] at hsucceeded
      exact not_succeeded hactive hsucceeded

theorem published_store {store : Store} (hs : Published s) (hruns : RunsOk s.store)
    (h : Effect s.store a store) (hcommits : a.commits = false) : Published { s with store } := by
  refine ⟨hs.ids, hs.confirmations, hs.confirmed, ?_, hs.single, hs.receipts, hs.receiptOf, hs.tokens,
    hs.tokenOf, hs.sealings⟩
  intro id
  rw [effect_succeeded hruns h hcommits id]
  exact hs.succeeded id

/-- The rows of operations do not rest on other rows but confirmations, and more of these do no
harm. -/
theorem published_rows (hs : Published s) (hstore : t.store = s.store)
    (hoperations : t.operations = s.operations) (hreceipts : t.receipts = s.receipts)
    (htokens : t.tokens = s.tokens) (hsealings : t.sealings = s.sealings)
    (hmore : ∀ c ∈ s.confirmations, c ∈ t.confirmations) : Published t := by
  refine ⟨hoperations ▸ hs.ids, hoperations ▸ hs.confirmations, ?_, hstore ▸ hoperations ▸ hs.succeeded,
    hoperations ▸ hs.single, hreceipts ▸ hs.receipts, hreceipts ▸ hoperations ▸ hs.receiptOf,
    htokens ▸ hs.tokens, htokens ▸ hoperations ▸ hs.tokenOf, ?_⟩
  · intro o ho
    rw [hoperations] at ho
    obtain ⟨c, hc, hbound⟩ := hs.confirmed o ho
    exact ⟨c, hmore c hc, hbound⟩
  · intro x hx
    rw [hsealings] at hx
    obtain ⟨hc, hoperation⟩ := hs.sealings x hx
    rw [hoperations]
    exact ⟨hmore _ hc, hoperation⟩

/-- A new operation is not committed. -/
theorem published_operation {o : Operation} (hs : Published s)
    (hid : ∀ o' ∈ s.operations, o'.id ≠ o.id)
    (honce : ∀ o' ∈ s.operations, o'.confirmationId ≠ o.confirmationId) (hc : c ∈ s.confirmations)
    (hcid : c.id = o.confirmationId) (hrun : c.runId = o.runId) (hresult : o.result = none) :
    Published { s with operations := s.operations ++ [o] } := by
  have hold : ∀ o' ∈ s.operations ++ [o], o'.result.isSome = true → o' ∈ s.operations := by
    intro o' ho' hcommitted
    rcases List.mem_append.mp ho' with hold | hnew
    · exact hold
    · rw [List.mem_singleton.mp hnew, hresult] at hcommitted
      cases hcommitted
  refine ⟨nodup_append_singleton hs.ids hid, nodup_append_singleton hs.confirmations honce, ?_, ?_, ?_,
    hs.receipts, ?_, hs.tokens, ?_, ?_⟩
  · intro o' ho'
    rcases List.mem_append.mp ho' with hold | hnew
    · exact hs.confirmed o' hold
    · rw [List.mem_singleton.mp hnew]
      exact ⟨c, hc, hcid, hrun⟩
  · intro id
    rw [hs.succeeded id]
    constructor
    · rintro ⟨o', ho', hcommitted⟩
      exact ⟨o', List.mem_append_left _ ho', hcommitted⟩
    · rintro ⟨o', ho', hsame, hcommitted⟩
      exact ⟨o', hold o' ho' hcommitted, hsame, hcommitted⟩
  · intro o₁ h₁ o₂ h₂ hsame hc₁ hc₂
    exact hs.single o₁ (hold o₁ h₁ hc₁) o₂ (hold o₂ h₂ hc₂) hsame hc₁ hc₂
  · intro r hr
    obtain ⟨o', ho', hbound⟩ := hs.receiptOf r hr
    exact ⟨o', List.mem_append_left _ ho', hbound⟩
  · intro k hk
    obtain ⟨o', ho', hbound⟩ := hs.tokenOf k hk
    exact ⟨o', List.mem_append_left _ ho', hbound⟩
  · intro x hx
    obtain ⟨hxc, o', ho', hbound⟩ := hs.sealings x hx
    exact ⟨hxc, o', List.mem_append_left _ ho', hbound⟩

/-- A client token is bound once, to the run and the confirmation of its operation. -/
theorem published_bindToken {o : Operation} {binding : Binding}
    (hs : Published s) (ho : o ∈ s.operations) (hrun : o.runId = binding.runId)
    (hconfirmation : o.confirmationId = binding.confirmationId) :
    Published (s.bindToken clientToken o.id binding) := by
  unfold State.bindToken
  split_ifs with htaken
  · exact hs
  · refine ⟨hs.ids, hs.confirmations, hs.confirmed, hs.succeeded, hs.single, hs.receipts, hs.receiptOf,
      nodup_append_singleton hs.tokens ?_, ?_, hs.sealings⟩
    · intro k hk heq
      exact htaken ⟨k, hk, heq⟩
    · intro k hk
      rcases List.mem_append.mp hk with hold | hnew
      · exact hs.tokenOf k hold
      · rw [List.mem_singleton.mp hnew]
        exact ⟨o, ho, rfl, hrun, hconfirmation⟩

theorem published_sealing {x : Sealing} {o : Operation} (hs : Published s)
    (hc : x.confirmation ∈ s.confirmations) (ho : o ∈ s.operations) (hid : o.id = x.operation.id)
    (hrun : o.runId = x.context.runId) (hconfirmation : o.confirmationId = x.confirmation.id) :
    Published { s with sealings := s.sealings ++ [x] } := by
  refine ⟨hs.ids, hs.confirmations, hs.confirmed, hs.succeeded, hs.single, hs.receipts, hs.receiptOf,
    hs.tokens, hs.tokenOf, ?_⟩
  intro y hy
  rcases List.mem_append.mp hy with hold | hnew
  · exact hs.sealings y hold
  · rw [List.mem_singleton.mp hnew]
    exact ⟨hc, o, ho, hid, hrun, hconfirmation⟩

/-- A call of `begin` writes no row of a confirmation, and keeps the operations and the tokens. -/
theorem beginSeal_rows {id : String}
    {sha256 : String → String} {context : Context} {begun : Begun}
    (h : beginSeal sha256 access actorId context clientToken confirmationId id s = .ok (t, begun)) :
    t.prepared = s.prepared ∧ t.gaps = s.gaps ∧ t.acceptances = s.acceptances ∧
      t.confirmations = s.confirmations ∧ t.confirmed = s.confirmed := by
  obtain ⟨-, confirmation, -, -, -, ⟨operation, -, -, -, -, rfl⟩ |
    ⟨run, prepared, operation, added, -, -, -, -, -, -, -, -, -, -, -, rfl⟩⟩ := beginSeal_ok h
  · obtain ⟨tokens, htokens⟩ := @bindToken_tokens s clientToken operation.id
      { runId := context.runId, confirmationId }
    rw [htokens]
    exact ⟨rfl, rfl, rfl, rfl, rfl⟩
  · obtain ⟨tokens, htokens⟩ := @bindToken_tokens { s with operations := s.operations ++ added }
      clientToken operation.id { runId := context.runId, confirmationId }
    rw [htokens]
    exact ⟨rfl, rfl, rfl, rfl, rfl⟩

/-- A call of `begin` adds at most an operation that is not committed, and no token is rebound. -/
theorem beginSeal_operations {id : String}
    {sha256 : String → String} {context : Context} {begun : Begun}
    (h : beginSeal sha256 access actorId context clientToken confirmationId id s = .ok (t, begun)) :
    (∃ added, t.operations = s.operations ++ added ∧ ∀ o ∈ added, o.result = none) ∧
      ∀ k ∈ s.tokens, k ∈ t.tokens := by
  obtain ⟨-, confirmation, -, -, -, ⟨operation, -, -, -, -, rfl⟩ |
    ⟨run, prepared, operation, added, -, -, -, -, -, -, -, -, -, hresult, hadded, rfl⟩⟩ := beginSeal_ok h
  · refine ⟨⟨[], ?_, fun _ h => by cases h⟩, mem_bindToken _ _ _⟩
    rw [bindToken_operations, List.append_nil]
  · refine ⟨⟨added, bindToken_operations _ _ _, ?_⟩,
      @mem_bindToken { s with operations := s.operations ++ added } _ _ _⟩
    intro o ho
    rcases hadded with ⟨-, rfl⟩ | ⟨rfl, -⟩
    · cases ho
    · rw [List.mem_singleton.mp ho]
      exact hresult

theorem published_begin {id : String}
    {sha256 : String → String} {context : Context} {begun : Begun} (hs : Published s)
    (hconfirmable : Confirmable s) (hruns : RunsOk s.store)
    (h : beginSeal sha256 access actorId context clientToken confirmationId id s = .ok (t, begun)) :
    Published t := by
  have heffect := beginSeal_effect h
  obtain ⟨-, confirmation, hc, hcid, hcrun, ⟨operation, -, hfound, -, -, rfl⟩ |
    ⟨run, prepared, operation, added, -, -, -, -, -, -, -, -, hconfirms, hresult, hadded, rfl⟩⟩ :=
    beginSeal_ok h
  · have hoperation := List.mem_of_find?_eq_some hfound
    have hconfirms : operation.confirmationId = confirmation.id := by simpa using List.find?_some hfound
    obtain ⟨c, hc', hcid', hcrun'⟩ := hs.confirmed operation hoperation
    obtain rfl := List.inj_on_of_nodup_map hconfirmable.confirmations hc' hc (hcid'.trans hconfirms)
    exact published_bindToken hs hoperation (hcrun'.symm.trans hcrun) (hconfirms.trans hcid)
  · have hoperations : Published { s with operations := s.operations ++ added } ∧
        operation ∈ s.operations ++ added ∧ operation.runId = context.runId := by
      rcases hadded with ⟨hold, rfl⟩ | ⟨rfl, hrun, hnone, hfresh⟩
      · obtain ⟨c, hc', hcid', hcrun'⟩ := hs.confirmed operation hold
        obtain rfl := List.inj_on_of_nodup_map hconfirmable.confirmations hc' hc (hcid'.trans hconfirms)
        rw [List.append_nil]
        exact ⟨hs, hold, hcrun'.symm.trans hcrun⟩
      · refine ⟨published_operation hs hfresh ?_ hc hconfirms.symm (hcrun.trans hrun.symm) hresult,
          List.mem_append_right _ (List.mem_singleton_self operation), hrun⟩
        rw [hconfirms]
        exact hnone
    obtain ⟨hoperations, hmem, hrun⟩ := hoperations
    have hbound := @published_bindToken clientToken _ _ { runId := context.runId, confirmationId }
      hoperations hmem hrun (hconfirms.trans hcid)
    obtain ⟨tokens, htokens⟩ := @bindToken_tokens { s with operations := s.operations ++ added }
      clientToken operation.id { runId := context.runId, confirmationId }
    rw [htokens] at hbound heffect ⊢
    exact published_store (published_sealing hbound hc hmem rfl hrun hconfirms) hruns heffect rfl

theorem commitOperation_id (id : String) (sealed : Sealed) (o : Operation) :
    (commitOperation id sealed o).id = o.id ∧ (commitOperation id sealed o).runId = o.runId ∧
      (commitOperation id sealed o).confirmationId = o.confirmationId := by
  unfold commitOperation
  by_cases hid : o.id = id
  · rw [if_pos hid]
    exact ⟨rfl, rfl, rfl⟩
  · rw [if_neg hid]
    exact ⟨rfl, rfl, rfl⟩

/-- A commit writes the result of its operation, which had none, and no other one. -/
theorem mem_commitOperation {stored o : Operation} {sealed : Sealed}
    (hids : (s.operations.map Operation.id).Nodup) (hstored : stored ∈ s.operations) :
    o ∈ s.operations.map (commitOperation stored.id sealed) ↔
      o = { stored with result := some sealed } ∨ o ∈ s.operations ∧ o ≠ stored := by
  constructor
  · intro h
    obtain ⟨o', ho', rfl⟩ := List.mem_map.mp h
    unfold commitOperation
    by_cases hsame : o'.id = stored.id
    · rw [if_pos hsame, List.inj_on_of_nodup_map hids ho' hstored hsame]
      exact Or.inl rfl
    · rw [if_neg hsame]
      exact Or.inr ⟨ho', fun heq => hsame (heq ▸ rfl)⟩
  · rintro (rfl | ⟨ho, hne⟩)
    · refine List.mem_map.mpr ⟨stored, hstored, ?_⟩
      rw [commitOperation, if_pos rfl]
    · refine List.mem_map.mpr ⟨o, ho, ?_⟩
      rw [commitOperation, if_neg]
      exact fun hsame => hne (List.inj_on_of_nodup_map hids ho hstored hsame)

/-- The operation of a call of `seal` is that of its run and its confirmation. -/
theorem sealing_stored (hs : Published s) {x : Sealing} (hx : x ∈ s.sealings) {stored : Operation}
    (h : s.operation? x.operation.id = some stored) : stored ∈ s.operations ∧
      stored.id = x.operation.id ∧ stored.runId = x.context.runId ∧
      stored.confirmationId = x.confirmation.id ∧ x.confirmation ∈ s.confirmations := by
  have hmem := List.mem_of_find?_eq_some h
  have hid : stored.id = x.operation.id := by simpa using List.find?_some h
  obtain ⟨hc, o, ho, hoid, hrun, hconfirms⟩ := hs.sealings x hx
  obtain rfl := List.inj_on_of_nodup_map hs.ids ho hmem (hoid.trans hid.symm)
  exact ⟨hmem, hid, hrun, hconfirms, hc⟩

theorem published_commit {runAccess : Authorization} {policyRevisionId : Option String}
    {x : Sealing} {receiptId : String} {sealed : Sealed} (hs : Published s) (hruns : RunsOk s.store)
    (hx : x ∈ s.sealings)
    (h : commitSeal access runAccess policyRevisionId x receiptId s = .ok (t, sealed)) :
    Published t := by
  obtain ⟨stored, hfound, ⟨-, rfl⟩ | ⟨hnone, run, hrun, -, -, hstatus, -, -, -, hsealed, hfresh,
    bundles, rfl⟩⟩ := commitSeal_ok h
  · exact hs
  obtain ⟨hmem, hid, hrunId, hconfirms, -⟩ := sealing_stored hs hx hfound
  rw [← hid] at hfresh ⊢
  obtain ⟨hrunMem, hrunSame⟩ := run?_some hrun
  have hiff := fun o => @mem_commitOperation s stored o sealed hs.ids hmem
  have hkept : ∀ o ∈ s.operations, ∃ o' ∈ s.operations.map (commitOperation stored.id sealed),
      o'.id = o.id ∧ o'.runId = o.runId ∧ o'.confirmationId = o.confirmationId ∧
        (o.result.isSome = true → o'.result.isSome = true) := by
    intro o ho
    obtain ⟨hsameId, hsameRun, hsameConfirmation⟩ := commitOperation_id stored.id sealed o
    refine ⟨_, List.mem_map_of_mem ho, hsameId, hsameRun, hsameConfirmation, ?_⟩
    intro hcommitted
    unfold commitOperation
    split_ifs
    · rfl
    · exact hcommitted
  have hnew : { stored with result := some sealed } ∈ s.operations.map (commitOperation stored.id sealed) :=
    (hiff _).mpr (Or.inl rfl)
  -- The run has not succeeded, so that no other operation of it is committed.
  have hunsucceeded : ∀ r ∈ s.store.runs, r.id = stored.runId → r.status ≠ .SUCCEEDED := by
    intro r hr hrid hsucceeded
    rw [List.inj_on_of_nodup_map hruns.ids hr hrunMem (hrid.trans (hrunId.trans hrunSame.symm)),
      hstatus] at hsucceeded
    cases hsucceeded
  have halone : ∀ o ∈ s.operations, o.runId = stored.runId → o.result.isSome = true → False := by
    intro o ho hsame hcommitted
    obtain ⟨r, hr, hrid, hsucceeded⟩ := (hs.succeeded stored.runId).mpr ⟨o, ho, hsame, hcommitted⟩
    exact hunsucceeded r hr hrid hsucceeded
  refine ⟨?_, ?_, ?_, ?_, ?_, ?_, ?_, hs.tokens, ?_, ?_⟩
  · rw [List.map_map]
    exact (List.map_congr_left fun o _ => (commitOperation_id _ _ o).1) ▸ hs.ids
  · rw [List.map_map]
    exact (List.map_congr_left fun o _ => (commitOperation_id _ _ o).2.2) ▸ hs.confirmations
  · intro o ho
    rcases (hiff o).mp ho with rfl | ⟨hold, -⟩
    · exact hs.confirmed stored hmem
    · exact hs.confirmed o hold
  · intro id
    constructor
    · rintro ⟨r, hr, hrid, hsucceeded⟩
      rcases mem_setRun_of hruns.ids hrun hr with rfl | ⟨hold, -⟩
      · exact ⟨_, hnew, hrunId.trans (hrunSame.symm.trans hrid), rfl⟩
      · obtain ⟨o, ho, hsame, hcommitted⟩ := (hs.succeeded id).mp ⟨r, hold, hrid, hsucceeded⟩
        obtain ⟨o', ho', -, hrun', -, hcommitted'⟩ := hkept o ho
        exact ⟨o', ho', hrun'.trans hsame, hcommitted' hcommitted⟩
    · rintro ⟨o, ho, hsame, hcommitted⟩
      rcases (hiff o).mp ho with rfl | ⟨hold, -⟩
      · refine ⟨succeeded run, mem_setRun.mpr ⟨run, hrunMem, ?_⟩, ?_, rfl⟩
        · rw [if_pos hrunSame]
        · exact hrunSame.trans (hrunId.symm.trans hsame)
      · obtain ⟨r, hr, hrid, hsucceeded⟩ := (hs.succeeded id).mpr ⟨o, hold, hsame, hcommitted⟩
        refine ⟨r, mem_setRun.mpr ⟨r, hr, ?_⟩, hrid, hsucceeded⟩
        rw [if_neg]
        intro heq
        exact hunsucceeded r hr (heq.trans hrunId.symm) hsucceeded
  · intro o₁ h₁ o₂ h₂ hsame hc₁ hc₂
    rcases (hiff o₁).mp h₁ with rfl | ⟨hold₁, -⟩
    · rcases (hiff o₂).mp h₂ with rfl | ⟨hold₂, -⟩
      · rfl
      · exact (halone o₂ hold₂ hsame.symm hc₂).elim
    · rcases (hiff o₂).mp h₂ with rfl | ⟨hold₂, -⟩
      · exact (halone o₁ hold₁ hsame hc₁).elim
      · exact hs.single o₁ hold₁ o₂ hold₂ hsame hc₁ hc₂
  · refine nodup_append_singleton hs.receipts ?_
    rw [hsealed]
    intro r hr
    exact ne_of_ne_of_eq (hfresh r hr).2 hid
  · intro r hr
    rcases List.mem_append.mp hr with hold | hlast
    · obtain ⟨o, ho, hsame, hcommitted⟩ := hs.receiptOf r hold
      obtain ⟨o', ho', hid', -, -, hcommitted'⟩ := hkept o ho
      exact ⟨o', ho', hid'.trans hsame, hcommitted' hcommitted⟩
    · rw [List.mem_singleton.mp hlast]
      refine ⟨{ stored with result := some sealed }, hnew, ?_, rfl⟩
      rw [hsealed]
      exact hid
  · intro k hk
    obtain ⟨o, ho, hsame, hrun, hconfirmation⟩ := hs.tokenOf k hk
    obtain ⟨o', ho', hid', hrun', hconfirmation', -⟩ := hkept o ho
    exact ⟨o', ho', hid'.trans hsame, hrun'.trans hrun, hconfirmation'.trans hconfirmation⟩
  · intro y hy
    obtain ⟨hc, o, ho, hsame, hrun, hconfirmation⟩ := hs.sealings y hy
    obtain ⟨o', ho', hid', hrun', hconfirmation', -⟩ := hkept o ho
    exact ⟨hc, o', ho', hid'.trans hsame, hrun'.trans hrun, hconfirmation'.trans hconfirmation⟩

end Published

/-! ## Histories -/

/-- The rows of a workspace, as every step keeps them. -/
structure Kept (s : State) : Prop where
  runs : RunsOk s.store
  confirmable : Confirmable s
  published : Published s

/-- What a repetition of a committed seal answers: its result, whoever asks and whatever happened
since. -/
structure Repeats (sha256 : String → String) (s : State) (o : Operation) (result : Sealed) : Prop where
  begun : ∀ access actorId context clientToken id t begun,
    beginSeal sha256 access actorId context clientToken o.confirmationId id s = .ok (t, begun) →
      begun = .result result
  commit : ∀ access runAccess policyRevisionId x receiptId t sealed, x.operation.id = o.id →
    commitSeal access runAccess policyRevisionId x receiptId s = .ok (t, sealed) →
      sealed = result ∧ t = s
  recover : ∀ access x found, x ∈ s.sealings → x.operation.id = o.id →
    recoverSeal access x s = .ok found → found = some result

section Histories

variable {sha256 : String → String} {dateParse : String → Option Int} {s t : State} {acts : List Act}
  {a : Act} {o : Operation}

theorem step_kept (hs : Kept s) (h : step sha256 dateParse s a = some t) : Kept t := by
  obtain ⟨hruns, hconfirmable, hpublished⟩ := hs
  have heffect := step_effect h
  have hrows : Confirmable t ∧ Published t := by
    cases a with
    | advance | releaseStaging =>
      obtain rfl := Option.some.inj h
      exact ⟨confirmable_rows hconfirmable rfl rfl rfl rfl rfl,
        published_store hpublished hruns heffect rfl⟩
    | saveDraft | startRun | claimRun | transition | cancel | heartbeat | releaseLease =>
      obtain ⟨store, _, -, rfl⟩ := onStore_some h
      exact ⟨confirmable_rows hconfirmable rfl rfl rfl rfl rfl,
        published_store hpublished hruns heffect rfl⟩
    | prepare candidate gaps =>
      refine ⟨confirmable_prepare hconfirmable h, ?_⟩
      obtain ⟨-, -, -, rfl⟩ := prepare_some h
      exact published_rows hpublished rfl rfl rfl rfl rfl fun _ hc => hc
    | acceptCandidateGap access actorId runId input id =>
      obtain ⟨_, hok⟩ := ok_of_fst h
      refine ⟨confirmable_accept hconfirmable hok, ?_⟩
      obtain rfl | ⟨_, -, -, -, -, -, -, -, -, rfl⟩ := acceptCandidateGap_ok hok
      · exact hpublished
      · exact published_rows hpublished rfl rfl rfl rfl rfl fun _ hc => hc
    | confirmCandidate access actorId runId input id =>
      obtain ⟨_, hok⟩ := ok_of_fst h
      refine ⟨confirmable_confirm hconfirmable hok, ?_⟩
      obtain rfl | ⟨_, _, -, -, -, -, -, -, -, -, -, -, -, -, ht⟩ := confirmCandidate_ok hok
      · exact hpublished
      · have hbase : Published { t with store := s.store } := by
          rw [ht]
          exact published_rows hpublished rfl rfl rfl rfl rfl fun _ hc => List.mem_append_left _ hc
        exact @published_store { t with store := s.store } _ t.store hbase hruns heffect rfl
    | beginSeal access actorId context clientToken confirmationId id =>
      obtain ⟨_, hok⟩ := ok_of_fst h
      refine ⟨?_, published_begin hpublished hconfirmable hruns hok⟩
      obtain ⟨hprepared, hgaps, hacceptances, hconfirmations, hconfirmed⟩ := beginSeal_rows hok
      exact confirmable_rows hconfirmable hprepared hgaps hacceptances hconfirmations hconfirmed
    | commitSeal access runAccess policyRevisionId x receiptId =>
      obtain ⟨hx, _, hok⟩ := commitSeal_some h
      refine ⟨?_, published_commit hpublished hruns hx hok⟩
      obtain ⟨stored, -, ⟨-, rfl⟩ | ⟨-, run, -, -, -, -, -, -, -, -, -, bundles, rfl⟩⟩ :=
        commitSeal_ok hok
      · exact hconfirmable
      · exact confirmable_rows hconfirmable rfl rfl rfl rfl rfl
  exact ⟨effect_runsOk hruns heffect, hrows.1, hrows.2⟩

theorem initial_kept : Kept SourcePublication.initial :=
  ⟨initial_runsOk, initial_confirmable, initial_published⟩

theorem run_kept (h : Machine.run (step sha256 dateParse) s acts = some t) (hs : Kept s) : Kept t :=
  Machine.run_keeps (fun _ _ _ hs ht => step_kept hs ht) h hs

/-- The two steps of a seal. -/
def seals : Act → Bool
  | .beginSeal .. | .commitSeal .. => true
  | _ => false

/-- The operations and the tokens are left alone by every other step. -/
theorem step_quiet (hquiet : seals a = false) (h : step sha256 dateParse s a = some t) :
    t.operations = s.operations ∧ t.tokens = s.tokens := by
  cases a with
  | advance | releaseStaging =>
    obtain rfl := Option.some.inj h
    exact ⟨rfl, rfl⟩
  | saveDraft | startRun | claimRun | transition | cancel | heartbeat | releaseLease =>
    obtain ⟨store, _, -, rfl⟩ := onStore_some h
    exact ⟨rfl, rfl⟩
  | prepare candidate gaps =>
    obtain ⟨-, -, -, rfl⟩ := prepare_some h
    exact ⟨rfl, rfl⟩
  | acceptCandidateGap access actorId runId input id =>
    obtain ⟨_, hok⟩ := ok_of_fst h
    obtain rfl | ⟨_, -, -, -, -, -, -, -, -, rfl⟩ := acceptCandidateGap_ok hok
    · exact ⟨rfl, rfl⟩
    · exact ⟨rfl, rfl⟩
  | confirmCandidate access actorId runId input id =>
    obtain ⟨_, hok⟩ := ok_of_fst h
    obtain rfl | ⟨_, _, -, -, -, -, -, -, -, -, -, -, -, -, rfl⟩ := confirmCandidate_ok hok
    · exact ⟨rfl, rfl⟩
    · exact ⟨rfl, rfl⟩
  | beginSeal | commitSeal => cases hquiet

/-- What is committed stays, and what is newly committed is endorsed. -/
theorem step_operations (hs : Kept s) (h : step sha256 dateParse s a = some t) :
    (∀ o ∈ s.operations, o.result.isSome = true → o ∈ t.operations) ∧
      ∀ o ∈ t.operations, o.result.isSome = true → o ∈ s.operations ∨ ∃ c p, Endorsed s o c p := by
  by_cases hquiet : seals a = false
  · rw [(step_quiet hquiet h).1]
    exact ⟨fun _ ho _ => ho, fun _ ho _ => Or.inl ho⟩
  cases a with
  | beginSeal access actorId context clientToken confirmationId id =>
    obtain ⟨_, hok⟩ := ok_of_fst h
    obtain ⟨⟨added, hoperations, hadded⟩, -⟩ := beginSeal_operations hok
    rw [hoperations]
    refine ⟨fun _ ho _ => List.mem_append_left _ ho, ?_⟩
    intro o ho hcommitted
    rcases List.mem_append.mp ho with hold | hnew
    · exact Or.inl hold
    · rw [hadded o hnew] at hcommitted
      cases hcommitted
  | commitSeal access runAccess policyRevisionId x receiptId =>
    obtain ⟨hx, sealed, hok⟩ := commitSeal_some h
    obtain ⟨stored, hfound, ⟨-, rfl⟩ | ⟨hnone, run, -, -, -, -, -, hlatest, haccepted, -, -, bundles,
      rfl⟩⟩ := commitSeal_ok hok
    · exact ⟨fun _ ho _ => ho, fun _ ho _ => Or.inl ho⟩
    obtain ⟨hmem, hid, hrunId, hconfirms, hc⟩ := sealing_stored hs.published hx hfound
    rw [← hid]
    have hiff := fun o => @mem_commitOperation s stored o sealed hs.published.ids hmem
    constructor
    · intro o ho hcommitted
      refine (hiff o).mpr (Or.inr ⟨ho, ?_⟩)
      rintro rfl
      rw [hnone] at hcommitted
      cases hcommitted
    · intro o ho _
      rcases (hiff o).mp ho with rfl | ⟨hold, -⟩
      · rw [← hrunId] at hlatest
        exact Or.inr ⟨x.confirmation, endorsed_of_commit hs.confirmable hc hconfirms.symm hlatest haccepted⟩
      · exact Or.inl hold
  | _ => exact absurd rfl hquiet

theorem run_operations (hs : Kept s) (h : Machine.run (step sha256 dateParse) s acts = some t)
    (ho : o ∈ s.operations) (hcommitted : o.result.isSome = true) : o ∈ t.operations :=
  (@Machine.run_keeps _ _ _ (fun s => Kept s ∧ o ∈ s.operations)
    (fun _ _ _ hs ht => ⟨step_kept hs.1 ht, (step_operations hs.1 ht).1 o hs.2 hcommitted⟩) _ _ _ h
    ⟨hs, ho⟩).2

/-- A token, once bound, stays bound as it is. -/
theorem step_tokens (h : step sha256 dateParse s a = some t) : ∀ k ∈ s.tokens, k ∈ t.tokens := by
  by_cases hquiet : seals a = false
  · rw [(step_quiet hquiet h).2]
    exact fun _ hk => hk
  cases a with
  | beginSeal access actorId context clientToken confirmationId id =>
    obtain ⟨_, hok⟩ := ok_of_fst h
    exact (beginSeal_operations hok).2
  | commitSeal access runAccess policyRevisionId x receiptId =>
    obtain ⟨-, _, hok⟩ := commitSeal_some h
    obtain ⟨_, -, ⟨-, rfl⟩ | ⟨-, _, -, -, -, -, -, -, -, -, -, _, rfl⟩⟩ := commitSeal_ok hok
    · exact fun _ hk => hk
    · exact fun _ hk => hk
  | _ => exact absurd rfl hquiet

/-- The operation of a confirmation, once committed, answers every repetition with its result. -/
theorem repeats_committed (hs : Kept s) (ho : o ∈ s.operations) {result : Sealed}
    (hresult : o.result = some result) : Repeats sha256 s o result := by
  refine ⟨?_, ?_, ?_⟩
  · intro access actorId context clientToken id t begun hbegin
    obtain ⟨-, confirmation, -, hcid, -, ⟨operation, found, hfound, hfoundResult, rfl, -⟩ |
      ⟨run, prepared, operation, added, -, -, -, -, -, -, -, -, hconfirms, hnone, hadded, -⟩⟩ :=
      beginSeal_ok hbegin
    · have hconfirms : operation.confirmationId = confirmation.id := by
        simpa using List.find?_some hfound
      obtain rfl := List.inj_on_of_nodup_map hs.published.confirmations
        (List.mem_of_find?_eq_some hfound) ho (hconfirms.trans hcid)
      rw [hfoundResult] at hresult
      rw [Option.some.inj hresult]
    · exfalso
      rcases hadded with ⟨hold, -⟩ | ⟨-, -, hfresh, -⟩
      · rw [List.inj_on_of_nodup_map hs.published.confirmations hold ho (hconfirms.trans hcid),
          hresult] at hnone
        cases hnone
      · exact hfresh o ho hcid.symm
  · intro access runAccess policyRevisionId x receiptId t sealed hid hcommit
    obtain ⟨stored, hfound, hcases⟩ := commitSeal_ok hcommit
    obtain rfl : stored = o := by
      refine List.inj_on_of_nodup_map hs.published.ids (List.mem_of_find?_eq_some hfound) ho ?_
      rw [← hid]
      simpa using List.find?_some hfound
    rcases hcases with ⟨hsealed, rfl⟩ | ⟨hnone, -⟩
    · rw [hresult] at hsealed
      exact ⟨(Option.some.inj hsealed).symm, rfl⟩
    · rw [hresult] at hnone
      cases hnone
  · intro access x found hx hid hrecover
    unfold recoverSeal at hrecover
    obtain ⟨_, -, hrecover⟩ := bind_ok hrecover
    rw [← Except.ok.inj hrecover]
    obtain ⟨-, o', ho', hoid, hrun, hconfirms⟩ := hs.published.sealings x hx
    obtain rfl := List.inj_on_of_nodup_map hs.published.ids ho' ho (hoid.trans hid)
    cases hfind : s.operations.find? fun o => o.id = x.operation.id ∧ o.runId = x.context.runId ∧
        o.confirmationId = x.confirmation.id ∧ o.result.isSome with
    | none =>
      have hnot := List.find?_eq_none.mp hfind o' ho'
      simp [hoid, hrun, hconfirms, hresult] at hnot
    | some other =>
      have hchecked := List.find?_some hfind
      have hother : other.id = x.operation.id := (of_decide_eq_true hchecked).1
      rw [List.inj_on_of_nodup_map hs.published.ids (List.mem_of_find?_eq_some hfind) ho'
        (hother.trans hoid.symm)]
      exact hresult

/-- What a call of `seal` answers is the result that its operation has. -/
theorem commit_answers (hs : Kept s) {runAccess : Authorization}
    {policyRevisionId : Option String} {x : Sealing} {receiptId : String} {sealed : Sealed}
    (hx : x ∈ s.sealings)
    (h : commitSeal access runAccess policyRevisionId x receiptId s = .ok (t, sealed)) :
    ∃ o ∈ t.operations, o.id = x.operation.id ∧ o.result = some sealed := by
  obtain ⟨stored, hfound, ⟨hsealed, rfl⟩ | ⟨-, run, -, -, -, -, -, -, -, -, -, bundles, rfl⟩⟩ :=
    commitSeal_ok h
  · exact ⟨stored, List.mem_of_find?_eq_some hfound, by simpa using List.find?_some hfound, hsealed⟩
  · obtain ⟨hmem, hid, -⟩ := sealing_stored hs.published hx hfound
    rw [← hid]
    exact ⟨{ stored with result := some sealed },
      (mem_commitOperation hs.published.ids hmem).mpr (Or.inl rfl), rfl, rfl⟩

/-- Two receipts of one run are one. -/
theorem receipt_single (hs : Published s) {r r' : Receipt} (hr : r ∈ s.receipts) (hr' : r' ∈ s.receipts)
    {o o' : Operation} (ho : o ∈ s.operations) (ho' : o' ∈ s.operations) (hid : o.id = r.operationId)
    (hid' : o'.id = r'.operationId) (hrun : o.runId = o'.runId) : r = r' := by
  obtain ⟨x, hx, hxid, hcommitted⟩ := hs.receiptOf r hr
  obtain ⟨x', hx', hxid', hcommitted'⟩ := hs.receiptOf r' hr'
  obtain rfl := List.inj_on_of_nodup_map hs.ids hx ho (hxid.trans hid.symm)
  obtain rfl := List.inj_on_of_nodup_map hs.ids hx' ho' (hxid'.trans hid'.symm)
  obtain rfl := hs.single x ho x' ho' hrun hcommitted hcommitted'
  exact List.inj_on_of_nodup_map hs.receipts hr hr' (hid.symm.trans hid')

end Histories

/-- What one run publishes. -/
structure Single (s : State) : Prop where
  operation : ∀ o ∈ s.operations, ∀ o' ∈ s.operations, o.runId = o'.runId →
    o.result.isSome = true → o'.result.isSome = true → o = o'
  receipt : ∀ r ∈ s.receipts, ∀ r' ∈ s.receipts, ∀ o ∈ s.operations, ∀ o' ∈ s.operations,
    o.id = r.operationId → o'.id = r'.operationId → o.runId = o'.runId → r = r'
  issued : ∀ r ∈ s.receipts, ∃ o ∈ s.operations, o.id = r.operationId ∧ o.result.isSome = true
  succeeded : ∀ run ∈ s.store.runs, run.status = .SUCCEEDED ↔
    ∃ o ∈ s.operations, o.runId = run.id ∧ o.result.isSome = true
  token : ∀ k ∈ s.tokens, ∀ k' ∈ s.tokens, k.clientToken = k'.clientToken → k = k'

theorem single_of_kept {s : State} (hs : Kept s) : Single s := by
  obtain ⟨hruns, -, hpublished⟩ := hs
  refine ⟨hpublished.single, ?_, hpublished.receiptOf, ?_, ?_⟩
  · intro r hr r' hr' o ho o' ho' hid hid' hrun
    exact receipt_single hpublished hr hr' ho ho' hid hid' hrun
  · intro run hrun
    rw [← hpublished.succeeded run.id]
    constructor
    · exact fun hsucceeded => ⟨run, hrun, rfl, hsucceeded⟩
    · rintro ⟨r, hr, hid, hsucceeded⟩
      rw [← List.inj_on_of_nodup_map hruns.ids hr hrun hid]
      exact hsucceeded
  · intro k hk k' hk' hsame
    exact List.inj_on_of_nodup_map hpublished.tokens hk hk' hsame

/-- Publication in every reachable state of a workspace: a run commits at most one operation and
issues at most one receipt, and it has succeeded exactly when it has committed one. What a step
commits is endorsed by the latest confirmation, a token stays bound, a cancelled run never gets a
committed operation, and what is committed answers every repetition, then and later. -/
theorem publication_is_single (sha256 : String → String) (dateParse : String → Option Int)
    (acts : List Act) (s : State)
    (h : Machine.run (step sha256 dateParse) SourcePublication.initial acts = some s) :
    Single s ∧
    (∀ a t, step sha256 dateParse s a = some t →
      (∀ o ∈ t.operations, o.result.isSome = true → o ∈ s.operations ∨ ∃ c p, Endorsed s o c p) ∧
      ∀ k ∈ s.tokens, k ∈ t.tokens) ∧
    (∀ access runAccess policyRevisionId x receiptId t sealed, x ∈ s.sealings →
      commitSeal access runAccess policyRevisionId x receiptId s = .ok (t, sealed) →
      ∃ o ∈ t.operations, o.id = x.operation.id ∧ o.result = some sealed) ∧
    ∀ more t, Machine.run (step sha256 dateParse) s more = some t →
      (∀ run ∈ s.store.runs, run.status = .CANCELLED →
        ∀ o ∈ t.operations, o.runId = run.id → o.result = none) ∧
      ∀ o ∈ s.operations, ∀ result, o.result = some result →
        o ∈ t.operations ∧ Repeats sha256 t o result := by
  have hs := run_kept h initial_kept
  refine ⟨single_of_kept hs, ?_, ?_, ?_⟩
  · intro a t ht
    exact ⟨(step_operations hs ht).2, step_tokens ht⟩
  · intro access runAccess policyRevisionId x receiptId t sealed hx hcommit
    exact commit_answers hs hx hcommit
  · intro more t ht
    have hlater := run_kept ht hs
    constructor
    · intro run hrun hcancelled o ho hsame
      have hkept := run_ended ht hs.runs hrun (by rw [hcancelled]; rfl)
      by_contra hresult
      have hsucceeded := ((single_of_kept hlater).succeeded run hkept).mpr
        ⟨o, ho, hsame, Option.isSome_iff_ne_none.mpr hresult⟩
      rw [hcancelled] at hsucceeded
      cases hsucceeded
    · intro o ho result hresult
      have hmem := run_operations hs ht ho (by rw [hresult]; rfl)
      exact ⟨hmem, repeats_committed hlater hmem hresult⟩

/-! ## A run -/

/-- The candidate of a file that could not be read. -/
def filePayload : CandidatePayload :=
  { workspaceId := "shop", policyRevisionId := "policy"
    components := [{ id := "file", sourceId := "source", kind := "FILE" }]
    inventoryId := "inventory", gapSetId := "gaps" }

def fileCandidate : Candidate :=
  { runId := "run"
    id := (SourceIdentity.structureDigest id "bundle" filePayload.toJson).toOption.getD ""
    payload := filePayload
    counts := { fileCount := 1, directoryCount := 0, knownBytes := 0, gapCount := 1 } }

def fileGap : Gap := { componentId := "file", gapKey := "unreadable", severity := "NON_BLOCKING" }

def fileWorker : Context := { runId := "run", generation := 1 }

def fileAcceptance : AcceptanceInput :=
  { reason := some "known", expiresAt := some "2026-01-01T00:00:00Z" }

/-- The confirmation of the one acceptance. -/
def fileConfirmation : Confirmation :=
  { id := "confirmation", runId := "run", revision := 1, candidateId := fileCandidate.id
    actorId := "reviewer"
    payload :=
      { candidateId := fileCandidate.id, gapSetId := "gaps", policyRevisionId := "policy", gapCount := 1
        reason := some "逐项接受，完整记录随确认保留", expiresAt := some 5000, individual := some 1 }
    expiresAt := some 5000 }

def fileSealing : Sealing :=
  { context := fileWorker
    operation :=
      { id := "operation", runId := "run", confirmationId := "confirmation", actorId := "author"
        result := none }
    confirmation := fileConfirmation
    prepared := fileCandidate }

/-- A run is reviewed with its one gap, and two calls of `seal` with different tokens commit it. -/
def sealedRun : List Act :=
  [.saveDraft member "author" 0 (.obj []) (.ok ()),
    .startRun member "author" (some 1) (some "policy") none "run",
    .claimRun "run" "first" 1000,
    .transition member fileWorker .PREFLIGHTING .ENUMERATING none none,
    .transition member fileWorker .ENUMERATING .MANIFEST_FROZEN none none,
    .transition member fileWorker .MANIFEST_FROZEN .CAPTURING none none,
    .transition member fileWorker .CAPTURING .RECONCILING none none,
    .prepare fileCandidate [fileGap],
    .transition member fileWorker .RECONCILING .REVIEW_REQUIRED none none,
    .acceptCandidateGap member "reviewer" "run"
      { candidateId := fileCandidate.id, gapSetId := "gaps", componentId := "file"
        gapKey := "unreadable", acceptance := fileAcceptance } "acceptance",
    .confirmCandidate member "reviewer" "run"
      { candidateId := fileCandidate.id, gapSetId := "gaps", useGapAcceptances := true
        acceptance := fileAcceptance } "confirmation",
    .beginSeal member "author" fileWorker "token-1" "confirmation" "operation",
    .beginSeal member "author" fileWorker "token-2" "confirmation" "unused",
    .commitSeal member member (some "policy") fileSealing "receipt-1",
    .commitSeal member member (some "policy") fileSealing "receipt-2"]

theorem sealed_run_publishes_once :
    ∃ s, Machine.run (step id fun _ => some 5000) SourcePublication.initial sealedRun = some s ∧
      (s.store.runs.map Run.status, s.receipts.map Receipt.id, s.tokens.length) =
        ([.SUCCEEDED], ["receipt-1"], 2) ∧ Single s := by
  have hrun : (Machine.run (step id fun _ => some 5000) SourcePublication.initial sealedRun).map
      (fun s => (s.store.runs.map Run.status, s.receipts.map Receipt.id, s.tokens.length)) =
        some ([.SUCCEEDED], ["receipt-1"], 2) := by decide +kernel
  obtain ⟨s, hs, hrows⟩ := Option.map_eq_some_iff.mp hrun
  exact ⟨s, hs, hrows, (publication_is_single id (fun _ => some 5000) sealedRun s hs).1⟩

end Traqen.SourceReceipts
