-- The life of source runs: every operation on the runs of a workspace, in any order and with any
-- clock, as one machine; what one operation can do to a run, and what follows for whole histories.
import Traqen.SourcePublication

open Js

namespace Traqen.SourceLifecycle

open SourceRuns SourcePublication

/-! ## The machine -/

/-- The gaps of a candidate. -/
def gapsOf (gaps : List Gap) (candidate : Candidate) : List Gap :=
  gaps.filter fun g => g.componentId ∈ candidate.payload.components.map ComponentRef.id

/-- A candidate is prepared once for a run, with the gaps of the components that are new. -/
def prepare (candidate : Candidate) (gaps : List Gap) (s : State) : Option State :=
  if (∀ c ∈ s.prepared, c.runId ≠ candidate.runId) ∧
      (∀ g ∈ gaps, ∀ c ∈ s.prepared, g.componentId ∉ c.payload.components.map ComponentRef.id) ∧
      ((s.gaps ++ gaps).map fun g => (g.componentId, g.gapKey)).Nodup ∧
      candidate.counts.gapCount = (gapsOf (s.gaps ++ gaps) candidate).length then
    some { s with prepared := s.prepared ++ [candidate], gaps := s.gaps ++ gaps }
  else none

/-- What may happen: time passes, a candidate is prepared, the staging of a run is given up, or an
operation is called. -/
inductive Act where
  | advance (elapsed : Nat)
  | prepare (candidate : Candidate) (gaps : List Gap)
  | releaseStaging (runId : String)
  | saveDraft (access : Authorization) (actorId : String) (expectedRevision : Int) (input : Json)
      (beforeSave : Except Thrown Unit)
  | startRun (access : Authorization) (actorId : String) (draftRevision : Option Int)
      (policyRevisionId retryOf : Option String) (id : String)
  | claimRun (runId workerId : String) (leaseMs : Int)
  | transition (access : Authorization) (context : Context) (expectedStatus status : RunStatus)
      (progress diagnostic : Option Json)
  | cancel (access : Authorization) (runId : String)
  | heartbeat (access : Authorization) (context : Context) (leaseMs : Int)
  | releaseLease (access : Authorization) (context : Context)
  | acceptCandidateGap (access : Authorization) (actorId runId : String) (input : GapInput)
      (id : String)
  | confirmCandidate (access : Authorization) (actorId runId : String) (input : ConfirmInput)
      (id : String)
  | beginSeal (access : Authorization) (actorId : String) (context : Context)
      (clientToken confirmationId id : String)
  | commitSeal (access runAccess : Authorization) (policyRevisionId : Option String)
      (sealing : Sealing) (receiptId : String)

/-- The run and the generation that a worker's operation presents. -/
def Act.context : Act → Option Context
  | .transition _ context _ _ _ _ => some context
  | .heartbeat _ context _ => some context
  | .releaseLease _ context => some context
  | .beginSeal _ _ context _ _ _ => some context
  | .commitSeal _ _ _ sealing _ => some sealing.context
  | _ => none

/-- The run that is claimed. -/
def Act.claims : Act → Option String
  | .claimRun runId _ _ => some runId
  | _ => none

/-- The run that is cancelled. -/
def Act.cancels : Act → Option String
  | .cancel _ runId => some runId
  | _ => none

/-- The run that a user confirms. -/
def Act.confirms : Act → Option String
  | .confirmCandidate _ _ runId _ _ => some runId
  | _ => none

def Act.commits : Act → Bool
  | .commitSeal _ _ _ _ _ => true
  | _ => false

/-- The state after an operation on the runs alone. -/
def onStore {α : Type} (s : State) (result : Except Thrown (Store × α)) : Option State :=
  result.toOption.map fun r => { s with store := r.1 }

section Step

variable (sha256 : String → String) (dateParse : String → Option Int)

def step (s : State) : Act → Option State
  | .advance elapsed => some { s with store := { s.store with clock := s.store.clock + elapsed } }
  | .prepare candidate gaps => prepare candidate gaps s
  | .releaseStaging runId =>
    some { s with store := { s.store with stagingRelease := s.store.stagingRelease ++ [runId] } }
  | .saveDraft access actorId expectedRevision input beforeSave =>
    onStore s (saveDraft access actorId expectedRevision input beforeSave s.store)
  | .startRun access actorId draftRevision policyRevisionId retryOf id =>
    onStore s (startRun access actorId draftRevision policyRevisionId retryOf id s.store)
  | .claimRun runId workerId leaseMs => onStore s (claimRun runId workerId leaseMs s.store)
  | .transition access context expectedStatus status progress diagnostic =>
    onStore s (transition access context expectedStatus status progress diagnostic s.store)
  | .cancel access runId => onStore s (cancel access runId s.store)
  | .heartbeat access context leaseMs => onStore s (heartbeat access context leaseMs s.store)
  | .releaseLease access context => onStore s (releaseLease access context s.store)
  | .acceptCandidateGap access actorId runId input id =>
    (acceptCandidateGap dateParse access actorId runId input id s).toOption.map Prod.fst
  | .confirmCandidate access actorId runId input id =>
    (confirmCandidate dateParse access actorId runId input id s).toOption.map Prod.fst
  | .beginSeal access actorId context clientToken confirmationId id =>
    (beginSeal sha256 access actorId context clientToken confirmationId id s).toOption.map Prod.fst
  | .commitSeal access runAccess policyRevisionId sealing receiptId =>
    if sealing ∈ s.sealings then
      (commitSeal access runAccess policyRevisionId sealing receiptId s).toOption.map Prod.fst
    else none

end Step

/-! ## What a step can do to the runs -/

/-- The worker of a run that has not ended, in its generation and within its lease. -/
def Held (s : Store) (context : Context) : Prop :=
  ∃ run, s.run? context.runId = some run ∧ run.generation = context.generation ∧
    leaseValid run.leaseUntil s.clock ∧ run.status.isTerminal = false

/-- Who writes a run: whoever claims, cancels or confirms it, or the worker that holds it. -/
inductive Writer (s : Store) (a : Act) (run updated : Run) : Prop where
  | claim (claims : a.claims = some run.id) (generation : updated.generation = run.generation + 1)
  | cancel (cancels : a.cancels = some run.id) (generation : updated.generation = run.generation + 1)
      (ended : updated.status.isTerminal = true) (workerId : updated.workerId = run.workerId)
  | confirm (confirms : a.confirms = some run.id) (generation : updated.generation = run.generation)
      (workerId : updated.workerId = run.workerId)
  | worker (context : Context) (presents : a.context = some context) (same : context.runId = run.id)
      (held : Held s context) (generation : updated.generation = run.generation)
      (workerId : updated.workerId = run.workerId)

/-- A step leaves the runs alone, saves a draft while none is active, starts one, or writes one that
has not ended. -/
inductive Effect (s : Store) (a : Act) (t : Store) : Prop where
  | quiet (claims : a.claims = none)
      (cancels : ∀ id ∈ a.cancels, ∃ run, s.run? id = some run ∧ run.status.isTerminal = true)
      (runs : t.runs = s.runs) (revision : t.draftRevision = s.draftRevision)
  | drafted (claims : a.claims = none) (cancels : a.cancels = none) (active : s.activeRun = none)
      (runs : t.runs = s.runs)
  | started (run : Run) (claims : a.claims = none) (cancels : a.cancels = none)
      (active : s.activeRun = none) (store : t = { s with runs := s.runs ++ [run] })
      (fresh : ∀ r ∈ s.runs, r.id ≠ run.id) (preflighting : run.status = .PREFLIGHTING)
      (current : run.retryOf = none → run.draftRevision = s.draftRevision)
      (retried : ∀ prior ∈ run.retryOf, prior ∉ s.stagingRelease)
  | written (run : Run) (f : Run → Run) (found : s.run? run.id = some run)
      (active : run.status.isTerminal = false) (keeps : KeepsOrigin f) (store : t = s.setRun run.id f)
      (writer : Writer s a run (f run))
      (succeeds : (f run).status = .SUCCEEDED → a.commits = true)

variable {r run : Run} {context : Context}

section Effects

variable {sha256 : String → String} {dateParse : String → Option Int} {s t : State} {a : Act}

theorem onStore_some {α : Type} {result : Except Thrown (Store × α)} (h : onStore s result = some t) :
    ∃ store value, result = .ok (store, value) ∧ t = { s with store } := by
  cases result with
  | error e => cases h
  | ok r =>
    obtain rfl := Option.some.inj h
    exact ⟨r.1, r.2, rfl, rfl⟩

theorem ok_of_fst {α : Type} {result : Except Thrown (State × α)}
    (h : result.toOption.map Prod.fst = some t) : ∃ value, result = .ok (t, value) := by
  cases result with
  | error e => cases h
  | ok r =>
    obtain rfl := Option.some.inj h
    exact ⟨r.2, rfl⟩

variable {access : Authorization} {store : Store}

theorem held_of_withLease
    (h : withLease access context store = .ok run) : Held store context := by
  obtain ⟨hrun, hgeneration, hlease, hterminal⟩ := withLease_ok h
  exact ⟨run, hrun, hgeneration, hlease, hterminal⟩

/-- No transition of a worker makes a run succeed. -/
theorem not_mayMove_succeeded (expectedStatus : RunStatus) : ¬ mayMove expectedStatus .SUCCEEDED := by
  cases expectedStatus <;> decide

/-- What a worker that holds its run writes. -/
theorem effect_worker {f : Run → Run}
    (hcontext : a.context = some context) (hkeeps : KeepsOrigin f)
    (hfound : store.run? context.runId = some run) (hheld : Held store context)
    (hgeneration : (f run).generation = run.generation) (hworker : (f run).workerId = run.workerId)
    (hsucceeds : (f run).status = .SUCCEEDED → a.commits = true) :
    Effect store a (store.setRun context.runId f) := by
  have hid := (run?_some hfound).2
  have hactive : run.status.isTerminal = false := by
    obtain ⟨held, hsame, -, -, hterminal⟩ := hheld
    rw [hfound] at hsame
    obtain rfl := Option.some.inj hsame
    exact hterminal
  refine .written run f ?_ hactive hkeeps ?_ ?_ hsucceeds
  · rw [hid]
    exact hfound
  · rw [hid]
  · exact .worker context hcontext hid.symm hheld hgeneration hworker

theorem active_of_mem {status : RunStatus} (h : status ∈ [RunStatus.REVIEW_REQUIRED, .PREPARING_SEAL]) :
    status.isTerminal = false := by
  rcases List.mem_cons.mp h with rfl | h
  · rfl
  · rw [List.mem_singleton.mp h]
    rfl

theorem prepare_some {candidate : Candidate} {gaps : List Gap} (h : prepare candidate gaps s = some t) :
    (∀ c ∈ s.prepared, c.runId ≠ candidate.runId) ∧
      (∀ g ∈ gaps, ∀ c ∈ s.prepared, g.componentId ∉ c.payload.components.map ComponentRef.id) ∧
      candidate.counts.gapCount = (gapsOf (s.gaps ++ gaps) candidate).length ∧
      t = { s with prepared := s.prepared ++ [candidate], gaps := s.gaps ++ gaps } := by
  unfold prepare at h
  split_ifs at h with hprepare
  obtain ⟨hrun, hnew, -, hcount⟩ := hprepare
  exact ⟨hrun, hnew, hcount, (Option.some.inj h).symm⟩

variable {actorId runId : String}

theorem acceptCandidateGap_store {id : String} {input : GapInput}
    {row : Acceptance}
    (h : acceptCandidateGap dateParse access actorId runId input id s = .ok (t, row)) :
    t.store = s.store := by
  obtain rfl | ⟨candidate, -, -, -, -, -, -, -, -, rfl⟩ := acceptCandidateGap_ok h
  · rfl
  · rfl

variable {policyRevisionId : Option String}

theorem commitSeal_some {runAccess : Authorization}
    {sealing : Sealing} {receiptId : String}
    (h : step sha256 dateParse s (.commitSeal access runAccess policyRevisionId sealing receiptId) =
      some t) :
    sealing ∈ s.sealings ∧
      ∃ sealed, commitSeal access runAccess policyRevisionId sealing receiptId s = .ok (t, sealed) := by
  unfold step at h
  dsimp only at h
  by_cases hmem : sealing ∈ s.sealings
  · rw [if_pos hmem] at h
    exact ⟨hmem, ok_of_fst h⟩
  · rw [if_neg hmem] at h
    cases h

theorem keepsOrigin_reviewed : KeepsOrigin reviewed :=
  ⟨fun _ => rfl, fun _ => rfl, fun _ => rfl, fun _ => rfl⟩

theorem keepsOrigin_preparing (operationId : String) : KeepsOrigin (preparing operationId) :=
  ⟨fun _ => rfl, fun _ => rfl, fun _ => rfl, fun _ => rfl⟩

theorem keepsOrigin_succeeded : KeepsOrigin succeeded :=
  ⟨fun _ => rfl, fun _ => rfl, fun _ => rfl, fun _ => rfl⟩

/-- A status that has not ended is not that of success. -/
theorem not_succeeded {status : RunStatus} {p : Prop} (h : status.isTerminal = false)
    (hstatus : status = .SUCCEEDED) : p := by
  rw [hstatus] at h
  cases h

theorem saveDraft_effect {expectedRevision : Int}
    {input : Json} {beforeSave : Except Thrown Unit} {draft : Draft}
    (h : saveDraft access actorId expectedRevision input beforeSave s.store = .ok (store, draft)) :
    Effect s.store (.saveDraft access actorId expectedRevision input beforeSave) store := by
  obtain ⟨hactive, -, rfl⟩ := saveDraft_ok h
  exact .drafted rfl rfl hactive rfl

theorem startRun_effect {id : String} {draftRevision : Option Int}
    {retryOf : Option String}
    (h : startRun access actorId draftRevision policyRevisionId retryOf id s.store = .ok (store, run)) :
    Effect s.store (.startRun access actorId draftRevision policyRevisionId retryOf id) store := by
  obtain ⟨rfl, -⟩ | ⟨hactive, rfl, hid, hfresh, hstatus, -, -, -, hcurrent, hretried⟩ := startRun_ok h
  · exact .quiet rfl (fun _ h => by cases h) rfl rfl
  · rw [← hid] at hfresh
    exact .started run rfl rfl hactive rfl hfresh hstatus hcurrent fun prior hprior =>
      (hretried prior hprior).1

theorem claimRun_effect {workerId : String} {leaseMs : Int}
    (h : claimRun runId workerId leaseMs s.store = .ok (store, r)) :
    Effect s.store (.claimRun runId workerId leaseMs) store := by
  obtain ⟨run, hrun, hactive, -, -, rfl⟩ := claimRun_ok h
  obtain rfl := (run?_some hrun).2
  exact .written run _ hrun hactive (keepsOrigin_claimed _ _) rfl (.claim rfl rfl)
    (fun hstatus => not_succeeded hactive hstatus)

theorem transition_effect
    {expectedStatus status : RunStatus} {progress diagnostic : Option Json}
    (h : transition access context expectedStatus status progress diagnostic s.store = .ok (store, r)) :
    Effect s.store (.transition access context expectedStatus status progress diagnostic) store := by
  obtain ⟨run, hlease, -, hmay, rfl⟩ := transition_ok h
  refine effect_worker rfl (keepsOrigin_moved _ _ _) (withLease_ok hlease).1
    (held_of_withLease hlease) rfl rfl ?_
  rintro rfl
  exact absurd hmay (not_mayMove_succeeded _)

theorem cancel_effect
    (h : cancel access runId s.store = .ok (store, r)) :
    Effect s.store (.cancel access runId) store := by
  obtain ⟨run, hrun, ⟨hterminal, rfl⟩ | ⟨hactive, rfl⟩⟩ := cancel_ok h
  · refine .quiet rfl ?_ rfl rfl
    intro id hid
    obtain rfl := Option.some.inj hid
    exact ⟨run, hrun, hterminal⟩
  · obtain rfl := (run?_some hrun).2
    exact .written run _ hrun hactive keepsOrigin_cancelled rfl (.cancel rfl rfl rfl rfl)
      (fun hstatus => by cases hstatus)

theorem leased_effect {leaseUntil : Option Int}
    (hcontext : a.context = some context)
    (hlease : withLease access context s.store = .ok run)
    (h : store = s.store.setRun context.runId (leased leaseUntil)) : Effect s.store a store := by
  obtain ⟨hrun, -, -, hactive⟩ := withLease_ok hlease
  rw [h]
  exact effect_worker hcontext (keepsOrigin_leased _) hrun (held_of_withLease hlease) rfl rfl
    (fun hstatus => not_succeeded hactive hstatus)

theorem confirmCandidate_effect {id : String}
    {input : ConfirmInput} {row : Confirmation}
    (h : confirmCandidate dateParse access actorId runId input id s = .ok (t, row)) :
    Effect s.store (.confirmCandidate access actorId runId input id) t.store := by
  obtain rfl | ⟨run, candidate, hrun, hstatus, -, -, -, -, -, -, -, -, -, -, rfl⟩ :=
    confirmCandidate_ok h
  · exact .quiet rfl (fun _ h => by cases h) rfl rfl
  · obtain rfl := (run?_some hrun).2
    refine .written run _ hrun (active_of_mem hstatus) keepsOrigin_reviewed rfl (.confirm rfl rfl rfl)
      (fun hstatus => by cases hstatus)

theorem beginSeal_effect {id clientToken confirmationId : String}
    {begun : Begun}
    (h : beginSeal sha256 access actorId context clientToken confirmationId id s = .ok (t, begun)) :
    Effect s.store (.beginSeal access actorId context clientToken confirmationId id) t.store := by
  obtain ⟨-, confirmation, -, -, -, ⟨operation, -, -, -, -, rfl⟩ |
    ⟨run, prepared, operation, added, -, hrun, hstatus, hgeneration, hlease, -, -, -, -, -, -, rfl⟩⟩ :=
    beginSeal_ok h
  · rw [bindToken_store]
    exact .quiet rfl (fun _ h => by cases h) rfl rfl
  · exact effect_worker rfl (keepsOrigin_preparing _) hrun
      ⟨run, hrun, hgeneration, hlease, active_of_mem hstatus⟩ rfl rfl (fun hstatus => by cases hstatus)

theorem commitSeal_effect {runAccess : Authorization}
    {sealing : Sealing} {receiptId : String} {sealed : Sealed}
    (h : commitSeal access runAccess policyRevisionId sealing receiptId s = .ok (t, sealed)) :
    Effect s.store (.commitSeal access runAccess policyRevisionId sealing receiptId) t.store := by
  obtain ⟨stored, -, ⟨-, rfl⟩ | ⟨-, run, hrun, hgeneration, hlease, hstatus, -, -, -, -, -, bundles,
    rfl⟩⟩ := commitSeal_ok h
  · exact .quiet rfl (fun _ h => by cases h) rfl rfl
  · refine effect_worker rfl keepsOrigin_succeeded hrun ⟨run, hrun, hgeneration, hlease, ?_⟩ rfl rfl
      (fun _ => rfl)
    rw [hstatus]
    rfl

theorem step_effect (h : step sha256 dateParse s a = some t) : Effect s.store a t.store := by
  cases a with
  | advance elapsed =>
    obtain rfl := Option.some.inj h
    exact .quiet rfl (fun _ h => by cases h) rfl rfl
  | prepare candidate gaps =>
    obtain ⟨-, -, -, rfl⟩ := prepare_some h
    exact .quiet rfl (fun _ h => by cases h) rfl rfl
  | releaseStaging runId =>
    obtain rfl := Option.some.inj h
    exact .quiet rfl (fun _ h => by cases h) rfl rfl
  | saveDraft access actorId expectedRevision input beforeSave =>
    obtain ⟨store, _, hok, rfl⟩ := onStore_some h
    exact saveDraft_effect hok
  | startRun access actorId draftRevision policyRevisionId retryOf id =>
    obtain ⟨store, _, hok, rfl⟩ := onStore_some h
    exact startRun_effect hok
  | claimRun runId workerId leaseMs =>
    obtain ⟨store, _, hok, rfl⟩ := onStore_some h
    exact claimRun_effect hok
  | transition access context expectedStatus status progress diagnostic =>
    obtain ⟨store, _, hok, rfl⟩ := onStore_some h
    exact transition_effect hok
  | cancel access runId =>
    obtain ⟨store, _, hok, rfl⟩ := onStore_some h
    exact cancel_effect hok
  | heartbeat access context leaseMs =>
    obtain ⟨store, _, hok, rfl⟩ := onStore_some h
    obtain ⟨run, hlease, hstore⟩ := heartbeat_ok hok
    exact leased_effect rfl hlease hstore
  | releaseLease access context =>
    obtain ⟨store, _, hok, rfl⟩ := onStore_some h
    obtain ⟨run, hlease, hstore⟩ := releaseLease_ok hok
    exact leased_effect rfl hlease hstore
  | acceptCandidateGap access actorId runId input id =>
    obtain ⟨_, hok⟩ := ok_of_fst h
    rw [acceptCandidateGap_store hok]
    exact .quiet rfl (fun _ h => by cases h) rfl rfl
  | confirmCandidate access actorId runId input id =>
    obtain ⟨_, hok⟩ := ok_of_fst h
    exact confirmCandidate_effect hok
  | beginSeal access actorId context clientToken confirmationId id =>
    obtain ⟨_, hok⟩ := ok_of_fst h
    exact beginSeal_effect hok
  | commitSeal access runAccess policyRevisionId sealing receiptId =>
    obtain ⟨-, _, hok⟩ := commitSeal_some h
    exact commitSeal_effect hok

end Effects

/-! ## What holds of every step -/

/-- A claim, and a cancellation that takes effect, begins a generation of its run. -/
def generations (a : Act) (run : Run) : Nat :=
  if a.claims = some run.id ∨ a.cancels = some run.id ∧ run.status.isTerminal = false then 1 else 0

/-- What a step may write to a run. -/
structure Advances (s : Store) (a : Act) (run updated : Run) : Prop where
  counted : updated.generation = run.generation + generations a run
  ended : run.status.isTerminal = true → updated = run
  written : updated = run ∨ a.claims = some run.id ∨ a.cancels = some run.id ∨
    a.confirms = some run.id ∨ ∃ context, a.context = some context ∧ context.runId = run.id ∧
      Held s context
  workerId : a.claims = some run.id ∨ updated.workerId = run.workerId
  /-- A cancellation ends its run. -/
  cancelled : a.cancels = some run.id → updated.status.isTerminal = true

section Runs

variable {s t : Store} {a : Act}

theorem effect_runsOk (hs : RunsOk s) (h : Effect s a t) : RunsOk t := by
  cases h with
  | quiet _ _ hruns hrevision => exact ⟨hruns ▸ hs.ids, hruns ▸ hs.one, hruns ▸ hrevision ▸ hs.current⟩
  | drafted _ _ hactive hruns =>
    refine ⟨hruns ▸ hs.ids, hruns ▸ hs.one, ?_⟩
    intro r hr hnot
    rw [activeRun_none hactive r (hruns ▸ hr)] at hnot
    cases hnot
  | started run _ _ hactive hstore hfresh _ hcurrent _ =>
    rw [hstore]
    exact runsOk_started hs hactive hfresh hcurrent
  | written run f hfound hactive hkeeps hstore _ _ =>
    rw [hstore]
    exact runsOk_setRun hs hfound hactive hkeeps

/-- A worker's call neither claims nor cancels. -/
theorem context_none (h : a.context = some context) :
    a.claims = none ∧ a.cancels = none := by
  cases a <;> first | exact ⟨rfl, rfl⟩ | cases h

theorem claims_cancels {id : String} (h : a.claims = some id) : a.cancels = none := by
  cases a <;> first | rfl | cases h

theorem cancels_claims {id : String} (h : a.cancels = some id) : a.claims = none := by
  cases a <;> first | rfl | cases h

theorem confirms_none {id : String} (h : a.confirms = some id) :
    a.claims = none ∧ a.cancels = none := by
  cases a <;> first | exact ⟨rfl, rfl⟩ | cases h

theorem generations_none (hclaims : a.claims = none) (hcancels : a.cancels = none) :
    generations a run = 0 := by
  unfold generations
  rw [hclaims, hcancels]
  simp

/-- A step that does not touch a run. -/
theorem advances_same (hclaims : a.claims ≠ some run.id)
    (hcancels : a.cancels = some run.id → run.status.isTerminal = true) : Advances s a run run := by
  refine ⟨?_, fun _ => rfl, Or.inl rfl, Or.inr rfl, hcancels⟩
  unfold generations
  rw [if_neg]
  · rfl
  · rintro (h | ⟨h, hactive⟩)
    · exact hclaims h
    · rw [hcancels h] at hactive
      cases hactive

theorem advances_writer {updated : Run} (hactive : run.status.isTerminal = false)
    (h : Writer s a run updated) : Advances s a run updated := by
  have hended : run.status.isTerminal = true → updated = run := by
    intro h
    rw [hactive] at h
    cases h
  cases h with
  | claim hclaims hgeneration =>
    refine ⟨?_, hended, Or.inr (Or.inl hclaims), Or.inl hclaims, ?_⟩
    · rw [hgeneration, generations, if_pos (Or.inl hclaims)]
    · intro hcancels
      rw [claims_cancels hclaims] at hcancels
      cases hcancels
  | cancel hcancels hgeneration hterminal hworker =>
    refine ⟨?_, hended, Or.inr (Or.inr (Or.inl hcancels)), Or.inr hworker, fun _ => hterminal⟩
    rw [hgeneration, generations, if_pos (Or.inr ⟨hcancels, hactive⟩)]
  | confirm hconfirms hgeneration hworker =>
    obtain ⟨hclaims, hcancels⟩ := confirms_none hconfirms
    refine ⟨?_, hended, Or.inr (Or.inr (Or.inr (Or.inl hconfirms))), Or.inr hworker, ?_⟩
    · rw [hgeneration, generations_none hclaims hcancels]
      rfl
    · intro h
      rw [hcancels] at h
      cases h
  | worker context hcontext hsame hheld hgeneration hworker =>
    obtain ⟨hclaims, hcancels⟩ := context_none hcontext
    refine ⟨?_, hended, Or.inr (Or.inr (Or.inr (Or.inr ⟨context, hcontext, hsame, hheld⟩))),
      Or.inr hworker, ?_⟩
    · rw [hgeneration, generations_none hclaims hcancels]
      rfl
    · intro h
      rw [hcancels] at h
      cases h

/-- Who writes a run does not touch another one. -/
theorem advances_other {found updated : Run} (hother : run.id ≠ found.id)
    (h : Writer s a found updated) : Advances s a run run := by
  cases h with
  | claim hclaims _ =>
    refine advances_same ?_ ?_
    · rw [hclaims]
      intro heq
      exact hother (Option.some.inj heq).symm
    · simp [claims_cancels hclaims]
  | cancel hcancels _ _ _ =>
    refine advances_same (by simp [cancels_claims hcancels]) ?_
    rw [hcancels]
    intro heq
    exact absurd (Option.some.inj heq).symm hother
  | confirm hconfirms _ _ =>
    obtain ⟨hclaims, hcancels⟩ := confirms_none hconfirms
    exact advances_same (by simp [hclaims]) (by simp [hcancels])
  | worker context hcontext _ _ _ _ =>
    obtain ⟨hclaims, hcancels⟩ := context_none hcontext
    exact advances_same (by simp [hclaims]) (by simp [hcancels])

/-- After a step every run is there, and what was written to it is what a step may write. -/
theorem effect_advances (hs : RunsOk s) (h : Effect s a t) (hrun : run ∈ s.runs) :
    ∃ updated ∈ t.runs, updated.id = run.id ∧ Advances s a run updated := by
  cases h with
  | quiet hclaims hcancels hruns _ =>
    refine ⟨run, hruns ▸ hrun, rfl, advances_same (by simp [hclaims]) ?_⟩
    intro hcancel
    obtain ⟨found, hfound, hterminal⟩ := hcancels run.id hcancel
    rw [run?_eq hs.ids hrun] at hfound
    obtain rfl := Option.some.inj hfound
    exact hterminal
  | drafted hclaims hcancels _ hruns =>
    exact ⟨run, hruns ▸ hrun, rfl, advances_same (by simp [hclaims]) (by simp [hcancels])⟩
  | started new hclaims hcancels _ hstore _ _ _ _ =>
    refine ⟨run, ?_, rfl, advances_same (by simp [hclaims]) (by simp [hcancels])⟩
    rw [hstore]
    exact List.mem_append_left _ hrun
  | written found f hfound hactive hkeeps hstore hwriter _ =>
    rw [hstore]
    by_cases hsame : run.id = found.id
    · have hfound' := run?_eq hs.ids hrun
      rw [hsame, hfound] at hfound'
      obtain rfl := Option.some.inj hfound'
      refine ⟨f found, mem_setRun.mpr ⟨found, hrun, ?_⟩, hkeeps.id found, advances_writer hactive hwriter⟩
      rw [if_pos rfl]
    · refine ⟨run, mem_setRun.mpr ⟨run, hrun, ?_⟩, rfl, advances_other hsame hwriter⟩
      rw [if_neg hsame]

/-- A run after a step is one that was there, with what it was started with, or a new one, which is no
retry of a run whose staging is given up. -/
theorem effect_origin (hs : RunsOk s) (h : Effect s a t) (hrun : run ∈ t.runs) :
    (∃ old ∈ s.runs, old.id = run.id ∧ old.retryOf = run.retryOf ∧
      old.policyRevisionId = run.policyRevisionId) ∨
    (∀ r ∈ s.runs, r.id ≠ run.id) ∧ ∀ prior ∈ run.retryOf, prior ∉ s.stagingRelease := by
  cases h with
  | quiet _ _ hruns _ => exact Or.inl ⟨run, hruns ▸ hrun, rfl, rfl, rfl⟩
  | drafted _ _ _ hruns => exact Or.inl ⟨run, hruns ▸ hrun, rfl, rfl, rfl⟩
  | started new _ _ _ hstore hfresh _ _ hretried =>
    rw [hstore] at hrun
    rcases List.mem_append.mp hrun with hold | hnew
    · exact Or.inl ⟨run, hold, rfl, rfl, rfl⟩
    · rw [List.mem_singleton.mp hnew]
      exact Or.inr ⟨hfresh, hretried⟩
  | written found f hfound _ hkeeps hstore _ _ =>
    rw [hstore] at hrun
    rcases mem_setRun_of hs.ids hfound hrun with rfl | ⟨hold, -⟩
    · exact Or.inl ⟨found, (run?_some hfound).1, (hkeeps.id found).symm, (hkeeps.retryOf found).symm,
        (hkeeps.policyRevisionId found).symm⟩
    · exact Or.inl ⟨run, hold, rfl, rfl, rfl⟩

end Runs

section Histories

variable {sha256 : String → String} {dateParse : String → Option Int} {s t : State} {acts : List Act}
  {a : Act}

theorem initial_runsOk : RunsOk SourceRuns.initial :=
  ⟨List.nodup_nil, fun _ h => (by cases h), fun _ h => (by cases h)⟩

variable (h : Machine.run (step sha256 dateParse) s acts = some t)
include h

theorem run_runsOk (hs : RunsOk s.store) : RunsOk t.store :=
  @Machine.run_keeps _ _ _ (fun s => RunsOk s.store)
    (fun _ _ _ hs ht => effect_runsOk hs (step_effect ht)) _ _ _ h hs

omit h in
/-- Only the release of staging gives up staging. -/
theorem step_stagingRelease (h : step sha256 dateParse s a = some t)
    (hrelease : ∀ runId, a ≠ .releaseStaging runId) :
    t.store.stagingRelease = s.store.stagingRelease := by
  cases a with
  | releaseStaging runId => exact absurd rfl (hrelease runId)
  | advance elapsed =>
    obtain rfl := Option.some.inj h
    rfl
  | prepare candidate gaps =>
    obtain ⟨-, -, -, rfl⟩ := prepare_some h
    rfl
  | saveDraft access actorId expectedRevision input beforeSave =>
    obtain ⟨_, _, hok, rfl⟩ := onStore_some h
    obtain ⟨-, -, rfl⟩ := saveDraft_ok hok
    rfl
  | startRun access actorId draftRevision policyRevisionId retryOf id =>
    obtain ⟨_, _, hok, rfl⟩ := onStore_some h
    obtain ⟨rfl, -⟩ | ⟨-, rfl, -⟩ := startRun_ok hok
    · rfl
    · rfl
  | claimRun runId workerId leaseMs =>
    obtain ⟨_, _, hok, rfl⟩ := onStore_some h
    obtain ⟨_, -, -, -, -, rfl⟩ := claimRun_ok hok
    rfl
  | transition access context expectedStatus status progress diagnostic =>
    obtain ⟨_, _, hok, rfl⟩ := onStore_some h
    obtain ⟨_, -, -, -, rfl⟩ := transition_ok hok
    rfl
  | cancel access runId =>
    obtain ⟨_, _, hok, rfl⟩ := onStore_some h
    obtain ⟨_, -, ⟨-, rfl⟩ | ⟨-, rfl⟩⟩ := cancel_ok hok
    · rfl
    · rfl
  | heartbeat access context leaseMs =>
    obtain ⟨_, _, hok, rfl⟩ := onStore_some h
    obtain ⟨_, -, rfl⟩ := heartbeat_ok hok
    rfl
  | releaseLease access context =>
    obtain ⟨_, _, hok, rfl⟩ := onStore_some h
    obtain ⟨_, -, rfl⟩ := releaseLease_ok hok
    rfl
  | acceptCandidateGap access actorId runId input id =>
    obtain ⟨_, hok⟩ := ok_of_fst h
    rw [acceptCandidateGap_store hok]
  | confirmCandidate access actorId runId input id =>
    obtain ⟨_, hok⟩ := ok_of_fst h
    obtain rfl | ⟨_, _, -, -, -, -, -, -, -, -, -, -, -, -, rfl⟩ := confirmCandidate_ok hok
    · rfl
    · rfl
  | beginSeal access actorId context clientToken confirmationId id =>
    obtain ⟨_, hok⟩ := ok_of_fst h
    obtain ⟨-, _, -, -, -, ⟨_, -, -, -, -, rfl⟩ | ⟨_, _, _, _, -, -, -, -, -, -, -, -, -, -, -, rfl⟩⟩ :=
      beginSeal_ok hok
    · rw [bindToken_store]
    · rfl
  | commitSeal access runAccess policyRevisionId sealing receiptId =>
    obtain ⟨-, _, hok⟩ := commitSeal_some h
    obtain ⟨_, -, ⟨-, rfl⟩ | ⟨-, _, -, -, -, -, -, -, -, -, -, _, rfl⟩⟩ := commitSeal_ok hok
    · rfl
    · rfl

omit h in
/-- A worker's call writes where it holds the run; any other call of a worker that succeeds is the
repetition of a seal, and no more than a client token is kept of it. -/
theorem step_held (h : step sha256 dateParse s a = some t)
    (hcontext : a.context = some context) :
    Held s.store context ∨ ∃ tokens, t = { s with tokens } := by
  cases a with
  | transition access _ expectedStatus status progress diagnostic =>
    obtain rfl := Option.some.inj hcontext
    obtain ⟨_, _, hok, rfl⟩ := onStore_some h
    obtain ⟨_, hlease, -⟩ := transition_ok hok
    exact Or.inl (held_of_withLease hlease)
  | heartbeat access _ leaseMs =>
    obtain rfl := Option.some.inj hcontext
    obtain ⟨_, _, hok, rfl⟩ := onStore_some h
    obtain ⟨_, hlease, -⟩ := heartbeat_ok hok
    exact Or.inl (held_of_withLease hlease)
  | releaseLease access _ =>
    obtain rfl := Option.some.inj hcontext
    obtain ⟨_, _, hok, rfl⟩ := onStore_some h
    obtain ⟨_, hlease, -⟩ := releaseLease_ok hok
    exact Or.inl (held_of_withLease hlease)
  | beginSeal access actorId _ clientToken confirmationId id =>
    obtain rfl := Option.some.inj hcontext
    obtain ⟨_, hok⟩ := ok_of_fst h
    obtain ⟨-, confirmation, -, -, -, ⟨operation, -, -, -, -, rfl⟩ |
      ⟨run, -, -, -, -, hrun, hstatus, hgeneration, hlease, -⟩⟩ := beginSeal_ok hok
    · exact Or.inr (bindToken_tokens _ _ _)
    · exact Or.inl ⟨run, hrun, hgeneration, hlease, active_of_mem hstatus⟩
  | commitSeal access runAccess policyRevisionId sealing receiptId =>
    obtain rfl := Option.some.inj hcontext
    obtain ⟨-, _, hok⟩ := commitSeal_some h
    obtain ⟨stored, -, ⟨-, rfl⟩ | ⟨-, run, hrun, hgeneration, hlease, hstatus, -⟩⟩ := commitSeal_ok hok
    · exact Or.inr ⟨t.tokens, rfl⟩
    · exact Or.inl ⟨run, hrun, hgeneration, hlease, by rw [hstatus]; rfl⟩
  | advance | prepare | releaseStaging | saveDraft | startRun | claimRun | cancel
  | acceptCandidateGap | confirmCandidate => cases hcontext

/-- What has ended stays as it is. -/
theorem run_ended (hs : RunsOk s.store)
    (hrun : run ∈ s.store.runs) (hended : run.status.isTerminal = true) :
    run ∈ t.store.runs := by
  refine (@Machine.run_keeps _ _ _ (fun s => RunsOk s.store ∧ run ∈ s.store.runs) ?_ _ _ _ h
    ⟨hs, hrun⟩).2
  rintro s a t ⟨hs, hrun⟩ ht
  have heffect := step_effect ht
  obtain ⟨updated, hupdated, -, hadvances⟩ := effect_advances hs heffect hrun
  rw [hadvances.ended hended] at hupdated
  exact ⟨effect_runsOk hs heffect, hupdated⟩

/-- Until a run is claimed again it keeps its worker, and its generation or an end. -/
theorem run_unclaimed (hs : RunsOk s.store)
    (hrun : run ∈ s.store.runs) (hunclaimed : ∀ a ∈ acts, a.claims ≠ some run.id) :
    ∃ later ∈ t.store.runs, later.id = run.id ∧ later.workerId = run.workerId ∧
      (later.generation = run.generation ∨ later.status.isTerminal = true) ∧
      (run.status.isTerminal = true → later = run) := by
  induction acts generalizing s run with
  | nil =>
    obtain rfl := Option.some.inj h
    exact ⟨run, hrun, rfl, rfl, Or.inl rfl, fun _ => rfl⟩
  | cons a acts ih =>
    obtain ⟨u, hu, hrest⟩ := Machine.run_cons_some h
    have heffect := step_effect hu
    obtain ⟨next, hnext, hid, hadvances⟩ := effect_advances hs heffect hrun
    obtain ⟨later, hlater, hlid, hworker, hgeneration, hlast⟩ :=
      ih hrest (effect_runsOk hs heffect) hnext
        (fun b hb => hid ▸ hunclaimed b (List.mem_cons_of_mem _ hb))
    have hclaims : a.claims ≠ some run.id := hunclaimed a List.mem_cons_self
    refine ⟨later, hlater, hlid.trans hid, ?_, ?_, ?_⟩
    · rw [hworker]
      exact hadvances.workerId.resolve_left hclaims
    · by_cases hcancels : a.cancels = some run.id
      · have hended := hadvances.cancelled hcancels
        rw [hlast hended]
        exact Or.inr hended
      · have hsame : next.generation = run.generation := by
          rw [hadvances.counted, generations, if_neg]
          · rfl
          · rintro (h | ⟨h, -⟩)
            · exact hclaims h
            · exact hcancels h
        rw [← hsame]
        exact hgeneration
    · intro hended
      obtain rfl := hadvances.ended hended
      exact hlast hended

omit h

end Histories

/-- Source runs in every reachable state of a workspace: at most one has not ended, and it has the
current draft when it is no retry. A step keeps what has ended, counts exactly the claims and the
cancellations that take effect, and writes a run only for its claim, for its user or for the worker
that holds it; and until a run is claimed again, its worker's calls all have one generation. -/
theorem source_run_lifecycle (sha256 : String → String) (dateParse : String → Option Int)
    (acts : List Act) (s : State)
    (h : Machine.run (step sha256 dateParse) SourcePublication.initial acts = some s) :
    RunsOk s.store ∧
    (∀ a t, step sha256 dateParse s a = some t →
      (∀ run ∈ s.store.runs, ∃ updated ∈ t.store.runs,
        updated.id = run.id ∧ Advances s.store a run updated) ∧
      ∀ context, a.context = some context → Held s.store context ∨ ∃ tokens, t = { s with tokens }) ∧
    ∀ run ∈ s.store.runs, ∀ more t, Machine.run (step sha256 dateParse) s more = some t →
      (∀ a ∈ more, a.claims ≠ some run.id) →
      (∃ later ∈ t.store.runs, later.id = run.id ∧ later.workerId = run.workerId) ∧
      ∀ context, Held t.store context → context.runId = run.id → context.generation = run.generation := by
  have hs := run_runsOk h initial_runsOk
  refine ⟨hs, ?_, ?_⟩
  · intro a t ht
    exact ⟨fun run hrun => effect_advances hs (step_effect ht) hrun,
      fun context hcontext => step_held ht hcontext⟩
  · intro run hrun more t hmore hunclaimed
    obtain ⟨later, hlater, hid, hworker, hgeneration, -⟩ := run_unclaimed hmore hs hrun hunclaimed
    refine ⟨⟨later, hlater, hid, hworker⟩, ?_⟩
    rintro context ⟨held, hheld, hcontext, -, hactive⟩ hsame
    have hfound := run?_eq (run_runsOk hmore hs).ids hlater
    rw [hid, ← hsame, hheld] at hfound
    obtain rfl := Option.some.inj hfound
    rw [hactive] at hgeneration
    rw [← hcontext]
    exact hgeneration.resolve_right (by simp)

/-! ## A run -/

def member : Authorization :=
  .ok { tenantId := "tenant", backupBarrier := false, restoreReady := true }

/-- A draft is saved, and a run of it is claimed and then cancelled. -/
def cancelledRun : List Act :=
  [.saveDraft member "author" 0 (.obj []) (.ok ()), .startRun member "author" (some 1) (some "policy") none "run",
    .claimRun "run" "first" 1000,
    .transition member { runId := "run", generation := 1 } .PREFLIGHTING .ENUMERATING none none,
    .advance 1000, .claimRun "run" "second" 1000, .cancel member "run"]

theorem cancelled_run_has_ended :
    ∃ s, Machine.run (step id fun _ => none) SourcePublication.initial cancelledRun = some s ∧
      s.store.runs.map (fun run => (run.status, run.generation, run.workerId)) =
        [(.CANCELLED, 3, some "second")] ∧ RunsOk s.store := by
  have hrun : (Machine.run (step id fun _ => none) SourcePublication.initial cancelledRun).map
      (fun s => s.store.runs.map fun run => (run.status, run.generation, run.workerId)) =
        some [(.CANCELLED, 3, some "second")] := by decide +kernel
  obtain ⟨s, hs, hruns⟩ := Option.map_eq_some_iff.mp hrun
  exact ⟨s, hs, hruns, (source_run_lifecycle id (fun _ => none) cancelledRun s hs).1⟩

end Traqen.SourceLifecycle
