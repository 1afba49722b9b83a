-- Confirmation and publication of a run (`confirmation-service.js`, `publication-service.js`): a
-- candidate is confirmed with its gaps, an operation is begun for the confirmation, the content is
-- verified outside of any transaction, and what is published is committed. `Date.parse` is a
-- parameter; counts, which the rows keep as decimal texts, are numbers.
import Traqen.SourceRuns
import Traqen.Lib.FirstMaximum

open Js

namespace Traqen.SourcePublication

open SourceRuns

/-! ## Rows -/

/-- A row of `source_truth_component_gap`. -/
structure Gap where
  componentId : String
  gapKey : String
  severity : String
  deriving DecidableEq

structure ComponentRef where
  id : String
  sourceId : String
  kind : String
  deriving DecidableEq

structure CandidatePayload where
  workspaceId : String
  policyRevisionId : String
  components : List ComponentRef
  inventoryId : String
  gapSetId : String
  deriving DecidableEq

structure Counts where
  fileCount : Nat
  directoryCount : Nat
  knownBytes : Nat
  gapCount : Nat
  deriving DecidableEq

/-- A row of `source_truth_prepared_bundle`. -/
structure Candidate where
  runId : String
  id : String
  payload : CandidatePayload
  counts : Counts
  deriving DecidableEq

/-- A row of `source_truth_gap_acceptance`. -/
structure Acceptance where
  id : String
  sequence : Nat
  runId : String
  candidateId : String
  gapSetId : String
  componentId : String
  gapKey : String
  actorId : String
  reason : String
  expiresAt : Int
  deriving DecidableEq

/-- The payload of a confirmation; two of them have one canonical text when they are equal. -/
structure ConfirmationPayload where
  candidateId : String
  gapSetId : String
  policyRevisionId : String
  gapCount : Nat
  reason : Option String
  expiresAt : Option Int
  /-- `gapAcceptanceRevision`, in the mode `INDIVIDUAL`. -/
  individual : Option Nat
  deriving DecidableEq

structure Confirmation where
  id : String
  runId : String
  revision : Nat
  candidateId : String
  actorId : String
  payload : ConfirmationPayload
  expiresAt : Option Int
  deriving DecidableEq

structure Receipt where
  id : String
  bundleId : String
  accepted : Bool
  confirmationId : String
  operationId : String
  gapSetId : String
  gapCount : Nat
  expiresAt : Option Int
  acceptedBy : String
  policyRevisionId : String
  issuedAt : Int
  deriving DecidableEq

/-- `{ bundle, receipt }`. -/
structure Sealed where
  bundleId : String
  payload : CandidatePayload
  counts : Counts
  receipt : Receipt
  deriving DecidableEq

/-- An operation is committed when it has a result. -/
structure Operation where
  id : String
  runId : String
  confirmationId : String
  actorId : String
  result : Option Sealed
  deriving DecidableEq

structure Binding where
  runId : String
  confirmationId : String
  deriving DecidableEq

structure Token where
  clientToken : String
  operationId : String
  binding : Binding
  deriving DecidableEq

/-- What `begin` hands to the rest of `seal`. -/
structure Sealing where
  context : Context
  operation : Operation
  confirmation : Confirmation
  prepared : Candidate
  deriving DecidableEq

structure State where
  store : Store
  gaps : List Gap
  prepared : List Candidate
  sequence : Nat
  acceptances : List Acceptance
  confirmations : List Confirmation
  /-- The rows of `source_truth_confirmation_gap_acceptance`: a confirmation and an acceptance. -/
  confirmed : List (String × String)
  operations : List Operation
  tokens : List Token
  bundles : List (String × CandidatePayload × Counts)
  receipts : List Receipt
  /-- The calls of `seal` between their transactions. -/
  sealings : List Sealing

def initial : State :=
  { store := SourceRuns.initial, gaps := [], prepared := [], sequence := 0, acceptances := []
    confirmations := [], confirmed := [], operations := [], tokens := [], bundles := []
    receipts := [], sealings := [] }

def State.candidate? (s : State) (runId : String) : Option Candidate :=
  s.prepared.find? fun c => c.runId = runId

/-- `ORDER BY revision DESC LIMIT 1`. -/
def State.latestConfirmation (s : State) (runId : String) : Option Confirmation :=
  FirstMaximum.firstMax? Confirmation.revision (s.confirmations.filter fun c => c.runId = runId)

def State.operation? (s : State) (id : String) : Option Operation :=
  s.operations.find? fun o => o.id = id

def ComponentRef.toJson (c : ComponentRef) : Json :=
  .obj [("id", .str c.id), ("sourceId", .str c.sourceId), ("kind", .str c.kind)]

def CandidatePayload.toJson (p : CandidatePayload) : Json :=
  .obj [("workspaceId", .str p.workspaceId), ("policyRevisionId", .str p.policyRevisionId),
    ("components", .arr (p.components.map ComponentRef.toJson)),
    ("inventoryId", .str p.inventoryId), ("gapSetId", .str p.gapSetId)]

/-! ## Acceptance of gaps -/

/-- `/^\d{4}-\d{2}-\d{2}T.*Z$/`. -/
def isInstantText (text : String) : Bool :=
  match text.toList with
  | a :: b :: c :: d :: '-' :: e :: f :: '-' :: g :: h :: 'T' :: rest =>
    [a, b, c, d, e, f, g, h].all Char.isDigit && rest.getLast? == some 'Z' &&
      rest.all fun c => c.toNat ∉ [0x0A, 0x0D, 0x2028, 0x2029]
  | _ => false

structure AcceptanceInput where
  reason : Option String
  expiresAt : Option String

/-- `validateAcceptanceInput`: the trimmed reason and the instant. -/
def validateAcceptanceInput (dateParse : String → Option Int) (input : AcceptanceInput) :
    Except Thrown (String × Int) :=
  match input.reason, input.expiresAt.filter isInstantText with
  | some reason, some text =>
    match dateParse text with
    | some expiresAt =>
      if 0 < (trim reason).length ∧ (codeUnits reason).length ≤ 2000 then
        .ok (trim reason, expiresAt)
      else fail "SOURCE_ACCEPTANCE_REQUIRED" "请明确接受非阻断限制，并填写理由与绝对失效时间" 400
    | none => fail "SOURCE_ACCEPTANCE_REQUIRED" "请明确接受非阻断限制，并填写理由与绝对失效时间" 400
  | _, _ => fail "SOURCE_ACCEPTANCE_REQUIRED" "请明确接受非阻断限制，并填写理由与绝对失效时间" 400

/-- The acceptances that are bound to a confirmation. -/
def State.boundAcceptances (s : State) (confirmationId : String) : List Acceptance :=
  s.acceptances.filter fun a => (confirmationId, a.id) ∈ s.confirmed

/-- `assertIndividualAcceptance`. An acceptance refers to a gap that there is. -/
def assertIndividualAcceptance (confirmationId : String) (payload : ConfirmationPayload)
    (s : State) : Except Thrown Unit :=
  match payload.individual with
  | none => .ok ()
  | some revision =>
    let rows := s.boundAcceptances confirmationId
    requireValue (rows.length = payload.gapCount ∧
      (rows.map fun a => (a.componentId, a.gapKey)).dedup.length = payload.gapCount ∧
      (rows.filter fun a => a.candidateId = payload.candidateId ∧ a.gapSetId = payload.gapSetId ∧
        s.gaps.any fun g => g.componentId = a.componentId ∧ g.gapKey = a.gapKey ∧
          g.severity = "NON_BLOCKING").length = payload.gapCount ∧
      (rows.map Acceptance.sequence).max? = some revision ∧
      (rows.map Acceptance.expiresAt).min? = payload.expiresAt ∧ payload.expiresAt ≠ none)
      "SOURCE_RECEIPT_CORRUPT" "逐项接受与完整确认之间的绑定校验失败" 409

def assertNotExpired (expiresAt : Option Int) (s : State) : Except Thrown Unit :=
  requireValue (leaseValid expiresAt s.store.clock)
    "SOURCE_ACCEPTANCE_EXPIRED" "Gap 接受已过期，请重新确认绝对期限；冻结不会自动顺延" 409

/-- `assertAcceptance` of what is about to be confirmed. -/
def assertUnlessExpired (payload : ConfirmationPayload) (s : State) : Except Thrown Unit :=
  if payload.gapCount = 0 then .ok () else assertNotExpired payload.expiresAt s

/-- `assertAcceptance` of a stored confirmation. -/
def assertAcceptance (confirmation : Confirmation) (s : State) : Except Thrown Unit :=
  if confirmation.payload.gapCount = 0 then .ok ()
  else do
    assertIndividualAcceptance confirmation.id confirmation.payload s
    assertNotExpired confirmation.expiresAt s

def sameGap (a b : Acceptance) : Prop := a.componentId = b.componentId ∧ a.gapKey = b.gapKey

instance (a b : Acceptance) : Decidable (sameGap a b) := inferInstanceAs (Decidable (_ ∧ _))

/-- `latestGapAcceptancesSql`. -/
def State.latestGapAcceptances (s : State) (runId candidateId : String) : List Acceptance :=
  let rows := s.acceptances.filter fun a => a.runId = runId ∧ a.candidateId = candidateId
  rows.filter fun a => ∀ b ∈ rows, sameGap a b → b.sequence ≤ a.sequence

structure GapInput where
  candidateId : String
  gapSetId : String
  componentId : String
  gapKey : String
  acceptance : AcceptanceInput

/-- `acceptCandidateGap`. -/
def acceptCandidateGap (dateParse : String → Option Int) (access : Authorization)
    (actorId runId : String) (input : GapInput) (id : String) (s : State) :
    Except Thrown (State × Acceptance) := do
  let _ ← access
  requireValue ((s.store.run? runId).map Run.status = some .REVIEW_REQUIRED)
    "SOURCE_INVALID_TRANSITION" "只能在当前候选核对阶段接受限制" 409
  match (s.candidate? runId).filter fun c =>
      c.id = input.candidateId ∧ c.payload.gapSetId = input.gapSetId with
  | none => fail "SOURCE_CANDIDATE_CONFLICT" "候选或 Gap 集不同，请重新查看后确认" 409
  | some candidate =>
    requireValue (input.componentId ∈ candidate.payload.components.map ComponentRef.id)
      "SOURCE_NOT_FOUND" "限制不属于当前候选" 404
    match s.gaps.find? fun g => g.componentId = input.componentId ∧ g.gapKey = input.gapKey with
    | none => fail "SOURCE_NOT_FOUND" "限制不属于当前候选" 404
    | some gap =>
      requireValue (gap.severity = "NON_BLOCKING")
        "SOURCE_BLOCKING_GAP" "阻断不能通过接受绕过" 409
      let (reason, expiresAt) ← validateAcceptanceInput dateParse input.acceptance
      assertNotExpired (some expiresAt) s
      let prior := FirstMaximum.firstMax? Acceptance.sequence (s.acceptances.filter fun a =>
        a.runId = runId ∧ a.candidateId = candidate.id ∧ a.componentId = input.componentId ∧
          a.gapKey = input.gapKey)
      match prior.filter fun a => a.actorId = actorId ∧ a.reason = reason ∧ a.expiresAt = expiresAt with
      | some prior => return (s, prior)
      | none =>
        uniqueViolation (∃ a ∈ s.acceptances, a.id = id)
        let row : Acceptance :=
          { id, sequence := s.sequence + 1, runId, candidateId := candidate.id
            gapSetId := input.gapSetId, componentId := input.componentId, gapKey := input.gapKey
            actorId, reason, expiresAt }
        return ({ s with acceptances := s.acceptances ++ [row], sequence := s.sequence + 1 }, row)

/-! ## Confirmation -/

structure ConfirmInput where
  candidateId : String
  gapSetId : String
  useGapAcceptances : Bool
  acceptance : AcceptanceInput

/-- What a confirmation of a candidate with gaps says of them: why, until when and, of single
acceptances, the last one. -/
structure Consent where
  reason : Option String
  expiresAt : Option Int
  individual : Option Nat

def consentOf (dateParse : String → Option Int) (runId : String) (candidate : Candidate)
    (input : ConfirmInput) (s : State) : Except Thrown Consent :=
  if candidate.counts.gapCount = 0 then
    .ok { reason := none, expiresAt := none, individual := none }
  else if input.useGapAcceptances = true then do
    let accepted := s.latestGapAcceptances runId candidate.id
    requireValue (accepted.length = candidate.counts.gapCount ∧
      (accepted.filter fun a => s.store.clock < a.expiresAt).length = candidate.counts.gapCount)
      "SOURCE_ACCEPTANCE_REQUIRED" "还有未接受或已过期的限制，请逐项核对后确认" 400
    return { reason := some "逐项接受，完整记录随确认保留"
             expiresAt := (accepted.map Acceptance.expiresAt).min?
             individual := (accepted.map Acceptance.sequence).max? }
  else do
    let (reason, expiresAt) ← validateAcceptanceInput dateParse input.acceptance
    return { reason := some reason, expiresAt := some expiresAt, individual := none }

/-- The user's confirmation takes the run back to the review. -/
def reviewed (run : Run) : Run := { run with status := .REVIEW_REQUIRED, station := 7 }

def confirmCandidate (dateParse : String → Option Int) (access : Authorization)
    (actorId runId : String) (input : ConfirmInput) (id : String) (s : State) :
    Except Thrown (State × Confirmation) := do
  let _ ← access
  requireValue (∃ run ∈ s.store.run? runId, run.status ∈ [.REVIEW_REQUIRED, .PREPARING_SEAL])
    "SOURCE_INVALID_TRANSITION" "当前任务不在用户清单确认阶段" 409
  match (s.candidate? runId).filter fun c =>
      c.id = input.candidateId ∧ c.payload.gapSetId = input.gapSetId with
  | none => fail "SOURCE_CANDIDATE_CONFLICT" "清单、候选或 Gap 集已经不同，请重新查看后确认" 409
  | some candidate =>
    let consent ← consentOf dateParse runId candidate input s
    let payload : ConfirmationPayload :=
      { candidateId := candidate.id, gapSetId := candidate.payload.gapSetId
        policyRevisionId := candidate.payload.policyRevisionId
        gapCount := candidate.counts.gapCount, reason := consent.reason
        expiresAt := consent.expiresAt, individual := consent.individual }
    let _ ← assertUnlessExpired payload s
    let latest := s.latestConfirmation runId
    match latest.filter fun c => c.actorId = actorId ∧ c.payload = payload with
    | some same => return (s, same)
    | none =>
      uniqueViolation (∃ c ∈ s.confirmations, c.id = id)
      let row : Confirmation :=
        { id, runId, revision := (latest.map Confirmation.revision).getD 0 + 1
          candidateId := candidate.id, actorId, payload, expiresAt := payload.expiresAt }
      let bound := if payload.individual.isSome then
        (s.latestGapAcceptances runId candidate.id).map fun a => (id, a.id) else []
      return ({ s with confirmations := s.confirmations ++ [row], confirmed := s.confirmed ++ bound
                       store := s.store.setRun runId reviewed }, row)

/-! ## Publication -/

/-- `/^[A-Za-z0-9_-]{1,128}$/`. -/
def isClientToken (text : String) : Bool :=
  text.toList.all (fun c => c.isAlphanum || c == '_' || c == '-') &&
    decide (1 ≤ text.length) && decide (text.length ≤ 128)

/-- `INSERT .. ON CONFLICT DO NOTHING` of a token. -/
def State.bindToken (s : State) (clientToken operationId : String) (binding : Binding) : State :=
  if ∃ t ∈ s.tokens, t.clientToken = clientToken then s
  else { s with tokens := s.tokens ++ [{ clientToken, operationId, binding }] }

inductive Begun where
  | result (sealed : Sealed)
  | sealing (sealing : Sealing)

/-- The operation and its result, when it is committed. -/
def committed (operation : Operation) : Option (Operation × Sealed) :=
  operation.result.map fun result => (operation, result)

def preparing (operationId : String) (run : Run) : Run :=
  { run with status := .PREPARING_SEAL, station := 8, publicationOperationId := some operationId }

section Seal

variable (sha256 : String → String)

/-- `begin`, which gives the operation of the confirmation, an old one or a new one with this
identifier. -/
def beginSeal (access : Authorization) (actorId : String) (context : Context)
    (clientToken confirmationId id : String) (s : State) : Except Thrown (State × Begun) := do
  requireValue (isClientToken clientToken = true) "SOURCE_INVALID_INPUT" "需要有效的操作重试键" 400
  let _ ← access
  let binding : Binding := { runId := context.runId, confirmationId }
  requireValue (∀ t ∈ s.tokens, t.clientToken = clientToken → t.binding = binding)
    "SOURCE_IDEMPOTENCY_CONFLICT" "该操作键已绑定其他确认，不能改变重试参数" 409
  match s.confirmations.find? fun c => c.id = confirmationId ∧ c.runId = context.runId with
  | none => fail "SOURCE_CONFIRMATION_REQUIRED" "需要此任务的用户清单确认" 409
  | some confirmation =>
    let operation := s.operations.find? fun o => o.confirmationId = confirmation.id
    match operation.bind committed with
    | some (operation, result) =>
      return (s.bindToken clientToken operation.id binding, .result result)
    | none =>
      match s.store.run? context.runId with
      | none => staleWorker "任务状态或执行权已变化，请读取最新任务"
      | some run =>
        requireValue (run.status ∈ [.REVIEW_REQUIRED, .PREPARING_SEAL] ∧
          run.generation = context.generation ∧ leaseValid run.leaseUntil s.store.clock)
          "SOURCE_STALE_WORKER" "任务状态或执行权已变化，请读取最新任务" 409
        requireValue ((s.latestConfirmation context.runId).map Confirmation.id = some confirmation.id)
          "SOURCE_CONFIRMATION_STALE" "请使用最近一次清单确认" 409
        assertAcceptance confirmation s
        match (s.candidate? context.runId).filter fun c => c.id = confirmation.candidateId ∧
            SourceIdentity.structureDigest sha256 "bundle" c.payload.toJson = .ok c.id with
        | none => fail "SOURCE_CANDIDATE_CONFLICT" "冻结候选与用户确认不一致" 409
        | some prepared =>
          uniqueViolation (operation = none ∧ ∃ o ∈ s.operations, o.id = id)
          let fresh : Operation :=
            { id, runId := context.runId, confirmationId := confirmation.id, actorId, result := none }
          let bound : State :=
            { s with operations := s.operations ++ (if operation = none then [fresh] else []) }
          let operation := operation.getD fresh
          let bound := bound.bindToken clientToken operation.id binding
          let sealing : Sealing := { context, operation, confirmation, prepared }
          return ({ bound with store := s.store.setRun context.runId (preparing operation.id)
                               sealings := s.sealings ++ [sealing] }, .sealing sealing)

def succeeded (run : Run) : Run := { run with status := .SUCCEEDED, leaseUntil := none }

def sealedOf (sealing : Sealing) (receiptId : String) (issuedAt : Int) : Sealed :=
  let candidate := sealing.prepared
  let confirmation := sealing.confirmation
  { bundleId := candidate.id, payload := candidate.payload, counts := candidate.counts
    receipt :=
      { id := receiptId, bundleId := candidate.id, accepted := candidate.counts.gapCount ≠ 0
        confirmationId := confirmation.id, operationId := sealing.operation.id
        gapSetId := candidate.payload.gapSetId, gapCount := candidate.counts.gapCount
        expiresAt := confirmation.expiresAt, acceptedBy := confirmation.actorId
        policyRevisionId := candidate.payload.policyRevisionId, issuedAt } }

/-- The update of an operation. -/
def commitOperation (id : String) (sealed : Sealed) (o : Operation) : Operation :=
  if o.id = id then { o with result := some sealed } else o

/-- The committing part of `seal`, with what `authorize` answers of the caller and of the actor of
the run, and the policy of the service. -/
def commitSeal (access runAccess : Authorization) (policyRevisionId : Option String)
    (sealing : Sealing) (receiptId : String) (s : State) : Except Thrown (State × Sealed) := do
  let access ← access
  match s.operation? sealing.operation.id with
  | none => .error .TypeError
  | some stored =>
    match stored.result with
    | some result => return (s, result)
    | none =>
      requireValue (access.backupBarrier = false ∧ access.restoreReady = true)
        "SOURCE_PUBLICATION_PAUSED" "备份水位或恢复核验期间暂缓发布，请稍后查询或重试" 409
      match s.store.run? sealing.context.runId with
      | none => staleWorker "任务状态或执行权已变化，请查询最新任务"
      | some run =>
        requireValue (run.generation = sealing.context.generation ∧
          leaseValid run.leaseUntil s.store.clock ∧ run.status = .PREPARING_SEAL)
          "SOURCE_STALE_WORKER" "任务状态或执行权已变化，请查询最新任务" 409
        let _ ← runAccess
        requireValue (run.publicationOperationId = some sealing.operation.id)
          "SOURCE_CONFIRMATION_STALE" "冻结操作已被新的确认取代" 409
        requireValue (∀ policy ∈ policyRevisionId.filter (fun policy => policy ≠ ""),
          policy = run.policyRevisionId)
          "SOURCE_POLICY_CHANGED" "平台策略版本已变化，请创建新候选并重新确认" 409
        requireValue ((s.latestConfirmation sealing.context.runId).map Confirmation.id =
          some sealing.confirmation.id) "SOURCE_CONFIRMATION_STALE" "用户确认已变化" 409
        assertAcceptance sealing.confirmation s
        let sealed := sealedOf sealing receiptId s.store.clock
        let bundle := (sealing.prepared.id, sealing.prepared.payload, sealing.prepared.counts)
        uniqueViolation (∃ r ∈ s.receipts, r.id = receiptId ∨ r.operationId = sealing.operation.id)
        return ({ s with
          bundles := if bundle.1 ∈ s.bundles.map Prod.fst then s.bundles else s.bundles ++ [bundle]
          receipts := s.receipts ++ [sealed.receipt]
          operations := s.operations.map (commitOperation sealing.operation.id sealed)
          store := s.store.setRun sealing.context.runId succeeded }, sealed)

/-- What a call of `seal` whose lease was lost answers: the result of its operation, if there is
one. -/
def recoverSeal (access : Authorization) (sealing : Sealing) (s : State) :
    Except Thrown (Option Sealed) := do
  let _ ← access
  return (s.operations.find? fun o => o.id = sealing.operation.id ∧ o.runId = sealing.context.runId ∧
    o.confirmationId = sealing.confirmation.id ∧ o.result.isSome).bind Operation.result

end Seal

/-! ## What an accepted operation did -/

section Inversion

variable {s t : State} {access : Authorization} {actorId runId id : String}

theorem candidate?_some {c : Candidate} (h : s.candidate? runId = some c) :
    c ∈ s.prepared ∧ c.runId = runId :=
  ⟨List.mem_of_find?_eq_some h, by simpa using List.find?_some h⟩

theorem filter_some {α : Type} {p : α → Bool} {x : Option α} {a : α} (h : x.filter p = some a) :
    x = some a ∧ p a = true := by
  cases x with
  | none => cases h
  | some b =>
    rw [Option.filter_some] at h
    by_cases hp : p b = true
    · rw [if_pos hp] at h
      obtain rfl := Option.some.inj h
      exact ⟨rfl, hp⟩
    · rw [if_neg hp] at h
      cases h

/-- An acceptance is of a gap of the candidate of the run. -/
theorem acceptCandidateGap_ok {dateParse : String → Option Int} {input : GapInput} {row : Acceptance}
    (h : acceptCandidateGap dateParse access actorId runId input id s = .ok (t, row)) :
    t = s ∨ ∃ candidate ∈ s.prepared, candidate.runId = runId ∧
      (∃ g ∈ s.gaps, g.componentId = row.componentId ∧ g.gapKey = row.gapKey) ∧
      row.componentId ∈ candidate.payload.components.map ComponentRef.id ∧ row.runId = runId ∧
      row.candidateId = candidate.id ∧ row.sequence = s.sequence + 1 ∧
      (∀ a ∈ s.acceptances, a.id ≠ row.id) ∧
      t = { s with acceptances := s.acceptances ++ [row], sequence := s.sequence + 1 } := by
  unfold acceptCandidateGap at h
  obtain ⟨_, -, h⟩ := bind_ok h
  obtain ⟨-, h⟩ := require_bind h
  split at h
  · cases h
  rename_i candidate hcandidate
  obtain ⟨hmem, hrunId⟩ := candidate?_some (filter_some hcandidate).1
  obtain ⟨hcomponent, h⟩ := require_bind h
  split at h
  · cases h
  rename_i gap hgap
  obtain ⟨-, h⟩ := require_bind h
  obtain ⟨⟨reason, expiresAt⟩, -, h⟩ := bind_ok h
  obtain ⟨_, -, h⟩ := bind_ok h
  dsimp only at h
  generalize hprior : Option.filter _ _ = prior at h
  cases prior with
  | some prior => exact Or.inl (Prod.mk.inj (Except.ok.inj h)).1.symm
  | none =>
    obtain ⟨hfresh, h⟩ := unique_bind h
    obtain ⟨rfl, rfl⟩ := Prod.mk.inj (Except.ok.inj h)
    have hkeys : gap.componentId = input.componentId ∧ gap.gapKey = input.gapKey := by
      simpa using List.find?_some hgap
    refine Or.inr ⟨candidate, hmem, hrunId, ⟨gap, List.mem_of_find?_eq_some hgap, hkeys⟩,
      hcomponent, rfl, rfl, rfl, ?_, rfl⟩
    intro a ha heq
    exact hfresh ⟨a, ha, heq⟩

theorem le_latest {c : Confirmation} (hc : c ∈ s.confirmations) (hrun : c.runId = runId) :
    c.revision < ((s.latestConfirmation runId).map Confirmation.revision).getD 0 + 1 := by
  have hmem : c ∈ s.confirmations.filter fun c => c.runId = runId := by
    simpa using ⟨hc, hrun⟩
  cases hlatest : s.latestConfirmation runId with
  | none =>
    exfalso
    unfold State.latestConfirmation at hlatest
    cases hlist : s.confirmations.filter fun c => c.runId = runId with
    | nil => rw [hlist] at hmem; cases hmem
    | cons x xs =>
      obtain ⟨b, hb⟩ := @FirstMaximum.firstMax?_isSome _ _ _ Confirmation.revision x xs
      rw [hlist, hb] at hlatest
      cases hlatest
  | some latest =>
    obtain ⟨front, back, hsplit, hfront, hback⟩ := FirstMaximum.firstMax?_eq_some.mp hlatest
    rw [hsplit] at hmem
    show c.revision < latest.revision + 1
    rcases List.mem_append.mp hmem with hin | hin
    · exact Nat.lt_succ_of_lt (hfront c hin)
    · rcases List.mem_cons.mp hin with rfl | hin
      · exact Nat.lt_succ_self _
      · exact Nat.lt_succ_of_le (hback c hin)

/-- A new confirmation names the candidate of the run, and is the latest one of the run. -/
theorem confirmCandidate_ok {dateParse : String → Option Int} {input : ConfirmInput}
    {row : Confirmation}
    (h : confirmCandidate dateParse access actorId runId input id s = .ok (t, row)) :
    t = s ∨ ∃ run candidate, s.store.run? runId = some run ∧
      run.status ∈ [RunStatus.REVIEW_REQUIRED, .PREPARING_SEAL] ∧
      candidate ∈ s.prepared ∧ candidate.runId = runId ∧ row.runId = runId ∧
      (∀ c ∈ s.confirmations, c.id ≠ row.id) ∧
      (∀ c ∈ s.confirmations, c.runId = runId → c.revision < row.revision) ∧
      row.candidateId = candidate.id ∧ row.payload.candidateId = candidate.id ∧
      row.payload.gapSetId = candidate.payload.gapSetId ∧
      row.payload.gapCount = candidate.counts.gapCount ∧ row.expiresAt = row.payload.expiresAt ∧
      t = { s with
        confirmations := s.confirmations ++ [row]
        confirmed := s.confirmed ++ (if row.payload.individual.isSome then
          (s.latestGapAcceptances runId candidate.id).map fun a => (row.id, a.id) else [])
        store := s.store.setRun runId reviewed } := by
  unfold confirmCandidate at h
  obtain ⟨_, -, h⟩ := bind_ok h
  obtain ⟨⟨run, hrun, hstatus⟩, h⟩ := require_bind h
  split at h
  · cases h
  rename_i candidate hcandidate
  obtain ⟨hmem, hrunId⟩ := candidate?_some (filter_some hcandidate).1
  obtain ⟨consent, -, h⟩ := bind_ok h
  obtain ⟨_, -, h⟩ := bind_ok h
  dsimp only at h
  generalize hlatest : Option.filter _ _ = same at h
  cases same with
  | some same => exact Or.inl (Prod.mk.inj (Except.ok.inj h)).1.symm
  | none =>
    obtain ⟨hfresh, h⟩ := unique_bind h
    obtain ⟨rfl, rfl⟩ := Prod.mk.inj (Except.ok.inj h)
    refine Or.inr ⟨run, candidate, hrun, hstatus, hmem, hrunId, rfl, ?_, ?_, rfl, rfl, rfl, rfl,
      rfl, rfl⟩
    · intro c hc heq
      exact hfresh ⟨c, hc, heq⟩
    · intro c hc hcrun
      exact le_latest hc hcrun

/-- A confirmation with gaps that is asserted has not expired, and its single acceptances are
checked. -/
theorem assertAcceptance_ok {confirmation : Confirmation} (h : assertAcceptance confirmation s = .ok ()) :
    confirmation.payload.gapCount = 0 ∨ leaseValid confirmation.expiresAt s.store.clock ∧
      assertIndividualAcceptance confirmation.id confirmation.payload s = .ok () := by
  unfold assertAcceptance at h
  by_cases hgaps : confirmation.payload.gapCount = 0
  · exact Or.inl hgaps
  · rw [if_neg hgaps] at h
    obtain ⟨u, hindividual, h⟩ := bind_ok h
    exact Or.inr ⟨require_ok h, hindividual⟩

theorem bindToken_store (clientToken operationId : String) (binding : Binding) :
    (s.bindToken clientToken operationId binding).store = s.store := by
  unfold State.bindToken
  split_ifs <;> rfl

theorem bindToken_operations (clientToken operationId : String) (binding : Binding) :
    (s.bindToken clientToken operationId binding).operations = s.operations := by
  unfold State.bindToken
  split_ifs <;> rfl

/-- A token that is bound is not bound again. -/
theorem mem_bindToken (clientToken operationId : String) (binding : Binding) :
    ∀ k ∈ s.tokens, k ∈ (s.bindToken clientToken operationId binding).tokens := by
  intro k hk
  unfold State.bindToken
  split_ifs
  · exact hk
  · exact List.mem_append_left _ hk

theorem bindToken_tokens (clientToken operationId : String) (binding : Binding) :
    ∃ tokens, s.bindToken clientToken operationId binding = { s with tokens } := by
  unfold State.bindToken
  split_ifs
  · exact ⟨s.tokens, rfl⟩
  · exact ⟨_, rfl⟩

section Seal

variable {sha256 : String → String} {context : Context} {clientToken confirmationId receiptId : String}
  {policyRevisionId : Option String} {runAccess : Authorization} {sealing : Sealing} {sealed : Sealed}
  {begun : Begun}

/-- What is begun is the result of the operation, when there is one, or the operation of the latest
confirmation of a run that is held by this worker. -/
theorem beginSeal_ok
    (h : beginSeal sha256 access actorId context clientToken confirmationId id s = .ok (t, begun)) :
    (∀ k ∈ s.tokens, k.clientToken = clientToken →
      k.binding = { runId := context.runId, confirmationId }) ∧
    ∃ confirmation ∈ s.confirmations, confirmation.id = confirmationId ∧
      confirmation.runId = context.runId ∧
      ((∃ operation result, (s.operations.find? fun o => o.confirmationId = confirmation.id) =
          some operation ∧ operation.result = some result ∧ begun = .result result ∧
          t = s.bindToken clientToken operation.id { runId := context.runId, confirmationId }) ∨
      ∃ run prepared operation added, begun = .sealing { context, operation, confirmation, prepared } ∧
        s.store.run? context.runId = some run ∧
        run.status ∈ [RunStatus.REVIEW_REQUIRED, .PREPARING_SEAL] ∧
        run.generation = context.generation ∧ leaseValid run.leaseUntil s.store.clock ∧
        prepared ∈ s.prepared ∧ prepared.runId = context.runId ∧
        prepared.id = confirmation.candidateId ∧
        operation.confirmationId = confirmation.id ∧ operation.result = none ∧
        ((operation ∈ s.operations ∧ added = []) ∨
          added = [operation] ∧ operation.runId = context.runId ∧
            (∀ o ∈ s.operations, o.confirmationId ≠ confirmation.id) ∧
            ∀ o ∈ s.operations, o.id ≠ operation.id) ∧
        t = { ({ s with operations := s.operations ++ added } : State).bindToken clientToken
            operation.id { runId := context.runId, confirmationId } with
          store := s.store.setRun context.runId (preparing operation.id)
          sealings := s.sealings ++ [{ context, operation, confirmation, prepared }] }) := by
  unfold beginSeal at h
  obtain ⟨-, h⟩ := require_bind h
  obtain ⟨_, -, h⟩ := bind_ok h
  obtain ⟨hbound, h⟩ := require_bind h
  refine ⟨hbound, ?_⟩
  split at h
  · cases h
  rename_i confirmation hconfirmation
  have hnames : confirmation.id = confirmationId ∧ confirmation.runId = context.runId := by
    simpa using List.find?_some hconfirmation
  refine ⟨confirmation, List.mem_of_find?_eq_some hconfirmation, hnames.1, hnames.2, ?_⟩
  dsimp only at h
  cases hcommitted : (s.operations.find? fun o => o.confirmationId = confirmation.id).bind committed with
  | some found =>
    rw [hcommitted] at h
    obtain ⟨operation, hoperation, hfound⟩ := Option.bind_eq_some_iff.mp hcommitted
    obtain ⟨result, hresult, rfl⟩ := Option.map_eq_some_iff.mp hfound
    obtain ⟨rfl, rfl⟩ := Prod.mk.inj (Except.ok.inj h)
    exact Or.inl ⟨operation, result, hoperation, hresult, rfl, rfl⟩
  | none =>
    rw [hcommitted] at h
    cases hrun : s.store.run? context.runId with
    | none =>
      rw [hrun] at h
      cases h
    | some run =>
      rw [hrun] at h
      obtain ⟨⟨hstatus, hgeneration, hlease⟩, h⟩ := require_bind h
      obtain ⟨-, h⟩ := require_bind h
      obtain ⟨_, -, h⟩ := bind_ok h
      split at h
      · cases h
      rename_i prepared hprepared
      obtain ⟨hfound, hsame⟩ := filter_some hprepared
      obtain ⟨hmem, hprunId⟩ := candidate?_some hfound
      obtain ⟨hfresh, h⟩ := unique_bind h
      obtain ⟨rfl, rfl⟩ := Prod.mk.inj (Except.ok.inj h)
      have hid : prepared.id = confirmation.candidateId := (of_decide_eq_true hsame).1
      cases hoperation : s.operations.find? fun o => o.confirmationId = confirmation.id with
      | none =>
        refine Or.inr ⟨run, prepared, _, _, rfl, rfl, hstatus, hgeneration, hlease, hmem, hprunId,
          hid, rfl, rfl, Or.inr ⟨rfl, rfl, ?_, ?_⟩, rfl⟩
        · intro o ho
          simpa using List.find?_eq_none.mp hoperation o ho
        · intro o ho heq
          exact hfresh ⟨hoperation, o, ho, heq⟩
      | some operation =>
        rw [hoperation] at hcommitted
        have hresult : operation.result = none := by
          simpa [committed] using hcommitted
        have hconfirms : operation.confirmationId = confirmation.id := by
          simpa using List.find?_some hoperation
        exact Or.inr ⟨run, prepared, operation, [], rfl, rfl, hstatus, hgeneration, hlease, hmem,
          hprunId, hid, hconfirms, hresult,
          Or.inl ⟨List.mem_of_find?_eq_some hoperation, rfl⟩, rfl⟩

theorem commitSeal_ok
    (h : commitSeal access runAccess policyRevisionId sealing receiptId s = .ok (t, sealed)) :
    ∃ stored, s.operation? sealing.operation.id = some stored ∧
      ((stored.result = some sealed ∧ t = s) ∨
      stored.result = none ∧ ∃ run, s.store.run? sealing.context.runId = some run ∧
        run.generation = sealing.context.generation ∧ leaseValid run.leaseUntil s.store.clock ∧
        run.status = .PREPARING_SEAL ∧ run.publicationOperationId = some sealing.operation.id ∧
        (s.latestConfirmation sealing.context.runId).map Confirmation.id =
          some sealing.confirmation.id ∧
        assertAcceptance sealing.confirmation s = .ok () ∧
        sealed = sealedOf sealing receiptId s.store.clock ∧
        (∀ r ∈ s.receipts, r.id ≠ receiptId ∧ r.operationId ≠ sealing.operation.id) ∧
        ∃ bundles, t = { s with
          bundles
          receipts := s.receipts ++ [sealed.receipt]
          operations := s.operations.map (commitOperation sealing.operation.id sealed)
          store := s.store.setRun sealing.context.runId succeeded }) := by
  unfold commitSeal at h
  obtain ⟨access, -, h⟩ := bind_ok h
  cases hstored : s.operation? sealing.operation.id with
  | none =>
    rw [hstored] at h
    cases h
  | some stored =>
    rw [hstored] at h
    refine ⟨stored, rfl, ?_⟩
    dsimp only at h
    cases hresult : stored.result with
    | some result =>
      rw [hresult] at h
      obtain ⟨rfl, rfl⟩ := Prod.mk.inj (Except.ok.inj h)
      exact Or.inl ⟨rfl, rfl⟩
    | none =>
      rw [hresult] at h
      obtain ⟨-, h⟩ := require_bind h
      cases hrun : s.store.run? sealing.context.runId with
      | none =>
        rw [hrun] at h
        cases h
      | some run =>
        rw [hrun] at h
        obtain ⟨⟨hgeneration, hlease, hstatus⟩, h⟩ := require_bind h
        obtain ⟨_, -, h⟩ := bind_ok h
        obtain ⟨hoperation, h⟩ := require_bind h
        obtain ⟨-, h⟩ := require_bind h
        obtain ⟨hlatest, h⟩ := require_bind h
        obtain ⟨_, haccepted, h⟩ := bind_ok h
        obtain ⟨hfresh, h⟩ := unique_bind h
        obtain ⟨rfl, rfl⟩ := Prod.mk.inj (Except.ok.inj h)
        refine Or.inr ⟨rfl, run, rfl, hgeneration, hlease, hstatus, hoperation, hlatest, haccepted,
          rfl, ?_, _, rfl⟩
        intro r hr
        exact ⟨fun heq => hfresh ⟨r, hr, Or.inl heq⟩, fun heq => hfresh ⟨r, hr, Or.inr heq⟩⟩

end Seal

end Inversion

end Traqen.SourcePublication
