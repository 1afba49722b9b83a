-- Source runs (`source-truth/repository.js`): the drafts and the runs of one workspace. Each
-- operation is one transaction that holds the lock of the workspace or of the run, at one moment of
-- the clock. `authorize` reads tables that are not part of this model, so an operation takes its
-- answer; a random identifier is an argument.
import Traqen.SourceIdentity
import Traqen.Lib.Machine

open Js

namespace Traqen.SourceRuns

/-! ## Errors -/

structure SourceError where
  code : String
  message : String
  status : Nat
  deriving Repr, DecidableEq

/-- What a transaction ends with when it is rolled back. -/
inductive Thrown where
  | SourceTruthError (error : SourceError)
  | DatabaseError (code : String)
  | TypeError
  deriving Repr, DecidableEq

def fail {α : Type} (code message : String) (status : Nat) : Except Thrown α :=
  .error (.SourceTruthError { code, message, status })

def requireValue (condition : Prop) [Decidable condition] (code message : String) (status : Nat) :
    Except Thrown Unit :=
  if condition then .ok () else fail code message status

/-- An `INSERT` whose key is there already. -/
def uniqueViolation (taken : Prop) [Decidable taken] : Except Thrown Unit :=
  if taken then .error (.DatabaseError "23505") else .ok ()

/-! ## Rows -/

inductive RunStatus where
  | PREFLIGHTING | ENUMERATING | MANIFEST_FROZEN | CAPTURING | RECONCILING | WAITING_FOR_CLIENT
  | REVIEW_REQUIRED | PREPARING_SEAL | FINALIZING | CANCELLING | CANCELLED | BLOCKED
  | FAILED_RETRYABLE | SUCCEEDED
  deriving Repr, DecidableEq

/-- `terminalRunStates.has(status)`. -/
def RunStatus.isTerminal : RunStatus → Bool
  | CANCELLED | BLOCKED | FAILED_RETRYABLE | SUCCEEDED => true
  | _ => false

def allowed : RunStatus → List RunStatus
  | .PREFLIGHTING => [.ENUMERATING]
  | .ENUMERATING => [.MANIFEST_FROZEN, .WAITING_FOR_CLIENT]
  | .MANIFEST_FROZEN => [.CAPTURING]
  | .CAPTURING => [.RECONCILING, .WAITING_FOR_CLIENT]
  | .WAITING_FOR_CLIENT => [.ENUMERATING, .CAPTURING]
  | .RECONCILING => [.REVIEW_REQUIRED]
  | .REVIEW_REQUIRED => [.PREPARING_SEAL]
  | .PREPARING_SEAL => [.REVIEW_REQUIRED]
  | .CANCELLING => [.CANCELLED]
  | _ => []

def stationFor : RunStatus → Option Nat
  | .PREFLIGHTING => some 3
  | .ENUMERATING => some 4
  | .MANIFEST_FROZEN => some 5
  | .CAPTURING | .RECONCILING => some 6
  | .REVIEW_REQUIRED => some 7
  | .PREPARING_SEAL | .FINALIZING | .SUCCEEDED => some 8
  | _ => none

structure Run where
  id : String
  actorId : String
  draftRevision : Int
  input : Json
  policyRevisionId : String
  status : RunStatus
  station : Nat
  generation : Nat
  workerId : Option String
  leaseUntil : Option Int
  retryOf : Option String
  progress : Json
  diagnostic : Option Json
  publicationOperationId : Option String
  deriving DecidableEq

structure Draft where
  revision : Int
  actorId : String
  input : Json

structure Store where
  clock : Int
  draftRevision : Int
  drafts : List Draft
  runs : List Run
  /-- The runs of `source_truth_staging_release`. -/
  stagingRelease : List String

def initial : Store :=
  { clock := 0, draftRevision := 0, drafts := [], runs := [], stagingRelease := [] }

def Store.run? (s : Store) (id : String) : Option Run := s.runs.find? fun r => r.id = id

/-- `UPDATE source_truth_run SET .. WHERE id=..`. -/
def Store.setRun (s : Store) (id : String) (f : Run → Run) : Store :=
  { s with runs := s.runs.map fun r => if r.id = id then f r else r }

/-- `lease_until > clock_timestamp()`, which is not so of a missing lease. -/
def leaseValid (lease : Option Int) (now : Int) : Prop := ∃ deadline, lease = some deadline ∧ now < deadline

instance (lease : Option Int) (now : Int) : Decidable (leaseValid lease now) :=
  match lease with
  | none => isFalse fun ⟨_, h, _⟩ => by cases h
  | some deadline => decidable_of_iff (now < deadline)
      ⟨fun h => ⟨deadline, rfl, h⟩, fun ⟨_, h, hlt⟩ => by cases h; exact hlt⟩

/-! ## Locks -/

/-- What `authorize` answers of the workspace. -/
structure Access where
  tenantId : String
  backupBarrier : Bool
  restoreReady : Bool

abbrev Authorization := Except Thrown Access

/-- The run and the generation that a worker presents. -/
structure Context where
  runId : String
  generation : Nat
  deriving Repr, DecidableEq

def staleWorker {α : Type} (message : String) : Except Thrown α :=
  fail "SOURCE_STALE_WORKER" message 409

/-- `withLease`, whose access is that of the actor of the run. -/
def withLease (access : Authorization) (context : Context) (s : Store) : Except Thrown Run :=
  match s.run? context.runId with
  | none => staleWorker "执行权或任务状态已变化"
  | some run => do
    requireValue (run.generation = context.generation ∧ leaseValid run.leaseUntil s.clock ∧
      run.status.isTerminal = false ∧ run.status ≠ .CANCELLING)
      "SOURCE_STALE_WORKER" "执行权或任务状态已变化" 409
    let access ← access
    requireValue (access.restoreReady = true)
      "SOURCE_RESTORE_UNVERIFIED" "恢复尚未完整校验，暂缓任务写入" 409
    return run

/-! ## Operations -/

def Store.activeRun (s : Store) : Option Run := s.runs.find? fun r => !r.status.isTerminal

/-- `saveDraft`, with what its hook `beforeSave` ends with. -/
def saveDraft (access : Authorization) (actorId : String) (expectedRevision : Int) (input : Json)
    (beforeSave : Except Thrown Unit) (s : Store) : Except Thrown (Store × Draft) := do
  requireValue (0 ≤ expectedRevision ∧ expectedRevision < 2 ^ 53)
    "SOURCE_INVALID_INPUT" "缺少草稿修订号" 400
  let _ ← access
  requireValue (s.draftRevision = expectedRevision)
    "SOURCE_REVISION_CONFLICT" "来源草稿已被其他操作更新" 409
  requireValue (s.activeRun = none) "SOURCE_RUN_ACTIVE" "请先查看或取消当前任务后编辑来源" 409
  beforeSave
  let draft : Draft := { revision := expectedRevision + 1, actorId, input }
  uniqueViolation (∃ d ∈ s.drafts, d.revision = draft.revision)
  return ({ s with drafts := s.drafts ++ [draft], draftRevision := draft.revision }, draft)

/-- What a new run takes over: its input, revision and policy. -/
structure Origin where
  input : Json
  draftRevision : Int
  policyRevisionId : Option String

/-- A retry has the input of the attempt that failed, any other run that of the current draft. -/
def originOf (draftRevision : Option Int) (policyRevisionId retryOf : Option String) (s : Store) :
    Except Thrown Origin :=
  match retryOf with
  | some prior => do
    requireValue (prior ∉ s.stagingRelease) "SOURCE_RETRY_ABANDONED"
      "已明确放弃此任务的续传材料；请编辑来源建立新尝试，不能复活原检查点" 409
    match s.run? prior with
    | some run =>
      requireValue (run.status = .FAILED_RETRYABLE)
        "SOURCE_RETRY_NOT_ALLOWED" "只有可重试失败才能恢复为新尝试" 409
      return { input := run.input, draftRevision := run.draftRevision
               policyRevisionId := some run.policyRevisionId }
    | none => fail "SOURCE_RETRY_NOT_ALLOWED" "只有可重试失败才能恢复为新尝试" 409
  | none => do
    requireValue (draftRevision = some s.draftRevision ∧ 0 < s.draftRevision)
      "SOURCE_REVISION_CONFLICT" "请确认当前来源和范围修订" 409
    match s.drafts.find? fun d => d.revision = s.draftRevision with
    | some draft => return { input := draft.input, draftRevision := s.draftRevision, policyRevisionId }
    | none => .error (.DatabaseError "23502")

/-- `startRun`; an empty `retryOf` is none. -/
def startRun (access : Authorization) (actorId : String) (draftRevision : Option Int)
    (policyRevisionId retryOf : Option String) (id : String) (s : Store) :
    Except Thrown (Store × Run) := do
  let _ ← access
  match s.activeRun with
  | some run => return (s, run)
  | none =>
    let retryOf := retryOf.filter fun prior => prior ≠ ""
    let origin ← originOf draftRevision policyRevisionId retryOf s
    match origin.policyRevisionId.filter fun policy => policy ≠ "" with
    | none => fail "SOURCE_INVALID_INPUT" "缺少平台策略版本" 400
    | some policyRevisionId =>
      uniqueViolation (∃ r ∈ s.runs, r.id = id)
      let run : Run :=
        { id, actorId, draftRevision := origin.draftRevision, input := origin.input
          policyRevisionId, status := .PREFLIGHTING, station := 3, generation := 0
          workerId := none, leaseUntil := none, retryOf, progress := .obj [], diagnostic := none
          publicationOperationId := none }
      return ({ s with runs := s.runs ++ [run] }, run)

/-- `Number.isInteger(leaseMs) && leaseMs > 0 && leaseMs <= 60000`. -/
def validLease (leaseMs : Int) : Prop := 0 < leaseMs ∧ leaseMs ≤ 60000

instance (leaseMs : Int) : Decidable (validLease leaseMs) := inferInstanceAs (Decidable (_ ∧ _))

def claimed (workerId : String) (leaseUntil : Int) (run : Run) : Run :=
  { run with generation := run.generation + 1, workerId := some workerId, leaseUntil := some leaseUntil }

def claimRun (runId workerId : String) (leaseMs : Int) (s : Store) : Except Thrown (Store × Run) := do
  requireValue (workerId ≠ "" ∧ validLease leaseMs) "SOURCE_INVALID_LEASE" "执行租约参数无效" 400
  match s.run? runId with
  | none => fail "SOURCE_LEASE_BUSY" "任务已有有效执行者或已经终止" 409
  | some run =>
    requireValue ((∀ deadline ∈ run.leaseUntil, deadline ≤ s.clock) ∧ run.status.isTerminal = false)
      "SOURCE_LEASE_BUSY" "任务已有有效执行者或已经终止" 409
    let update := claimed workerId (s.clock + leaseMs)
    return (s.setRun runId update, update run)

/-- The update of `transition`; what is not given stays. -/
def moved (status : RunStatus) (progress diagnostic : Option Json) (run : Run) : Run :=
  { run with status, station := (stationFor status).getD run.station
             progress := progress.getD run.progress, diagnostic }

/-- What `transition` lets a worker ask for. -/
def mayMove (expectedStatus status : RunStatus) : Prop :=
  status ∈ allowed expectedStatus ∨ expectedStatus.isTerminal = false ∧
    expectedStatus ≠ .FINALIZING ∧ status ∈ [.FAILED_RETRYABLE, .BLOCKED, .CANCELLING]

instance (expectedStatus status : RunStatus) : Decidable (mayMove expectedStatus status) :=
  inferInstanceAs (Decidable (_ ∨ _))

def transition (access : Authorization) (context : Context) (expectedStatus status : RunStatus)
    (progress diagnostic : Option Json) (s : Store) : Except Thrown (Store × Run) := do
  requireValue (mayMove expectedStatus status)
    "SOURCE_INVALID_TRANSITION" "该任务状态不能执行此动作" 409
  let run ← withLease access context s
  requireValue (run.status = expectedStatus)
    "SOURCE_STALE_WORKER" "执行权或任务状态已变化，请读取最新任务" 409
  let update := moved status progress diagnostic
  return (s.setRun context.runId update, update run)

def cancelled (run : Run) : Run :=
  { run with status := .CANCELLED, generation := run.generation + 1, leaseUntil := none }

def cancel (access : Authorization) (runId : String) (s : Store) : Except Thrown (Store × Run) := do
  let _ ← access
  match s.run? runId with
  | none => fail "SOURCE_NOT_FOUND" "任务不存在" 404
  | some run =>
    requireValue (run.status ≠ .FINALIZING)
      "SOURCE_FINALIZING" "正在原子最终化，只能查询结果，不能取消" 409
    if run.status.isTerminal = true then return (s, run)
    else return (s.setRun runId cancelled, cancelled run)

def leased (leaseUntil : Option Int) (run : Run) : Run := { run with leaseUntil }

def heartbeat (access : Authorization) (context : Context) (leaseMs : Int) (s : Store) :
    Except Thrown (Store × Run) := do
  requireValue (validLease leaseMs) "SOURCE_INVALID_LEASE" "执行租约参数无效" 409
  let run ← withLease access context s
  let update := leased (some (s.clock + leaseMs))
  return (s.setRun context.runId update, update run)

def releaseLease (access : Authorization) (context : Context) (s : Store) :
    Except Thrown (Store × Run) := do
  let run ← withLease access context s
  return (s.setRun context.runId (leased none), leased none run)

/-! ## What an accepted operation did -/

variable {r : Run}

section Inversion

variable {s t : Store} {run : Run} {runId : String} {access : Authorization} {context : Context}

theorem require_bind {β : Type} {condition : Prop} [Decidable condition] {code message : String}
    {status : Nat} {f : Unit → Except Thrown β} {v : β}
    (h : requireValue condition code message status >>= f = .ok v) : condition ∧ f () = .ok v := by
  unfold requireValue at h
  by_cases hcondition : condition
  · rw [if_pos hcondition] at h
    exact ⟨hcondition, h⟩
  · rw [if_neg hcondition] at h
    cases h

theorem require_ok {condition : Prop} [Decidable condition] {code message : String} {status : Nat}
    (h : requireValue condition code message status = .ok ()) : condition := by
  unfold requireValue at h
  by_cases hcondition : condition
  · exact hcondition
  · rw [if_neg hcondition] at h
    cases h

theorem unique_bind {β : Type} {taken : Prop} [Decidable taken] {f : Unit → Except Thrown β} {v : β}
    (h : uniqueViolation taken >>= f = .ok v) : ¬ taken ∧ f () = .ok v := by
  unfold uniqueViolation at h
  split at h
  · cases h
  rename_i htaken
  exact ⟨htaken, h⟩

theorem run?_some (h : s.run? runId = some run) : run ∈ s.runs ∧ run.id = runId :=
  ⟨List.mem_of_find?_eq_some h, by simpa using List.find?_some h⟩

theorem withLease_ok (h : withLease access context s = .ok run) :
    s.run? context.runId = some run ∧ run.generation = context.generation ∧
      leaseValid run.leaseUntil s.clock ∧ run.status.isTerminal = false := by
  unfold withLease at h
  cases hrun : s.run? context.runId with
  | none =>
    rw [hrun] at h
    cases h
  | some found =>
    rw [hrun] at h
    obtain ⟨⟨hgeneration, hlease, hterminal, -⟩, h⟩ := require_bind h
    obtain ⟨access, -, h⟩ := bind_ok h
    obtain ⟨-, h⟩ := require_bind h
    obtain rfl := Except.ok.inj h
    exact ⟨rfl, hgeneration, hlease, hterminal⟩

theorem saveDraft_ok {actorId : String} {expectedRevision : Int} {input : Json}
    {beforeSave : Except Thrown Unit} {draft : Draft}
    (h : saveDraft access actorId expectedRevision input beforeSave s = .ok (t, draft)) :
    s.activeRun = none ∧ draft.revision = s.draftRevision + 1 ∧
      t = { s with drafts := s.drafts ++ [draft], draftRevision := draft.revision } := by
  unfold saveDraft at h
  obtain ⟨-, h⟩ := require_bind h
  obtain ⟨_, -, h⟩ := bind_ok h
  obtain ⟨hrevision, h⟩ := require_bind h
  obtain ⟨hactive, h⟩ := require_bind h
  obtain ⟨_, -, h⟩ := bind_ok h
  obtain ⟨-, h⟩ := unique_bind h
  obtain ⟨rfl, rfl⟩ := Prod.mk.inj (Except.ok.inj h)
  exact ⟨hactive, by rw [hrevision], rfl⟩

/-- A run of its own input has the current draft; a retry is of a run that failed and whose staging
is not given up. -/
theorem originOf_ok {draftRevision : Option Int} {policyRevisionId retryOf : Option String}
    {origin : Origin} (h : originOf draftRevision policyRevisionId retryOf s = .ok origin) :
    (retryOf = none → origin.draftRevision = s.draftRevision) ∧
      ∀ prior ∈ retryOf, prior ∉ s.stagingRelease ∧
        ∃ run, s.run? prior = some run ∧ run.status = .FAILED_RETRYABLE := by
  unfold originOf at h
  cases retryOf with
  | none =>
    obtain ⟨-, h⟩ := require_bind h
    cases hdraft : s.drafts.find? fun d => d.revision = s.draftRevision with
    | none =>
      rw [hdraft] at h
      cases h
    | some draft =>
      rw [hdraft] at h
      obtain rfl := Except.ok.inj h
      exact ⟨fun _ => rfl, fun _ h => by cases h⟩
  | some prior =>
    obtain ⟨hkept, h⟩ := require_bind h
    cases hrun : s.run? prior with
    | none =>
      rw [hrun] at h
      cases h
    | some run =>
      rw [hrun] at h
      obtain ⟨hfailed, h⟩ := require_bind h
      refine ⟨(fun hnone => by cases hnone), ?_⟩
      intro p hp
      obtain rfl := Option.some.inj hp
      exact ⟨hkept, run, hrun, hfailed⟩

/-- The start of a run answers the run that is active, or adds one. -/
theorem startRun_ok {actorId id : String} {draftRevision : Option Int}
    {policyRevisionId retryOf : Option String}
    (h : startRun access actorId draftRevision policyRevisionId retryOf id s = .ok (t, run)) :
    (t = s ∧ run ∈ s.runs) ∨
      s.activeRun = none ∧ t = { s with runs := s.runs ++ [run] } ∧ run.id = id ∧
        (∀ r ∈ s.runs, r.id ≠ id) ∧ run.status = .PREFLIGHTING ∧ run.generation = 0 ∧
        run.leaseUntil = none ∧ run.publicationOperationId = none ∧
        (run.retryOf = none → run.draftRevision = s.draftRevision) ∧
        ∀ prior ∈ run.retryOf, prior ∉ s.stagingRelease ∧
          ∃ failed, s.run? prior = some failed ∧ failed.status = .FAILED_RETRYABLE := by
  unfold startRun at h
  obtain ⟨_, -, h⟩ := bind_ok h
  cases hactive : s.activeRun with
  | some found =>
    rw [hactive] at h
    obtain ⟨rfl, rfl⟩ := Prod.mk.inj (Except.ok.inj h)
    exact Or.inl ⟨rfl, List.mem_of_find?_eq_some hactive⟩
  | none =>
    rw [hactive] at h
    obtain ⟨origin, horigin, h⟩ := bind_ok h
    obtain ⟨hcurrent, hretry⟩ := originOf_ok horigin
    split at h
    · cases h
    rename_i policy hpolicy
    obtain ⟨hfresh, h⟩ := unique_bind h
    obtain ⟨rfl, rfl⟩ := Prod.mk.inj (Except.ok.inj h)
    refine Or.inr ⟨rfl, rfl, rfl, ?_, rfl, rfl, rfl, rfl, hcurrent, hretry⟩
    intro r hr heq
    exact hfresh ⟨r, hr, heq⟩

theorem claimRun_ok {workerId : String} {leaseMs : Int}
    (h : claimRun runId workerId leaseMs s = .ok (t, r)) :
    ∃ run, s.run? runId = some run ∧ run.status.isTerminal = false ∧
      ¬ leaseValid run.leaseUntil s.clock ∧ r = claimed workerId (s.clock + leaseMs) run ∧
      t = s.setRun runId (claimed workerId (s.clock + leaseMs)) := by
  unfold claimRun at h
  obtain ⟨-, h⟩ := require_bind h
  cases hrun : s.run? runId with
  | none =>
    rw [hrun] at h
    cases h
  | some run =>
    rw [hrun] at h
    obtain ⟨⟨hover, hterminal⟩, h⟩ := require_bind h
    obtain ⟨rfl, rfl⟩ := Prod.mk.inj (Except.ok.inj h)
    refine ⟨run, rfl, hterminal, ?_, rfl, rfl⟩
    rintro ⟨deadline, hdeadline, hlt⟩
    have hle := hover deadline hdeadline
    omega

theorem transition_ok {expectedStatus status : RunStatus} {progress diagnostic : Option Json}
    (h : transition access context expectedStatus status progress diagnostic s = .ok (t, r)) :
    ∃ run, withLease access context s = .ok run ∧ run.status = expectedStatus ∧
      mayMove expectedStatus status ∧
      t = s.setRun context.runId (moved status progress diagnostic) := by
  unfold transition at h
  obtain ⟨hmay, h⟩ := require_bind h
  obtain ⟨run, hlease, h⟩ := bind_ok h
  obtain ⟨hstatus, h⟩ := require_bind h
  obtain ⟨rfl, -⟩ := Prod.mk.inj (Except.ok.inj h)
  exact ⟨run, hlease, hstatus, hmay, rfl⟩

theorem cancel_ok (h : cancel access runId s = .ok (t, r)) :
    ∃ run, s.run? runId = some run ∧ ((run.status.isTerminal = true ∧ t = s) ∨
      run.status.isTerminal = false ∧ t = s.setRun runId cancelled) := by
  unfold cancel at h
  obtain ⟨_, -, h⟩ := bind_ok h
  cases hrun : s.run? runId with
  | none =>
    rw [hrun] at h
    cases h
  | some run =>
    rw [hrun] at h
    obtain ⟨-, h⟩ := require_bind h
    refine ⟨run, rfl, ?_⟩
    by_cases hterminal : run.status.isTerminal = true
    · rw [if_pos hterminal] at h
      exact Or.inl ⟨hterminal, (Prod.mk.inj (Except.ok.inj h)).1.symm⟩
    · rw [if_neg hterminal] at h
      exact Or.inr ⟨by simpa using hterminal, (Prod.mk.inj (Except.ok.inj h)).1.symm⟩

theorem heartbeat_ok {leaseMs : Int}
    (h : heartbeat access context leaseMs s = .ok (t, r)) :
    ∃ run, withLease access context s = .ok run ∧
      t = s.setRun context.runId (leased (some (s.clock + leaseMs))) := by
  unfold heartbeat at h
  obtain ⟨-, h⟩ := require_bind h
  obtain ⟨run, hlease, h⟩ := bind_ok h
  exact ⟨run, hlease, (Prod.mk.inj (Except.ok.inj h)).1.symm⟩

theorem releaseLease_ok (h : releaseLease access context s = .ok (t, r)) :
    ∃ run, withLease access context s = .ok run ∧ t = s.setRun context.runId (leased none) := by
  unfold releaseLease at h
  obtain ⟨run, hlease, h⟩ := bind_ok h
  exact ⟨run, hlease, (Prod.mk.inj (Except.ok.inj h)).1.symm⟩

end Inversion

/-! ## The runs of a workspace -/

/-- At most one run is active; it has the current draft when it is no retry. -/
structure RunsOk (s : Store) : Prop where
  ids : (s.runs.map Run.id).Nodup
  one : ∀ r ∈ s.runs, ∀ r' ∈ s.runs, r.status.isTerminal = false → r'.status.isTerminal = false → r = r'
  current : ∀ r ∈ s.runs, r.status.isTerminal = false → r.retryOf = none →
    r.draftRevision = s.draftRevision

/-- An update that leaves alone what a run was started with. -/
structure KeepsOrigin (f : Run → Run) : Prop where
  id : ∀ r, (f r).id = r.id
  retryOf : ∀ r, (f r).retryOf = r.retryOf
  draftRevision : ∀ r, (f r).draftRevision = r.draftRevision
  policyRevisionId : ∀ r, (f r).policyRevisionId = r.policyRevisionId

section Runs

variable {s : Store} {run : Run} {runId : String} {f : Run → Run}

theorem keepsOrigin_claimed (workerId : String) (leaseUntil : Int) :
    KeepsOrigin (claimed workerId leaseUntil) :=
  ⟨fun _ => rfl, fun _ => rfl, fun _ => rfl, fun _ => rfl⟩

theorem keepsOrigin_moved (status : RunStatus) (progress diagnostic : Option Json) :
    KeepsOrigin (moved status progress diagnostic) :=
  ⟨fun _ => rfl, fun _ => rfl, fun _ => rfl, fun _ => rfl⟩

theorem keepsOrigin_cancelled : KeepsOrigin cancelled :=
  ⟨fun _ => rfl, fun _ => rfl, fun _ => rfl, fun _ => rfl⟩

theorem keepsOrigin_leased (leaseUntil : Option Int) : KeepsOrigin (leased leaseUntil) :=
  ⟨fun _ => rfl, fun _ => rfl, fun _ => rfl, fun _ => rfl⟩

theorem activeRun_none (h : s.activeRun = none) : ∀ r ∈ s.runs, r.status.isTerminal = true := by
  intro r hr
  simpa using List.find?_eq_none.mp h r hr

theorem run?_eq (hids : (s.runs.map Run.id).Nodup) (h : run ∈ s.runs) : s.run? run.id = some run := by
  cases hfound : s.run? run.id with
  | none => simpa using List.find?_eq_none.mp hfound run h
  | some found =>
    obtain ⟨hmem, hid⟩ := run?_some hfound
    rw [List.inj_on_of_nodup_map hids hmem h hid]

theorem mem_setRun : r ∈ (s.setRun runId f).runs ↔
    ∃ r' ∈ s.runs, r = if r'.id = runId then f r' else r' := by
  unfold Store.setRun
  simp [eq_comm]

/-- After an update a run is the updated one or an old one with another identifier. -/
theorem mem_setRun_of (hids : (s.runs.map Run.id).Nodup) (hrun : s.run? runId = some run)
    (h : r ∈ (s.setRun runId f).runs) : r = f run ∨ r ∈ s.runs ∧ r.id ≠ runId := by
  obtain ⟨r', hr', rfl⟩ := mem_setRun.mp h
  obtain ⟨hmem, hid⟩ := run?_some hrun
  by_cases hsame : r'.id = runId
  · rw [if_pos hsame, List.inj_on_of_nodup_map hids hr' hmem (hsame.trans hid.symm)]
    exact Or.inl rfl
  · rw [if_neg hsame]
    exact Or.inr ⟨hr', hsame⟩

theorem map_id_setRun (hf : KeepsOrigin f) :
    (s.setRun runId f).runs.map Run.id = s.runs.map Run.id := by
  unfold Store.setRun
  rw [List.map_map]
  refine List.map_congr_left fun r _ => ?_
  by_cases hsame : r.id = runId
  · rw [Function.comp_apply, if_pos hsame, hf.id]
  · rw [Function.comp_apply, if_neg hsame]

theorem runsOk_setRun (hs : RunsOk s) (hrun : s.run? runId = some run)
    (hterminal : run.status.isTerminal = false) (hf : KeepsOrigin f) : RunsOk (s.setRun runId f) := by
  obtain ⟨hmem, hid⟩ := run?_some hrun
  have honly : ∀ r ∈ (s.setRun runId f).runs, r.status.isTerminal = false → r = f run := by
    intro r hr hactive
    rcases mem_setRun_of hs.ids hrun hr with rfl | ⟨hold, hother⟩
    · rfl
    · exact absurd (hs.one r hold run hmem hactive hterminal ▸ hid) hother
  refine ⟨?_, ?_, ?_⟩
  · rw [map_id_setRun hf]
    exact hs.ids
  · intro r hr r' hr' hactive hactive'
    rw [honly r hr hactive, honly r' hr' hactive']
  · intro r hr hactive hretry
    rw [honly r hr hactive, hf.retryOf] at hretry
    rw [honly r hr hactive, hf.draftRevision]
    exact hs.current run hmem hterminal hretry

theorem runsOk_started (hs : RunsOk s) (hactive : s.activeRun = none)
    (hfresh : ∀ r ∈ s.runs, r.id ≠ run.id)
    (hcurrent : run.retryOf = none → run.draftRevision = s.draftRevision) :
    RunsOk { s with runs := s.runs ++ [run] } := by
  have honly : ∀ r ∈ s.runs ++ [run], r.status.isTerminal = false → r = run := by
    intro r hr hnot
    rcases List.mem_append.mp hr with hold | hnew
    · rw [activeRun_none hactive r hold] at hnot
      cases hnot
    · exact List.mem_singleton.mp hnew
  refine ⟨?_, ?_, ?_⟩
  · rw [List.map_append, List.map_singleton, List.nodup_append]
    refine ⟨hs.ids, List.nodup_singleton _, ?_⟩
    intro a ha b hb
    obtain ⟨r, hr, rfl⟩ := List.mem_map.mp ha
    rw [List.mem_singleton.mp hb]
    exact hfresh r hr
  · intro r hr r' hr' hnot hnot'
    rw [honly r hr hnot, honly r' hr' hnot']
  · intro r hr hnot hretry
    rw [honly r hr hnot] at hretry ⊢
    exact hcurrent hretry

end Runs

end Traqen.SourceRuns
