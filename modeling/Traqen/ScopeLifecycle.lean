-- The lifecycle of extraction scopes (`deterministic-facts/repository.js`): each operation is one
-- transaction on the rows of a scope, its work items and the request that may own it. The clock and
-- the owning requests move on their own between the operations.
import Traqen.SourceIdentity
import Traqen.Lib.Machine
import Traqen.Lib.OrderedMap

open Js

namespace Traqen.ScopeLifecycle

open OrderedMap (get? setAll)

/-! ## Errors and digests -/

structure F002Error where
  code : String
  message : String
  status : Nat
  deriving Repr, DecidableEq

def requireF002 (condition : Prop) [Decidable condition] (code message : String) (status : Nat) :
    Except F002Error Unit :=
  if condition then .ok () else .error { code, message, status }

section Digest

variable (sha256 : String → String)

/-- `canonicalDigest` of `deterministic-facts/identity.js`. -/
def canonicalDigest (domain : String) (payload : Json) : String :=
  sha256 (SourceIdentity.canonicalEncode (.obj [("domain", .str ("F002." ++ domain)),
    ("version", .num (Number.ofNat 1)), ("payload", payload)]))

end Digest

/-! ## Rows -/

inductive ScopeStatus where
  | QUEUED | RUNNING | READY_TO_SEAL | SEALED | FAILED_RETRYABLE | BLOCKED | CANCELLED
  deriving Repr, DecidableEq

inductive ItemStatus where
  | PENDING | RUNNING | DONE | NOT_APPLICABLE | UNSUPPORTED | PARSE_FAILED
  deriving Repr, DecidableEq

def ItemStatus.text : ItemStatus → String
  | PENDING => "PENDING"
  | RUNNING => "RUNNING"
  | DONE => "DONE"
  | NOT_APPLICABLE => "NOT_APPLICABLE"
  | UNSUPPORTED => "UNSUPPORTED"
  | PARSE_FAILED => "PARSE_FAILED"

/-- `terminalScopeItemStates`. -/
def ItemStatus.isTerminal : ItemStatus → Bool
  | DONE | NOT_APPLICABLE | UNSUPPORTED | PARSE_FAILED => true
  | PENDING | RUNNING => false

inductive RequestState where
  | QUEUED | RUNNING | COMPLETED | FAILED | CANCELLED
  deriving Repr, DecidableEq

structure ScopeKey where
  workspaceId : String
  runId : String
  scopeId : String
  deriving Repr, DecidableEq

structure ItemKey where
  materialId : String
  capabilityId : String
  deriving Repr, DecidableEq

structure ProgressEvent where
  phase : String
  completed : Int
  total : Option Int
  generation : Nat
  path : Option String
  updatedAt : Nat
  deriving Repr, DecidableEq

structure Progress where
  latest : ProgressEvent
  events : List ProgressEvent
  deriving Repr, DecidableEq

structure Scope where
  status : ScopeStatus
  generation : Nat
  revision : Nat
  workerId : Option String
  leaseUntil : Option Nat
  sealOperationId : Option String
  graphVersionId : Option String
  diagnostic : Json
  progress : Option Progress
  /-- The profile of the run says `automaticPublication: "closed-scope-v1"`. -/
  closedScope : Bool

structure Item where
  status : ItemStatus
  generation : Nat
  recordIds : List String
  gapIds : List String
  diagnostic : Json

/-- The columns of `f002_request` that fence a derived scope. -/
structure Request where
  id : String
  generation : Nat
  state : RequestState
  leaseUntil : Option Nat

structure Database where
  clock : Nat
  scopes : ScopeKey → Option Scope
  items : ScopeKey → List (ItemKey × Item)
  owners : ScopeKey → Option Request

/-- `lease_until > clock_timestamp()`, which is not so of a missing lease. -/
def leaseLive (lease : Option Nat) (now : Nat) : Bool := lease.any fun deadline => now < deadline

/-- `lease_until <= clock_timestamp()`, which is not so of a missing lease. -/
def leaseOver (lease : Option Nat) (now : Nat) : Bool := lease.any fun deadline => deadline ≤ now

/-- The rows after an update of one scope. -/
def Database.setScope (db : Database) (key : ScopeKey) (scope : Scope) : Database :=
  { db with scopes := Function.update db.scopes key (some scope) }

/-! ## Texts of keys -/

def matchesAll (allowed : Char → Bool) (low high : Nat) (text : String) : Bool :=
  text.toList.all allowed && decide (low ≤ text.length) && decide (text.length ≤ high)

/-- `/^[A-Za-z0-9_-]{1,128}$/`. -/
def isOperationId : String → Bool :=
  matchesAll (fun c => c.isAlphanum || c == '_' || c == '-') 1 128

/-- `/^[A-Za-z0-9-]{1,128}$/`. -/
def isRequestId : String → Bool := matchesAll (fun c => c.isAlphanum || c == '-') 1 128

/-- `/^[a-f0-9]{64}$/`. -/
def isHexId : String → Bool :=
  matchesAll (fun c => c.isDigit || ('a' ≤ c && c ≤ 'f')) 64 64

/-- `/^F002_[A-Z_]+$/`. -/
def isFailureCode (code : String) : Bool :=
  code.startsWith "F002_" && decide (5 < code.length) &&
    (code.toList.drop 5).all fun c => c.isUpper || c == '_'

/-! ## Admission -/

/-- What `authorize` answers. -/
structure Access where
  restoreReady : Bool
  backupBarrier : Bool

/-- Who calls: whether the server knows them, and what the authorizer answers or throws. -/
structure Caller where
  identified : Bool
  access : Except F002Error (Option Access)

/-- `#withWorkspace` for an operation that maintains the workspace. -/
def withWorkspace {α : Type} (caller : Caller) (callback : Except F002Error α) :
    Except F002Error α := do
  requireF002 (caller.identified = true) "F002_AUTHENTICATION_REQUIRED" "需要服务端身份" 401
  let access ← caller.access
  requireF002 (access.any (·.restoreReady) = true) "F002_RESTORE_UNVERIFIED"
    "来源与事实集恢复尚未完整校验，暂缓消费" 503
  requireF002 (access.any (fun a => !a.backupBarrier) = true) "F002_BACKUP_BUSY"
    "正在建立配套备份水位，暂缓事实写入" 503
  callback

/-- The credentials of a worker that acts for an owning request. -/
structure Credentials where
  requestId : Option String
  requestGeneration : Option Nat
  deriving DecidableEq

/-- The scope is free of requests and none is claimed, or its request runs on a live lease and the
credentials are its own. -/
def ownerAgrees (db : Database) (key : ScopeKey) (c : Credentials) : Bool :=
  match db.owners key with
  | some request =>
    c.requestId == some request.id && c.requestGeneration == some request.generation &&
      request.state == .RUNNING && leaseLive request.leaseUntil db.clock
  | none => c.requestId == none && c.requestGeneration == none

/-- `#assertScopeNotRequestOwned`. -/
def assertScopeNotRequestOwned (db : Database) (key : ScopeKey) : Except F002Error Unit :=
  requireF002 ((db.owners key).isNone = true) "F002_REQUEST_SCOPE_OWNED"
    "派生范围只能由其取证请求生命周期操作" 409

def staleScopeWorker (message : String) : F002Error :=
  { code := "F002_STALE_SCOPE_WORKER", message, status := 409 }

def revisionConflict : F002Error :=
  { code := "F002_SCOPE_REVISION_CONFLICT", message := "范围修订或状态已变化", status := 409 }

/-- `UPDATE f002_scope SET … WHERE … RETURNING *`, refused when no row is updated. -/
def updateWhere (db : Database) (key : ScopeKey) (guard : Scope → Bool) (change : Scope → Scope)
    (refused : F002Error) : Except F002Error Database :=
  match db.scopes key with
  | some scope =>
    if guard scope = true then .ok (db.setScope key (change scope)) else .error refused
  | none => .error refused

/-- `SELECT * FROM f002_scope … FOR UPDATE`. -/
def requireScope (db : Database) (key : ScopeKey) : Except F002Error Scope :=
  match db.scopes key with
  | some scope => .ok scope
  | none => .error { code := "F002_SCOPE_NOT_FOUND", message := "范围不存在", status := 404 }

/-! ## Operations of workers -/

def isWorker (workerId : String) (leaseMs : Int) : Bool :=
  decide (0 < workerId.length) && decide (0 < leaseMs) && decide (leaseMs ≤ 60000)

def credentialsValid (c : Credentials) : Bool :=
  match c.requestId, c.requestGeneration with
  | none, none => true
  | some id, some generation => isRequestId id && decide (0 < generation)
  | _, _ => false

section Operations

variable (sha256 : String → String) (db : Database) (caller : Caller) (key : ScopeKey)

/-- Each operation gives the rows after its transaction; the row it answers with is among them. -/
def claimScope (workerId : String) (leaseMs : Int) (credentials : Credentials) :
    Except F002Error Database := do
  requireF002 (isWorker workerId leaseMs = true ∧ credentialsValid credentials = true)
    "F002_LEASE_INVALID" "范围租约参数无效" 422
  withWorkspace caller do
    requireF002 (ownerAgrees db key credentials = true) "F002_REQUEST_SCOPE_OWNED"
      (if (db.owners key).isSome then "派生范围只能由其当前取证请求执行"
        else "普通范围不能携带取证请求执行凭据") 409
    updateWhere db key
      (fun scope => scope.status == .QUEUED ||
        (scope.status == .RUNNING && leaseOver scope.leaseUntil db.clock))
      (fun scope => { scope with
        status := .RUNNING, generation := scope.generation + 1, revision := scope.revision + 1
        workerId := some workerId, progress := none
        leaseUntil := some (db.clock + leaseMs.toNat) })
      { code := "F002_SCOPE_LEASE_BUSY", message := "范围已有有效执行者或不可执行", status := 409 }

def renewScopeLease (generation : Nat) (workerId : String) (leaseMs : Int)
    (credentials : Credentials) : Except F002Error Database := do
  requireF002 (0 < generation ∧ isWorker workerId leaseMs = true)
    "F002_LEASE_INVALID" "范围租约参数无效" 422
  withWorkspace caller do
    requireF002 (ownerAgrees db key credentials = true) "F002_REQUEST_SCOPE_OWNED"
      "范围续期不能越过其取证请求执行边界" 409
    updateWhere db key
      (fun scope => scope.generation == generation && scope.workerId == some workerId &&
        scope.status == .RUNNING && leaseLive scope.leaseUntil db.clock)
      (fun scope => { scope with leaseUntil := some (db.clock + leaseMs.toNat) })
      (staleScopeWorker "执行权或任务状态已变化")

/-- `parserPhases`, between what comes before and after parsing. -/
def phases : List String :=
  ["LOADING", "NORMALIZE", "MATERIALS", "DOCUMENT_LINKS", "JAVASCRIPT_MODULES", "JAVA_BINDINGS",
    "TEST_REFERENCES", "ENDPOINT_CONTRACTS", "SORT_OBJECTS", "SORT_EVIDENCE", "SORT_FACTS",
    "SORT_GAPS", "RESULT", "ASSEMBLE", "VERIFY", "READY"]

structure ProgressInput where
  phase : String
  completed : Int
  total : Option Int
  path : Option String

def ProgressInput.valid (p : ProgressInput) : Bool :=
  decide (p.phase ∈ phases) && decide (0 ≤ p.completed) && decide (p.completed ≤ 200000) &&
    p.total.all (fun total => decide (p.completed ≤ total) && decide (total ≤ 200000)) &&
    p.path.all fun path => decide ((codeUnits path).length ≤ 4096)

/-- `[...events without the phase, latest].slice(-16)`. -/
def pushEvent (events : List ProgressEvent) (latest : ProgressEvent) : List ProgressEvent :=
  let all := events.filter (fun item => item.phase != latest.phase) ++ [latest]
  all.drop (all.length - 16)

def recordScopeProgress (generation : Nat) (workerId : String) (credentials : Credentials)
    (progress : ProgressInput) : Except F002Error Database := do
  requireF002 (progress.valid = true) "F002_PROGRESS_INVALID" "解析进度无效" 422
  withWorkspace caller do
    requireF002 (ownerAgrees db key credentials = true) "F002_REQUEST_SCOPE_OWNED"
      "进度不能越过取证请求执行边界" 409
    updateWhere db key
      (fun scope => scope.generation == generation && scope.workerId == some workerId &&
        scope.status == .RUNNING && leaseLive scope.leaseUntil db.clock)
      (fun scope =>
        let latest : ProgressEvent :=
          { phase := progress.phase, completed := progress.completed, total := progress.total
            generation, path := progress.path, updatedAt := db.clock }
        let events := match scope.progress with
          | some p => p.events
          | none => []
        { scope with progress := some { latest, events := pushEvent events latest } })
      (staleScopeWorker "任务已停止或执行代次变化")

/-- The progress of a scope that became ready, if it is of this generation. -/
def readyProgress (now generation : Nat) (progress : Option Progress) : Option Progress :=
  progress.map fun p =>
    if p.latest.generation = generation then
      let latest := { p.latest with phase := "READY", updatedAt := now }
      { latest, events := pushEvent p.events latest }
    else p

def readyToSeal (generation : Nat) : Except F002Error Database :=
  withWorkspace caller do
    requireF002 ((db.items key).all (fun e => e.2.status.isTerminal) = true) "F002_SCOPE_PENDING"
      "范围仍有待处理材料或能力" 409
    updateWhere db key
      (fun scope => scope.status == .RUNNING && scope.generation == generation &&
        leaseLive scope.leaseUntil db.clock)
      (fun scope => { scope with
        status := .READY_TO_SEAL, revision := scope.revision + 1, leaseUntil := none
        progress := readyProgress db.clock generation scope.progress })
      (staleScopeWorker "范围执行权或状态已变化")

structure ScopeItem where
  materialId : String
  capabilityId : String
  status : ItemStatus
  recordIds : List String
  gapIds : List String
  diagnostic : Json

def ScopeItem.itemKey (item : ScopeItem) : ItemKey :=
  { materialId := item.materialId, capabilityId := item.capabilityId }

def normalizeItem (item : ScopeItem) : Except F002Error ScopeItem := do
  requireF002 (0 < item.materialId.length ∧ 0 < item.capabilityId.length)
    "F002_SCOPE_ITEM_INVALID" "范围工作项无效" 422
  return { item with
    recordIds := sortTexts item.recordIds.dedup, gapIds := sortTexts item.gapIds.dedup }

def itemDigest (key : ItemKey) (status : ItemStatus) (recordIds gapIds : List String)
    (diagnostic : Json) : String :=
  canonicalDigest sha256 "SCOPE_ITEM" (.obj [("materialId", .str key.materialId),
    ("capabilityId", .str key.capabilityId), ("status", .str status.text),
    ("recordIds", .arr (recordIds.map .str)), ("gapIds", .arr (gapIds.map .str)),
    ("diagnostic", diagnostic)])

/-- The loop over the batch: what may be written over the stored rows. -/
def writableItems (stored : List (ItemKey × Item)) :
    List ScopeItem → Except F002Error (List ScopeItem)
  | [] => .ok []
  | item :: rest =>
    match get? stored item.itemKey with
    | some existing =>
      if existing.status.isTerminal = true then
        -- a recovered worker declares its items again before it knows which of them are done
        if item.status = .PENDING then writableItems stored rest
        else if itemDigest sha256 item.itemKey existing.status existing.recordIds existing.gapIds
            existing.diagnostic =
          itemDigest sha256 item.itemKey item.status item.recordIds item.gapIds item.diagnostic then
          writableItems stored rest
        else .error { code := "F002_SCOPE_ITEM_CONFLICT", message := "终态工作项不能被不同输出覆盖"
                      status := 409 }
      else (writableItems stored rest).map (item :: ·)
    | none => (writableItems stored rest).map (item :: ·)

def storeItems (generation : Nat) (stored : List (ItemKey × Item)) (items : List ScopeItem) :
    List (ItemKey × Item) :=
  setAll stored (items.map fun item => (item.itemKey,
    { status := item.status, generation, recordIds := item.recordIds, gapIds := item.gapIds
      diagnostic := item.diagnostic }))

def recordScopeItems (generation : Nat) (items : List ScopeItem) : Except F002Error Database := do
  requireF002 (0 < generation ∧ items.length ≤ 500) "F002_SCOPE_ITEM_INVALID"
    "范围工作项参数无效" 422
  let normalized ← items.mapM normalizeItem
  requireF002 ((normalized.map fun item => item.materialId ++ "\x00" ++ item.capabilityId).Nodup)
    "F002_SCOPE_ITEM_DUPLICATE" "同一批工作项身份重复" 422
  withWorkspace caller do
    requireF002 ((db.scopes key).any (fun scope => scope.status == .RUNNING &&
      scope.generation == generation && leaseLive scope.leaseUntil db.clock) = true)
      "F002_STALE_SCOPE_WORKER" "执行权或任务状态已变化" 409
    let writable ← writableItems sha256 (db.items key) normalized
    return { db with
      items := Function.update db.items key (storeItems generation (db.items key) writable) }

def failScope (generation : Nat) (diagnostic : Json) : Except F002Error Database := do
  requireF002 (0 < generation ∧ diagnostic.isObject = true) "F002_FAILURE_INVALID"
    "范围失败信息无效" 422
  withWorkspace caller do
    updateWhere db key
      (fun scope => scope.status == .RUNNING && scope.generation == generation &&
        leaseLive scope.leaseUntil db.clock)
      (fun scope => { scope with
        status := .FAILED_RETRYABLE, revision := scope.revision + 1, leaseUntil := none, diagnostic })
      (staleScopeWorker "执行权或任务状态已变化")

/-! ## Operations of users and of publication -/

/-- A scope that is not ready, or of another revision or profile, is left as it is. -/
def blockAutomaticPublication (revision : Nat) (code : String) : Except F002Error Database := do
  requireF002 (0 < revision ∧ isFailureCode code = true) "F002_FAILURE_INVALID"
    "自动发布诊断无效" 422
  withWorkspace caller do
    assertScopeNotRequestOwned db key
    match db.scopes key with
    | some scope =>
      if scope.status = .READY_TO_SEAL ∧ scope.revision = revision ∧ scope.closedScope = true then
        return db.setScope key { scope with
          status := .BLOCKED, revision := scope.revision + 1
          diagnostic := .obj [("code", .str code), ("stage", .str "AUTOMATIC_PUBLICATION")] }
      else return db
    | none => return db

def requireOperation (operationId : String) : Except F002Error Unit :=
  requireF002 (isOperationId operationId = true) "F002_OPERATION_INVALID" "操作键格式无效" 422

def cancelScope (revision : Nat) (operationId : String) : Except F002Error Database := do
  requireOperation operationId
  requireF002 (0 < revision) "F002_SCOPE_REVISION_CONFLICT" "缺少当前范围修订" 409
  withWorkspace caller do
    assertScopeNotRequestOwned db key
    let _ ← requireScope db key
    updateWhere db key (fun scope => scope.status != .SEALED && scope.revision == revision)
      (fun scope => { scope with
        status := .CANCELLED, revision := scope.revision + 1, leaseUntil := none
        diagnostic := .obj [("code", .str "CANCELLED"), ("operationId", .str operationId)] })
      revisionConflict

def retryScope (revision : Nat) (operationId : String) : Except F002Error Database := do
  requireOperation operationId
  requireF002 (0 < revision) "F002_SCOPE_REVISION_CONFLICT" "缺少当前范围修订" 409
  withWorkspace caller do
    assertScopeNotRequestOwned db key
    let _ ← requireScope db key
    updateWhere db key
      (fun scope => scope.status == .FAILED_RETRYABLE && scope.revision == revision)
      (fun scope => { scope with
        status := .QUEUED, revision := scope.revision + 1, workerId := none, leaseUntil := none
        diagnostic := .obj [("code", .str "RETRY_QUEUED"), ("operationId", .str operationId)] })
      revisionConflict

def sealScope (revision : Nat) (operationId graphVersionId : String) :
    Except F002Error Database := do
  requireOperation operationId
  requireF002 (0 < revision ∧ isHexId graphVersionId = true) "F002_SEAL_INVALID" "封存参数无效" 422
  withWorkspace caller do
    assertScopeNotRequestOwned db key
    let row ← requireScope db key
    if row.status = .SEALED then
      requireF002 (row.sealOperationId = some operationId ∧ row.graphVersionId = some graphVersionId)
        "F002_SCOPE_REVISION_CONFLICT" "范围已经由其他封存操作发布" 409
      return db
    else
      updateWhere db key (fun scope => scope.status == .READY_TO_SEAL && scope.revision == revision)
        (fun scope => { scope with
          status := .SEALED, revision := scope.revision + 1
          sealOperationId := some operationId, graphVersionId := some graphVersionId })
        revisionConflict

def cancelRequestScope (requestId : String) (requestGeneration revision : Nat)
    (operationId reason : String) : Except F002Error Database := do
  requireOperation operationId
  requireF002 (isRequestId requestId = true ∧ 0 < requestGeneration ∧ 0 < revision ∧
    0 < (codeUnits reason).length ∧ (codeUnits reason).length ≤ 128)
    "F002_REQUEST_GUARD_INVALID" "派生范围取消围栏无效" 422
  withWorkspace caller do
    requireF002 ((db.owners key).any (fun owner => owner.id == requestId &&
      owner.generation == requestGeneration && owner.state == .RUNNING &&
      leaseLive owner.leaseUntil db.clock) = true)
      "F002_STALE_REQUEST_WORKER" "取证请求已停止，不能修改派生范围" 409
    match db.scopes key with
    | some scope =>
      if scope.status ≠ .SEALED ∧ scope.revision = revision then
        if scope.status = .CANCELLED then return db
        else
          return db.setScope key { scope with
            status := .CANCELLED, revision := scope.revision + 1, leaseUntil := none
            diagnostic := .obj [("code", .str "CANCELLED_BY_REQUEST"),
              ("requestId", .str requestId), ("operationId", .str operationId),
              ("reason", .str reason)] }
      else .error revisionConflict
    | none => .error revisionConflict

end Operations

/-! ## Runs -/

/-- A new row; the scopes of a new run have not been there before. -/
def createScope (db : Database) (key : ScopeKey) (closedScope : Bool) : Option Database :=
  match db.scopes key with
  | some _ => none
  | none => some (db.setScope key
      { status := .QUEUED, generation := 0, revision := 1, workerId := none, leaseUntil := none
        sealOperationId := none, graphVersionId := none, diagnostic := .null, progress := none
        closedScope })

/-- What may happen: time passes, requests move, a run is created, or an operation is called. -/
inductive Act where
  | advance (elapsed : Nat)
  | setOwner (key : ScopeKey) (owner : Option Request)
  | createScope (key : ScopeKey) (closedScope : Bool)
  | claimScope (caller : Caller) (key : ScopeKey) (workerId : String) (leaseMs : Int)
      (credentials : Credentials)
  | renewScopeLease (caller : Caller) (key : ScopeKey) (generation : Nat) (workerId : String)
      (leaseMs : Int) (credentials : Credentials)
  | recordScopeProgress (caller : Caller) (key : ScopeKey) (generation : Nat) (workerId : String)
      (credentials : Credentials) (progress : ProgressInput)
  | readyToSeal (caller : Caller) (key : ScopeKey) (generation : Nat)
  | recordScopeItems (caller : Caller) (key : ScopeKey) (generation : Nat) (items : List ScopeItem)
  | failScope (caller : Caller) (key : ScopeKey) (generation : Nat) (diagnostic : Json)
  | blockAutomaticPublication (caller : Caller) (key : ScopeKey) (revision : Nat) (code : String)
  | cancelScope (caller : Caller) (key : ScopeKey) (revision : Nat) (operationId : String)
  | retryScope (caller : Caller) (key : ScopeKey) (revision : Nat) (operationId : String)
  | sealScope (caller : Caller) (key : ScopeKey) (revision : Nat)
      (operationId graphVersionId : String)
  | cancelRequestScope (caller : Caller) (key : ScopeKey) (requestId : String)
      (requestGeneration revision : Nat) (operationId reason : String)

/-- The claim of a scope. -/
def Act.claims : Act → Option ScopeKey
  | .claimScope _ key _ _ _ => some key
  | _ => none

/-- The write of a worker, under the generation that it holds. -/
def Act.writes : Act → Option (ScopeKey × Nat)
  | .renewScopeLease _ key generation _ _ _ => some (key, generation)
  | .recordScopeProgress _ key generation _ _ _ => some (key, generation)
  | .readyToSeal _ key generation => some (key, generation)
  | .recordScopeItems _ key generation _ => some (key, generation)
  | .failScope _ key generation _ => some (key, generation)
  | _ => none

section Steps

variable (sha256 : String → String)

/-- A refused operation leaves the rows as they are, so it is no step. -/
def step (db : Database) : Act → Option Database
  | .advance elapsed => some { db with clock := db.clock + elapsed }
  | .setOwner key owner => some { db with owners := Function.update db.owners key owner }
  | .createScope key closedScope => createScope db key closedScope
  | .claimScope caller key workerId leaseMs credentials =>
    (claimScope db caller key workerId leaseMs credentials).toOption
  | .renewScopeLease caller key generation workerId leaseMs credentials =>
    (renewScopeLease db caller key generation workerId leaseMs credentials).toOption
  | .recordScopeProgress caller key generation workerId credentials progress =>
    (recordScopeProgress db caller key generation workerId credentials progress).toOption
  | .readyToSeal caller key generation => (readyToSeal db caller key generation).toOption
  | .recordScopeItems caller key generation items =>
    (recordScopeItems sha256 db caller key generation items).toOption
  | .failScope caller key generation diagnostic =>
    (failScope db caller key generation diagnostic).toOption
  | .blockAutomaticPublication caller key revision code =>
    (blockAutomaticPublication db caller key revision code).toOption
  | .cancelScope caller key revision operationId =>
    (cancelScope db caller key revision operationId).toOption
  | .retryScope caller key revision operationId =>
    (retryScope db caller key revision operationId).toOption
  | .sealScope caller key revision operationId graphVersionId =>
    (sealScope db caller key revision operationId graphVersionId).toOption
  | .cancelRequestScope caller key requestId requestGeneration revision operationId reason =>
    (cancelRequestScope db caller key requestId requestGeneration revision operationId
      reason).toOption

end Steps

/-- No scope has been created yet. -/
def emptyDatabase (clock : Nat) (owners : ScopeKey → Option Request) : Database :=
  { clock, scopes := fun _ => none, items := fun _ => [], owners }

/-! ## What a transaction does to its scope -/

/-- The kinds of change of one row, with what was checked before it. -/
inductive Moved (now : Nat) (items : List (ItemKey × Item)) : Scope → Scope → Prop where
  /-- A worker takes a scope that is queued, or whose lease is over. -/
  | claimed {a : Scope} (b : Scope) (free : a.status = .QUEUED ∨ a.status = .RUNNING)
      (running : b.status = .RUNNING) (generation : b.generation = a.generation + 1) : Moved now items a b
  /-- A worker writes to a scope that runs on a live lease. -/
  | written {a : Scope} (b : Scope) (running : a.status = .RUNNING)
      (live : leaseLive a.leaseUntil now = true) (generation : b.generation = a.generation)
      (outcome : b.status = .RUNNING ∨ b.status = .FAILED_RETRYABLE ∨
        b.status = .READY_TO_SEAL ∧ ∀ e ∈ items, e.2.status.isTerminal = true) : Moved now items a b
  /-- A scope is stopped, or queued again. -/
  | stopped {a : Scope} (b : Scope) (unsealed : a.status ≠ .SEALED)
      (generation : b.generation = a.generation)
      (stop : b.status = .CANCELLED ∨ a.status = .READY_TO_SEAL ∧ b.status = .BLOCKED ∨
        a.status = .FAILED_RETRYABLE ∧ b.status = .QUEUED) : Moved now items a b
  /-- A ready scope is sealed under an operation and a version. -/
  | sealed {a : Scope} (b : Scope) (ready : a.status = .READY_TO_SEAL)
      (done : b.status = .SEALED) (generation : b.generation = a.generation)
      (ids : b.sealOperationId.isSome = true ∧ b.graphVersionId.isSome = true) : Moved now items a b

/-- What one step does to the rows. -/
inductive Stepped (db t : Database) (act : Act) : Prop where
  /-- Time or requests move, or an operation finds nothing to change. -/
  | still (scopes : t.scopes = db.scopes) (items : t.items = db.items) (free : act.claims = none)
      (idle : act.writes = none)
  | created (key : ScopeKey) (scope : Scope) (fresh : db.scopes key = none)
      (queued : scope.status = .QUEUED)
      (scopes : t.scopes = Function.update db.scopes key (some scope))
      (items : t.items = db.items) (free : act.claims = none) (idle : act.writes = none)
  | moved (key : ScopeKey) (a b : Scope) (found : db.scopes key = some a)
      (move : Moved db.clock (db.items key) a b)
      (scopes : t.scopes = Function.update db.scopes key (some b)) (items : t.items = db.items)
      (claims : ∀ k, act.claims = some k → k = key ∧ b.generation = a.generation + 1)
      (keeps : act.claims = none → b.generation = a.generation)
      (writes : ∀ k g, act.writes = some (k, g) →
        k = key ∧ a.status = .RUNNING ∧ a.generation = g ∧ leaseLive a.leaseUntil db.clock = true)
  | recorded (key : ScopeKey) (a : Scope) (generation : Nat) (found : db.scopes key = some a)
      (running : a.status = .RUNNING) (current : a.generation = generation)
      (live : leaseLive a.leaseUntil db.clock = true) (scopes : t.scopes = db.scopes)
      (items : ∀ k, k ≠ key → t.items k = db.items k)
      (terminal : ∀ k i, get? (db.items key) k = some i → i.status.isTerminal = true →
        get? (t.items key) k = some i)
      (free : act.claims = none) (writes : act.writes = some (key, generation))

variable {generation revision : Nat}

section Specs

variable {sha256 : String → String} {db t : Database} {caller : Caller} {key : ScopeKey}

variable {code operationId workerId : String}

theorem require_ok {condition : Prop} [Decidable condition] {message : String} {status : Nat}
    (h : requireF002 condition code message status = .ok ()) : condition := by
  unfold requireF002 at h
  by_cases hc : condition
  · exact hc
  · rw [if_neg hc] at h
    cases h

/-- A check that is passed. -/
theorem require_bind {β : Type} {condition : Prop} [Decidable condition] {message : String}
    {status : Nat} {f : Unit → Except F002Error β} {b : β}
    (h : requireF002 condition code message status >>= f = .ok b) : condition ∧ f () = .ok b := by
  obtain ⟨u, hu, hf⟩ := bind_ok h
  exact ⟨require_ok hu, hf⟩

theorem withWorkspace_ok {α : Type} {callback : Except F002Error α} {b : α}
    (h : withWorkspace caller callback = .ok b) : callback = .ok b := by
  obtain ⟨-, h⟩ := require_bind h
  obtain ⟨access, -, h⟩ := bind_ok h
  obtain ⟨-, h⟩ := require_bind h
  exact (require_bind h).2

theorem updateWhere_ok {guard : Scope → Bool} {change : Scope → Scope} {refused : F002Error}
    (h : updateWhere db key guard change refused = .ok t) :
    ∃ a, db.scopes key = some a ∧ guard a = true ∧ t = db.setScope key (change a) := by
  unfold updateWhere at h
  cases hfound : db.scopes key with
  | none =>
    rw [hfound] at h
    cases h
  | some a =>
    rw [hfound] at h
    dsimp only at h
    by_cases hguard : guard a = true
    · rw [if_pos hguard] at h
      exact ⟨a, rfl, hguard, (Except.ok.inj h).symm⟩
    · rw [if_neg hguard] at h
      cases h

variable {credentials : Credentials}

theorem claimScope_stepped {leaseMs : Int}
    (h : claimScope db caller key workerId leaseMs credentials = .ok t) :
    Stepped db t (.claimScope caller key workerId leaseMs credentials) := by
  obtain ⟨-, h⟩ := require_bind h
  obtain ⟨-, h⟩ := require_bind (withWorkspace_ok h)
  obtain ⟨a, hfound, hguard, rfl⟩ := updateWhere_ok h
  have hfree : a.status = .QUEUED ∨ a.status = .RUNNING := by
    rw [Bool.or_eq_true, Bool.and_eq_true, beq_iff_eq, beq_iff_eq] at hguard
    exact hguard.imp_right And.left
  refine .moved key a _ hfound (.claimed _ hfree rfl rfl) rfl rfl ?_ (fun h => by cases h)
    (fun k g h => by cases h)
  intro k hk
  exact ⟨(Option.some.inj hk).symm, rfl⟩

/-- The guard of a worker that writes. -/
theorem writer_guard {a : Scope} {now : Nat}
    (h : (a.generation == generation && a.workerId == some workerId && a.status == .RUNNING &&
      leaseLive a.leaseUntil now) = true) :
    a.status = .RUNNING ∧ a.generation = generation ∧ leaseLive a.leaseUntil now = true := by
  simp only [Bool.and_eq_true, beq_iff_eq] at h
  exact ⟨h.1.2, h.1.1.1, h.2⟩

/-- The guard of a worker that ends its turn. -/
theorem ender_guard {a : Scope} {now : Nat}
    (h : (a.status == .RUNNING && a.generation == generation && leaseLive a.leaseUntil now) = true) :
    a.status = .RUNNING ∧ a.generation = generation ∧ leaseLive a.leaseUntil now = true := by
  simp only [Bool.and_eq_true, beq_iff_eq] at h
  exact ⟨h.1.1, h.1.2, h.2⟩

/-- A write that a worker makes under its generation. -/
theorem stepped_of_write {act : Act} {a b : Scope}
    (hfound : db.scopes key = some a)
    (hguard : a.status = .RUNNING ∧ a.generation = generation ∧
      leaseLive a.leaseUntil db.clock = true)
    (hgeneration : b.generation = a.generation)
    (houtcome : b.status = .RUNNING ∨ b.status = .FAILED_RETRYABLE ∨
      b.status = .READY_TO_SEAL ∧ ∀ e ∈ db.items key, e.2.status.isTerminal = true)
    (hclaims : act.claims = none) (hwrites : act.writes = some (key, generation)) :
    Stepped db (db.setScope key b) act := by
  obtain ⟨hrunning, hcurrent, hlive⟩ := hguard
  refine .moved key a b hfound (.written b hrunning hlive hgeneration houtcome) rfl rfl ?_
    (fun _ => hgeneration) ?_
  · intro k hk
    rw [hclaims] at hk
    cases hk
  · intro k g hk
    rw [hwrites] at hk
    obtain ⟨rfl, rfl⟩ := Prod.mk.inj (Option.some.inj hk)
    exact ⟨rfl, hrunning, hcurrent, hlive⟩

theorem renewScopeLease_stepped {leaseMs : Int}
    (h : renewScopeLease db caller key generation workerId leaseMs credentials = .ok t) :
    Stepped db t (.renewScopeLease caller key generation workerId leaseMs credentials) := by
  obtain ⟨-, h⟩ := require_bind h
  obtain ⟨-, h⟩ := require_bind (withWorkspace_ok h)
  obtain ⟨a, hfound, hguard, rfl⟩ := updateWhere_ok h
  have hwriter := writer_guard hguard
  exact stepped_of_write hfound hwriter rfl (Or.inl hwriter.1) rfl rfl

theorem recordScopeProgress_stepped
    {progress : ProgressInput}
    (h : recordScopeProgress db caller key generation workerId credentials progress = .ok t) :
    Stepped db t (.recordScopeProgress caller key generation workerId credentials progress) := by
  obtain ⟨-, h⟩ := require_bind h
  obtain ⟨-, h⟩ := require_bind (withWorkspace_ok h)
  obtain ⟨a, hfound, hguard, rfl⟩ := updateWhere_ok h
  have hwriter := writer_guard hguard
  exact stepped_of_write hfound hwriter rfl (Or.inl hwriter.1) rfl rfl

theorem readyToSeal_stepped (h : readyToSeal db caller key generation = .ok t) :
    Stepped db t (.readyToSeal caller key generation) := by
  obtain ⟨hitems, h⟩ := require_bind (withWorkspace_ok h)
  obtain ⟨a, hfound, hguard, rfl⟩ := updateWhere_ok h
  exact stepped_of_write hfound (ender_guard hguard) rfl
    (Or.inr (Or.inr ⟨rfl, List.all_eq_true.mp hitems⟩)) rfl rfl

theorem failScope_stepped {diagnostic : Json}
    (h : failScope db caller key generation diagnostic = .ok t) :
    Stepped db t (.failScope caller key generation diagnostic) := by
  obtain ⟨-, h⟩ := require_bind h
  obtain ⟨a, hfound, hguard, rfl⟩ := updateWhere_ok (withWorkspace_ok h)
  exact stepped_of_write hfound (ender_guard hguard) rfl (Or.inr (Or.inl rfl)) rfl rfl

/-- A scope that users or publication move, under no generation. -/
theorem stepped_of_move {act : Act} {a b : Scope} (hfound : db.scopes key = some a)
    (hmove : Moved db.clock (db.items key) a b) (hgeneration : b.generation = a.generation)
    (hclaims : act.claims = none) (hwrites : act.writes = none) :
    Stepped db (db.setScope key b) act := by
  refine .moved key a b hfound hmove rfl rfl ?_ (fun _ => hgeneration) ?_
  · intro k hk
    rw [hclaims] at hk
    cases hk
  · intro k g hk
    rw [hwrites] at hk
    cases hk

theorem blockAutomaticPublication_stepped
    (h : blockAutomaticPublication db caller key revision code = .ok t) :
    Stepped db t (.blockAutomaticPublication caller key revision code) := by
  obtain ⟨-, h⟩ := require_bind h
  obtain ⟨-, h⟩ := require_bind (withWorkspace_ok h)
  cases hfound : db.scopes key with
  | none =>
    rw [hfound] at h
    obtain rfl := Except.ok.inj h
    exact .still rfl rfl rfl rfl
  | some a =>
    rw [hfound] at h
    dsimp only at h
    by_cases hguard : a.status = .READY_TO_SEAL ∧ a.revision = revision ∧ a.closedScope = true
    · rw [if_pos hguard] at h
      obtain rfl := Except.ok.inj h
      have hunsealed : a.status ≠ .SEALED := by
        rw [hguard.1]
        decide
      exact stepped_of_move hfound
        (.stopped _ hunsealed rfl (Or.inr (Or.inl ⟨hguard.1, rfl⟩))) rfl rfl rfl
    · rw [if_neg hguard] at h
      obtain rfl := Except.ok.inj h
      exact .still rfl rfl rfl rfl

theorem cancelScope_stepped
    (h : cancelScope db caller key revision operationId = .ok t) :
    Stepped db t (.cancelScope caller key revision operationId) := by
  obtain ⟨-, h⟩ := require_bind h
  obtain ⟨-, h⟩ := require_bind h
  obtain ⟨-, h⟩ := require_bind (withWorkspace_ok h)
  obtain ⟨-, -, h⟩ := bind_ok h
  obtain ⟨a, hfound, hguard, rfl⟩ := updateWhere_ok h
  have hunsealed : a.status ≠ .SEALED := by
    rw [Bool.and_eq_true, bne_iff_ne] at hguard
    exact hguard.1
  exact stepped_of_move hfound (.stopped _ hunsealed rfl (Or.inl rfl)) rfl rfl rfl

theorem retryScope_stepped
    (h : retryScope db caller key revision operationId = .ok t) :
    Stepped db t (.retryScope caller key revision operationId) := by
  obtain ⟨-, h⟩ := require_bind h
  obtain ⟨-, h⟩ := require_bind h
  obtain ⟨-, h⟩ := require_bind (withWorkspace_ok h)
  obtain ⟨-, -, h⟩ := bind_ok h
  obtain ⟨a, hfound, hguard, rfl⟩ := updateWhere_ok h
  have hfailed : a.status = .FAILED_RETRYABLE := by
    rw [Bool.and_eq_true, beq_iff_eq] at hguard
    exact hguard.1
  have hunsealed : a.status ≠ .SEALED := by
    rw [hfailed]
    decide
  exact stepped_of_move hfound (.stopped _ hunsealed rfl (Or.inr (Or.inr ⟨hfailed, rfl⟩)))
    rfl rfl rfl

theorem sealScope_stepped {graphVersionId : String}
    (h : sealScope db caller key revision operationId graphVersionId = .ok t) :
    Stepped db t (.sealScope caller key revision operationId graphVersionId) := by
  obtain ⟨-, h⟩ := require_bind h
  obtain ⟨-, h⟩ := require_bind h
  obtain ⟨-, h⟩ := require_bind (withWorkspace_ok h)
  obtain ⟨row, -, h⟩ := bind_ok h
  by_cases hsealed : row.status = .SEALED
  · rw [if_pos hsealed] at h
    obtain ⟨-, h⟩ := require_bind h
    obtain rfl := Except.ok.inj h
    exact .still rfl rfl rfl rfl
  · rw [if_neg hsealed] at h
    obtain ⟨a, hfound, hguard, rfl⟩ := updateWhere_ok h
    rw [Bool.and_eq_true, beq_iff_eq] at hguard
    exact stepped_of_move hfound (.sealed _ hguard.1 rfl rfl ⟨rfl, rfl⟩) rfl rfl rfl

theorem cancelRequestScope_stepped {requestId : String} {requestGeneration : Nat}
    {reason : String}
    (h : cancelRequestScope db caller key requestId requestGeneration revision operationId reason =
      .ok t) :
    Stepped db t (.cancelRequestScope caller key requestId requestGeneration revision operationId
      reason) := by
  obtain ⟨-, h⟩ := require_bind h
  obtain ⟨-, h⟩ := require_bind h
  obtain ⟨-, h⟩ := require_bind (withWorkspace_ok h)
  cases hfound : db.scopes key with
  | none =>
    rw [hfound] at h
    cases h
  | some a =>
    rw [hfound] at h
    dsimp only at h
    by_cases hguard : a.status ≠ .SEALED ∧ a.revision = revision
    · rw [if_pos hguard] at h
      by_cases hcancelled : a.status = .CANCELLED
      · rw [if_pos hcancelled] at h
        obtain rfl := Except.ok.inj h
        exact .still rfl rfl rfl rfl
      · rw [if_neg hcancelled] at h
        obtain rfl := Except.ok.inj h
        exact stepped_of_move hfound (.stopped _ hguard.1 rfl (Or.inl rfl)) rfl rfl rfl
    · rw [if_neg hguard] at h
      cases h

/-- Nothing is written over a terminal item. -/
theorem writable_open {stored : List (ItemKey × Item)} {items writable : List ScopeItem}
    (h : writableItems sha256 stored items = .ok writable) :
    ∀ item ∈ writable, ∀ i, get? stored item.itemKey = some i →
      i.status.isTerminal = false := by
  induction items generalizing writable with
  | nil =>
    obtain rfl := Except.ok.inj h
    intro item hitem
    cases hitem
  | cons first rest ih =>
    -- an item that joins the batch is not stored, or not terminal
    have hjoin : (∀ i, get? stored first.itemKey = some i → i.status.isTerminal = false) →
        (writableItems sha256 stored rest).map (first :: ·) = .ok writable →
        ∀ item ∈ writable, ∀ i, get? stored item.itemKey = some i →
          i.status.isTerminal = false := by
      intro hfirst hrest
      cases hall : writableItems sha256 stored rest with
      | error e =>
        rw [hall] at hrest
        cases hrest
      | ok others =>
        rw [hall] at hrest
        obtain rfl := Except.ok.inj hrest
        intro item hitem
        obtain rfl | hitem := List.mem_cons.mp hitem
        · exact hfirst
        · exact ih hall item hitem
    rw [writableItems] at h
    cases hstored : get? stored first.itemKey with
    | none =>
      rw [hstored] at h
      exact hjoin (fun i hi => by rw [hstored] at hi; cases hi) h
    | some existing =>
      rw [hstored] at h
      dsimp only at h
      by_cases hterminal : existing.status.isTerminal = true
      · rw [if_pos hterminal] at h
        by_cases hpending : first.status = .PENDING
        · rw [if_pos hpending] at h
          exact ih h
        · rw [if_neg hpending] at h
          by_cases hsame : itemDigest sha256 first.itemKey existing.status existing.recordIds
              existing.gapIds existing.diagnostic =
            itemDigest sha256 first.itemKey first.status first.recordIds first.gapIds first.diagnostic
          · rw [if_pos hsame] at h
            exact ih h
          · rw [if_neg hsame] at h
            cases h
      · rw [if_neg hterminal] at h
        refine hjoin (fun i hi => ?_) h
        rw [hstored] at hi
        obtain rfl := Option.some.inj hi
        exact Bool.eq_false_iff.mpr hterminal

/-- Items of other keys stay as they are. -/
theorem get?_storeItems (generation : Nat) (stored : List (ItemKey × Item))
    (items : List ScopeItem) (k : ItemKey) (h : ∀ item ∈ items, item.itemKey ≠ k) :
    get? (storeItems generation stored items) k = get? stored k := by
  unfold storeItems setAll
  induction items generalizing stored with
  | nil => rfl
  | cons item rest ih =>
    rw [List.map_cons, List.foldl_cons, ih _ fun other hother => h other (List.mem_cons_of_mem _ hother),
      OrderedMap.get?_of_set, if_neg fun heq => h item List.mem_cons_self heq.symm]

theorem recordScopeItems_stepped {items : List ScopeItem}
    (h : recordScopeItems sha256 db caller key generation items = .ok t) :
    Stepped db t (.recordScopeItems caller key generation items) := by
  obtain ⟨-, h⟩ := require_bind h
  obtain ⟨normalized, -, h⟩ := bind_ok h
  obtain ⟨-, h⟩ := require_bind h
  obtain ⟨hguard, h⟩ := require_bind (withWorkspace_ok h)
  obtain ⟨writable, hwritable, h⟩ := bind_ok h
  obtain rfl := Except.ok.inj h
  cases hfound : db.scopes key with
  | none =>
    rw [hfound] at hguard
    cases hguard
  | some a =>
    rw [hfound] at hguard
    obtain ⟨hrunning, hcurrent, hlive⟩ := ender_guard hguard
    refine .recorded key a generation hfound hrunning hcurrent hlive rfl
      (fun k hk => Function.update_of_ne hk _ _) ?_ rfl rfl
    intro k i hi hterminal
    dsimp only
    rw [Function.update_self, get?_storeItems, hi]
    intro item hitem heq
    have hopen := writable_open hwritable item hitem i (heq ▸ hi)
    rw [hterminal] at hopen
    cases hopen

theorem createScope_stepped {closedScope : Bool} (h : createScope db key closedScope = some t) :
    Stepped db t (.createScope key closedScope) := by
  unfold createScope at h
  cases hfresh : db.scopes key with
  | some a =>
    rw [hfresh] at h
    cases h
  | none =>
    rw [hfresh] at h
    obtain rfl := Option.some.inj h
    exact .created key _ hfresh rfl rfl rfl rfl rfl

/-- Every step is one of the changes. -/
theorem step_stepped {act : Act} (h : step sha256 db act = some t) : Stepped db t act := by
  have hok : ∀ {x : Except F002Error Database}, x.toOption = some t → x = .ok t := by
    intro x hx
    cases x with
    | error e => cases hx
    | ok a => exact congrArg Except.ok (Option.some.inj hx)
  cases act with
  | advance elapsed =>
    obtain rfl := Option.some.inj h
    exact .still rfl rfl rfl rfl
  | setOwner key owner =>
    obtain rfl := Option.some.inj h
    exact .still rfl rfl rfl rfl
  | createScope key closedScope => exact createScope_stepped h
  | claimScope => exact claimScope_stepped (hok h)
  | renewScopeLease => exact renewScopeLease_stepped (hok h)
  | recordScopeProgress => exact recordScopeProgress_stepped (hok h)
  | readyToSeal => exact readyToSeal_stepped (hok h)
  | recordScopeItems => exact recordScopeItems_stepped (hok h)
  | failScope => exact failScope_stepped (hok h)
  | blockAutomaticPublication => exact blockAutomaticPublication_stepped (hok h)
  | cancelScope => exact cancelScope_stepped (hok h)
  | retryScope => exact retryScope_stepped (hok h)
  | sealScope => exact sealScope_stepped (hok h)
  | cancelRequestScope => exact cancelRequestScope_stepped (hok h)

end Specs

/-! ## What holds along every run -/

/-- Ready and sealed scopes have no open item, and a sealed scope names its version. -/
structure Closed (db : Database) : Prop where
  items : ∀ key scope, db.scopes key = some scope →
    scope.status = .READY_TO_SEAL ∨ scope.status = .SEALED →
    ∀ e ∈ db.items key, e.2.status.isTerminal = true
  sealed : ∀ key scope, db.scopes key = some scope → scope.status = .SEALED →
    scope.sealOperationId.isSome = true ∧ scope.graphVersionId.isSome = true

/-- What stays from one state to a later one. -/
structure Lasts (db t : Database) : Prop where
  sealed : ∀ key scope, db.scopes key = some scope → scope.status = .SEALED →
    t.scopes key = some scope
  cancelled : ∀ key scope, db.scopes key = some scope → scope.status = .CANCELLED →
    ∃ later, t.scopes key = some later ∧ later.status = .CANCELLED
  items : ∀ key k item, get? (db.items key) k = some item →
    item.status.isTerminal = true → get? (t.items key) k = some item

theorem Lasts.refl (db : Database) : Lasts db db :=
  ⟨fun _ _ h _ => h, fun _ scope h hc => ⟨scope, h, hc⟩, fun _ _ _ h _ => h⟩

theorem Lasts.trans {db t u : Database} (h : Lasts db t) (h' : Lasts t u) : Lasts db u := by
  refine ⟨fun key scope hs hd => h'.sealed key scope (h.sealed key scope hs hd) hd, ?_,
    fun key k item hi hd => h'.items key k item (h.items key k item hi hd) hd⟩
  intro key scope hs hd
  obtain ⟨later, hlater, hcancelled⟩ := h.cancelled key scope hs hd
  exact h'.cancelled key later hlater hcancelled

section Changes

variable {now : Nat} {items : List (ItemKey × Item)} {a b : Scope}

theorem Moved.not_sealed (h : Moved now items a b) : a.status ≠ .SEALED := by
  cases h with
  | claimed free => obtain h | h := free <;> rw [h] <;> decide
  | written running => rw [running]; decide
  | stopped unsealed => exact unsealed
  | sealed ready => rw [ready]; decide

theorem Moved.keeps_cancelled (h : Moved now items a b) (ha : a.status = .CANCELLED) :
    b.status = .CANCELLED := by
  cases h with
  | claimed free => rw [ha] at free; obtain h | h := free <;> cases h
  | written running => rw [ha] at running; cases running
  | stopped _ _ stop =>
    obtain hb | ⟨h, -⟩ | ⟨h, -⟩ := stop
    · exact hb
    · rw [ha] at h; cases h
    · rw [ha] at h; cases h
  | sealed ready => rw [ha] at ready; cases ready

/-- A scope becomes ready with no open item, and sealed from ready alone. -/
theorem Moved.ready (h : Moved now items a b)
    (hb : b.status = .READY_TO_SEAL ∨ b.status = .SEALED) :
    a.status = .READY_TO_SEAL ∨ ∀ e ∈ items, e.2.status.isTerminal = true := by
  cases h with
  | claimed _ running => rw [running] at hb; obtain h | h := hb <;> cases h
  | written _ _ _ outcome =>
    obtain h | h | h := outcome
    · rw [h] at hb; obtain h | h := hb <;> cases h
    · rw [h] at hb; obtain h | h := hb <;> cases h
    · exact Or.inr h.2
  | stopped _ _ stop =>
    obtain h | ⟨-, h⟩ | ⟨-, h⟩ := stop
    · rw [h] at hb; obtain h | h := hb <;> cases h
    · rw [h] at hb; obtain h | h := hb <;> cases h
    · rw [h] at hb; obtain h | h := hb <;> cases h
  | sealed ready => exact Or.inl ready

theorem Moved.sealed_ids (h : Moved now items a b) (hb : b.status = .SEALED) :
    b.sealOperationId.isSome = true ∧ b.graphVersionId.isSome = true := by
  cases h with
  | claimed _ running => rw [running] at hb; cases hb
  | written _ _ _ outcome =>
    obtain h | h | h := outcome
    · rw [h] at hb; cases hb
    · rw [h] at hb; cases hb
    · rw [h.1] at hb; cases hb
  | stopped _ _ stop =>
    obtain h | ⟨-, h⟩ | ⟨-, h⟩ := stop
    · rw [h] at hb; cases hb
    · rw [h] at hb; cases hb
    · rw [h] at hb; cases hb
  | sealed _ _ _ ids => exact ids

end Changes

section Laws

variable {db t : Database} {act : Act}

theorem stepped_closed (hclosed : Closed db) (h : Stepped db t act) : Closed t := by
  cases h with
  | still scopes items =>
    refine ⟨?_, ?_⟩
    · rw [scopes, items]
      exact hclosed.items
    · rw [scopes]
      exact hclosed.sealed
  | created key scope fresh queued scopes items =>
    refine ⟨fun k other hk hready => ?_, fun k other hk hsealed => ?_⟩
    · rw [items]
      by_cases heq : k = key
      · subst heq
        rw [scopes, Function.update_self] at hk
        obtain rfl := Option.some.inj hk
        rw [queued] at hready
        obtain h | h := hready <;> cases h
      · rw [scopes, Function.update_of_ne heq] at hk
        exact hclosed.items k other hk hready
    · by_cases heq : k = key
      · subst heq
        rw [scopes, Function.update_self] at hk
        obtain rfl := Option.some.inj hk
        rw [queued] at hsealed
        cases hsealed
      · rw [scopes, Function.update_of_ne heq] at hk
        exact hclosed.sealed k other hk hsealed
  | moved key a b found move scopes items =>
    refine ⟨fun k scope hk hready => ?_, fun k scope hk hsealed => ?_⟩
    · rw [items]
      by_cases heq : k = key
      · subst heq
        rw [scopes, Function.update_self] at hk
        obtain rfl := Option.some.inj hk
        obtain hready' | hitems := move.ready hready
        · exact hclosed.items k a found (Or.inl hready')
        · exact hitems
      · rw [scopes, Function.update_of_ne heq] at hk
        exact hclosed.items k scope hk hready
    · by_cases heq : k = key
      · subst heq
        rw [scopes, Function.update_self] at hk
        obtain rfl := Option.some.inj hk
        exact move.sealed_ids hsealed
      · rw [scopes, Function.update_of_ne heq] at hk
        exact hclosed.sealed k scope hk hsealed
  | recorded key a generation found running current live scopes items terminal =>
    refine ⟨fun k scope hk hready => ?_, ?_⟩
    · rw [scopes] at hk
      by_cases heq : k = key
      · subst heq
        rw [found] at hk
        obtain rfl := Option.some.inj hk
        rw [running] at hready
        obtain h | h := hready <;> cases h
      · rw [items k heq]
        exact hclosed.items k scope hk hready
    · rw [scopes]
      exact hclosed.sealed

theorem stepped_lasts (h : Stepped db t act) : Lasts db t := by
  cases h with
  | still scopes items =>
    refine ⟨fun key scope hs _ => by rw [scopes]; exact hs,
      fun key scope hs hc => ⟨scope, by rw [scopes]; exact hs, hc⟩,
      fun key k item hi _ => by rw [items]; exact hi⟩
  | created key scope fresh queued scopes items =>
    have hold : ∀ k old, db.scopes k = some old → t.scopes k = some old := by
      intro k old hk
      have hne : k ≠ key := fun heq => by rw [heq, fresh] at hk; cases hk
      rw [scopes, Function.update_of_ne hne]
      exact hk
    exact ⟨fun k old hk _ => hold k old hk, fun k old hk hc => ⟨old, hold k old hk, hc⟩,
      fun k i item hi _ => by rw [items]; exact hi⟩
  | moved key a b found move scopes items =>
    refine ⟨fun k scope hk hsealed => ?_, fun k scope hk hcancelled => ?_,
      fun k i item hi _ => by rw [items]; exact hi⟩
    · have hne : k ≠ key := by
        rintro rfl
        rw [found] at hk
        obtain rfl := Option.some.inj hk
        exact move.not_sealed hsealed
      rw [scopes, Function.update_of_ne hne]
      exact hk
    · by_cases heq : k = key
      · subst heq
        rw [found] at hk
        obtain rfl := Option.some.inj hk
        refine ⟨b, ?_, move.keeps_cancelled hcancelled⟩
        rw [scopes, Function.update_self]
      · refine ⟨scope, ?_, hcancelled⟩
        rw [scopes, Function.update_of_ne heq]
        exact hk
  | recorded key a generation found running current live scopes items terminal =>
    refine ⟨fun k scope hk _ => by rw [scopes]; exact hk,
      fun k scope hk hc => ⟨scope, by rw [scopes]; exact hk, hc⟩, fun k i item hi hterminal => ?_⟩
    by_cases heq : k = key
    · subst heq
      exact terminal i item hi hterminal
    · rw [items k heq]
      exact hi

/-- A claim adds one to the generation of its scope; nothing else changes a generation. -/
theorem stepped_generation (h : Stepped db t act) {key : ScopeKey} {a : Scope}
    (ha : db.scopes key = some a) : ∃ b, t.scopes key = some b ∧
      b.generation = a.generation + if act.claims = some key then 1 else 0 := by
  cases h with
  | still scopes items free =>
    refine ⟨a, by rw [scopes]; exact ha, ?_⟩
    rw [free, if_neg (by simp), Nat.add_zero]
  | created k scope fresh queued scopes items free =>
    have hne : key ≠ k := fun heq => by rw [heq, fresh] at ha; cases ha
    refine ⟨a, ?_, ?_⟩
    · rw [scopes, Function.update_of_ne hne]
      exact ha
    · rw [free, if_neg (by simp), Nat.add_zero]
  | moved k a' b found move scopes items claims keeps =>
    by_cases heq : key = k
    · subst heq
      rw [found] at ha
      obtain rfl := Option.some.inj ha
      refine ⟨b, by rw [scopes, Function.update_self], ?_⟩
      cases hclaims : act.claims with
      | none => rw [keeps hclaims, if_neg (by simp), Nat.add_zero]
      | some k' =>
        obtain ⟨rfl, hgeneration⟩ := claims k' hclaims
        rw [hgeneration, if_pos rfl]
    · refine ⟨a, ?_, ?_⟩
      · rw [scopes, Function.update_of_ne heq]
        exact ha
      · have hother : act.claims ≠ some key := fun hclaims => heq (claims key hclaims).1
        rw [if_neg hother, Nat.add_zero]
  | recorded k a' generation found running current live scopes items terminal free =>
    refine ⟨a, by rw [scopes]; exact ha, ?_⟩
    rw [free, if_neg (by simp), Nat.add_zero]

/-- A write goes through only under the current generation of a running scope, on a live lease. -/
theorem stepped_writes (h : Stepped db t act) {key : ScopeKey}
    (hwrites : act.writes = some (key, generation)) : ∃ a, db.scopes key = some a ∧
      a.status = .RUNNING ∧ a.generation = generation ∧
      leaseLive a.leaseUntil db.clock = true := by
  cases h with
  | still _ _ _ idle => rw [idle] at hwrites; cases hwrites
  | created _ _ _ _ _ _ _ idle => rw [idle] at hwrites; cases hwrites
  | moved k a b found _ _ _ _ _ writes =>
    obtain ⟨rfl, hguard⟩ := writes key generation hwrites
    exact ⟨a, found, hguard⟩
  | recorded k a generation' found running current live _ _ _ _ writes =>
    rw [writes] at hwrites
    obtain ⟨rfl, rfl⟩ := Prod.mk.inj (Option.some.inj hwrites)
    exact ⟨a, found, running, current, live⟩

end Laws

section Reached

variable {sha256 : String → String} {db t : Database} {acts : List Act}

theorem empty_closed (clock : Nat) (owners : ScopeKey → Option Request) :
    Closed (emptyDatabase clock owners) :=
  ⟨fun _ _ h => (by cases h), fun _ _ h => (by cases h)⟩

theorem run_closed (h : Machine.run (step sha256) db acts = some t) (hclosed : Closed db) :
    Closed t :=
  Machine.run_keeps (fun _ _ _ hs ht => stepped_closed hs (step_stepped ht)) h hclosed

theorem run_lasts (h : Machine.run (step sha256) db acts = some t) : Lasts db t :=
  Machine.run_keeps (fun _ _ _ hs ht => Lasts.trans hs (stepped_lasts (step_stepped ht))) h
    (Lasts.refl db)

/-- The lifecycle of scopes, along every run from a database with no scopes: ready and sealed scopes
have no open item; what is sealed, cancelled or terminal stays so from there on; every step leaves
the generations but for a claim, which adds one; and a worker writes only under the current
generation of a running scope, while its lease lives. -/
theorem scope_lifecycle (sha256 : String → String) (clock : Nat)
    (owners : ScopeKey → Option Request) (acts : List Act) (db : Database)
    (h : Machine.run (step sha256) (emptyDatabase clock owners) acts = some db) :
    Closed db ∧
    (∀ more t, Machine.run (step sha256) db more = some t → Lasts db t) ∧
    (∀ act t, step sha256 db act = some t →
      (∀ key a, db.scopes key = some a → ∃ b, t.scopes key = some b ∧
        b.generation = a.generation + if act.claims = some key then 1 else 0) ∧
      ∀ key generation, act.writes = some (key, generation) → ∃ a, db.scopes key = some a ∧
        a.status = .RUNNING ∧ a.generation = generation ∧
        leaseLive a.leaseUntil db.clock = true) := by
  refine ⟨run_closed h (empty_closed clock owners), fun more t ht => run_lasts ht, ?_⟩
  intro act t ht
  have hstepped := step_stepped ht
  exact ⟨fun key a ha => stepped_generation hstepped ha,
    fun key generation hw => stepped_writes hstepped hw⟩

end Reached

/-! ## A run -/

def member : Caller :=
  { identified := true, access := .ok (some { restoreReady := true, backupBarrier := false }) }

def ordersScope : ScopeKey := { workspaceId := "shop", runId := "run-1", scopeId := "orders" }

def ordersVersion : String := String.ofList (List.replicate 64 'a')

def noRequest : Credentials := { requestId := none, requestGeneration := none }

def ordersItem (status : ItemStatus) : ScopeItem :=
  { materialId := "material", capabilityId := "capability", status, recordIds := ["r2", "r1", "r2"]
    gapIds := [], diagnostic := .null }

/-- A worker loses its lease, another one finishes the scope, and the scope is sealed. -/
def ordersRun : List Act :=
  [.createScope ordersScope false, .claimScope member ordersScope "first" 1000 noRequest,
    .recordScopeItems member ordersScope 1 [ordersItem .PENDING], .advance 1000,
    .claimScope member ordersScope "second" 1000 noRequest,
    .recordScopeItems member ordersScope 2 [ordersItem .DONE], .readyToSeal member ordersScope 2,
    .sealScope member ordersScope 4 "operation" ordersVersion]

theorem orders_are_sealed :
    ∃ db, Machine.run (step id) (emptyDatabase 0 fun _ => none) ordersRun = some db ∧
      (db.scopes ordersScope).map (fun scope => (scope.status, scope.generation)) =
        some (.SEALED, 2) ∧
      Closed db ∧ (∀ more t, Machine.run (step id) db more = some t → Lasts db t) := by
  have hrun : (Machine.run (step id) (emptyDatabase 0 fun _ => none) ordersRun).map
      (fun db => (db.scopes ordersScope).map fun scope => (scope.status, scope.generation)) =
        some (some (.SEALED, 2)) := by decide +kernel
  obtain ⟨db, hdb, hstatus⟩ := Option.map_eq_some_iff.mp hrun
  have hlaws := scope_lifecycle id 0 (fun _ => none) ordersRun db hdb
  exact ⟨db, hdb, hstatus, hlaws.1, hlaws.2.1⟩

end Traqen.ScopeLifecycle
