-- Spaces and roles (`auth/spaces.js`, `updateAccount` of `auth/accounts.js`, `migrate` of
-- `auth/operations.js`): who may give which role to whom. Every operation is one transaction under
-- the lock of `auth_control`, at one moment of the clock; a random identifier is an argument.
-- Notifications, the audit trail and `approvers`, which only says whom to notify, are left out.
import Traqen.Model
import Traqen.Lib.CodeUnits
import Traqen.Lib.Machine
import Traqen.Lib.OrderedMap

open Js

namespace Traqen.SpaceRoles

open OrderedMap (get?)

/-! ## Errors -/

structure AuthError where
  status : Nat
  code : String
  message : String
  /-- `workspaceId` and `discoverable`. -/
  details : Option (String × Bool)
  deriving Repr, DecidableEq

def demand (condition : Prop) [Decidable condition] (code message : String) (status : Nat) :
    Except AuthError Unit :=
  if condition then .ok () else .error { status, code, message, details := none }

/-- A value that has to be there. -/
def demandSome {α : Type} (value : Option α) (code message : String) (status : Nat) :
    Except AuthError α :=
  match value with
  | some v => .ok v
  | none => .error { status, code, message, details := none }

/-! ## Records -/

inductive AccountKind where
  | HUMAN | PROGRAM
  deriving Repr, DecidableEq

inductive AccountStatus where
  | ACTIVE | PENDING | DISABLED
  deriving Repr, DecidableEq

structure Account where
  kind : AccountKind
  status : AccountStatus
  admin : Bool
  globalConfig : Bool
  recoveryAdmin : Bool
  displayName : String
  /-- Whether it has a password. -/
  password : Bool
  deriving Repr, DecidableEq

structure Session where
  accountId : String
  phase : String
  lastActivity : Int
  verifiedAt : Int
  expiresAt : Int
  idleMs : Int
  epoch : Nat
  revoked : Bool
  deriving Repr, DecidableEq

inductive Source where
  | DIRECT | APPLICATION | ADMIN | MIGRATION
  deriving Repr, DecidableEq

/-- The last part of a grant key. -/
inductive KeySource where
  | of (source : Source)
  | OWNER
  deriving Repr, DecidableEq

/-- `grantKey(workspaceId, accountId, source)`. The record under the key has the same workspace
and the same account. -/
structure GrantKey where
  workspaceId : String
  accountId : String
  source : KeySource
  deriving Repr, DecidableEq

structure Grant where
  roles : List String
  source : Source
  grantedBy : String
  version : Nat
  deriving Repr, DecidableEq

inductive SpaceStatus where
  | ACTIVE | DELETION_REQUESTED | DELETED
  deriving Repr, DecidableEq

structure Space where
  tenantId : String
  name : String
  ownerId : String
  visibility : String
  status : SpaceStatus
  pendingOwner : Option String
  entryDigest : Option String
  deriving Repr, DecidableEq

inductive ApplicationKind where
  | CREATE | JOIN
  deriving Repr, DecidableEq

inductive ApplicationStatus where
  | PENDING | APPROVED | REJECTED | WITHDRAWN
  deriving Repr, DecidableEq

structure Application where
  accountId : String
  kind : ApplicationKind
  workspaceId : Option String
  name : Option String
  reason : String
  requestedRoles : List String
  operationId : String
  status : ApplicationStatus
  version : Nat
  actualRoles : List String
  decisionReason : String
  decidedBy : Option String
  deriving Repr, DecidableEq

structure Control where
  initialized : Bool
  recovery : Bool
  epoch : Nat
  deriving Repr, DecidableEq

structure Binding where
  accountId : String
  tenantId : String
  deriving Repr, DecidableEq

/-- A row of the table `project`. -/
structure Project where
  tenantId : String
  name : String
  status : String
  deriving Repr, DecidableEq

structure State where
  control : Control
  accounts : List (String × Account)
  sessions : List (String × Session)
  grants : List (GrantKey × Grant)
  spaces : List (String × Space)
  applications : List (String × Application)
  bindings : List (String × Binding)
  projects : List (String × Project)
  /-- The tenant of each row of the table `principal`. -/
  principals : List (String × String)
  deriving Repr, DecidableEq

def initial : State :=
  { control := { initialized := false, recovery := false, epoch := 0 }
    accounts := [], sessions := [], grants := [], spaces := [], applications := []
    bindings := [], projects := [], principals := [] }

def State.account? (s : State) (id : String) : Option Account := get? s.accounts id

def State.space? (s : State) (id : String) : Option Space := get? s.spaces id

/-- `s.accounts[id]?.status === "ACTIVE"`. -/
def State.isActive (s : State) (id : String) : Bool :=
  (s.account? id).any fun account => account.status = .ACTIVE

/-! ## Roles -/

/-- Whether the grant is one of the account in the workspace. -/
def GrantKey.isOf (key : GrantKey) (accountId workspaceId : String) : Bool :=
  key.accountId = accountId && key.workspaceId = workspaceId

/-- The roles of every grant of the account in the workspace, in effect or not. -/
def storedRoles (s : State) (accountId workspaceId : String) : List String :=
  (s.grants.filter fun e => e.1.isOf accountId workspaceId).flatMap (·.2.roles)

def rolesIn (s : State) (accountId workspaceId : String) : List String :=
  match s.account? accountId with
  | none => []
  | some account =>
    if account.status = .ACTIVE then
      ((s.grants.filter fun e => e.1.isOf accountId workspaceId &&
        (e.2.source ≠ .ADMIN || account.admin)).flatMap (·.2.roles)).eraseDups
    else []

structure Policy where
  businessRoles : List String
  complianceRoles : List String
  reviewRoles : List String
  deriving Repr, DecidableEq

/-- Whether a business role meets a compliance role. -/
def clash (policy : Policy) (roles : List String) : Bool :=
  (roles.any fun r => r ∈ policy.businessRoles) && roles.any fun r => r ∈ policy.complianceRoles

/-- The roles that may be given. -/
def permitted (policy : Policy) : List String :=
  ["READ", "MAINTAIN", "PERMISSION_ADMIN"] ++ policy.reviewRoles

def roleSet (policy : Policy) (roles : List String) : Except AuthError (List String) := do
  demand (∀ r ∈ roles, r ∈ permitted policy)
    "AUTH_INVALID_ROLE" "角色无效" 400
  let set := roles.eraseDups
  demand (clash policy set = false) "AUTH_ROLE_CONFLICT" "业务组与合规组角色不能兼任" 409
  return set

/-! ## Sessions and access -/

structure Actor where
  id : String
  account : Account

/-- `sessionIn(s, raw, now, { recent, admin })`. -/
def sessionIn (digest : String → String) (s : State) (raw : String) (now : Int)
    (recent admin : Bool) : Except AuthError Actor := do
  demand (s.control.initialized = true) "AUTH_NOT_INITIALIZED" "请在部署终端完成初始化" 503
  let session ← demandSome (get? s.sessions (digest raw)) "AUTH_REQUIRED" "请先登录" 401
  demand (session.revoked = false ∧ session.epoch = s.control.epoch)
    "AUTH_SESSION_REVOKED" "会话已撤销，请重新登录" 401
  let account ← demandSome
    ((s.account? session.accountId).filter fun account => account.status = .ACTIVE)
    "AUTH_ACCOUNT_DISABLED" "账号已停用，请联系系统管理员" 401
  demand (now < session.expiresAt ∧ now - session.lastActivity < session.idleMs)
    "AUTH_SESSION_EXPIRED" "会话已过期，请重新登录" 401
  demand (s.control.recovery = false ∨ account.recoveryAdmin = true)
    "AUTH_RECOVERY_REQUIRED" "实例正在恢复检查，暂不开放登录" 503
  demand (session.phase = "AUTHENTICATED")
    "AUTH_SESSION_REVOKED" "请重新使用账号密码登录" 401
  demand (recent = true → session.phase = "AUTHENTICATED" ∧ now - session.verifiedAt ≤ 600000)
    "AUTH_REAUTH_REQUIRED" "请重新验证身份" 403
  demand (admin = true → account.admin = true ∧ session.phase = "AUTHENTICATED")
    "AUTH_ADMIN_REQUIRED" "需要系统管理员资格" 403
  return { id := session.accountId, account }

structure Access where
  space : Space
  roles : List String
  manager : Bool
  owner : Bool
  admin : Bool

def allowedTo (roles : List String) (admin : Bool) : String → Bool
  | "MANAGE" => "OWNER" ∈ roles || "PERMISSION_ADMIN" ∈ roles || admin
  | "OWNER" => "OWNER" ∈ roles || admin
  | "MAINTAIN" => roles.any fun r => r ∈ ["OWNER", "MAINTAIN"]
  | "READ" => roles.any fun r => r ∈ ["OWNER", "MAINTAIN", "READ"]
  | operation => operation ∈ roles

/-- `spaceAccess(s, actor, workspaceId, operation)` of a session, which is no program's. -/
def spaceAccess (s : State) (actor : Actor) (workspaceId operation : String) :
    Except AuthError Access := do
  let roles := rolesIn s actor.id workspaceId
  let admin := actor.account.admin
  let space ← demandSome ((s.space? workspaceId).filter fun space => space.status ≠ .DELETED)
    "AUTH_SPACE_UNAVAILABLE" "无法访问此空间" 404
  demand (space.visibility ≠ "SECRET" ∨ roles ≠ [] ∨ admin = true)
    "AUTH_SPACE_UNAVAILABLE" "无法访问此空间" 404
  if allowedTo roles admin operation = false then
    .error { status := 403, code := "AUTH_FORBIDDEN", message := "没有执行此操作的空间权限"
             details := some (workspaceId, space.visibility ≠ "SECRET") }
  demand (operation ∈ ["MANAGE", "OWNER"] ∨ space.status = .ACTIVE)
    "AUTH_SPACE_INACTIVE" "空间已暂停或删除" 409
  return { space, roles, manager := allowedTo roles admin "MANAGE", owner := "OWNER" ∈ roles, admin }

/-- `validText(value, max)`. -/
def validText (value : Option String) (max : Nat) : Except AuthError String := do
  let text ← demandSome value "AUTH_INVALID_INPUT" "请输入有效内容" 400
  demand (0 < (trim text).length ∧ (codeUnits text).length ≤ max)
    "AUTH_INVALID_INPUT" "请输入有效内容" 400
  return trim text

/-- `principal(s, tx, accountId, tenantId)`: the account has a principal of the tenant. -/
def principal (digest : String → String) (s : State) (accountId tenantId : String) : State :=
  if s.bindings.any fun b => b.2.accountId = accountId ∧ b.2.tenantId = tenantId then s
  else
    let id := "AUTH-" ++ accountId ++ "-" ++ String.ofList ((digest tenantId).toList.take 12)
    { s with
      principals := if s.principals.any fun p => p.1 = id then s.principals
        else s.principals ++ [(id, tenantId)]
      bindings := OrderedMap.set s.bindings id { accountId, tenantId } }

/-! ## Applications -/

structure ApplyInput where
  kind : String
  workspaceId : String
  name : Option String
  reason : Option String
  roles : List String
  operationId : Option String
  entry : Option String
  deriving Repr, DecidableEq

/-- `space?.status === "ACTIVE"`, and discoverable or entered by its entry. -/
def isOpen (digest : String → String) (input : ApplyInput) (space : Space) : Bool :=
  space.status = .ACTIVE && (space.visibility = "DISCOVERABLE" ||
    input.entry.any fun entry => entry ≠ "" && space.entryDigest = some (digest entry))

def applicationKind (kind : String) : Option ApplicationKind :=
  if kind = "CREATE" then some .CREATE else if kind = "JOIN" then some .JOIN else none

/-- What `apply` demands of each kind of application. -/
def checkApplication (digest : String → String) (policy : Policy) (s : State) (input : ApplyInput) :
    ApplicationKind → Except AuthError Unit
  | .CREATE =>
    demand (∀ e ∈ s.spaces, ¬ (e.2.tenantId = "TRAQEN-INSTANCE" ∧
      e.2.name = trim (input.name.getD "")))
      "AUTH_SPACE_NAME_EXISTS" "空间名称已被使用，请换一个名称" 409
  | .JOIN => do
    let _ ← demandSome ((s.space? input.workspaceId).filter (isOpen digest input))
      "AUTH_SPACE_UNAVAILABLE" "无法访问此空间" 404
    let _ ← roleSet policy input.roles
    demand (0 < input.roles.length) "AUTH_INVALID_ROLE" "请选择申请角色" 400

def ApplyInput.nameFor (input : ApplyInput) : ApplicationKind → Except AuthError (Option String)
  | .CREATE => some <$> validText input.name 160
  | .JOIN => .ok none

def ApplyInput.workspaceFor (input : ApplyInput) : ApplicationKind → Option String
  | .CREATE => none
  | .JOIN => some input.workspaceId

def ApplyInput.rolesFor (policy : Policy) (input : ApplyInput) :
    ApplicationKind → Except AuthError (List String)
  | .CREATE => .ok []
  | .JOIN => roleSet policy input.roles

/-- A pending application of the account for the same thing. -/
def isDuplicate (accountId : String) (kind : ApplicationKind) (input : ApplyInput)
    (a : Application) : Bool :=
  a.accountId = accountId && a.status = .PENDING && a.kind = kind &&
    match kind with
    | .CREATE => a.name = input.name
    | .JOIN => a.workspaceId = some input.workspaceId

/-- `apply(raw, input)`. -/
def SpaceService.apply (digest : String → String) (policy : Policy) (now : Int) (raw : String)
    (input : ApplyInput) (id : String) (s : State) : Except AuthError State := do
  let actor ← sessionIn digest s raw now false false
  let _ ← validText input.operationId 128
  if s.applications.any fun e => e.2.accountId = actor.id ∧ some e.2.operationId = input.operationId then
    return s
  let kind ← demandSome (applicationKind input.kind) "AUTH_INVALID_APPLICATION" "申请类型无效" 400
  checkApplication digest policy s input kind
  if s.applications.any fun e => isDuplicate actor.id kind input e.2 then
    return s
  let name ← input.nameFor kind
  let reason ← validText input.reason 2000
  let requestedRoles ← input.rolesFor policy kind
  let record : Application :=
    { accountId := actor.id, kind, workspaceId := input.workspaceFor kind, name, reason
      requestedRoles, operationId := input.operationId.getD "", status := .PENDING, version := 1
      actualRoles := [], decisionReason := "", decidedBy := none }
  return { s with applications := OrderedMap.set s.applications id record }

structure Decision where
  /-- None when it is no boolean. -/
  approve : Option Bool
  roles : Option (List String)
  reason : String
  version : Nat
  deriving Repr, DecidableEq

/-- What an approval gives: a new workspace or roles in one. -/
structure Approval where
  state : State
  workspaceId : String
  granted : List String
  source : Source

/-- The workspace of a `CREATE` application, under a new identifier. -/
def approveCreate (digest : String → String) (a : Application) (workspaceId : String) (s : State) :
    Except AuthError Approval := do
  let name := a.name.getD ""
  demand (∀ e ∈ s.projects, ¬ (e.2.tenantId = "TRAQEN-INSTANCE" ∧ e.2.name = name))
    "AUTH_SPACE_NAME_EXISTS" "空间名称已被使用，请撤回后使用其他名称重新申请" 409
  let project : Project := { tenantId := "TRAQEN-INSTANCE", name, status := "ACTIVE" }
  let space : Space :=
    { tenantId := "TRAQEN-INSTANCE", name, ownerId := a.accountId, visibility := "DISCOVERABLE"
      status := .ACTIVE, pendingOwner := none, entryDigest := none }
  let s := principal digest { s with projects := s.projects ++ [(workspaceId, project)] }
    a.accountId "TRAQEN-INSTANCE"
  return { state := { s with spaces := OrderedMap.set s.spaces workspaceId space }
           workspaceId, granted := ["OWNER"], source := .APPLICATION }

/-- `s.spaces[a.workspaceId]`, whose key is a text. -/
def Application.target (a : Application) : String := a.workspaceId.getD "null"

/-- Whether the roles were asked for, or less was asked for. -/
def withinRequest (requested granted : List String) : Bool :=
  granted.all fun r => r ∈ requested || (r = "READ" && "MAINTAIN" ∈ requested)

def isManagerRole (role : String) : Bool := role ∈ ["OWNER", "PERMISSION_ADMIN"]

def approveJoin (digest : String → String) (policy : Policy) (actor : Actor) (a : Application)
    (roles : Option (List String)) (s : State) : Except AuthError Approval := do
  let access ← spaceAccess s actor a.target "MANAGE"
  let source : Source :=
    if actor.id = a.accountId ∧ access.admin = true ∧ access.owner = false then .ADMIN
    else .APPLICATION
  demand (access.space.status = .ACTIVE) "AUTH_SPACE_INACTIVE" "空间已暂停，暂不能批准新权限" 409
  demand (¬ (actor.id = a.accountId ∧ access.owner = false ∧ access.admin = false))
    "AUTH_SELF_ESCALATION" "权限管理员不能处理自己的角色变更" 403
  let granted ← roleSet policy (roles.getD a.requestedRoles)
  demand (withinRequest a.requestedRoles granted = true)
    "AUTH_INVALID_ROLE" "审批只能授予申请角色或降级权限" 400
  demand (access.owner = false ∧ access.admin = false →
      "PERMISSION_ADMIN" ∉ granted ∧ (rolesIn s a.accountId a.target).any isManagerRole = false)
    "AUTH_SELF_ESCALATION" "管理者的角色变更需要 Owner 或系统管理员" 403
  let existing := (rolesIn s a.accountId a.target).filter fun r => r ≠ "OWNER"
  let _ ← roleSet policy (existing ++ granted)
  return { state := principal digest s a.accountId access.space.tenantId
           workspaceId := a.target, granted, source }

/-- `s.grants[key] = { roles: [..old.roles, ..granted], .. }`. -/
def addRoles (s : State) (workspaceId accountId : String) (source : Source)
    (granted : List String) (grantedBy : String) : State :=
  let key : GrantKey := { workspaceId, accountId, source := .of source }
  let old := get? s.grants key
  let grant : Grant :=
    { roles := (old.elim [] (·.roles) ++ granted).eraseDups, source, grantedBy
      version := old.elim 0 (·.version) + 1 }
  { s with grants := OrderedMap.set s.grants key grant }

/-- Who may decide the application. -/
def checkDecider (digest : String → String) (now : Int) (raw : String) (actor : Actor)
    (a : Application) (s : State) : Except AuthError Unit := do
  match a.kind with
  | .CREATE => let _ ← sessionIn digest s raw now false true
  | .JOIN => let _ ← spaceAccess s actor a.target "MANAGE"

/-- What the approval gives. -/
def approval (digest : String → String) (policy : Policy) (actor : Actor) (a : Application)
    (roles : Option (List String)) (workspaceId : String) (s : State) : Except AuthError Approval :=
  match a.kind with
  | .CREATE => approveCreate digest a workspaceId s
  | .JOIN => approveJoin digest policy actor a roles s

/-- `decide(raw, id, { approve, roles, reason, version })`. -/
def SpaceService.decide (digest : String → String) (policy : Policy) (now : Int) (raw id : String)
    (input : Decision) (workspaceId : String) (s : State) : Except AuthError State := do
  let actor ← sessionIn digest s raw now false false
  let a ← demandSome (get? s.applications id)
    "AUTH_APPLICATION_NOT_FOUND" "申请不存在" 404
  checkDecider digest now raw actor a s
  if a.status ≠ .PENDING then
    return s
  demand (a.version = input.version) "AUTH_APPLICATION_CHANGED" "申请版本已变化" 409
  demand (s.isActive a.accountId = true) "AUTH_ACCOUNT_DISABLED" "申请账号已停用" 409
  let approve ← demandSome input.approve "AUTH_INVALID_INPUT" "请选择审批结果" 400
  let decided (s : State) (status : ApplicationStatus) (target : Option String)
      (granted : List String) : State :=
    let record : Application :=
      { a with status, workspaceId := target, actualRoles := granted
               decisionReason := input.reason, decidedBy := some actor.id
               version := a.version + 1 }
    { s with applications := OrderedMap.set s.applications id record }
  if approve then
    let given ← approval digest policy actor a input.roles workspaceId s
    return decided (addRoles given.state given.workspaceId a.accountId given.source given.granted
      actor.id) .APPROVED (some given.workspaceId) given.granted
  else
    let _ ← validText (some input.reason) 2000
    return decided s .REJECTED a.workspaceId []

/-! ## Grants -/

/-- A grant that keeps only `OWNER`. -/
def Grant.retained (g : Grant) : Grant :=
  let retained := g.roles.filter fun r => r = "OWNER"
  if retained.length ≠ g.roles.length then { g with roles := retained, version := g.version + 1 }
  else g

/-- A new grant of the source withdraws this one: an `ADMIN` grant the `ADMIN` grants, any other
grant all of them. -/
def withdraws (workspaceId accountId : String) (source : Source) (e : GrantKey × Grant) : Bool :=
  e.1.isOf accountId workspaceId && (source ≠ .ADMIN || e.2.source = .ADMIN)

def withdrawRoles (s : State) (workspaceId accountId : String) (source : Source) : State :=
  { s with grants := s.grants.map fun e =>
      (e.1, if withdraws workspaceId accountId source e then e.2.retained else e.2) }

/-- `s.grants[key] = { roles: granted, .. }`. -/
def setRoles (s : State) (workspaceId accountId : String) (source : Source)
    (granted : List String) (grantedBy : String) : State :=
  let key : GrantKey := { workspaceId, accountId, source := .of source }
  let grant : Grant :=
    { roles := granted, source, grantedBy
      version := (get? s.grants key).elim 0 (·.version) + 1 }
  { s with grants := OrderedMap.set s.grants key grant }

/-- The source of a grant: a system admin who is no owner intervenes for itself. -/
def grantSource (actor : Actor) (access : Access) (accountId : String) (source : Source) : Source :=
  if actor.id = accountId ∧ access.admin = true ∧ access.owner = false then .ADMIN else source

/-- `grant(raw, workspaceId, { accountId, roles, source })`. -/
def SpaceService.grant (digest : String → String) (policy : Policy) (now : Int)
    (raw workspaceId accountId : String) (roles : List String) (source : Source) (s : State) :
    Except AuthError State := do
  let actor ← sessionIn digest s raw now false false
  let access ← spaceAccess s actor workspaceId "MANAGE"
  demand (source = .DIRECT ∨
      source = .ADMIN ∧ actor.account.admin = true ∧ actor.id = accountId)
    "AUTH_INVALID_INPUT" "授权来源由服务端确定" 400
  let source := grantSource actor access accountId source
  demand (s.isActive accountId = true) "AUTH_ACCOUNT_NOT_FOUND" "请选择有效账号" 404
  let granted ← roleSet policy roles
  let prior := rolesIn s accountId workspaceId
  demand (access.owner = false ∧ access.admin = false →
      accountId ≠ actor.id ∧ "PERMISSION_ADMIN" ∉ granted ∧ "PERMISSION_ADMIN" ∉ prior ∧
        "OWNER" ∉ prior)
    "AUTH_SELF_ESCALATION" "此角色变更需要 Owner 或系统管理员" 403
  let s := withdrawRoles s workspaceId accountId source
  let independent := (storedRoles s accountId workspaceId).filter fun r => r ≠ "OWNER"
  let _ ← roleSet policy (independent ++ granted)
  let s := principal digest s accountId access.space.tenantId
  return setRoles s workspaceId accountId source granted actor.id

/-- `intervene(raw, workspaceId, roles)`. -/
def SpaceService.intervene (digest : String → String) (policy : Policy) (now : Int) (raw workspaceId : String)
    (roles : List String) (s : State) : Except AuthError State := do
  let actor ← sessionIn digest s raw now false true
  SpaceService.grant digest policy now raw workspaceId actor.id roles .ADMIN s

/-! ## Owners -/

def Grant.ownerless (g : Grant) : Grant := { g with roles := g.roles.filter fun r => r ≠ "OWNER" }

/-- No account holds `OWNER` in the workspace. -/
def dropOwner (s : State) (workspaceId : String) : State :=
  { s with grants := s.grants.map fun e =>
      (e.1, if e.1.workspaceId = workspaceId then e.2.ownerless else e.2) }

/-- `s.grants[grantKey(workspaceId, accountId, "OWNER")] = { roles: ["OWNER"], .. }`. -/
def setOwner (s : State) (workspaceId accountId : String) (source : Source) (grantedBy : String)
    (version : Nat) : State :=
  let key : GrantKey := { workspaceId, accountId, source := .OWNER }
  { s with grants := OrderedMap.set s.grants key { roles := ["OWNER"], source, grantedBy, version } }

def setSpace (s : State) (workspaceId : String) (space : Space) : State :=
  { s with spaces := OrderedMap.set s.spaces workspaceId space }

/-- The version of the next grant under the key. -/
def nextVersion (s : State) (workspaceId accountId : String) : Nat :=
  (get? s.grants { workspaceId, accountId, source := .OWNER }).elim 0 (·.version) + 1

/-- `s.accounts[id]?.status === "ACTIVE" && s.accounts[id].kind !== "PROGRAM"`. -/
def State.isActivePerson (s : State) (id : String) : Bool :=
  (s.account? id).any fun account => account.status = .ACTIVE && account.kind ≠ .PROGRAM

/-- `transfer(raw, workspaceId, targetId, { confirm })`. -/
def SpaceService.transfer (digest : String → String) (now : Int) (raw workspaceId targetId : String)
    (confirm : Bool) (s : State) : Except AuthError State := do
  let actor ← sessionIn digest s raw now false false
  let space ← demandSome ((s.space? workspaceId).filter fun space => space.status = .ACTIVE)
    "AUTH_SPACE_UNAVAILABLE" "无法访问此空间" 404
  if confirm then
    demand (space.pendingOwner = some actor.id ∧ actor.account.status = .ACTIVE)
      "AUTH_FORBIDDEN" "需要接任者确认" 403
    let s := principal digest (dropOwner s workspaceId) actor.id space.tenantId
    let s := setSpace s workspaceId { space with ownerId := actor.id, pendingOwner := none }
    return setOwner s workspaceId actor.id .DIRECT actor.id (nextVersion s workspaceId actor.id)
  else
    let _ ← spaceAccess s actor workspaceId "OWNER"
    demand (s.isActivePerson targetId = true) "AUTH_INVALID_OWNER" "接任者必须为有效人员账号" 400
    return setSpace s workspaceId { space with pendingOwner := some targetId }

/-- `designateOwner(raw, workspaceId, targetId)`. -/
def SpaceService.designateOwner (digest : String → String) (now : Int) (raw workspaceId targetId : String)
    (s : State) : Except AuthError State := do
  let actor ← sessionIn digest s raw now true true
  let space ← demandSome ((s.space? workspaceId).filter fun _ => s.isActivePerson targetId)
    "AUTH_INVALID_OWNER" "空间或接任者无效" 400
  let s := dropOwner (principal digest s targetId space.tenantId) workspaceId
  let s := setSpace s workspaceId { space with ownerId := targetId, pendingOwner := none }
  return setOwner s workspaceId targetId .DIRECT actor.id 1

/-! ## Accounts -/

/-- A system admin that is active and a person, other than the account. -/
def otherAdmin (s : State) (id : String) : Bool :=
  s.accounts.any fun e => e.1 ≠ id && e.2.kind = .HUMAN && e.2.admin && e.2.status = .ACTIVE

/-- `protectLastAdmin(s, target, patch)`. -/
def protectLastAdmin (s : State) (id : String) (target : Account) (patch : List (String × Json)) :
    Except AuthError Unit :=
  demand (target.admin = true → target.status = .ACTIVE →
      (patch.lookup "status" = some (.str "DISABLED") ∨ patch.lookup "admin" = some (.bool false)) →
      otherAdmin s id = true)
    "AUTH_LAST_ADMIN" "不能停用或移除最后一位有效系统管理员" 409

/-- `revokeAccountSessions(s, accountId)`. -/
def revokeAccountSessions (s : State) (accountId : String) : State :=
  { s with sessions := s.sessions.map fun e =>
      if e.2.accountId = accountId then (e.1, { e.2 with revoked := true }) else e }

def accountStatus : Json → Option AccountStatus
  | .str "ACTIVE" => some .ACTIVE
  | .str "DISABLED" => some .DISABLED
  | _ => none

def isBool : Json → Bool
  | .bool _ => true
  | _ => false

def asBool : Json → Option Bool
  | .bool b => some b
  | _ => none

def asText : Json → Option String
  | .str text => some text
  | _ => none

def patchedName (target : Account) : Option Json → Except AuthError String
  | none => .ok target.displayName
  | some v => validText (asText v) 120

/-- `updateAccount(raw, id, patch)`. -/
def updateAccount (digest : String → String) (now : Int) (raw id : String)
    (patch : List (String × Json)) (s : State) : Except AuthError State := do
  let _ ← sessionIn digest s raw now true true
  let target ← demandSome ((s.account? id).filter fun account => account.kind = .HUMAN)
    "AUTH_ACCOUNT_NOT_FOUND" "人员账号不存在" 404
  demand (∀ e ∈ patch, e.1 ∈ ["status", "admin", "globalConfig", "displayName"])
    "AUTH_INVALID_INPUT" "不支持的账号字段" 400
  demand ((patch.lookup "status").all fun v => (accountStatus v).isSome && target.password)
    "AUTH_INVALID_INPUT" "账号状态无效" 400
  demand (∀ field ∈ ["admin", "globalConfig"], (patch.lookup field).all isBool = true)
    "AUTH_INVALID_INPUT" "资格值必须为布尔值" 400
  protectLastAdmin s id target patch
  let displayName ← patchedName target (patch.lookup "displayName")
  let account : Account :=
    { target with
      displayName
      admin := ((patch.lookup "admin").bind asBool).getD target.admin
      status := ((patch.lookup "status").bind accountStatus).getD target.status
      globalConfig := ((patch.lookup "globalConfig").bind asBool).getD target.globalConfig }
  let s := { s with accounts := OrderedMap.set s.accounts id account }
  if patch.lookup "status" = some (.str "DISABLED") ∨ patch.lookup "admin" ≠ none then
    return revokeAccountSessions s id
  else
    return s

/-! ## Migration -/

structure BindingRow where
  principalId : String
  accountId : String
  deriving Repr, DecidableEq

structure OwnerRow where
  workspaceId : String
  accountId : String
  visibility : Option String
  deriving Repr, DecidableEq

structure GrantRow where
  workspaceId : String
  accountId : String
  roles : List String
  deriving Repr, DecidableEq

structure MigrateInput where
  bindings : List BindingRow
  owners : List OwnerRow
  grants : List GrantRow
  confirmed : Bool
  requestedBy : String
  deriving Repr, DecidableEq

def migrateBinding (row : BindingRow) (s : State) : Except AuthError State := do
  let tenantId ← demandSome
    ((get? s.principals row.principalId).filter fun _ => (s.account? row.accountId).isSome)
    "AUTH_MAPPING_INVALID" "映射身份不存在" 400
  demand ((get? s.bindings row.principalId).all fun b => b.accountId = row.accountId)
    "AUTH_MAPPING_CONFLICT" "历史身份已绑定其他账号" 409
  let binding : Binding := { accountId := row.accountId, tenantId }
  return { s with bindings := OrderedMap.set s.bindings row.principalId binding }

def migrateOwner (digest : String → String) (requestedBy : String) (row : OwnerRow) (s : State) :
    Except AuthError State := do
  let p ← demandSome
    ((get? s.projects row.workspaceId).filter fun _ => s.isActivePerson row.accountId)
    "AUTH_MAPPING_INVALID" "每个空间需要有效 Owner" 400
  demand (s.space? row.workspaceId = none)
    "AUTH_MAPPING_CONFLICT" "空间已迁移，不能覆盖现行权限" 409
  let space : Space :=
    { tenantId := p.tenantId, name := p.name, ownerId := row.accountId
      visibility := row.visibility.getD "DISCOVERABLE"
      status := if p.status = "ACTIVE" then .ACTIVE else .DELETED
      pendingOwner := none, entryDigest := none }
  let s := principal digest (setSpace s row.workspaceId space) row.accountId p.tenantId
  return setOwner s row.workspaceId row.accountId .MIGRATION requestedBy 1

/-- `s.grants[grantKey(space.id, grant.accountId, "MIGRATION")] = { roles: grant.roles, .. }`. -/
def setMigrated (s : State) (row : GrantRow) (requestedBy : String) : State :=
  let key : GrantKey :=
    { workspaceId := row.workspaceId, accountId := row.accountId, source := .of .MIGRATION }
  let grant : Grant :=
    { roles := row.roles, source := .MIGRATION, grantedBy := requestedBy, version := 1 }
  { s with grants := OrderedMap.set s.grants key grant }

def migrateGrant (digest : String → String) (policy : Policy) (requestedBy : String)
    (row : GrantRow) (s : State) : Except AuthError State := do
  let space ← demandSome
    ((s.space? row.workspaceId).filter fun _ => (s.account? row.accountId).isSome)
    "AUTH_MAPPING_INVALID" "授权映射无效" 400
  let _ ← roleSet policy row.roles
  let held := (rolesIn s row.accountId row.workspaceId).filter fun r => r ≠ "OWNER"
  let _ ← roleSet policy (held ++ row.roles)
  return setMigrated (principal digest s row.accountId space.tenantId) row requestedBy

/-- A loop over the rows. -/
def eachRow {α : Type} (f : α → State → Except AuthError State) :
    List α → State → Except AuthError State
  | [], s => .ok s
  | row :: rows, s => f row s >>= eachRow f rows

/-- `migrate({ bindings, owners, grants, confirmed, requestedBy })`. -/
def migrate (digest : String → String) (policy : Policy) (input : MigrateInput) (s : State) :
    Except AuthError State := do
  demand (input.confirmed = true)
    "AUTH_MIGRATION_CONFIRMATION_REQUIRED" "需要明确确认的身份、Owner 与授权映射" 400
  demand (s.control.initialized = true) "AUTH_NOT_INITIALIZED" "先初始化可信管理员" 409
  let s ← eachRow migrateBinding input.bindings s
  let s ← eachRow (migrateOwner digest input.requestedBy) input.owners s
  let s ← eachRow (migrateGrant digest policy input.requestedBy) input.grants s
  let control : Control := { s.control with epoch := s.control.epoch + 1 }
  return { s with control }

/-! ## The machine -/

/-- What the rest of the instance writes: accounts that are set up, signed in or recovered, the
projects and principals of other services, and the settings of a space. -/
inductive Elsewhere where
  | control (control : Control)
  | account (id : String) (account : Account)
  | session (id : String) (session : Session)
  | project (id : String) (project : Project)
  | principal (id tenantId : String)
  | space (id visibility : String) (status : SpaceStatus) (entryDigest : Option String)

def changeSpace (s : State) (id visibility : String) (status : SpaceStatus)
    (entryDigest : Option String) : State :=
  match s.space? id with
  | none => s
  | some space => setSpace s id { space with visibility, status, entryDigest }

def Elsewhere.apply (s : State) : Elsewhere → State
  | .control c => { s with control := c }
  | .account id a => { s with accounts := OrderedMap.set s.accounts id a }
  | .session id v => { s with sessions := OrderedMap.set s.sessions id v }
  | .project id p => { s with projects := OrderedMap.set s.projects id p }
  | .principal id tenantId => { s with principals := OrderedMap.set s.principals id tenantId }
  | .space id visibility status entryDigest => changeSpace s id visibility status entryDigest

inductive Act where
  | elsewhere (change : Elsewhere)
  | apply (now : Int) (raw : String) (input : ApplyInput) (id : String)
  | decide (now : Int) (raw id : String) (input : Decision) (workspaceId : String)
  | grant (now : Int) (raw workspaceId accountId : String) (roles : List String) (source : Source)
  | intervene (now : Int) (raw workspaceId : String) (roles : List String)
  | transfer (now : Int) (raw workspaceId targetId : String) (confirm : Bool)
  | designateOwner (now : Int) (raw workspaceId targetId : String)
  | updateAccount (now : Int) (raw id : String) (patch : List (String × Json))
  | migrate (input : MigrateInput)

/-- The token of the session that calls. -/
def Act.raw : Act → Option String
  | .apply _ raw _ _ => some raw
  | .decide _ raw _ _ _ => some raw
  | .grant _ raw _ _ _ _ => some raw
  | .intervene _ raw _ _ => some raw
  | .transfer _ raw _ _ _ => some raw
  | .designateOwner _ raw _ _ => some raw
  | .updateAccount _ raw _ _ => some raw
  | .elsewhere _ | .migrate _ => none

/-- The account whose session calls. -/
def caller (digest : String → String) (s : State) (act : Act) : Option String :=
  act.raw.bind fun raw => (get? s.sessions (digest raw)).map (·.accountId)

/-- A random identifier names no space and no project yet. -/
def isNewWorkspace (s : State) (workspaceId : String) : Bool :=
  (s.space? workspaceId).isNone && (get? s.projects workspaceId).isNone

/-- The state after an accepted operation. -/
def step (digest : String → String) (policy : Policy) (s : State) : Act → Option State
  | .elsewhere change => some (change.apply s)
  | .apply now raw input id =>
    if (get? s.applications id).isNone then
      (SpaceService.apply digest policy now raw input id s).toOption
    else none
  | .decide now raw id input workspaceId =>
    if isNewWorkspace s workspaceId then
      (SpaceService.decide digest policy now raw id input workspaceId s).toOption
    else none
  | .grant now raw workspaceId accountId roles source =>
    (SpaceService.grant digest policy now raw workspaceId accountId roles source s).toOption
  | .intervene now raw workspaceId roles =>
    (SpaceService.intervene digest policy now raw workspaceId roles s).toOption
  | .transfer now raw workspaceId targetId confirm =>
    (SpaceService.transfer digest now raw workspaceId targetId confirm s).toOption
  | .designateOwner now raw workspaceId targetId =>
    (SpaceService.designateOwner digest now raw workspaceId targetId s).toOption
  | .updateAccount now raw id patch => (updateAccount digest now raw id patch s).toOption
  | .migrate input => (migrate digest policy input s).toOption

end Traqen.SpaceRoles
