-- The budget ledger of evidence requests (`deterministic-facts/request-service.js`): an account for
-- each investigation baseline, a reservation for each request, and the transactions of a worker that
-- may crash between any two of them. The scope that a request derives is not part of the ledger.
import Mathlib.Algebra.BigOperators.Group.List.Basic
import Traqen.ScopeLifecycle

open Js

namespace Traqen.RequestBudget

open ScopeLifecycle (F002Error requireF002 RequestState leaseLive leaseOver canonicalDigest Caller
  withWorkspace isRequestId isOperationId require_bind withWorkspace_ok)

/-! ## Numbers -/

/-- The double nearest to a natural number; of two, the one with an even mantissa. -/
def roundNumber (n : Nat) : Nat :=
  if n < 2 ^ 53 then n
  else
    let unit := 2 ^ (Nat.log2 n - 52)
    let quotient := n / unit
    let rest := n % unit
    (if unit < 2 * rest ∨ (2 * rest = unit ∧ quotient % 2 = 1) then quotient + 1 else quotient) *
      unit

def addNumbers (m n : Nat) : Nat := roundNumber (m + n)

/-! ## Rows -/

inductive Resource where
  | materials | bytes | ruleApplications | attempts
  deriving Repr, DecidableEq

def resources : List Resource := [.materials, .bytes, .ruleApplications, .attempts]

abbrev Amounts := Resource → Nat

/-- The budget of a binding: `maxMaterials`, `maxBytes`, `maxRuleApplications`, `maximumAttempts` and
the ISO text of the deadline. -/
structure Budget where
  max : Amounts
  deadline : String

def budgetFields (b : Budget) : List (String × Json) :=
  [("maxMaterials", .num (Number.ofNat (b.max .materials))),
    ("maxBytes", .num (Number.ofNat (b.max .bytes))),
    ("maxRuleApplications", .num (Number.ofNat (b.max .ruleApplications))),
    ("maximumAttempts", .num (Number.ofNat (b.max .attempts))), ("deadline", .str b.deadline)]

def budgetJson (b : Budget) : Json := .obj (budgetFields b)

inductive ReservationStatus where
  | RESERVED | SETTLED | RELEASED
  deriving Repr, DecidableEq

structure AccountKey where
  workspaceId : String
  investigationId : String
  bindingDigest : String
  deriving Repr, DecidableEq

structure Account where
  budget : Budget
  reserved : Amounts
  settled : Amounts

structure Reservation where
  requestId : String
  account : AccountKey
  usage : Amounts
  status : ReservationStatus

inductive Outcome where
  | EXISTING_EVIDENCE | NEW_VERSION | LIMITATION | REJECTED
  deriving Repr, DecidableEq

structure RequestRow where
  workspaceId : String
  investigationId : String
  baseVersionId : String
  state : RequestState
  generation : Nat
  revision : Nat
  workerId : Option String
  leaseUntil : Option Nat
  outcome : Option Outcome
  result : Json
  diagnostic : Json
  cancelOperationId : Option String

def RequestRow.terminal (row : RequestRow) : Prop :=
  row.state = .COMPLETED ∨ row.state = .FAILED ∨ row.state = .CANCELLED

structure Ledger where
  clock : Nat
  requests : String → Option RequestRow
  accounts : AccountKey → Option Account
  reservations : List Reservation

variable {row : RequestRow} {key : AccountKey}

namespace Ledger

def setRequest (l : Ledger) (id : String) (row : RequestRow) : Ledger :=
  { l with requests := Function.update l.requests id (some row) }

def setAccount (l : Ledger) (key : AccountKey) (account : Account) : Ledger :=
  { l with accounts := Function.update l.accounts key (some account) }

/-- `#reservation`: the row of a request. -/
def reservation (l : Ledger) (id : String) : Option Reservation :=
  l.reservations.find? fun r => r.requestId = id

/-- `UPDATE f002_request_budget_reservation SET status=… WHERE request_id=…`. -/
def setStatus (l : Ledger) (id : String) (status : ReservationStatus) : Ledger :=
  { l with reservations := l.reservations.map fun r =>
      if r.requestId = id then { r with status } else r }

theorem setRequest_self (l : Ledger) (id : String) (row : RequestRow) :
    (l.setRequest id row).requests id = some row :=
  Function.update_self _ _ _

theorem setRequest_of_ne (l : Ledger) {id other : String} (row : RequestRow) (h : other ≠ id) :
    (l.setRequest id row).requests other = l.requests other :=
  Function.update_of_ne h _ _

theorem eq_of_setRequest {l : Ledger} {id : String} {found : RequestRow}
    (h : (l.setRequest id row).requests id = some found) : found = row :=
  (Option.some.inj ((l.setRequest_self id row).symm.trans h)).symm

theorem setAccount_self (l : Ledger) (key : AccountKey) (account : Account) :
    (l.setAccount key account).accounts key = some account :=
  Function.update_self _ _ _

theorem setAccount_of_ne (l : Ledger) {other : AccountKey} (account : Account)
    (h : other ≠ key) : (l.setAccount key account).accounts other = l.accounts other :=
  Function.update_of_ne h _ _

/-- `UPDATE f002_request_budget_account SET … WHERE …`, of no row where there is no account. -/
def updateAccount (l : Ledger) (key : AccountKey) (change : Account → Account) : Ledger :=
  match l.accounts key with
  | some account => l.setAccount key (change account)
  | none => l

end Ledger

/-! ## The account of a request -/

def budgetExceeded (account : Account) (usage : Amounts) (budget : Budget) : Bool :=
  resources.any fun x => decide (budget.max x <
    addNumbers (addNumbers (roundNumber (account.reserved x)) (roundNumber (account.settled x)))
      (usage x))

section Operations

variable (sha256 : String → String) (dateParse : String → Option Int) (l : Ledger)

def budgetAccountDigest (row : RequestRow) : String :=
  canonicalDigest sha256 "INVESTIGATION_BUDGET_ACCOUNT" (.obj
    [("workspaceId", .str row.workspaceId), ("investigationId", .str row.investigationId),
      ("baseVersionId", .str row.baseVersionId)])

def accountKey (row : RequestRow) : AccountKey :=
  { workspaceId := row.workspaceId, investigationId := row.investigationId
    bindingDigest := budgetAccountDigest sha256 row }

/-- The row of the account, which is made with this budget if it is not there. -/
def openAccount (key : AccountKey) (budget : Budget) : Account × Ledger :=
  match l.accounts key with
  | some account => (account, l)
  | none =>
    let account : Account := { budget, reserved := fun _ => 0, settled := fun _ => 0 }
    (account, l.setAccount key account)

def exhausted : String := "F002_REQUEST_BUDGET_EXHAUSTED"

def deadlineExceeded : String := "F002_REQUEST_BUDGET_DEADLINE_EXCEEDED"

/-- `Date.parse(deadline) <= Date.now()`. -/
def deadlinePassed (budget : Budget) (now : Int) : Bool :=
  (dateParse budget.deadline).any fun deadline => deadline ≤ now

/-- `#reserve`: the ledger, and the code of the refusal when nothing is reserved. -/
def reserveBudget (id : String) (row : RequestRow) (budget : Budget) (usage : Amounts) (now : Int) :
    Except F002Error (Option String × Ledger) := do
  if deadlinePassed dateParse budget now = true then return (some deadlineExceeded, l)
  else
    let key := accountKey sha256 row
    let (account, l) := openAccount l key budget
    requireF002 (canonicalDigest sha256 "REQUEST_BUDGET" (budgetJson account.budget) =
        canonicalDigest sha256 "REQUEST_BUDGET" (budgetJson budget))
      "F002_CONSUMER_REJECTED" "调查预算身份已绑定不同内容" 403
    match l.reservation id with
    | some existing => return (if existing.status ≠ .RELEASED then none else some exhausted, l)
    | none =>
      if budgetExceeded account usage budget = true then return (some exhausted, l)
      else
        let l := l.setAccount key
          { account with reserved := fun x => account.reserved x + usage x }
        return (none, { l with reservations := l.reservations ++
          [{ requestId := id, account := key, usage, status := .RESERVED }] })

/-- `#settle`. -/
def settle (id : String) (row : RequestRow) : Except F002Error Ledger :=
  match l.reservation id with
  | some held =>
    if held.status = .RESERVED ∧ held.account.bindingDigest = budgetAccountDigest sha256 row then
      .ok ((l.updateAccount (accountKey sha256 row) fun account => { account with
        reserved := fun x => account.reserved x - held.usage x
        settled := fun x => account.settled x + held.usage x }).setStatus id .SETTLED)
    else
      .error { code := "F002_REQUEST_BUDGET_CONFLICT", message := "取证预算预留状态无效"
               status := 409 }
  | none =>
    .error { code := "F002_REQUEST_BUDGET_CONFLICT", message := "取证预算预留状态无效"
             status := 409 }

/-- `#release`. -/
def release (id : String) (row : RequestRow) : Ledger :=
  match l.reservation id with
  | some held =>
    if held.status = .RESERVED then
      (l.updateAccount (accountKey sha256 row) fun account => { account with
        reserved := fun x => account.reserved x - held.usage x }).setStatus id .RELEASED
    else l
  | none => l

/-! ## The transactions -/

def staleRequestWorker : F002Error :=
  { code := "F002_STALE_REQUEST_WORKER", message := "取证执行权或状态已变化", status := 409 }

/-- The first transaction of `execute`. -/
def claim (caller : Caller) (id workerId : String) (leaseMs : Int) : Except F002Error Ledger := do
  requireF002 (isRequestId id = true ∧ 0 < workerId.length ∧ 1000 ≤ leaseMs ∧ leaseMs ≤ 60000)
    "F002_REQUEST_EXECUTION_INVALID" "取证执行参数无效" 422
  withWorkspace caller do
    match l.requests id with
    | some row =>
      if row.state = .QUEUED ∨ (row.state = .RUNNING ∧ leaseOver row.leaseUntil l.clock = true) then
        return l.setRequest id { row with
          state := .RUNNING, generation := row.generation + 1, revision := row.revision + 1
          workerId := some workerId, leaseUntil := some (l.clock + leaseMs.toNat) }
      else .error { code := "F002_REQUEST_LEASE_BUSY", message := "取证请求已有有效执行者或不可执行"
                    status := 409 }
    | none => .error { code := "F002_REQUEST_LEASE_BUSY"
                       message := "取证请求已有有效执行者或不可执行", status := 409 }

/-- The row of a request that the worker of this generation holds. -/
def heldRow (id : String) (generation : Nat) : Except F002Error RequestRow :=
  match l.requests id with
  | some row =>
    if row.state = .RUNNING ∧ row.generation = generation ∧ leaseLive row.leaseUntil l.clock = true
    then .ok row else .error staleRequestWorker
  | none => .error staleRequestWorker

/-- The second transaction of `execute`: the reservation, or the request ends as a limitation. -/
def reserve (caller : Caller) (id : String) (generation : Nat) (budget : Budget) (usage : Amounts)
    (now : Int) : Except F002Error Ledger :=
  withWorkspace caller do
    let row ← heldRow l id generation
    let (refusal, l) ← reserveBudget sha256 dateParse l id row budget usage now
    match refusal with
    | none => return l
    | some code =>
      return l.setRequest id { row with
        state := .COMPLETED, revision := row.revision + 1, outcome := some .LIMITATION
        result := .obj [("code", .str code), ("baseVersionId", .str row.baseVersionId)]
        leaseUntil := none }

/-- The third transaction of `execute`: the result, and the reservation is settled. -/
def complete (caller : Caller) (id : String) (generation : Nat) (outcome : Outcome)
    (result : Json) : Except F002Error Ledger :=
  withWorkspace caller do
    let row ← heldRow l id generation
    settle sha256 (l.setRequest id { row with
      state := .COMPLETED, revision := row.revision + 1, outcome := some outcome, result
      leaseUntil := none }) id row

/-- The code that a failure is recorded under. -/
def failureCode (cause : Option F002Error) : String :=
  (cause.map F002Error.code).getD "F002_REQUEST_RUNTIME_FAILURE"

/-- The row of a request that failed for this cause. -/
def failedRow (row : RequestRow) (cause : Option F002Error) : RequestRow :=
  let code := failureCode cause
  let rejection := code = "F002_CONSUMER_REJECTED"
  let limitation := code = deadlineExceeded
  { row with
    state := if rejection ∨ limitation then .COMPLETED else .FAILED
    revision := row.revision + 1
    outcome := if rejection then some .REJECTED else if limitation then some .LIMITATION else none
    result := if rejection then .obj [("code", .str code)]
      else if limitation then
        .obj [("code", .str code), ("baseVersionId", .str row.baseVersionId)]
      else .null
    diagnostic := .obj [("code", .str code)]
    leaseUntil := none }

/-- The transaction after a failure of `execute`; none when there is no row to end, and the cause is
thrown again. The lease may be over by then. -/
def fail (caller : Caller) (id : String) (generation : Nat) (cause : Option F002Error) :
    Except F002Error (Option Ledger) :=
  withWorkspace caller do
    match l.requests id with
    | some row =>
      if row.state = .RUNNING ∧ row.generation = generation then
        let l := l.setRequest id (failedRow row cause)
        match l.reservation id with
        | some held =>
          if held.status = .RESERVED then
            let l ← settle sha256 l id row
            return some l
          else return some l
        | none => return some l
      else return none
    | none => return none

def cancel (caller : Caller) (id : String) (revision : Nat) (operationId : String) :
    Except F002Error Ledger := do
  requireF002 (isRequestId id = true) "F002_REQUEST_INVALID" "取证请求无效" 422
  requireF002 (isOperationId operationId = true) "F002_OPERATION_INVALID" "操作键格式无效" 422
  requireF002 (0 < revision) "F002_REQUEST_REVISION_CONFLICT" "缺少当前取证请求修订" 409
  withWorkspace caller do
    match l.requests id with
    | some row =>
      if row.state = .CANCELLED then
        requireF002 (row.cancelOperationId = some operationId) "F002_REQUEST_REVISION_CONFLICT"
          "取证请求已由其他取消操作终止" 409
        return l
      else
        requireF002 (¬ (row.state = .COMPLETED ∨ row.state = .FAILED) ∧ row.revision = revision)
          "F002_REQUEST_REVISION_CONFLICT" "取证请求修订或状态已变化" 409
        return release sha256 (l.setRequest id { row with
          state := .CANCELLED, revision := row.revision + 1, cancelOperationId := some operationId
          diagnostic := .obj [("code", .str "CANCELLED"), ("operationId", .str operationId)]
          leaseUntil := none }) id row
    | none => .error { code := "F002_REQUEST_NOT_FOUND", message := "取证请求不存在", status := 404 }

end Operations

/-! ## Runs -/

/-- What may happen: time passes, a request is accepted, or a transaction is made by any caller. The
clock of `Date.now()` is the worker's own. -/
inductive Act where
  | advance (elapsed : Nat)
  | submit (id workspaceId investigationId baseVersionId : String)
  | claim (caller : Caller) (id workerId : String) (leaseMs : Int)
  | reserve (caller : Caller) (id : String) (generation : Nat) (budget : Budget) (usage : Amounts)
      (now : Int)
  | complete (caller : Caller) (id : String) (generation : Nat) (outcome : Outcome) (result : Json)
  | fail (caller : Caller) (id : String) (generation : Nat) (cause : Option F002Error)
  | cancel (caller : Caller) (id : String) (revision : Nat) (operationId : String)

/-- A new row; the id of a request is new. -/
def submit (l : Ledger) (id workspaceId investigationId baseVersionId : String) : Option Ledger :=
  match l.requests id with
  | some _ => none
  | none => some (l.setRequest id
      { workspaceId, investigationId, baseVersionId, state := .QUEUED, generation := 0, revision := 1
        workerId := none, leaseUntil := none, outcome := none, result := .null, diagnostic := .null
        cancelOperationId := none })

section Steps

variable (sha256 : String → String) (dateParse : String → Option Int)

/-- A refused transaction leaves the rows as they are, so it is no step. -/
def step (l : Ledger) : Act → Option Ledger
  | .advance elapsed => some { l with clock := l.clock + elapsed }
  | .submit id workspaceId investigationId baseVersionId =>
    submit l id workspaceId investigationId baseVersionId
  | .claim caller id workerId leaseMs => (claim l caller id workerId leaseMs).toOption
  | .reserve caller id generation budget usage now =>
    (reserve sha256 dateParse l caller id generation budget usage now).toOption
  | .complete caller id generation outcome result =>
    (complete sha256 l caller id generation outcome result).toOption
  | .fail caller id generation cause => (fail sha256 l caller id generation cause).toOption.join
  | .cancel caller id revision operationId =>
    (cancel sha256 l caller id revision operationId).toOption

end Steps

def emptyLedger (clock : Nat) : Ledger :=
  { clock, requests := fun _ => none, accounts := fun _ => none, reservations := [] }

/-- The sum of one resource over the reservations of an account in one status. -/
def total (status : ReservationStatus) (key : AccountKey) (x : Resource)
    (reservations : List Reservation) : Nat :=
  (reservations.map fun r => if r.status = status ∧ r.account = key then r.usage x else 0).sum

/-- What the ledger is for. -/
structure Balanced (l : Ledger) : Prop where
  reserved : ∀ key account x, l.accounts key = some account →
    account.reserved x = total .RESERVED key x l.reservations
  settled : ∀ key account x, l.accounts key = some account →
    account.settled x = total .SETTLED key x l.reservations
  bounded : ∀ key account x, l.accounts key = some account →
    account.reserved x + account.settled x ≤ account.budget.max x
  one : (l.reservations.map (·.requestId)).Nodup
  ended : ∀ id row, l.requests id = some row → row.terminal →
    ∀ r ∈ l.reservations, r.requestId = id → r.status ≠ .RESERVED

/-- A reservation is asked for before the deadline or with nothing reserved yet, and against a budget
of safe integers. -/
def Timely (dateParse : String → Option Int) (l : Ledger) : Act → Prop
  | .reserve _ id _ budget _ now =>
    (∀ x, budget.max x < 2 ^ 53) ∧
      (deadlinePassed dateParse budget now = true →
        ∀ r ∈ l.reservations, r.requestId = id → r.status ≠ .RESERVED)
  | _ => True

/-! ## Rounding -/

theorem roundNumber_of_lt {n : Nat} (h : n < 2 ^ 53) : roundNumber n = n :=
  if_pos h

/-- From the first unsafe integer on, rounding stays there. -/
theorem le_roundNumber {n : Nat} (h : 2 ^ 53 ≤ n) : 2 ^ 53 ≤ roundNumber n := by
  have hlog : 53 ≤ Nat.log2 n := (Nat.le_log2 (by omega)).mpr h
  obtain ⟨k, hk⟩ : ∃ k, Nat.log2 n = 52 + (k + 1) := ⟨Nat.log2 n - 53, by omega⟩
  have hpow : 2 ^ (52 + (k + 1)) ≤ n := (Nat.le_log2 (by omega)).mp hk.ge
  have hunit : 2 ^ (Nat.log2 n - 52) = 2 ^ (k + 1) := by
    rw [hk]
    congr 1
    omega
  have hquotient : 2 ^ 52 ≤ n / 2 ^ (k + 1) := by
    rw [Nat.le_div_iff_mul_le (by positivity), ← pow_add]
    exact hpow
  have htwo : 2 ≤ 2 ^ (k + 1) := by
    rw [pow_succ]
    have hpositive : 0 < 2 ^ k := by positivity
    omega
  unfold roundNumber
  rw [if_neg (by omega)]
  dsimp only
  rw [hunit]
  have hgrown : 2 ^ 52 ≤
      if 2 ^ (k + 1) < 2 * (n % 2 ^ (k + 1)) ∨
          (2 * (n % 2 ^ (k + 1)) = 2 ^ (k + 1) ∧ n / 2 ^ (k + 1) % 2 = 1) then
        n / 2 ^ (k + 1) + 1 else n / 2 ^ (k + 1) := by
    split_ifs <;> omega
  calc 2 ^ 53 = 2 ^ 52 * 2 := by norm_num
    _ ≤ _ := Nat.mul_le_mul hgrown htwo

variable {account : Account} {budget : Budget} {usage : Amounts}

/-- What is not exceeded under a safe budget is within it. -/
theorem within_budget (hsafe : ∀ x, budget.max x < 2 ^ 53)
    (hbounded : ∀ x, account.reserved x + account.settled x ≤ budget.max x)
    (h : budgetExceeded account usage budget ≠ true) (x : Resource) :
    account.reserved x + account.settled x + usage x ≤ budget.max x := by
  have hx : x ∈ resources := by cases x <;> decide
  have hnot : ¬ budget.max x < addNumbers (addNumbers (roundNumber (account.reserved x))
      (roundNumber (account.settled x))) (usage x) := by
    intro hlt
    exact h (List.any_eq_true.mpr ⟨x, hx, decide_eq_true hlt⟩)
  have hmax := hsafe x
  have hsum := hbounded x
  rw [roundNumber_of_lt (n := account.reserved x) (by omega),
    roundNumber_of_lt (n := account.settled x) (by omega)] at hnot
  unfold addNumbers at hnot
  rw [roundNumber_of_lt (n := account.reserved x + account.settled x) (by omega)] at hnot
  by_cases hsmall : account.reserved x + account.settled x + usage x < 2 ^ 53
  · rw [roundNumber_of_lt hsmall] at hnot
    omega
  · have hlarge := le_roundNumber (Nat.le_of_not_lt hsmall)
    omega

/-! ## Sums over reservations -/

section Sums

variable {reservations : List Reservation} {held : Reservation}

/-- A sum over the reservations changes by the one whose status is set. -/
theorem sum_setStatus (status : ReservationStatus) (value : Reservation → Nat)
    (hone : (reservations.map (·.requestId)).Nodup) (hheld : held ∈ reservations) :
    ((reservations.map fun r => if r.requestId = held.requestId then { r with status } else r).map
      value).sum + value held =
      (reservations.map value).sum + value { held with status } := by
  induction reservations with
  | nil => cases hheld
  | cons r rest ih =>
    rw [List.map_cons, List.nodup_cons] at hone
    rw [List.map_cons, List.map_cons, List.sum_cons, List.map_cons, List.sum_cons]
    obtain rfl | hheld := List.mem_cons.mp hheld
    · have hrest : (rest.map fun r => if r.requestId = held.requestId then { r with status } else r) =
          rest := by
        conv_rhs => rw [← List.map_id rest]
        refine List.map_congr_left fun r hr => if_neg fun heq => hone.1 ?_
        exact heq ▸ List.mem_map_of_mem hr
      rw [hrest, if_pos rfl]
      omega
    · have hne : r.requestId ≠ held.requestId := fun heq =>
        hone.1 (heq ▸ List.mem_map_of_mem hheld)
      have hsum := ih hone.2 hheld
      rw [if_neg hne]
      omega

end Sums

/-! ## What every transaction keeps -/

/-- The ledger between its rows: the sums of the accounts, and where each reservation belongs. -/
structure Kept (sha256 : String → String) (l : Ledger) : Prop where
  reserved : ∀ key account x, l.accounts key = some account →
    account.reserved x = total .RESERVED key x l.reservations
  settled : ∀ key account x, l.accounts key = some account →
    account.settled x = total .SETTLED key x l.reservations
  bounded : ∀ key account x, l.accounts key = some account →
    account.reserved x + account.settled x ≤ account.budget.max x
  safe : ∀ key account x, l.accounts key = some account → account.budget.max x < 2 ^ 53
  one : (l.reservations.map (·.requestId)).Nodup
  known : ∀ r ∈ l.reservations, ∃ row, l.requests r.requestId = some row ∧
    r.account = accountKey sha256 row
  opened : ∀ r ∈ l.reservations, ∃ account, l.accounts r.account = some account

/-- What the ledger keeps of one account. -/
structure Sums (reservations : List Reservation) (key : AccountKey) (account : Account) : Prop where
  reserved : ∀ x, account.reserved x = total .RESERVED key x reservations
  settled : ∀ x, account.settled x = total .SETTLED key x reservations
  bounded : ∀ x, account.reserved x + account.settled x ≤ account.budget.max x
  safe : ∀ x, account.budget.max x < 2 ^ 53

/-- No request that has ended holds a reservation. -/
def Ended (l : Ledger) : Prop :=
  ∀ id row, l.requests id = some row → row.terminal →
    ∀ r ∈ l.reservations, r.requestId = id → r.status ≠ .RESERVED

theorem Kept.balanced {sha256 : String → String} {l : Ledger} (h : Kept sha256 l) (he : Ended l) :
    Balanced l :=
  ⟨h.reserved, h.settled, h.bounded, h.one, he⟩

section Laws

variable {sha256 : String → String} {dateParse : String → Option Int} {l t : Ledger} {id : String}

theorem Kept.sums (h : Kept sha256 l)
    (haccount : l.accounts key = some account) : Sums l.reservations key account :=
  ⟨fun x => h.reserved key account x haccount, fun x => h.settled key account x haccount,
    fun x => h.bounded key account x haccount, fun x => h.safe key account x haccount⟩

theorem kept_of_sums
    (hsums : ∀ key account, l.accounts key = some account → Sums l.reservations key account)
    (hone : (l.reservations.map (·.requestId)).Nodup)
    (hknown : ∀ r ∈ l.reservations, ∃ row, l.requests r.requestId = some row ∧
      r.account = accountKey sha256 row)
    (hopened : ∀ r ∈ l.reservations, ∃ account, l.accounts r.account = some account) :
    Kept sha256 l :=
  ⟨fun key account x h => (hsums key account h).reserved x,
    fun key account x h => (hsums key account h).settled x,
    fun key account x h => (hsums key account h).bounded x,
    fun key account x h => (hsums key account h).safe x, hone, hknown, hopened⟩

theorem reservation_some {held : Reservation} (h : l.reservation id = some held) :
    held ∈ l.reservations ∧ held.requestId = id :=
  ⟨List.mem_of_find?_eq_some h, by simpa using List.find?_some h⟩

theorem reservation_none (h : l.reservation id = none) : ∀ r ∈ l.reservations, r.requestId ≠ id := by
  intro r hr heq
  have hnot := List.find?_eq_none.mp h r hr
  exact hnot (by simpa using heq)

/-- A request has one reservation. -/
theorem eq_of_request (h : Kept sha256 l) {r held : Reservation} (hr : r ∈ l.reservations)
    (hheld : held ∈ l.reservations) (heq : r.requestId = held.requestId) : r = held :=
  List.inj_on_of_nodup_map h.one hr hheld heq

theorem kept_setRequest (h : Kept sha256 l)
    (hkey : ∀ old, l.requests id = some old → accountKey sha256 row = accountKey sha256 old) :
    Kept sha256 (l.setRequest id row) := by
  refine ⟨h.reserved, h.settled, h.bounded, h.safe, h.one, ?_, h.opened⟩
  intro r hr
  obtain ⟨old, hold, haccount⟩ := h.known r hr
  by_cases heq : r.requestId = id
  · refine ⟨row, ?_, ?_⟩
    · rw [heq]
      exact Function.update_self _ _ _
    · rw [haccount, hkey old (heq ▸ hold)]
  · exact ⟨old, (Function.update_of_ne heq _ _).trans hold, haccount⟩

/-- The row of a request is written again, for the same account. -/
theorem kept_rewritten (h : Kept sha256 l) {old : RequestRow} (hold : l.requests id = some old)
    (hkey : accountKey sha256 row = accountKey sha256 old) : Kept sha256 (l.setRequest id row) :=
  kept_setRequest h fun found hfound => by
    rw [Option.some.inj (hfound.symm.trans hold)]
    exact hkey

/-- Requests but this one end as before. -/
theorem ended_setRequest (h : Ended l)
    (hrow : row.terminal → ∀ r ∈ l.reservations, r.requestId = id → r.status ≠ .RESERVED) :
    Ended (l.setRequest id row) := by
  intro other found hfound hterminal r hr heq
  by_cases hid : other = id
  · subst hid
    rw [Ledger.setRequest_self] at hfound
    obtain rfl := Option.some.inj hfound
    exact hrow hterminal r hr heq
  · rw [Ledger.setRequest_of_ne l row hid] at hfound
    exact h other found hfound hterminal r hr heq

variable {status : ReservationStatus}

theorem total_eq_zero (x : Resource)
    {reservations : List Reservation} (h : ∀ r ∈ reservations, r.account ≠ key) :
    total status key x reservations = 0 := by
  unfold total
  rw [List.sum_eq_zero]
  intro n hn
  obtain ⟨r, hr, rfl⟩ := List.mem_map.mp hn
  exact if_neg fun hmatch => h r hr hmatch.2

theorem setAccount_cases {other : AccountKey} {found : Account}
    (h : (l.setAccount key account).accounts other = some found) :
    (other = key ∧ found = account) ∨ (other ≠ key ∧ l.accounts other = some found) := by
  by_cases heq : other = key
  · subst heq
    rw [Ledger.setAccount_self] at h
    exact Or.inl ⟨rfl, (Option.some.inj h).symm⟩
  · rw [Ledger.setAccount_of_ne l _ heq] at h
    exact Or.inr ⟨heq, h⟩

theorem openAccount_kept (h : Kept sha256 l) (key : AccountKey)
    (hsafe : ∀ x, budget.max x < 2 ^ 53) :
    Kept sha256 (openAccount l key budget).2 ∧
      (openAccount l key budget).2.accounts key = some (openAccount l key budget).1 ∧
      (openAccount l key budget).2.requests = l.requests ∧
      (openAccount l key budget).2.reservations = l.reservations := by
  unfold openAccount
  cases hfound : l.accounts key with
  | some account => exact ⟨h, hfound, rfl, rfl⟩
  | none =>
    have hnone : ∀ r ∈ l.reservations, r.account ≠ key := by
      intro r hr heq
      obtain ⟨account, haccount⟩ := h.opened r hr
      rw [heq, hfound] at haccount
      cases haccount
    refine ⟨kept_of_sums ?_ h.one h.known ?_, Function.update_self _ _ _, rfl, rfl⟩
    · intro other account hother
      obtain ⟨rfl, rfl⟩ | ⟨-, hold⟩ := setAccount_cases hother
      · exact ⟨fun x => (total_eq_zero x hnone).symm, fun x => (total_eq_zero x hnone).symm,
          fun x => Nat.zero_le _, hsafe⟩
      · exact h.sums hold
    · intro r hr
      obtain ⟨account, haccount⟩ := h.opened r hr
      exact ⟨account, (Function.update_of_ne (hnone r hr) _ _).trans haccount⟩

theorem total_append (x : Resource) (reservations : List Reservation) (r : Reservation) :
    total status key x (reservations ++ [r]) = total status key x reservations +
      if r.status = status ∧ r.account = key then r.usage x else 0 := by
  unfold total
  rw [List.map_append, List.sum_append, List.map_singleton, List.sum_singleton]

/-- A first reservation of a request that keeps its account within the budget. -/
theorem kept_reserved (h : Kept sha256 l)
    (haccount : l.accounts key = some account) (hrow : l.requests id = some row)
    (hkey : key = accountKey sha256 row) (hfirst : ∀ r ∈ l.reservations, r.requestId ≠ id)
    (hwithin : ∀ x, account.reserved x + account.settled x + usage x ≤ account.budget.max x) :
    Kept sha256 { l.setAccount key { account with
        reserved := fun x => account.reserved x + usage x } with
      reservations := l.reservations ++
        [{ requestId := id, account := key, usage, status := .RESERVED }] } := by
  refine kept_of_sums ?_ ?_ ?_ ?_
  · intro other found hother
    obtain ⟨rfl, rfl⟩ | ⟨hne, hold⟩ := setAccount_cases hother
    · have hsums := h.sums haccount
      refine ⟨fun x => ?_, fun x => ?_, fun x => ?_, hsums.safe⟩
      · rw [total_append, if_pos ⟨rfl, rfl⟩, ← hsums.reserved]
      · rw [total_append, if_neg (fun hmatch => by cases hmatch.1), Nat.add_zero]
        exact hsums.settled x
      · have hx := hwithin x
        dsimp only
        omega
    · have hsums := h.sums hold
      refine ⟨fun x => ?_, fun x => ?_, hsums.bounded, hsums.safe⟩
      · rw [total_append, if_neg fun hmatch => hne hmatch.2.symm, Nat.add_zero]
        exact hsums.reserved x
      · rw [total_append, if_neg fun hmatch => hne hmatch.2.symm, Nat.add_zero]
        exact hsums.settled x
  · rw [List.map_append, List.nodup_append]
    refine ⟨h.one, List.nodup_singleton _, ?_⟩
    intro a ha b hb heq
    obtain ⟨r, hr, rfl⟩ := List.mem_map.mp ha
    rw [List.map_singleton, List.mem_singleton] at hb
    exact hfirst r hr (heq.trans hb)
  · intro r hr
    obtain hr | hr := List.mem_append.mp hr
    · exact h.known r hr
    · obtain rfl := List.mem_singleton.mp hr
      exact ⟨row, hrow, hkey⟩
  · intro r hr
    by_cases heq : r.account = key
    · exact ⟨_, by rw [heq]; exact Ledger.setAccount_self l _ _⟩
    · obtain hr | hr := List.mem_append.mp hr
      · obtain ⟨found, hfound⟩ := h.opened r hr
        exact ⟨found, (Ledger.setAccount_of_ne l _ heq).trans hfound⟩
      · obtain rfl := List.mem_singleton.mp hr
        exact absurd rfl heq

/-- The account of a reservation that leaves `RESERVED`. -/
def leave (status : ReservationStatus) (held : Reservation) (account : Account) : Account :=
  { account with
    reserved := fun x => account.reserved x - held.usage x
    settled := fun x => account.settled x + if status = .SETTLED then held.usage x else 0 }

theorem updateAccount_of (change : Account → Account) (h : l.accounts key = some account) :
    l.updateAccount key change = l.setAccount key (change account) := by
  unfold Ledger.updateAccount
  rw [h]

/-- A reservation after a status is set is one of before, of the same request and account. -/
theorem mem_setStatus {r : Reservation} (h : r ∈ (l.setStatus id status).reservations) :
    ∃ r' ∈ l.reservations, r.requestId = r'.requestId ∧ r.account = r'.account ∧
      (r = r' ∧ r'.requestId ≠ id ∨ r.status = status) := by
  obtain ⟨r', hr', rfl⟩ := List.mem_map.mp h
  refine ⟨r', hr', ?_⟩
  by_cases heq : r'.requestId = id
  · simp [heq]
  · simp [heq]

/-- A held reservation is settled or released. -/
theorem kept_left (h : Kept sha256 l) {held : Reservation}
    (hheld : held ∈ l.reservations) (hreserved : held.status = .RESERVED)
    (hstatus : status ≠ .RESERVED) :
    Kept sha256 ((l.updateAccount held.account (leave status held)).setStatus held.requestId
      status) := by
  obtain ⟨account, haccount⟩ := h.opened held hheld
  rw [updateAccount_of _ haccount]
  -- what leaves the reserved sum, and what joins the settled one
  have hleaves : ∀ key x, total .RESERVED key x (l.reservations.map fun r =>
        if r.requestId = held.requestId then { r with status } else r) +
      (if held.account = key then held.usage x else 0) = total .RESERVED key x l.reservations := by
    intro key x
    have hsum := sum_setStatus status
      (fun r => if r.status = .RESERVED ∧ r.account = key then r.usage x else 0) h.one hheld
    simp only [hreserved, hstatus, true_and, false_and, if_false, Nat.add_zero] at hsum
    exact hsum
  have hjoins : ∀ key x, total .SETTLED key x (l.reservations.map fun r =>
        if r.requestId = held.requestId then { r with status } else r) =
      total .SETTLED key x l.reservations +
        if held.account = key then (if status = .SETTLED then held.usage x else 0) else 0 := by
    intro key x
    have hsum := sum_setStatus status
      (fun r => if r.status = .SETTLED ∧ r.account = key then r.usage x else 0) h.one hheld
    have hnot : ¬ (held.status = .SETTLED) := by
      rw [hreserved]
      decide
    simp only [hnot, false_and, if_false, Nat.add_zero] at hsum
    unfold total
    rw [hsum]
    by_cases hsettled : status = .SETTLED <;> simp [hsettled]
  refine kept_of_sums ?_ ?_ ?_ ?_
  · intro other found hother
    obtain ⟨rfl, rfl⟩ | ⟨hne, hold⟩ := setAccount_cases hother
    · have hsums := h.sums haccount
      have hleft := fun x => hleaves held.account x
      simp only [if_true, ← hsums.reserved] at hleft
      have hjoined := fun x => hjoins held.account x
      simp only [if_true, ← hsums.settled] at hjoined
      refine ⟨fun x => Nat.sub_eq_of_eq_add (hleft x).symm, fun x => (hjoined x).symm,
        fun x => ?_, hsums.safe⟩
      have hx := hleft x
      have hbound := hsums.bounded x
      unfold leave
      dsimp only
      split_ifs <;> omega
    · have hsums := h.sums hold
      refine ⟨fun x => ?_, fun x => ?_, hsums.bounded, hsums.safe⟩
      · rw [hsums.reserved, ← hleaves, if_neg (Ne.symm hne), Nat.add_zero]
        rfl
      · rw [hsums.settled]
        exact ((hjoins other x).trans (if_neg (Ne.symm hne) ▸ Nat.add_zero _)).symm
  · have hids : (((l.setAccount held.account (leave status held account)).setStatus
        held.requestId status).reservations.map (·.requestId)) =
        l.reservations.map (·.requestId) := by
      unfold Ledger.setStatus
      rw [List.map_map]
      refine List.map_congr_left fun r _ => ?_
      exact apply_ite Reservation.requestId _ _ _ |>.trans (ite_self _)
    rw [hids]
    exact h.one
  · intro r hr
    obtain ⟨r', hr', hid, hsame, -⟩ := mem_setStatus hr
    obtain ⟨row, hrow, hkey⟩ := h.known r' hr'
    exact ⟨row, by rw [hid]; exact hrow, by rw [hsame, hkey]⟩
  · intro r hr
    obtain ⟨r', hr', -, hsame, -⟩ := mem_setStatus hr
    by_cases heq : r.account = held.account
    · refine ⟨leave status held account, ?_⟩
      rw [heq]
      exact Function.update_self _ _ _
    · obtain ⟨found, hfound⟩ := h.opened r' hr'
      refine ⟨found, ?_⟩
      exact (Function.update_of_ne heq _ _).trans (hsame ▸ hfound)

/-- With the reservation gone, a request that has ended holds none. -/
theorem ended_left (h : Kept sha256 l) {held : Reservation}
    (hheld : held ∈ l.reservations) (hstatus : status ≠ .RESERVED)
    (hothers : ∀ id row, id ≠ held.requestId → l.requests id = some row → row.terminal →
      ∀ r ∈ l.reservations, r.requestId = id → r.status ≠ .RESERVED) :
    Ended ((l.updateAccount held.account (leave status held)).setStatus held.requestId
      status) := by
  obtain ⟨account, haccount⟩ := h.opened held hheld
  rw [updateAccount_of _ haccount]
  intro id row hrow hterminal r hr heq
  obtain ⟨r', hr', -, -, ⟨rfl, hne⟩ | hset⟩ := mem_setStatus hr
  · exact hothers id row (heq ▸ hne) hrow hterminal r hr' heq
  · rw [hset]
    exact hstatus

/-- `#settle` of a reservation that is held: the ledger is kept, and the request holds none. -/
theorem settle_kept (h : Kept sha256 l)
    (hrow : ∀ found, l.requests id = some found → accountKey sha256 found = accountKey sha256 row)
    (hothers : ∀ other found, other ≠ id → l.requests other = some found → found.terminal →
      ∀ r ∈ l.reservations, r.requestId = other → r.status ≠ .RESERVED)
    (hsettle : settle sha256 l id row = .ok t) : Kept sha256 t ∧ Ended t := by
  unfold settle at hsettle
  cases hheld : l.reservation id with
  | none =>
    rw [hheld] at hsettle
    cases hsettle
  | some held =>
    rw [hheld] at hsettle
    dsimp only at hsettle
    obtain ⟨hmem, rfl⟩ := reservation_some hheld
    by_cases hguard : held.status = .RESERVED ∧
        held.account.bindingDigest = budgetAccountDigest sha256 row
    · rw [if_pos hguard] at hsettle
      obtain ⟨found, hfound, hkey⟩ := h.known held hmem
      have haccount : held.account = accountKey sha256 row := hkey.trans (hrow found hfound)
      have hchange : (fun account : Account => { account with
          reserved := fun x => account.reserved x - held.usage x
          settled := fun x => account.settled x + held.usage x }) = leave .SETTLED held := by
        funext account
        simp [leave]
      rw [hchange, ← haccount] at hsettle
      obtain rfl := Except.ok.inj hsettle
      exact ⟨kept_left h hmem hguard.1 (by decide), ended_left h hmem (by decide) hothers⟩
    · rw [if_neg hguard] at hsettle
      cases hsettle

theorem release_kept (h : Kept sha256 l)
    (hrow : ∀ found, l.requests id = some found → accountKey sha256 found = accountKey sha256 row)
    (hothers : ∀ other found, other ≠ id → l.requests other = some found → found.terminal →
      ∀ r ∈ l.reservations, r.requestId = other → r.status ≠ .RESERVED) :
    Kept sha256 (release sha256 l id row) ∧ Ended (release sha256 l id row) := by
  unfold release
  cases hheld : l.reservation id with
  | none =>
    refine ⟨h, fun other found hfound hterminal r hr heq => ?_⟩
    by_cases hid : other = id
    · exact absurd (heq.trans hid) (reservation_none hheld r hr)
    · exact hothers other found hid hfound hterminal r hr heq
  | some held =>
    dsimp only
    obtain ⟨hmem, rfl⟩ := reservation_some hheld
    by_cases hreserved : held.status = .RESERVED
    · rw [if_pos hreserved]
      obtain ⟨found, hfound, hkey⟩ := h.known held hmem
      have haccount : held.account = accountKey sha256 row := hkey.trans (hrow found hfound)
      have hchange : (fun account : Account => { account with
          reserved := fun x => account.reserved x - held.usage x }) = leave .RELEASED held := by
        funext account
        simp [leave]
      rw [hchange, ← haccount]
      exact ⟨kept_left h hmem hreserved (by decide), ended_left h hmem (by decide) hothers⟩
    · rw [if_neg hreserved]
      refine ⟨h, fun other found hfound hterminal r hr heq => ?_⟩
      by_cases hid : other = held.requestId
      · rw [eq_of_request h hr hmem (heq.trans hid)]
        exact hreserved
      · exact hothers other found hid hfound hterminal r hr heq

variable {generation : Nat}

theorem heldRow_ok (h : heldRow l id generation = .ok row) :
    l.requests id = some row ∧ row.state = .RUNNING := by
  unfold heldRow at h
  cases hfound : l.requests id with
  | none =>
    rw [hfound] at h
    cases h
  | some found =>
    rw [hfound] at h
    dsimp only at h
    by_cases hguard : found.state = .RUNNING ∧ found.generation = generation ∧
        leaseLive found.leaseUntil l.clock = true
    · rw [if_pos hguard] at h
      obtain rfl := Except.ok.inj h
      exact ⟨rfl, hguard.1⟩
    · rw [if_neg hguard] at h
      cases h

/-- Other requests end as before when one row is written. -/
theorem others_ended (he : Ended l) : ∀ other found, other ≠ id →
    (l.setRequest id row).requests other = some found → found.terminal →
    ∀ r ∈ l.reservations, r.requestId = other → r.status ≠ .RESERVED := by
  intro other found hne hfound hterminal r hr heq
  rw [Ledger.setRequest_of_ne l row hne] at hfound
  exact he other found hfound hterminal r hr heq

variable {caller : Caller}

theorem complete_kept (h : Kept sha256 l) (he : Ended l) {outcome : Outcome} {result : Json}
    (hstep : complete sha256 l caller id generation outcome result = .ok t) :
    Kept sha256 t ∧ Ended t := by
  obtain ⟨row, hrow, hstep⟩ := bind_ok (withWorkspace_ok hstep)
  obtain ⟨hfound, -⟩ := heldRow_ok hrow
  refine settle_kept (kept_rewritten h hfound ?_) (fun found hset => ?_) (others_ended he) hstep
  · rfl
  · rw [Ledger.eq_of_setRequest hset]
    rfl

theorem cancel_kept (h : Kept sha256 l) (he : Ended l) {revision : Nat}
    {operationId : String} (hstep : cancel sha256 l caller id revision operationId = .ok t) :
    Kept sha256 t ∧ Ended t := by
  obtain ⟨-, hstep⟩ := require_bind hstep
  obtain ⟨-, hstep⟩ := require_bind hstep
  obtain ⟨-, hstep⟩ := require_bind hstep
  have hstep := withWorkspace_ok hstep
  cases hfound : l.requests id with
  | none =>
    rw [hfound] at hstep
    cases hstep
  | some row =>
    rw [hfound] at hstep
    dsimp only at hstep
    by_cases hcancelled : row.state = .CANCELLED
    · rw [if_pos hcancelled] at hstep
      obtain ⟨-, hstep⟩ := require_bind hstep
      obtain rfl := Except.ok.inj hstep
      exact ⟨h, he⟩
    · rw [if_neg hcancelled] at hstep
      obtain ⟨-, hstep⟩ := require_bind hstep
      obtain rfl := Except.ok.inj hstep
      refine release_kept (kept_rewritten h hfound ?_) (fun found hset => ?_) (others_ended he)
      · rfl
      · rw [Ledger.eq_of_setRequest hset]
        rfl

theorem fail_kept (h : Kept sha256 l) (he : Ended l)
    {cause : Option F002Error} (hstep : fail sha256 l caller id generation cause = .ok (some t)) :
    Kept sha256 t ∧ Ended t := by
  have hstep := withWorkspace_ok hstep
  cases hfound : l.requests id with
  | none =>
    rw [hfound] at hstep
    cases hstep
  | some row =>
    rw [hfound] at hstep
    dsimp only at hstep
    by_cases hguard : row.state = .RUNNING ∧ row.generation = generation
    · rw [if_pos hguard] at hstep
      have hkept : Kept sha256 (l.setRequest id (failedRow row cause)) :=
        kept_rewritten h hfound rfl
      have hsame : (l.setRequest id (failedRow row cause)).reservation id = l.reservation id := rfl
      rw [hsame] at hstep
      cases hheld : l.reservation id with
      | none =>
        rw [hheld] at hstep
        obtain rfl := Option.some.inj (Except.ok.inj hstep)
        exact ⟨hkept, ended_setRequest he fun _ r hr heq =>
          absurd heq (reservation_none hheld r hr)⟩
      | some held =>
        rw [hheld] at hstep
        dsimp only at hstep
        obtain ⟨hmem, hid⟩ := reservation_some hheld
        by_cases hreserved : held.status = .RESERVED
        · rw [if_pos hreserved] at hstep
          obtain ⟨settled, hsettle, hstep⟩ := bind_ok hstep
          obtain rfl := Option.some.inj (Except.ok.inj hstep)
          refine settle_kept hkept (fun found hset => ?_) (others_ended he) hsettle
          rw [Ledger.eq_of_setRequest hset]
          rfl
        · rw [if_neg hreserved] at hstep
          obtain rfl := Option.some.inj (Except.ok.inj hstep)
          refine ⟨hkept, ended_setRequest he fun _ r hr heq => ?_⟩
          rw [eq_of_request h hr hmem (heq.trans hid.symm)]
          exact hreserved
    · rw [if_neg hguard] at hstep
      cases hstep

theorem claim_kept (h : Kept sha256 l) (he : Ended l) {workerId : String}
    {leaseMs : Int} (hstep : claim l caller id workerId leaseMs = .ok t) :
    Kept sha256 t ∧ Ended t := by
  obtain ⟨-, hstep⟩ := require_bind hstep
  have hstep := withWorkspace_ok hstep
  cases hfound : l.requests id with
  | none =>
    rw [hfound] at hstep
    cases hstep
  | some row =>
    rw [hfound] at hstep
    dsimp only at hstep
    by_cases hguard : row.state = .QUEUED ∨
        (row.state = .RUNNING ∧ leaseOver row.leaseUntil l.clock = true)
    · rw [if_pos hguard] at hstep
      obtain rfl := Except.ok.inj hstep
      refine ⟨kept_rewritten h hfound rfl, ended_setRequest he fun hterminal => ?_⟩
      obtain hterminal | hterminal | hterminal := hterminal <;> cases hterminal
    · rw [if_neg hguard] at hstep
      cases hstep

theorem submit_kept (h : Kept sha256 l) (he : Ended l)
    {workspaceId investigationId baseVersionId : String}
    (hstep : submit l id workspaceId investigationId baseVersionId = some t) :
    Kept sha256 t ∧ Ended t := by
  unfold submit at hstep
  cases hfound : l.requests id with
  | some row =>
    rw [hfound] at hstep
    cases hstep
  | none =>
    rw [hfound] at hstep
    obtain rfl := Option.some.inj hstep
    refine ⟨kept_setRequest h fun old hold => ?_, ended_setRequest he fun hterminal => ?_⟩
    · rw [hfound] at hold
      cases hold
    · obtain hterminal | hterminal | hterminal := hterminal <;> cases hterminal

/-! ## The reservation -/

variable (hsha : Function.Injective sha256)
include hsha

/-- A budget is told by its digest. -/
theorem same_maxima {a b : Budget} (h : canonicalDigest sha256 "REQUEST_BUDGET" (budgetJson a) =
      canonicalDigest sha256 "REQUEST_BUDGET" (budgetJson b)) : a.max = b.max := by
  obtain ⟨-, hpayload⟩ := SourceIdentity.payload_of_text (hsha h)
  have hfield : ∀ (key : String) {m : Nat}, (key, Json.num (Number.ofNat m)) ∈ budgetFields a →
      ∃ w, (key, w) ∈ budgetFields b ∧ SourceIdentity.sortKeys (.num (Number.ofNat m)) =
        SourceIdentity.sortKeys w :=
    fun key _ hmem => SourceIdentity.field_of_sortKeys hpayload key hmem
  have hmax : ∀ (key : String) {m n : Nat}, (key, Json.num (Number.ofNat m)) ∈ budgetFields a →
      (∀ w, (key, w) ∈ budgetFields b → w = .num (Number.ofNat n)) → m = n := by
    intro key m n hmem hvalue
    obtain ⟨w, hw, hsame⟩ := hfield key hmem
    rw [hvalue w hw] at hsame
    exact Number.ofNat_injective (Json.num.inj hsame)
  funext x
  cases x with
  | materials => exact hmax "maxMaterials" (by simp [budgetFields]) (by simp [budgetFields])
  | bytes => exact hmax "maxBytes" (by simp [budgetFields]) (by simp [budgetFields])
  | ruleApplications =>
    exact hmax "maxRuleApplications" (by simp [budgetFields]) (by simp [budgetFields])
  | attempts => exact hmax "maximumAttempts" (by simp [budgetFields]) (by simp [budgetFields])

/-- What `#reserve` does when it returns: it refuses a request that holds nothing and reserves
nothing, or the request holds a reservation afterwards. -/
theorem reserveBudget_kept (h : Kept sha256 l) {now : Int} {refusal : Option String}
    (hrow : l.requests id = some row) (hsafe : ∀ x, budget.max x < 2 ^ 53)
    (htimely : deadlinePassed dateParse budget now = true →
      ∀ r ∈ l.reservations, r.requestId = id → r.status ≠ .RESERVED)
    (hstep : reserveBudget sha256 dateParse l id row budget usage now = .ok (refusal, t)) :
    Kept sha256 t ∧ t.requests = l.requests ∧
      (∀ r ∈ t.reservations, r.requestId ≠ id → r ∈ l.reservations) ∧
      (refusal ≠ none → ∀ r ∈ t.reservations, r.requestId = id → r.status ≠ .RESERVED) := by
  unfold reserveBudget at hstep
  by_cases hpassed : deadlinePassed dateParse budget now = true
  · rw [if_pos hpassed] at hstep
    obtain ⟨rfl, rfl⟩ := Prod.mk.inj (Except.ok.inj hstep)
    exact ⟨h, rfl, fun r hr _ => hr, fun _ => htimely hpassed⟩
  rw [if_neg hpassed] at hstep
  have hopened := openAccount_kept h (accountKey sha256 row) hsafe
  dsimp only at hstep
  rcases hopen : openAccount l (accountKey sha256 row) budget with ⟨account, o⟩
  rw [hopen] at hopened hstep
  obtain ⟨hkept, haccount, hrequests, hreservations⟩ := hopened
  dsimp only at hkept haccount hrequests hreservations hstep
  obtain ⟨hdigest, hstep⟩ := require_bind hstep
  have hmaxima : account.budget.max = budget.max := same_maxima hsha hdigest
  cases hheld : o.reservation id with
  | some held =>
    rw [hheld] at hstep
    dsimp only at hstep
    obtain ⟨hmem, hid⟩ := reservation_some hheld
    obtain ⟨rfl, rfl⟩ := Prod.mk.inj (Except.ok.inj hstep)
    refine ⟨hkept, hrequests, fun r hr _ => hreservations ▸ hr, fun hrefused r hr heq => ?_⟩
    rw [eq_of_request hkept hr hmem (heq.trans hid.symm)]
    intro hreserved
    rw [hreserved] at hrefused
    exact hrefused (if_pos (by decide))
  | none =>
    rw [hheld] at hstep
    dsimp only at hstep
    have hfirst := reservation_none hheld
    by_cases hexceeded : budgetExceeded account usage budget = true
    · rw [if_pos hexceeded] at hstep
      obtain ⟨rfl, rfl⟩ := Prod.mk.inj (Except.ok.inj hstep)
      exact ⟨hkept, hrequests, fun r hr _ => hreservations ▸ hr,
        fun _ r hr heq => absurd heq (hfirst r hr)⟩
    · rw [if_neg hexceeded] at hstep
      obtain ⟨rfl, rfl⟩ := Prod.mk.inj (Except.ok.inj hstep)
      have hbounded : ∀ x, account.reserved x + account.settled x ≤ budget.max x := by
        intro x
        rw [← hmaxima]
        exact hkept.bounded _ account x haccount
      have hwithin : ∀ x,
          account.reserved x + account.settled x + usage x ≤ account.budget.max x := by
        intro x
        rw [hmaxima]
        exact within_budget hsafe hbounded hexceeded x
      refine ⟨kept_reserved hkept haccount (hrequests ▸ hrow) rfl hfirst hwithin, hrequests, ?_,
        fun hrefused => absurd rfl hrefused⟩
      intro r hr hne
      obtain hr | hr := List.mem_append.mp hr
      · exact hreservations ▸ hr
      · exact absurd (List.mem_singleton.mp hr ▸ rfl) hne

theorem reserve_kept (h : Kept sha256 l) (he : Ended l) {now : Int}
    (htimely : Timely dateParse l (.reserve caller id generation budget usage now))
    (hstep : reserve sha256 dateParse l caller id generation budget usage now = .ok t) :
    Kept sha256 t ∧ Ended t := by
  obtain ⟨row, hheld, hstep⟩ := bind_ok (withWorkspace_ok hstep)
  obtain ⟨hrow, hrunning⟩ := heldRow_ok hheld
  obtain ⟨⟨refusal, o⟩, hreserve, hstep⟩ := bind_ok hstep
  obtain ⟨hkept, hrequests, hold, hnone⟩ :=
    reserveBudget_kept hsha h hrow htimely.1 htimely.2 hreserve
  have hended : Ended o := by
    intro other found hfound hterminal r hr heq
    rw [hrequests] at hfound
    have hne : other ≠ id := by
      rintro rfl
      rw [hrow] at hfound
      obtain rfl := Option.some.inj hfound
      rcases hterminal with hstate | hstate | hstate <;> rw [hrunning] at hstate <;> cases hstate
    exact he other found hfound hterminal r (hold r hr (heq ▸ hne)) heq
  cases refusal with
  | none =>
    obtain rfl := Except.ok.inj hstep
    exact ⟨hkept, hended⟩
  | some code =>
    obtain rfl := Except.ok.inj hstep
    refine ⟨kept_rewritten hkept ((congrFun hrequests id).trans hrow) ?_,
      ended_setRequest hended fun _ => hnone (by simp)⟩
    rfl

theorem step_kept {act : Act} (h : Kept sha256 l ∧ Ended l) (htimely : Timely dateParse l act)
    (hstep : step sha256 dateParse l act = some t) : Kept sha256 t ∧ Ended t := by
  obtain ⟨h, he⟩ := h
  cases act with
  | advance elapsed =>
    obtain rfl := Option.some.inj hstep
    exact ⟨⟨h.reserved, h.settled, h.bounded, h.safe, h.one, h.known, h.opened⟩, he⟩
  | submit id workspaceId investigationId baseVersionId => exact submit_kept h he hstep
  | claim caller id workerId leaseMs => exact claim_kept h he (toOption_some hstep)
  | reserve caller id generation budget usage now =>
    exact reserve_kept hsha h he htimely (toOption_some hstep)
  | complete caller id generation outcome result => exact complete_kept h he (toOption_some hstep)
  | fail caller id generation cause =>
    exact fail_kept h he (toOption_some (Option.join_eq_some_iff.mp hstep))
  | cancel caller id revision operationId => exact cancel_kept h he (toOption_some hstep)

omit hsha

theorem empty_kept (clock : Nat) : Kept sha256 (emptyLedger clock) ∧ Ended (emptyLedger clock) := by
  refine ⟨⟨fun _ _ _ h => (by cases h), fun _ _ _ h => (by cases h), fun _ _ _ h => (by cases h),
    fun _ _ _ h => (by cases h), List.nodup_nil, fun r hr => ?_, fun r hr => ?_⟩,
    fun _ _ h => (by cases h)⟩
  · exact absurd hr List.not_mem_nil
  · exact absurd hr List.not_mem_nil

end Laws

/-- The budget ledger, along every run from the empty one in which no request that holds a
reservation asks again past the deadline: the accounts are the sums of their reservations and within
their budgets, and a request that has ended holds none. -/
theorem ledger_is_balanced (sha256 : String → String) (hsha : Function.Injective sha256)
    (dateParse : String → Option Int) (clock : Nat) (acts : List Act) (l : Ledger)
    (h : Machine.run (step sha256 dateParse) (emptyLedger clock) acts = some l)
    (htimely : Machine.Along (step sha256 dateParse) (Timely dateParse) (emptyLedger clock) acts) :
    Balanced l := by
  have hkept : Kept sha256 l ∧ Ended l :=
    Machine.run_keeps_along (fun _ _ _ hs hc ht => step_kept hsha hs hc ht) h htimely
      (empty_kept clock)
  exact hkept.1.balanced hkept.2

/-! ## Two runs -/

def member : Caller :=
  { identified := true, access := .ok (some { restoreReady := true, backupBarrier := false }) }

def ordersDeadline : String := "2026-01-01T00:00:00.000Z"

/-- `Date.parse`, of the one text that the runs read. -/
def ordersDateParse (text : String) : Option Int :=
  if text = ordersDeadline then some 1767225600000 else none

def ordersBudget : Budget where
  max
    | .materials => 2
    | .bytes => 4096
    | .ruleApplications => 10
    | .attempts => 3
  deadline := ordersDeadline

def ordersUsage : Amounts
  | .materials => 1
  | .bytes => 512
  | .ruleApplications => 4
  | .attempts => 1

def ordersVersion : String := String.ofList (List.replicate 64 'b')

def ordersDigest : String → String :=
  SourceIdentity.listedDigest
    [("\x7b\"domain\":\"F002.INVESTIGATION_BUDGET_ACCOUNT\",\"payload\":\x7b\"baseVersionId\":\"" ++
        ordersVersion ++ "\",\"investigationId\":\"investigation-1\",\"workspaceId\":\"shop\"\x7d," ++
        "\"version\":1\x7d", "d4e6567c40a16fba2fbafcc24f2851c30cfa5140f14a06f859272b5e578e2f74"),
      ("\x7b\"domain\":\"F002.REQUEST_BUDGET\",\"payload\":\x7b\"deadline\":\"" ++ ordersDeadline ++
        "\",\"maxBytes\":4096,\"maxMaterials\":2,\"maxRuleApplications\":10," ++
        "\"maximumAttempts\":3\x7d,\"version\":1\x7d",
        "700ecf98e174f9fdbcc32a604fb65745f06d20a2736b00bc87ea220f021887c1")]

theorem ordersDigest_injective : Function.Injective ordersDigest :=
  SourceIdentity.listedDigest_injective (by decide) (by decide)

def ordersClock : Nat := 1767225539500

/-- A request is accepted, claimed and reserved for, a minute before the deadline. -/
def reservedRun : List Act :=
  [.submit "request-1" "shop" "investigation-1" ordersVersion,
    .claim member "request-1" "first" 60000,
    .reserve member "request-1" 1 ordersBudget ordersUsage 1767225539500]

def settledRun : List Act :=
  reservedRun ++ [.complete member "request-1" 1 .NEW_VERSION .null]

def reservationStatus (l : Ledger) (id : String) : Option (RequestState × ReservationStatus) :=
  (l.requests id).bind fun row => (l.reservation id).map fun r => (row.state, r.status)

theorem settled_run_is_balanced :
    ∃ l, Machine.run (step ordersDigest ordersDateParse) (emptyLedger ordersClock) settledRun =
        some l ∧ Balanced l ∧ reservationStatus l "request-1" = some (.COMPLETED, .SETTLED) := by
  have hruns : (Machine.run (step ordersDigest ordersDateParse) (emptyLedger ordersClock)
      settledRun).map (reservationStatus · "request-1") = some (some (.COMPLETED, .SETTLED)) := by
    decide +kernel
  obtain ⟨l, hrun, hstatus⟩ := Option.map_eq_some_iff.mp hruns
  have htimely : ∀ act ∈ settledRun, ∀ s, Timely ordersDateParse s act := by
    intro act hact s
    simp only [settledRun, reservedRun, List.cons_append, List.nil_append, List.mem_cons,
      List.not_mem_nil, or_false] at hact
    obtain rfl | rfl | rfl | rfl := hact
    · trivial
    · trivial
    · refine ⟨fun x => by cases x <;> decide, fun hpassed => ?_⟩
      have hearly : deadlinePassed ordersDateParse ordersBudget 1767225539500 = false := by decide
      rw [hearly] at hpassed
      cases hpassed
    · trivial
  refine ⟨l, hrun, ?_, hstatus⟩
  exact ledger_is_balanced ordersDigest ordersDigest_injective ordersDateParse ordersClock settledRun
    l hrun (Machine.along_of_forall htimely _)

/-- The worker dies; the next one takes over and asks again when the deadline has just passed. -/
def takeoverRun : List Act :=
  reservedRun ++ [.advance 60000, .claim member "request-1" "second" 60000, .advance 500,
    .reserve member "request-1" 2 ordersBudget ordersUsage 1767225600000]

theorem takeover_leaks_a_reservation :
    ∃ l, Machine.run (step ordersDigest ordersDateParse) (emptyLedger ordersClock) takeoverRun =
        some l ∧ ¬ Balanced l := by
  have hruns : (Machine.run (step ordersDigest ordersDateParse) (emptyLedger ordersClock)
      takeoverRun).map (reservationStatus · "request-1") = some (some (.COMPLETED, .RESERVED)) := by
    decide +kernel
  obtain ⟨l, hrun, hstatus⟩ := Option.map_eq_some_iff.mp hruns
  refine ⟨l, hrun, fun hbalanced => ?_⟩
  obtain ⟨row, hrow, hstatus⟩ := Option.bind_eq_some_iff.mp hstatus
  obtain ⟨r, hr, hpair⟩ := Option.map_eq_some_iff.mp hstatus
  obtain ⟨hstate, hreserved⟩ := Prod.mk.inj hpair
  obtain ⟨hmem, hid⟩ := reservation_some hr
  exact hbalanced.ended "request-1" row hrow (Or.inl hstate) r hmem hid hreserved

end Traqen.RequestBudget
