-- The run loops of one job under `LegacyUnderstandingRuntime`
-- (`application/legacy-understanding-runtime.js`). Each of them registers a controller and its
-- secret grants; both are kept by the id of the job, and each loop clears both as it ends.
import Traqen.JobLoops

open Js

namespace Traqen.RunControllers

open JobCheckpoints JobLoops

/-! ## The runtime -/

/-- A grant that `issueScopedSecretGrants` makes; `expiresAt` is in milliseconds. -/
structure SecretGrant where
  id : String
  analysisRunId : String
  expiresAt : Int
  scope : Json

/-- An entry of `#issuedSecretGrants`, with the call that registered it (none for grants of
other runs). -/
structure Issued where
  grant : SecretGrant
  call : Option Nat

/-- A call of `#runAuthorized`. -/
inductive Call where
  /-- It waits for its profile. -/
  | profile (signal : Nat) (job : Job)
  /-- It stores its grants, of which some are left. -/
  | granting (signal : Nat) (job : Job) (grants : List SecretGrant) (left : Nat)
  /-- It waits for `runner.run`. -/
  | running (signal : Nat) (job : Job) (process : Nat)
  /-- It caught an error and read the latest state. -/
  | caught (signal : Nat) (job : Job) (error : JobError) (latest : Option Job)
  | ended

/-- A call of start, pause, resume, cancel or recover. -/
inductive Ask where
  | starting (process : Nat)
  /-- A run of the job is queued. -/
  | launching (job : Job)
  | pausing (latest : Option Job)
  | cancelling (latest : Option Job)
  | resuming (latest : Option Job)
  | resumed (process : Nat)
  | recovering (checkpoints : List JobCheckpoint)
  | ended

structure Runtime where
  jobs : System
  /-- `#controllers.get(job.id)`, by its signal. -/
  controller : Option Nat
  issuedSecretGrants : List (String × Issued)
  /-- What has been revoked so far, each with the call that ended then. -/
  revoked : List (Issued × Nat)
  calls : List Call
  asks : List Ask

inductive Turn where
  | start (now : String)
  | pause
  | resume
  | cancel
  | recover
  | proceed (ask : Nat) (completedAt now : String)
  /-- A turn of a process of the job. -/
  | process (turn : JobLoops.Turn)
  /-- The profile is there, with an id and a scope for each credential handle in it. -/
  | profile (call : Nat) (outcome : Except JobError (List (String × Json))) (expiresAt now : Int)
  | granted (call : Nat) (outcome : Except JobError Unit) (now : Int)
  /-- `runner.run` has settled; `error` is what `fail` reads of a rejection. -/
  | settle (call : Nat) (error : JobError) (now : Int)
  | close (call : Nat) (now : Int)

section Steps

variable (sha256 : String → String) (identity : Identity) (configured : Phase → Bool)

def secretGrants (expiresAt : Int) (scopes : List (String × Json)) : List SecretGrant :=
  scopes.map fun s => { id := s.1, analysisRunId := identity.id, expiresAt, scope := s.2 }

def pruneIssuedSecretGrants (issued : List (String × Issued)) (now : Int) :
    List (String × Issued) :=
  issued.filter fun e => ¬ e.2.grant.expiresAt ≤ now

def registerIssuedSecretGrants (issued : List (String × Issued)) (call : Nat)
    (grants : List SecretGrant) (now : Int) : List (String × Issued) :=
  grants.foldl (fun m grant => OrderedMap.set m grant.id { grant, call := some call })
    (pruneIssuedSecretGrants issued now)

/-- `revokeIssuedSecretGrants`: what stays, and what it deletes. -/
def revokeIssuedSecretGrants (issued : List (String × Issued)) (now : Int) :
    List (String × Issued) × List Issued :=
  let (deleted, kept) := (pruneIssuedSecretGrants issued now).partition fun e =>
    e.2.grant.analysisRunId = identity.id
  (kept, deleted.map (·.2))

def Runtime.putCall (s : Runtime) (i : Nat) (call : Call) : Runtime :=
  { s with calls := s.calls.set i call }

def Runtime.putAsk (s : Runtime) (i : Nat) (ask : Ask) : Runtime :=
  { s with asks := s.asks.set i ask }

def Runtime.ask (s : Runtime) (ask : Ask) : Runtime := { s with asks := s.asks ++ [ask] }

/-- `#runAuthorized` up to its first wait. -/
def register (s : Runtime) (job : Job) : Runtime :=
  { s with
    jobs := { s.jobs with aborted := s.jobs.aborted ++ [false] }
    controller := some s.jobs.aborted.length
    calls := s.calls ++ [.profile s.jobs.aborted.length job] }

/-- The grants of a call are stored: it registers them and calls `runner.run`. -/
def launch (s : Runtime) (i signal : Nat) (job : Job) (grants : List SecretGrant) (now : Int) :
    Runtime :=
  { s with
    issuedSecretGrants := registerIssuedSecretGrants s.issuedSecretGrants i grants now
    jobs := startLoop identity s.jobs job signal
    calls := s.calls.set i (.running signal job s.jobs.processes.length) }

/-- A call that caught an error waits for the latest state. -/
def catchError (s : Runtime) (i signal : Nat) (job : Job) (error : JobError) : Runtime :=
  s.putCall i (.caught signal job error (s.jobs.latest identity))

/-- The finally block. -/
def cleanUp (s : Runtime) (i : Nat) (now : Int) : Runtime :=
  let (kept, deleted) := revokeIssuedSecretGrants identity s.issuedSecretGrants now
  { s with
    controller := none
    issuedSecretGrants := kept
    revoked := s.revoked ++ deleted.map fun issued => (issued, i)
    calls := s.calls.set i .ended }

/-- `this.#controllers.get(jobId)?.abort()`. -/
def abort (s : Runtime) : Runtime :=
  match s.controller with
  | some signal => { s with jobs := { s.jobs with aborted := s.jobs.aborted.set signal true } }
  | none => s

/-- What recover runs again: the last checkpoint, when it says that the job is running. -/
def recoverable (checkpoints : List JobCheckpoint) : Option Job :=
  ((lastBySequence checkpoints).map (·.state)).filter fun state =>
    state.status = .RUNNING && state.desiredState = .RUNNING

/-- A call goes on with what it has waited for. -/
def proceed (s : Runtime) (i : Nat) (ask : Ask) (completedAt now : String) : Option Runtime :=
  match ask with
  | .starting p =>
    match s.jobs.processes[p]? with
    | some (.done (.ok job)) => some (s.putAsk i (.launching job))
    | some (.done (.error _)) => some (s.putAsk i .ended)
    | _ => none
  | .launching job => some (register (s.putAsk i .ended) job)
  | .pausing none | .cancelling none | .resuming none => some (s.putAsk i .ended)
  | .pausing (some job) =>
    let s := abort (s.putAsk i .ended)
    if job.status = .RUNNING then some { s with jobs := JobLoops.pause identity s.jobs job now }
    else some s
  | .cancelling (some job) =>
    let s := abort (s.putAsk i .ended)
    some { s with jobs := JobLoops.cancel identity s.jobs job completedAt now }
  | .resuming (some job) =>
    some { s.putAsk i (.resumed s.jobs.processes.length) with
      jobs := JobLoops.resume identity s.jobs job now }
  | .resumed p =>
    match s.jobs.processes[p]? with
    | some (.done (.ok job)) => some (s.putAsk i (.launching job))
    | some (.done (.error _)) => some (s.putAsk i .ended)
    | _ => none
  | .recovering checkpoints =>
    match recoverable checkpoints with
    | some job =>
      if s.controller.isNone then some (register (s.putAsk i .ended) job)
      else some (s.putAsk i .ended)
    | none => some (s.putAsk i .ended)
  | .ended => none

/-- The turns of a process; the others of a job belong to the calls of the runtime. -/
def ofProcess : JobLoops.Turn → Bool
  | .authorize .. | .handle .. | .next .. => true
  | _ => false

def step (s : Runtime) : Turn → Option Runtime
  | .start now =>
    some { s.ask (.starting s.jobs.processes.length) with
      jobs := request identity s.jobs (startedJob now) true "" }
  | .pause => some (s.ask (.pausing (s.jobs.latest identity)))
  | .resume => some (s.ask (.resuming (s.jobs.latest identity)))
  | .cancel => some (s.ask (.cancelling (s.jobs.latest identity)))
  | .recover => some (s.ask (.recovering (s.jobs.checkpoints identity)))
  | .proceed i completedAt now =>
    s.asks[i]?.bind fun ask => proceed identity s i ask completedAt now
  | .process turn =>
    if ofProcess turn then
      (JobLoops.step sha256 identity configured s.jobs turn).map fun jobs => { s with jobs }
    else none
  | .profile i outcome expiresAt now =>
    match s.calls[i]? with
    | some (.profile signal job) =>
      match outcome with
      | .error e => some (catchError identity s i signal job e)
      | .ok [] => some (launch identity s i signal job [] now)
      | .ok scopes =>
        some (s.putCall i
          (.granting signal job (secretGrants identity expiresAt scopes) scopes.length))
    | _ => none
  | .granted i outcome now =>
    match s.calls[i]? with
    | some (.granting signal job grants left) =>
      match outcome with
      | .error e => some (catchError identity s i signal job e)
      | .ok _ =>
        if left ≤ 1 then some (launch identity s i signal job grants now)
        else some (s.putCall i (.granting signal job grants (left - 1)))
    | _ => none
  | .settle i error now =>
    match s.calls[i]? with
    | some (.running signal job p) =>
      match s.jobs.processes[p]? with
      | some (.done (.ok _)) => some (cleanUp identity s i now)
      | some (.done (.error _)) => some (catchError identity s i signal job error)
      | _ => none
    | _ => none
  | .close i now =>
    match s.calls[i]? with
    | some (.caught _ job error latest) =>
      -- the result of `fail` is not awaited here, so the finally block runs in this turn
      some (cleanUp identity
        { s with jobs := startFail identity s.jobs (latest.getD job) error } i now)
    | _ => none

/-- A runtime begins with the log that is stored, without controllers or calls, and with what
other runs have registered. -/
def start (log : Log Job) (others : List SecretGrant) : Runtime where
  jobs := { log, aborted := [], processes := [] }
  controller := none
  issuedSecretGrants := OrderedMap.ofList (others.map fun grant => (grant.id, ⟨grant, none⟩))
  revoked := []
  calls := []
  asks := []

end Steps

/-! ## Live loops -/

/-- The signal of a call that has not run its finally block. -/
def Call.signal : Call → Option Nat
  | .profile signal _ | .granting signal .. | .running signal .. | .caught signal .. => some signal
  | .ended => none

def settled (jobs : System) (p : Nat) : Bool :=
  match jobs.processes[p]? with
  | some (.done _) => true
  | _ => false

/-- The call has registered its controller and its `runner.run` has not settled. -/
def Call.live (jobs : System) : Call → Bool
  | .profile .. | .granting .. => true
  | .running _ _ p => !settled jobs p
  | .caught .. | .ended => false

/-- Call `i` is a live loop with a signal. -/
def Live (s : Runtime) (i signal : Nat) : Prop :=
  ∃ call, s.calls[i]? = some call ∧ call.live s.jobs = true ∧ call.signal = some signal

/-- The registered controller belongs to a live loop. -/
def ControllerLives (s : Runtime) : Prop :=
  ∃ signal, s.controller = some signal ∧ ∃ i, Live s i signal

/-- The end of another call has revoked no grant of call `i`. -/
def GrantsKept (s : Runtime) (i : Nat) : Prop :=
  ∀ r ∈ s.revoked, r.1.call = some i → r.2 = i

/-- A pause or a cancel that goes on with a job here aborts the signal. -/
def Abortable (identity : Identity) (s : Runtime) (signal : Nat) : Prop :=
  ∀ i ask completedAt now t, (∃ job, ask = .pausing (some job) ∨ ask = .cancelling (some job)) →
    proceed identity s i ask completedAt now = some t → t.jobs.isAborted signal = true

/-- A call registers its controller only while none is registered. -/
def registersAlone (s : Runtime) : Turn → Bool
  | .proceed i _ _ =>
    match s.asks[i]? with
    | some (.launching _) => s.controller.isNone
    | _ => true
  | _ => true

/-! ## Signals -/

variable {i : Nat}

section Signals

variable {sha256 : String → String} {identity : Identity} {configured : Phase → Bool}
  {s t : System}

theorem enterPhase_aborted (i signal k : Nat) (state : Job) :
    (enterPhase identity s i signal k state).aborted = s.aborted := by
  unfold enterPhase
  split <;> rfl

/-- A process aborts no signal and makes none. -/
theorem advance_aborted {p : JobLoops.Process} {completedAt now : String}
    (h : advance sha256 identity s i p completedAt now = some t) : t.aborted = s.aborted := by
  cases p with
  | beforePhase signal k state latest =>
    simp only [advance] at h
    split at h
    · cases h
      rfl
    · split at h
      · cases h
        exact enterPhase_aborted ..
      · split at h <;> cases h <;> rfl
  | afterPhase signal k state output latest =>
    simp only [advance] at h
    split at h
    · split at h
      · cases h
        rfl
      · split at h <;> cases h <;> rfl
    · cases h
      rfl
  | beforeCompletion signal state latest =>
    simp only [advance] at h
    split at h
    · split at h <;> cases h <;> rfl
    · cases h
      rfl
  | persisting after job existing =>
    cases h
    rfl
  | persisted after stored =>
    cases after with
    | result signal =>
      cases h
      rfl
    | phase signal k =>
      cases stored with
      | error e =>
        cases h
        rfl
      | ok state =>
        simp only [advance] at h
        split at h
        · cases h
          rfl
        · cases h
          exact enterPhase_aborted ..
  | failing job error latest =>
    simp only [advance] at h
    split at h
    · split at h <;> cases h <;> rfl
    · cases h
      rfl
  | authorizing | handling | done => cases h

theorem process_aborted {turn : JobLoops.Turn} (hturn : ofProcess turn = true)
    (h : JobLoops.step sha256 identity configured s turn = some t) : t.aborted = s.aborted := by
  cases turn with
  | authorize i verdict =>
    simp only [JobLoops.step] at h
    split at h
    · split at h
      · cases h
        rfl
      · split at h <;> cases h <;> rfl
    · cases h
  | handle i outcome =>
    simp only [JobLoops.step] at h
    split at h
    · split at h <;> cases h <;> rfl
    · cases h
  | next i completedAt now =>
    obtain ⟨p, _, hadvance⟩ := Option.bind_eq_some_iff.mp h
    exact advance_aborted hadvance
  | _ => cases hturn

theorem request_aborted (job : Job) (allowed : Bool) (message : String) :
    (request identity s job allowed message).aborted = s.aborted := by
  unfold request
  split <;> rfl

theorem startLoop_aborted (job : Job) (signal : Nat) :
    (startLoop identity s job signal).aborted = s.aborted := by
  unfold startLoop
  split <;> rfl

end Signals

/-! ## The registry of grants -/

variable {now : Int}

section Registry

variable {identity : Identity} {issued : List (String × Issued)}

theorem mem_registerIssuedSecretGrants {call : Nat} {grants : List SecretGrant}
    {e : String × Issued} (h : e ∈ registerIssuedSecretGrants issued call grants now) :
    e.2.call = some call ∨ e ∈ issued := by
  unfold registerIssuedSecretGrants at h
  induction grants using List.reverseRecOn with
  | nil => exact Or.inr (List.mem_filter.mp h).1
  | append_singleton grants grant ih =>
    rw [List.foldl_append] at h
    rcases OrderedMap.mem_set h with rfl | h
    · exact Or.inl rfl
    · exact ih h

theorem mem_kept {e : String × Issued}
    (h : e ∈ (revokeIssuedSecretGrants identity issued now).1) : e ∈ issued := by
  unfold revokeIssuedSecretGrants at h
  rw [List.partition_eq_filter_filter] at h
  exact (List.mem_filter.mp (List.mem_filter.mp h).1).1

theorem mem_deleted {g : Issued}
    (h : g ∈ (revokeIssuedSecretGrants identity issued now).2) : ∃ e ∈ issued, e.2 = g := by
  unfold revokeIssuedSecretGrants at h
  rw [List.partition_eq_filter_filter] at h
  obtain ⟨e, he, rfl⟩ := List.mem_map.mp h
  exact ⟨e, (List.mem_filter.mp (List.mem_filter.mp he).1).1, rfl⟩

end Registry

/-! ## The invariant -/

/-- At most one call has not ended, the controller that is registered is its own, and what has
been revoked belongs to calls that have ended. -/
structure Owned (s : Runtime) : Prop where
  own : ∀ (i : Nat) (call : Call) (signal : Nat), s.calls[i]? = some call → call.signal = some signal →
    s.controller = some signal
  one : ∀ (i j : Nat) (call other : Call), s.calls[i]? = some call → s.calls[j]? = some other →
    call.signal.isSome = true → other.signal.isSome = true → i = j
  made : ∀ signal, s.controller = some signal → signal < s.jobs.aborted.length
  issued : ∀ e ∈ s.issuedSecretGrants, ∀ i, e.2.call = some i → i < s.calls.length
  revoked : ∀ r ∈ s.revoked, ∀ i, r.1.call = some i → s.calls[i]? = some .ended

section Keeps

variable {s t : Runtime}

variable (h : Owned s)
include h

/-- What changes neither calls nor registrations keeps the invariant. -/
theorem owned_frame (hcalls : t.calls = s.calls) (hcontroller : t.controller = s.controller)
    (hissued : t.issuedSecretGrants = s.issuedSecretGrants) (hrevoked : t.revoked = s.revoked)
    (haborted : t.jobs.aborted.length = s.jobs.aborted.length) : Owned t := by
  obtain ⟨jobs, controller, issued, revoked, calls, asks⟩ := t
  cases hcalls
  cases hcontroller
  cases hissued
  cases hrevoked
  exact ⟨h.own, h.one, fun signal hc => haborted ▸ h.made signal hc, h.issued, h.revoked⟩

omit h in
theorem get_set {calls : List Call} {j : Nat} {new call : Call}
    (h : (calls.set i new)[j]? = some call) :
    j = i ∧ call = new ∨ j ≠ i ∧ calls[j]? = some call := by
  rw [List.getElem?_set] at h
  split at h
  · rename_i hij
    split at h
    · cases h
      exact Or.inl ⟨hij.symm, rfl⟩
    · cases h
  · rename_i hij
    exact Or.inr ⟨fun h => hij h.symm, h⟩

/-- A call that goes on keeps its signal. -/
theorem owned_go_on {call : Call} (hi : s.calls[i]? = some call)
    (new : Call) (hsignal : new.signal = call.signal) (hopen : call.signal.isSome = true)
    (hcalls : t.calls = s.calls.set i new) (hcontroller : t.controller = s.controller)
    (hissued : ∀ e ∈ t.issuedSecretGrants, e.2.call = some i ∨ e ∈ s.issuedSecretGrants)
    (hrevoked : t.revoked = s.revoked) (haborted : t.jobs.aborted = s.jobs.aborted) :
    Owned t := by
  have hback : ∀ (j : Nat) (other : Call), t.calls[j]? = some other →
      ∃ before, s.calls[j]? = some before ∧ other.signal = before.signal := by
    intro j other hj
    rw [hcalls] at hj
    rcases get_set hj with ⟨rfl, rfl⟩ | ⟨_, hj⟩
    · exact ⟨call, hi, hsignal⟩
    · exact ⟨other, hj, rfl⟩
  refine ⟨?_, ?_, ?_, ?_, ?_⟩
  · intro j other signal hj hother
    obtain ⟨before, hbefore, hsame⟩ := hback j other hj
    rw [hcontroller]
    exact h.own j before signal hbefore (hsame ▸ hother)
  · intro j k a b ha hb hopenA hopenB
    obtain ⟨a', ha', hsameA⟩ := hback j a ha
    obtain ⟨b', hb', hsameB⟩ := hback k b hb
    exact h.one j k a' b' ha' hb' (hsameA ▸ hopenA) (hsameB ▸ hopenB)
  · intro signal hc
    rw [haborted]
    exact h.made signal (hcontroller ▸ hc)
  · intro e he j hj
    rw [hcalls, List.length_set]
    rcases hissued e he with hmine | hold
    · rw [hmine] at hj
      cases hj
      exact (List.getElem?_eq_some_iff.mp hi).1
    · exact h.issued e hold j hj
  · intro r hr j hj
    rw [hrevoked] at hr
    have hended := h.revoked r hr j hj
    have hne : i ≠ j := by
      rintro rfl
      rw [hi] at hended
      cases hended
      cases hopen
    rw [hcalls, List.getElem?_set_ne hne]
    exact hended

/-- A call registers while no controller is registered. -/
theorem owned_register (hnone : s.controller = none) (job : Job) : Owned (register s job) := by
  have hended : ∀ (i : Nat) (call : Call), s.calls[i]? = some call → call.signal.isSome = false := by
    intro i call hi
    cases hsignal : call.signal with
    | none => rfl
    | some signal =>
      have hown := h.own i call signal hi hsignal
      rw [hnone] at hown
      cases hown
  have hnew : ∀ (i : Nat) (call : Call), (register s job).calls[i]? = some call → call.signal.isSome = true →
      i = s.calls.length ∧ call.signal = some s.jobs.aborted.length := by
    intro i call hi hopen
    unfold register at hi
    rw [List.getElem?_append] at hi
    split at hi
    · rw [hended i call hi] at hopen
      cases hopen
    · rw [List.getElem?_singleton] at hi
      split at hi
      · cases hi
        exact ⟨by omega, rfl⟩
      · cases hi
  refine ⟨?_, ?_, ?_, ?_, ?_⟩
  · intro i call signal hi hsignal
    obtain ⟨_, hmade⟩ := hnew i call hi (by rw [hsignal]; rfl)
    rw [hsignal] at hmade
    cases hmade
    rfl
  · intro i j a b ha hb hopenA hopenB
    rw [(hnew i a ha hopenA).1, (hnew j b hb hopenB).1]
  · intro signal hc
    cases hc
    simp [register]
  · intro e he i hi
    have hold := h.issued e he i hi
    simp only [register, List.length_append, List.length_singleton]
    omega
  · intro r hr i hi
    have hold := h.revoked r hr i hi
    unfold register
    rw [List.getElem?_append_left (List.getElem?_eq_some_iff.mp hold).1]
    exact hold

/-- The only open call ends, and with it what is registered for the job. -/
theorem owned_cleanUp {identity : Identity} {call : Call}
    (hi : s.calls[i]? = some call) (hopen : call.signal.isSome = true) (now : Int) :
    Owned (cleanUp identity s i now) := by
  have hcalls : (cleanUp identity s i now).calls = s.calls.set i .ended := rfl
  have hall : ∀ (j : Nat) (other : Call), (cleanUp identity s i now).calls[j]? = some other →
      other.signal = none := by
    intro j other hj
    rw [hcalls] at hj
    rcases get_set hj with ⟨rfl, rfl⟩ | ⟨hne, hj⟩
    · rfl
    · cases hsignal : other.signal with
      | none => rfl
      | some signal =>
        exact absurd (h.one j i other call hj hi (by rw [hsignal]; rfl) hopen) hne
  refine ⟨?_, ?_, ?_, ?_, ?_⟩
  · intro j other signal hj hsignal
    rw [hall j other hj] at hsignal
    cases hsignal
  · intro j k a b ha _ hopenA
    rw [hall j a ha] at hopenA
    cases hopenA
  · intro signal hc
    cases hc
  · intro e he j hj
    rw [hcalls, List.length_set]
    exact h.issued e (mem_kept he) j hj
  · intro r hr j hj
    rw [hcalls]
    -- whatever is revoked belongs to a call, and no call is open now
    have hended : ∀ k < s.calls.length, (s.calls.set i Call.ended)[k]? = some .ended := by
      intro k hk
      have hk' : k < (s.calls.set i Call.ended).length := by
        rw [List.length_set]
        exact hk
      have hsignal := hall k (s.calls.set i Call.ended)[k] (List.getElem?_eq_getElem hk')
      rw [List.getElem?_eq_getElem hk']
      cases hcall : (s.calls.set i Call.ended)[k] with
      | ended => rfl
      | _ =>
        rw [hcall] at hsignal
        cases hsignal
    rcases List.mem_append.mp hr with hr | hr
    · exact hended j (List.getElem?_eq_some_iff.mp (h.revoked r hr j hj)).1
    · obtain ⟨g, hg, rfl⟩ := List.mem_map.mp hr
      obtain ⟨e, he, rfl⟩ := mem_deleted hg
      exact hended j (h.issued e he j hj)

theorem owned_catchError {identity : Identity} {signal : Nat} {job : Job}
    {call : Call} (hi : s.calls[i]? = some call) (hsignal : call.signal = some signal)
    (error : JobError) : Owned (catchError identity s i signal job error) :=
  owned_go_on h hi (.caught signal job error (s.jobs.latest identity)) hsignal.symm
    (by rw [hsignal]; rfl) rfl rfl (fun _ he => Or.inr he) rfl rfl

theorem owned_launch {identity : Identity} {signal : Nat} {job : Job}
    {call : Call} (hi : s.calls[i]? = some call) (hsignal : call.signal = some signal)
    (grants : List SecretGrant) (now : Int) : Owned (launch identity s i signal job grants now) :=
  owned_go_on h hi (.running signal job s.jobs.processes.length) hsignal.symm
    (by rw [hsignal]; rfl) rfl rfl
    (fun _ he => mem_registerIssuedSecretGrants he) rfl (startLoop_aborted job signal)

theorem owned_ask (ask : Ask) : Owned (s.ask ask) := owned_frame h rfl rfl rfl rfl rfl

theorem owned_putAsk (i : Nat) (ask : Ask) : Owned (s.putAsk i ask) :=
  owned_frame h rfl rfl rfl rfl rfl

theorem owned_abort : Owned (abort s) := by
  unfold abort
  split
  · refine owned_frame h rfl rfl rfl rfl ?_
    rw [List.length_set]
  · exact h

/-- A change of the job that makes no signal. -/
theorem owned_jobs {jobs : System} (haborted : jobs.aborted = s.jobs.aborted) :
    Owned { s with jobs } :=
  owned_frame h rfl rfl rfl rfl (by rw [haborted])

omit h

end Keeps

section Turns

variable {sha256 : String → String} {identity : Identity} {configured : Phase → Bool}
  {s t : Runtime}

theorem proceed_owned {ask : Ask} {completedAt now : String} (h : Owned s)
    (hask : s.asks[i]? = some ask)
    (hc : registersAlone s (.proceed i completedAt now) = true)
    (ht : proceed identity s i ask completedAt now = some t) : Owned t := by
  cases ask with
  | starting p =>
    simp only [proceed] at ht
    split at ht <;> cases ht <;> exact owned_putAsk h i _
  | launching job =>
    simp only [registersAlone, hask, Option.isNone_iff_eq_none] at hc
    cases ht
    exact owned_register (owned_putAsk h i .ended) hc job
  | pausing latest =>
    cases latest with
    | none =>
      cases ht
      exact owned_putAsk h i .ended
    | some job =>
      have haborted := owned_abort (owned_putAsk h i .ended)
      simp only [proceed] at ht
      split at ht <;> cases ht
      · exact owned_jobs haborted (request_aborted ..)
      · exact haborted
  | cancelling latest =>
    cases latest with
    | none =>
      cases ht
      exact owned_putAsk h i .ended
    | some job =>
      cases ht
      exact owned_jobs (owned_abort (owned_putAsk h i .ended)) (request_aborted ..)
  | resuming latest =>
    cases latest with
    | none =>
      cases ht
      exact owned_putAsk h i .ended
    | some job =>
      cases ht
      exact owned_jobs (owned_putAsk h i _) (request_aborted ..)
  | resumed p =>
    simp only [proceed] at ht
    split at ht <;> cases ht <;> exact owned_putAsk h i _
  | recovering checkpoints =>
    simp only [proceed] at ht
    split at ht
    · rename_i job _
      split at ht <;> cases ht
      · rename_i hnone
        exact owned_register (owned_putAsk h i .ended) (Option.isNone_iff_eq_none.mp hnone) job
      · exact owned_putAsk h i .ended
    · cases ht
      exact owned_putAsk h i .ended
  | ended => cases ht

attribute [local simp] step

theorem profile_owned {outcome : Except JobError (List (String × Json))}
    {expiresAt : Int} (h : Owned s)
    (ht : step sha256 identity configured s (.profile i outcome expiresAt now) = some t) :
    Owned t := by
  simp only [step] at ht
  split at ht
  · rename_i signal job hi
    split at ht <;> cases ht
    · exact owned_catchError h hi rfl _
    · exact owned_launch h hi rfl [] now
    · exact owned_go_on h hi (.granting signal job _ _) rfl rfl rfl rfl (fun _ he => Or.inr he)
        rfl rfl
  · cases ht

theorem granted_owned {outcome : Except JobError Unit} (h : Owned s)
    (ht : step sha256 identity configured s (.granted i outcome now) = some t) : Owned t := by
  simp only [step] at ht
  split at ht
  · rename_i signal job grants left hi
    split at ht
    · cases ht
      exact owned_catchError h hi rfl _
    · split at ht <;> cases ht
      · exact owned_launch h hi rfl grants now
      · exact owned_go_on h hi (.granting signal job grants (left - 1)) rfl rfl rfl rfl
          (fun _ he => Or.inr he) rfl rfl
  · cases ht

theorem settle_owned {error : JobError} (h : Owned s)
    (ht : step sha256 identity configured s (.settle i error now) = some t) : Owned t := by
  simp only [step] at ht
  split at ht
  · rename_i signal job p hi
    split at ht <;> cases ht
    · exact owned_cleanUp h hi rfl now
    · exact owned_catchError h hi rfl error
  · cases ht

theorem close_owned (h : Owned s)
    (ht : step sha256 identity configured s (.close i now) = some t) : Owned t := by
  simp only [step] at ht
  split at ht
  · rename_i signal job error latest hi
    cases ht
    have hfails : Owned { s with jobs := startFail identity s.jobs (latest.getD job) error } :=
      owned_jobs h rfl
    exact owned_cleanUp hfails hi rfl now
  · cases ht

/-- Every turn in which a call registers alone keeps the invariant. -/
theorem step_owned (a : Turn) (h : Owned s) (hc : registersAlone s a = true)
    (ht : step sha256 identity configured s a = some t) : Owned t := by
  cases a with
  | start now =>
    cases ht
    exact owned_jobs (owned_ask h _) (request_aborted ..)
  | pause | resume | cancel | recover =>
    cases ht
    exact owned_ask h _
  | proceed i completedAt now =>
    obtain ⟨ask, hask, hproceed⟩ := Option.bind_eq_some_iff.mp ht
    exact proceed_owned h hask hc hproceed
  | process turn =>
    simp only [step] at ht
    split at ht
    · rename_i hturn
      obtain ⟨jobs, hjobs, rfl⟩ := Option.map_eq_some_iff.mp ht
      exact owned_jobs h (process_aborted hturn hjobs)
    · cases ht
  | profile i outcome expiresAt now => exact profile_owned h ht
  | granted i outcome now => exact granted_owned h ht
  | settle i error now => exact settle_owned h ht
  | close i now => exact close_owned h ht

end Turns

theorem owned_start (log : Log Job) (others : List SecretGrant) : Owned (start log others) := by
  refine ⟨?_, ?_, ?_, ?_, ?_⟩
  · intro i call signal hi
    simp [start] at hi
  · intro i j call other hi
    simp [start] at hi
  · intro signal hc
    cases hc
  · intro e he i hi
    obtain ⟨grant, _, rfl⟩ := List.mem_map.mp (OrderedMap.mem_of_mem_ofList he)
    cases hi
  · intro r hr
    cases hr

/-! ## The law -/

section Law

variable {identity : Identity} {s : Runtime} {i signal : Nat}

theorem Owned.controllerLives (h : Owned s) (hlive : Live s i signal) : ControllerLives s := by
  obtain ⟨call, hi, _, hsignal⟩ := id hlive
  exact ⟨signal, h.own i call signal hi hsignal, i, hlive⟩

theorem Owned.grantsKept (h : Owned s) (hlive : Live s i signal) : GrantsKept s i := by
  obtain ⟨call, hi, hopen, _⟩ := hlive
  intro r hr hissued
  rw [h.revoked r hr i hissued] at hi
  cases hi
  cases hopen

theorem isAborted_abort (h : Owned s) (hc : s.controller = some signal) :
    (abort s).jobs.isAborted signal = true := by
  unfold abort System.isAborted
  rw [hc]
  dsimp only
  rw [List.getElem?_set_self (h.made signal hc)]
  rfl

theorem Owned.abortable (h : Owned s) (hc : s.controller = some signal) :
    Abortable identity s signal := by
  intro j ask completedAt now t hask ht
  have haborted : (abort (s.putAsk j .ended)).jobs.isAborted signal = true :=
    isAborted_abort (owned_putAsk h j .ended) hc
  have hrequest : ∀ (job : Job) (allowed : Bool) (message : String),
      (request identity (abort (s.putAsk j .ended)).jobs job allowed message).isAborted signal =
        true := by
    intro job allowed message
    unfold System.isAborted at haborted ⊢
    rw [request_aborted]
    exact haborted
  obtain ⟨job, rfl | rfl⟩ := hask
  · simp only [proceed] at ht
    split at ht <;> cases ht
    · exact hrequest _ _ _
    · exact haborted
  · cases ht
    exact hrequest _ _ _

end Law

/-- In every interleaving in which calls register only while no controller is registered, the
controller is that of a live loop as long as there is one, a pause or a cancel aborts this loop,
and its grants are registered until it ends itself. -/
theorem live_loops_keep_controller_and_grants (sha256 : String → String) (identity : Identity)
    (configured : Phase → Bool) (log : Log Job) (others : List SecretGrant) (turns : List Turn)
    (s : Runtime)
    (hrun : Machine.run (step sha256 identity configured) (start log others) turns = some s)
    (hc : Machine.Along (step sha256 identity configured)
      (fun s a => registersAlone s a = true) (start log others) turns)
    (i signal : Nat) (hlive : Live s i signal) :
    ControllerLives s ∧ Abortable identity s signal ∧ GrantsKept s i := by
  have howned : Owned s := Machine.run_keeps_along
    (fun s a t h hca hstep => step_owned a h hca hstep) hrun hc (owned_start log others)
  obtain ⟨call, hi, _, hsignal⟩ := id hlive
  exact ⟨howned.controllerLives hlive, howned.abortable (howned.own i call signal hi hsignal),
    howned.grantsKept hlive⟩

/-! ## A loop that ends after a newer one has begun -/

/-- SHA-256 on what the ids of the two checkpoints below are made from. -/
def runDigest : String → String :=
  tabledDigest [(9387, "7260ef370b27a1c84882fad694f3832d2ce4e8e4e96173989081da49285723db"),
    (9483, "36676e51bd4e44bb908e97e947efc3fde4a1dc5057454dadf085be0e45e18b77")]

/-- A restarted server finds the job of the sample running. -/
def storedJob : Log Job :=
  [(("P", "WORKSPACE-ANALYSIS-JOB-CHECKPOINT-3e49d9cdb216c990023b437d"),
    { id := "WORKSPACE-ANALYSIS-JOB-CHECKPOINT-3e49d9cdb216c990023b437d"
      jobId := "JOB", checkpointSequence := 1, state := startedJob noon
      details := detailsOf sampleJob (startedJob noon) })]

def sampleTurn : Runtime → Turn → Option Runtime := step runDigest sampleJob fun _ => true

def restarted : Runtime := start storedJob []

/-- A run with one grant gets going: its profile is read, its grant is stored. -/
def getsGoing (call : Nat) (grant : String) : List Turn :=
  [.profile call (.ok [(grant, .null)]) 3600000 0, .granted call (.ok ()) 0]

/-- The job is recovered, and its first handler works. -/
def recovered : List Turn :=
  [.recover, .proceed 0 noon noon] ++ getsGoing 0 "SECRET-GRANT-1" ++
    [.process (.next 0 noon noon), .process (.authorize 0 (.ok ()))]

/-- The job is paused and resumed, and a second loop runs. -/
def pausedAndResumed : List Turn :=
  [.pause, .proceed 1 noon noon, .process (.next 1 noon noon), .resume, .proceed 2 noon noon,
    .process (.next 2 noon noon), .process (.next 2 noon noon), .proceed 2 noon noon,
    .proceed 2 noon noon] ++ getsGoing 1 "SECRET-GRANT-2"

def abortError : JobError where
  code := "ABORT_ERR"
  message := "This operation was aborted"
  retryable := false

/-- The handler of the first loop rejects, as it was aborted, and this loop ends. -/
def firstLoopEnds : List Turn :=
  [.process (.handle 0 (typeError "This operation was aborted")), .settle 0 abortError 0, .close 0 0]

theorem recovered_loop_keeps_controller_and_grants :
    ∃ s, Machine.run sampleTurn restarted recovered = some s ∧ Live s 0 0 ∧
      ControllerLives s ∧ Abortable sampleJob s 0 ∧ GrantsKept s 0 := by
  have hrun : (Machine.run (Machine.guarded sampleTurn registersAlone) restarted recovered).map
      (fun s => s.calls[0]?.any fun call => call.live s.jobs && call.signal = some 0) =
      some true := by decide +kernel
  obtain ⟨s, hguarded, hany⟩ := Option.map_eq_some_iff.mp hrun
  obtain ⟨hs, halong⟩ := Machine.run_guarded hguarded
  obtain ⟨call, hcall, hboth⟩ := (Option.any_eq_true _ _).mp hany
  simp only [Bool.and_eq_true, decide_eq_true_eq] at hboth
  have hlive : Live s 0 0 := ⟨call, hcall, hboth⟩
  exact ⟨s, hs, hlive, live_loops_keep_controller_and_grants runDigest sampleJob (fun _ => true)
    storedJob [] recovered s hs halong 0 0 hlive⟩

/-- The second loop runs, but its controller and its grant are gone. -/
theorem older_loop_clears_the_controller_of_a_newer_one :
    ¬ ∀ (turns : List Turn) (s : Runtime), Machine.run sampleTurn restarted turns = some s →
      ∀ i signal, Live s i signal →
        ControllerLives s ∧ Abortable sampleJob s signal ∧ GrantsKept s i := by
  intro h
  have hrun : (Machine.run sampleTurn restarted
      (recovered ++ pausedAndResumed ++ firstLoopEnds)).map
      (fun s => (s.calls[1]?.any fun call => call.live s.jobs && call.signal = some 1) &&
        s.controller = none) = some true := by decide +kernel
  obtain ⟨s, hs, hfound⟩ := Option.map_eq_some_iff.mp hrun
  obtain ⟨hany, hnone⟩ := Bool.and_eq_true_iff.mp hfound
  obtain ⟨call, hcall, hboth⟩ := (Option.any_eq_true _ _).mp hany
  simp only [Bool.and_eq_true, decide_eq_true_eq] at hboth hnone
  obtain ⟨⟨signal, hsome, _⟩, _⟩ := h _ s hs 1 1 ⟨call, hcall, hboth⟩
  rw [hnone] at hsome
  cases hsome

end Traqen.RunControllers
