-- Reverse Run jobs (`domain/reverse-job.js`, `submitReverseRun`, `cancelReverseRun`,
-- `resumeReverseRun` and `#runReverseJob` of the application, and the job log of the
-- memory store). A request reads the log, and appends to it after further waits;
-- the worker in the background appends to the same log.
import Traqen.CanonicalJson
import Traqen.Model
import Traqen.Lib.Machine

open Js

namespace Traqen.ReverseJob

/-! ## The job and its log -/

inductive JobStatus where
  | QUEUED
  | STARTED
  | CANCEL_REQUESTED
  | COMPLETED
  | FAILED
  | CANCELLED
deriving DecidableEq, Repr

instance : EnumValues JobStatus where
  names := ["QUEUED", "STARTED", "CANCEL_REQUESTED", "COMPLETED", "FAILED", "CANCELLED"]
  name
    | .QUEUED => "QUEUED"
    | .STARTED => "STARTED"
    | .CANCEL_REQUESTED => "CANCEL_REQUESTED"
    | .COMPLETED => "COMPLETED"
    | .FAILED => "FAILED"
    | .CANCELLED => "CANCELLED"

def JobStatus.terminal : JobStatus → Bool
  | .COMPLETED | .FAILED | .CANCELLED => true
  | _ => false

structure ReverseRunJob where
  id : String
  projectId : String
  request : Json
  createdAt : String
deriving DecidableEq

def ReverseRunJob.toJson (job : ReverseRunJob) : Json :=
  .obj [("id", .str job.id), ("projectId", .str job.projectId), ("request", job.request),
    ("createdAt", .str job.createdAt)]

structure JobEvent where
  id : String
  jobId : String
  status : JobStatus
  details : Json
  occurredAt : String
deriving DecidableEq

def JobEvent.toJson (e : JobEvent) : Json :=
  .obj [("id", .str e.id), ("jobId", .str e.jobId), ("status", enumJson e.status),
    ("details", e.details), ("occurredAt", .str e.occurredAt)]

def createReverseRunJob (input : Json) (now : Instant) : Except Failure ReverseRunJob :=
  if !input.isObject then typeError "reverse run job input must be an object"
  else do
    let id ← requireNonEmptyString (field input "id") "reverseRunJob.id"
    let projectId ← requireNonEmptyString (field input "projectId") "reverseRunJob.projectId"
    let _ ←
      requireNonEmptyString (field input "snapshotManifestId") "reverseRunJob.snapshotManifestId"
    let _ ←
      requireNonEmptyString (field input "sourceComponentId") "reverseRunJob.sourceComponentId"
    if !hasItems (field input "factBundleIds") then
      typeError "reverseRunJob.factBundleIds must be a non-empty array"
    else if !hasItems (field input "skills") then
      typeError "reverseRunJob.skills must be a non-empty array"
    else return { id, projectId, request := input, createdAt := now.iso }

/-- What a projection tells of the log, besides the job and the run themselves. -/
structure Projection where
  status : JobStatus
  terminal : Bool
  cancelRequested : Bool
  events : List JobEvent
  updatedAt : String

def projectReverseRunJob (events : List JobEvent) : Except Failure Projection :=
  match events.getLast? with
  | none => typeError "reverse run job events must be non-empty"
  | some latest =>
    .ok { status := latest.status, terminal := latest.status.terminal
          cancelRequested := events.any fun e => e.status = .CANCEL_REQUESTED
          events, updatedAt := latest.occurredAt }

/-! ## The turns of the requests and of the worker -/

/-- How `executeReverseRun` ends: with a run and its status, or with an error. -/
inductive Outcome where
  | returned (runStatus : String)
  | threw (name message : String)

inductive Process where
  /-- submit: the job was read. -/
  | submitRead (job : ReverseRunJob) (existing : Option ReverseRunJob)
  /-- submit: the run of the same id was read. -/
  | submitChecked (job : ReverseRunJob) (runExists : Bool)
  /-- submit: the job and its QUEUED event are stored. -/
  | submitStored
  /-- cancel: the projection read the log. -/
  | cancelRead (events : List JobEvent)
  /-- cancel: the number of events was read for CANCEL_REQUESTED. -/
  | requesting (count : Nat)
  | requested
  /-- cancel or resume: the number of events was read for the CANCELLED of a recovery. -/
  | recovering (count : Nat)
  /-- resume: the projection read the log. -/
  | resumeRead (events : List JobEvent)
  /-- resume: the job was read again. -/
  | relaunching
  | launched (controller : Nat)
  /-- worker: the number of events was read for STARTED. -/
  | starting (controller count : Nat)
  | executing (controller : Nat)
  /-- worker: the number of events was read for the event that ends the `try` block. -/
  | finishing (controller count : Nat) (status : JobStatus) (details : Json)
  /-- worker: the number of events was read for the event of the `catch` block. -/
  | failing (count : Nat) (status : JobStatus) (details : Json)
  | ended
  | done (result : Except Failure Unit)

structure System where
  job : Option ReverseRunJob
  log : List JobEvent
  runStored : Bool
  /-- The controller that the map holds for the job. -/
  controller : Option Nat
  /-- Whether each controller that was made is aborted. -/
  aborted : List Bool
  processes : List Process

inductive Turn where
  | submit (input : Json) (now : Instant)
  | cancel
  | resume
  | next (process : Nat) (now : Instant)
  | execute (process : Nat) (outcome : Outcome) (storesRun : Bool)

def System.put (s : System) (i : Nat) (p : Process) : System :=
  { s with processes := s.processes.set i p }

def System.isAborted (s : System) (controller : Nat) : Bool :=
  s.aborted[controller]?.getD false

/-- A new controller in the map, and a worker that will run with it. -/
def System.launch (s : System) : System :=
  { s with
    controller := some s.aborted.length
    aborted := s.aborted ++ [false]
    processes := s.processes ++ [.launched s.aborted.length] }

def phase (name : String) : Json := .obj [("phase", .str name)]

def runDetails (runStatus : String) : Json := .obj [("runStatus", .str runStatus)]

def errorDetails (name message : String) : Json :=
  .obj [("error", .obj [("name", .str name), ("message", .str message)])]

/-- The status that the outcome of the run leads to. -/
def runStatusEvent (runStatus : String) : JobStatus :=
  if runStatus = "CANCELLED" then .CANCELLED
  else if runStatus = "FAILED" then .FAILED
  else .COMPLETED

/-- The status that an error leads to. -/
def errorStatusEvent (aborted : Bool) (name : String) : JobStatus :=
  if aborted || name = "AbortError" then .CANCELLED else .FAILED

section Steps

variable (sha256 : String → String) (dateParse : String → Option Int) (projectId jobId : String)

def eventId (sequence : Nat) (status : JobStatus) : String :=
  contentId sha256 "REVERSE-RUN-JOB-EVENT"
    (.obj [("jobId", .str jobId), ("sequence", .num (Number.ofNat sequence)),
      ("status", enumJson status)])

def createReverseRunJobEvent (id : String) (status : JobStatus) (details : Json) (now : Instant) :
    Except Failure JobEvent := do
  let _ ← requireIsoTimestamp dateParse (some (.str now.iso)) "reverseRunJobEvent.occurredAt"
  let id ← requireNonEmptyString (some (.str id)) "reverseRunJobEvent.id"
  let jobId ← requireNonEmptyString (some (.str jobId)) "reverseRunJobEvent.jobId"
  return { id, jobId, status, details, occurredAt := now.iso }

/-- The insertion of the store. -/
def appendReverseRunJobEvent (log : List JobEvent) (event : JobEvent) :
    Except Failure (List JobEvent) :=
  match log.find? fun x => x.id = event.id with
  | some existing =>
    if canonicalJson existing.toJson ≠ canonicalJson event.toJson then
      conflictError ("ReverseRunJobEvent " ++ event.id ++ " conflicts with an existing record")
    else .ok log
  | none => .ok (log ++ [event])

/-- The second half of `#appendReverseJobStatus`: `count` events were read before. -/
def appendReverseJobStatus (log : List JobEvent) (count : Nat) (status : JobStatus)
    (details : Json) (now : Instant) : Except Failure (List JobEvent) := do
  let event ← createReverseRunJobEvent dateParse jobId
    (eventId sha256 jobId (count + 1) status) status details now
  appendReverseRunJobEvent log event

/-- The insertion of a job with its first event. -/
def appendReverseRunJob (s : System) (job : ReverseRunJob) (now : Instant) :
    Except Failure System := do
  let queued ← createReverseRunJobEvent dateParse jobId (eventId sha256 jobId 1 .QUEUED) .QUEUED
    (.obj []) now
  if s.job.any fun existing => canonicalJson existing.toJson ≠ canonicalJson job.toJson then
    conflictError ("ReverseRunJob " ++ job.id ++ " conflicts with an existing record")
  else
    let stored := { s with job := some (s.job.getD job) }
    let log ← appendReverseRunJobEvent s.log queued
    return { stored with log }

/-- The end of a cancel: abort the controller of the map, or cancel a job that nothing runs. -/
def abortOrRecover (s : System) (i : Nat) : System :=
  match s.controller with
  | some c => { s with aborted := s.aborted.set c true }.put i (.done (.ok ()))
  | none => s.put i (.recovering s.log.length)

def alreadyEnded {α : Type} (p : Projection) : Except Failure α :=
  conflictError ("ReverseRunJob " ++ jobId ++ " is already " ++ EnumValues.name p.status)

/-- The next turn of a process. -/
def advance (s : System) (i : Nat) (p : Process) (now : Instant) : Option System :=
  match p with
  | .submitRead job (some existing) =>
    if canonicalJson existing.request ≠ canonicalJson job.request then
      some (s.put i (.done (conflictError
        ("ReverseRunJob " ++ job.id ++ " already exists with a different request"))))
    else some (s.put i (.done (.ok ())))
  | .submitRead job none => some (s.put i (.submitChecked job s.runStored))
  | .submitChecked job true =>
    some (s.put i (.done (conflictError
      ("ReverseRun " ++ job.id ++ " already exists without an asynchronous job record"))))
  | .submitChecked job false =>
    match appendReverseRunJob sha256 dateParse jobId s job now with
    | .error e => some (s.put i (.done (.error e)))
    | .ok s' => some (s'.put i .submitStored)
  | .submitStored => some (s.put i (.done (.ok ()))).launch
  | .cancelRead events =>
    match projectReverseRunJob events with
    | .error e => some (s.put i (.done (.error e)))
    | .ok p =>
      if p.terminal then some (s.put i (.done (alreadyEnded jobId p)))
      else if !p.cancelRequested then some (s.put i (.requesting s.log.length))
      else some (abortOrRecover s i)
  | .requesting count =>
    match appendReverseJobStatus sha256 dateParse jobId s.log count .CANCEL_REQUESTED (.obj []) now
    with
    | .error e => some (s.put i (.done (.error e)))
    | .ok log => some ({ s with log }.put i .requested)
  | .requested => some (abortOrRecover s i)
  | .recovering count =>
    match appendReverseJobStatus sha256 dateParse jobId s.log count .CANCELLED (phase "RECOVERY") now
    with
    | .error e => some (s.put i (.done (.error e)))
    | .ok log => some ({ s with log }.put i (.done (.ok ())))
  | .resumeRead events =>
    match projectReverseRunJob events with
    | .error e => some (s.put i (.done (.error e)))
    | .ok p =>
      if p.terminal then some (s.put i (.done (alreadyEnded jobId p)))
      else if s.controller.isSome then some (s.put i (.done (.ok ())))
      else if p.cancelRequested then some (s.put i (.recovering s.log.length))
      else some (s.put i .relaunching)
  | .relaunching => some (s.put i (.done (.ok ()))).launch
  | .launched c =>
    if s.isAborted c then
      some (s.put i (.finishing c s.log.length .CANCELLED (phase "BEFORE_START")))
    else some (s.put i (.starting c s.log.length))
  | .starting c count =>
    match appendReverseJobStatus sha256 dateParse jobId s.log count .STARTED (.obj []) now with
    | .error e =>
      let status := errorStatusEvent (s.isAborted c) e.name.text
      some (s.put i (.failing s.log.length status (errorDetails e.name.text e.message)))
    | .ok log => some ({ s with log }.put i (.executing c))
  | .finishing c count status details =>
    match appendReverseJobStatus sha256 dateParse jobId s.log count status details now with
    | .error e =>
      let status := errorStatusEvent (s.isAborted c) e.name.text
      some (s.put i (.failing s.log.length status (errorDetails e.name.text e.message)))
    | .ok log => some ({ s with log }.put i .ended)
  | .failing count status details =>
    match appendReverseJobStatus sha256 dateParse jobId s.log count status details now with
    | .error _ => some (s.put i .ended)
    | .ok log => some ({ s with log }.put i .ended)
  | .ended => some ({ s with controller := none }.put i (.done (.ok ())))
  | .executing _ | .done _ => none

/-- The run ends, and the number of events is read for the event that says so. -/
def finishRun (s : System) (i c : Nat) : Outcome → System
  | .returned runStatus =>
    s.put i (.finishing c s.log.length (runStatusEvent runStatus) (runDetails runStatus))
  | .threw name message =>
    s.put i (.failing s.log.length (errorStatusEvent (s.isAborted c) name)
      (errorDetails name message))

def step (s : System) : Turn → Option System
  | .submit input now =>
    match createReverseRunJob input now with
    | .error e => some { s with processes := s.processes ++ [.done (.error e)] }
    | .ok job =>
      if job.id = jobId ∧ job.projectId = projectId then
        some { s with processes := s.processes ++ [.submitRead job s.job] }
      else none
  | .cancel =>
    some { s with processes := s.processes ++
      [if s.job.isSome then .cancelRead s.log else .done (.ok ())] }
  | .resume =>
    some { s with processes := s.processes ++
      [if s.job.isSome then .resumeRead s.log else .done (.ok ())] }
  | .next i now => s.processes[i]?.bind fun p => advance sha256 dateParse jobId s i p now
  | .execute i outcome storesRun =>
    match s.processes[i]? with
    | some (.executing c) =>
      some (finishRun { s with runStored := s.runStored || storesRun } i c outcome)
    | _ => none

end Steps

def start : System :=
  { job := none, log := [], runStored := false, controller := none, aborted := [],
    processes := [] }

/-! ## The invariant -/

/-- A worker that has still to append the event that ends the job. -/
def Process.live : Process → Bool
  | .launched _ | .starting .. | .executing _ | .finishing .. | .failing .. => true
  | _ => false

/-- A process that can be there before the job is stored. -/
def Process.early : Process → Bool
  | .submitRead .. | .submitChecked .. | .done _ => true
  | _ => false

/-- The projection of the log is not terminal. -/
def isOpen (log : List JobEvent) : Bool :=
  match projectReverseRunJob log with
  | .ok p => !p.terminal
  | .error _ => true

def Absorbing (log : List JobEvent) : Prop :=
  ∀ before e after, log = before ++ e :: after → e.status.terminal = true → after = []

structure Good (sha256 : String → String) (jobId : String) (s : System) : Prop where
  absorbing : Absorbing s.log
  idle : ∀ (i : Nat) (p : Process), s.processes[i]? = some p → p.live = true →
    isOpen s.log = true
  one : ∀ (i j : Nat) (p q : Process), s.processes[i]? = some p → s.processes[j]? = some q →
    p.live = true → q.live = true → i = j
  begun : ∀ (i : Nat) (p : Process), s.processes[i]? = some p → p.early = false →
    s.job.isSome = true
  queued : s.job.isSome = true → ∃ e ∈ s.log, e.id = eventId sha256 jobId 1 .QUEUED
  unjobbed : s.job = none → s.log = []

theorem project_append (log : List JobEvent) (e : JobEvent) :
    ∃ p, projectReverseRunJob (log ++ [e]) = .ok p ∧ p.status = e.status ∧
      p.terminal = e.status.terminal := by
  unfold projectReverseRunJob
  rw [List.getLast?_concat]
  exact ⟨_, rfl, rfl, rfl⟩

theorem isOpen_append (log : List JobEvent) (e : JobEvent) :
    isOpen (log ++ [e]) = !e.status.terminal := by
  simp [isOpen, projectReverseRunJob]

variable {log log' : List JobEvent}

theorem no_terminal_of_open (ha : Absorbing log) (ho : isOpen log = true) :
    ∀ e ∈ log, e.status.terminal = false := by
  intro e he
  rw [Bool.eq_false_iff]
  intro ht
  obtain ⟨before, after, rfl⟩ := List.append_of_mem he
  obtain rfl := ha before e after rfl ht
  rw [isOpen_append, ht] at ho
  cases ho

theorem absorbing_append (ha : Absorbing log) (ho : isOpen log = true)
    (e : JobEvent) : Absorbing (log ++ [e]) := by
  intro before x after heq hx
  rcases List.eq_nil_or_concat after with rfl | ⟨after, y, rfl⟩
  · rfl
  · rw [List.concat_eq_append, ← List.cons_append, ← List.append_assoc] at heq
    obtain ⟨hlog, _⟩ := List.append_inj' heq rfl
    rw [no_terminal_of_open ha ho x (by simp [hlog])] at hx
    cases hx

section Laws

variable {sha256 : String → String} {dateParse : String → Option Int} {projectId jobId : String}

theorem appendReverseRunJobEvent_ok {event : JobEvent}
    (h : appendReverseRunJobEvent log event = .ok log') :
    (∃ x ∈ log, x.id = event.id) ∧ log' = log ∨
      (∀ x ∈ log, x.id ≠ event.id) ∧ log' = log ++ [event] := by
  unfold appendReverseRunJobEvent conflictError at h
  split at h
  · rename_i existing hfind
    split at h
    · cases h
    · cases h
      exact Or.inl ⟨⟨existing, List.mem_of_find?_eq_some hfind,
        by simpa using List.find?_some hfind⟩, rfl⟩
  · rename_i hfind
    cases h
    exact Or.inr ⟨by simpa using List.find?_eq_none.mp hfind, rfl⟩

variable {details : Json} {status : JobStatus} {now : Instant}

theorem createReverseRunJobEvent_ok {id : String} {e : JobEvent}
    (h : createReverseRunJobEvent dateParse jobId id status details now = .ok e) :
    e.id = id ∧ e.status = status := by
  obtain ⟨_, _, h⟩ := bind_ok h
  obtain ⟨id', hid, h⟩ := bind_ok h
  obtain ⟨_, _, h⟩ := bind_ok h
  cases h
  obtain ⟨hid', _⟩ := requireNonEmptyString_ok hid
  simp only [Option.some.injEq, Json.str.injEq] at hid'
  exact ⟨hid'.symm, rfl⟩

variable {count i j : Nat}

theorem appendReverseJobStatus_ok
    (h : appendReverseJobStatus sha256 dateParse jobId log count status details now = .ok log') :
    log' = log ∨ ∃ e, log' = log ++ [e] ∧ e.status = status := by
  obtain ⟨e, he, h⟩ := bind_ok h
  rcases appendReverseRunJobEvent_ok h with ⟨_, h⟩ | ⟨_, h⟩
  · exact Or.inl h
  · exact Or.inr ⟨e, h, (createReverseRunJobEvent_ok he).2⟩

/-- One process moves on, and the log grows by one event at most. -/
structure Moves (s t : System) (i : Nat) (p p' : Process) : Prop where
  processes : t.processes = s.processes.set i p'
  at_ : s.processes[i]? = some p
  job : t.job = s.job
  live : p'.live = true → p.live = true
  early : p'.early = false → p.early = false

variable {p p' q : Process} {s t : System}

theorem moved_get (h : Moves s t i p p') (hq : t.processes[j]? = some q) :
    ∃ q₀, s.processes[j]? = some q₀ ∧ (q.live = true → q₀.live = true) ∧
      (q.early = false → q₀.early = false) := by
  rw [h.processes, List.getElem?_set] at hq
  split at hq
  · rename_i heq
    subst heq
    split at hq
    · cases hq
      exact ⟨p, h.at_, h.live, h.early⟩
    · cases hq
  · exact ⟨q, hq, fun hl => hl, fun he => he⟩

variable (hg : Good sha256 jobId s)
include hg

theorem good_same_log (h : Moves s t i p p') (hlog : t.log = s.log) : Good sha256 jobId t := by
  refine ⟨hlog ▸ hg.absorbing, ?_, ?_, ?_, ?_, ?_⟩
  · intro j q hq hl
    obtain ⟨q₀, hq₀, hl₀, _⟩ := moved_get h hq
    exact hlog ▸ hg.idle j q₀ hq₀ (hl₀ hl)
  · intro j k q r hq hr hlq hlr
    obtain ⟨q₀, hq₀, hl₀, _⟩ := moved_get h hq
    obtain ⟨r₀, hr₀, hm₀, _⟩ := moved_get h hr
    exact hg.one j k q₀ r₀ hq₀ hr₀ (hl₀ hlq) (hm₀ hlr)
  · intro j q hq he
    obtain ⟨q₀, hq₀, _, he₀⟩ := moved_get h hq
    exact h.job ▸ hg.begun j q₀ hq₀ (he₀ he)
  · intro hj
    exact hlog ▸ hg.queued (h.job ▸ hj)
  · intro hj
    exact hlog ▸ hg.unjobbed (h.job ▸ hj)

theorem good_append {e : JobEvent}
    (h : Moves s t i p p') (hlog : t.log = s.log ++ [e])
    (hopen : isOpen s.log = true) (hearly : p.early = false)
    (hterminal : e.status.terminal = true → ∀ (j : Nat) (q : Process),
      t.processes[j]? = some q → q.live = false) :
    Good sha256 jobId t := by
  have hjob := hg.begun i p h.at_ hearly
  refine ⟨hlog ▸ absorbing_append hg.absorbing hopen e, ?_, ?_, ?_, ?_, ?_⟩
  · intro j q hq hl
    rw [hlog, isOpen_append]
    cases ht : e.status.terminal with
    | false => rfl
    | true =>
      rw [hterminal ht j q hq] at hl
      cases hl
  · intro j k q r hq hr hlq hlr
    obtain ⟨q₀, hq₀, hl₀, _⟩ := moved_get h hq
    obtain ⟨r₀, hr₀, hm₀, _⟩ := moved_get h hr
    exact hg.one j k q₀ r₀ hq₀ hr₀ (hl₀ hlq) (hm₀ hlr)
  · intro _ _ _ _
    rw [h.job, hjob]
  · intro _
    obtain ⟨x, hx, hid⟩ := hg.queued hjob
    exact ⟨x, by simp [hlog, hx], hid⟩
  · intro hj
    rw [h.job] at hj
    rw [hj] at hjob
    cases hjob

/-- Nobody is left alive once the only live process has appended its last event. -/
theorem none_live_of_ended (h : Moves s t i p p') (hp : p.live = true) (hp' : p'.live = false)
    (hq : t.processes[j]? = some q) : q.live = false := by
  rw [h.processes, List.getElem?_set] at hq
  split at hq
  · split at hq
    · cases hq
      exact hp'
    · cases hq
  · rename_i hne
    rw [Bool.eq_false_iff]
    intro hl
    exact hne (hg.one i j p q h.at_ hq hp hl)

omit hg in
theorem none_live_of_none (h : Moves s t i p p') (hnone : ∀ q ∈ s.processes, q.live = false)
    (hq : t.processes[j]? = some q) : q.live = false := by
  obtain ⟨q₀, hq₀, hl, _⟩ := moved_get h hq
  rw [Bool.eq_false_iff]
  intro hlive
  rw [hnone q₀ (List.mem_of_getElem? hq₀)] at hl
  cases hl hlive

/-- A worker is launched into an open job that has no live worker. -/
theorem good_launch (hopen : isOpen s.log = true)
    (hnone : ∀ q ∈ s.processes, q.live = false) (hjob : s.job.isSome = true) :
    Good sha256 jobId s.launch := by
  have hget : ∀ (j : Nat) (q : Process), s.launch.processes[j]? = some q →
      s.processes[j]? = some q ∨ j = s.processes.length := by
    intro j q hq
    simp only [System.launch, List.getElem?_append, List.getElem?_singleton] at hq
    split at hq
    · exact Or.inl hq
    · split at hq
      · exact Or.inr (by omega)
      · cases hq
  have hnew : ∀ (j : Nat) (q : Process), s.launch.processes[j]? = some q → q.live = true →
      j = s.processes.length := by
    intro j q hq hl
    rcases hget j q hq with h | h
    · rw [hnone q (List.mem_of_getElem? h)] at hl
      cases hl
    · exact h
  refine ⟨hg.absorbing, fun _ _ _ _ => hopen, ?_, fun _ _ _ _ => hjob, hg.queued, hg.unjobbed⟩
  intro j k q r hq hr hlq hlr
  rw [hnew j q hq hlq, hnew k r hr hlr]

theorem good_spawn (hlive : p.live = false) (hearly : p.early = false → s.job.isSome = true) :
    Good sha256 jobId { s with processes := s.processes ++ [p] } := by
  have hget : ∀ (j : Nat) (q : Process), (s.processes ++ [p])[j]? = some q →
      s.processes[j]? = some q ∨ q = p := by
    intro j q hq
    rw [List.getElem?_append] at hq
    split at hq
    · exact Or.inl hq
    · exact Or.inr (List.mem_singleton.mp (List.mem_of_getElem? hq))
  have hold : ∀ (j : Nat) (q : Process), (s.processes ++ [p])[j]? = some q → q.live = true →
      s.processes[j]? = some q := by
    intro j q hq hl
    rcases hget j q hq with h | h
    · exact h
    · rw [h, hlive] at hl
      cases hl
  refine ⟨hg.absorbing, fun j q hq hl => hg.idle j q (hold j q hq hl) hl, ?_, ?_, hg.queued,
    hg.unjobbed⟩
  · intro j k q r hq hr hlq hlr
    exact hg.one j k q r (hold j q hq hlq) (hold k r hr hlr) hlq hlr
  · intro j q hq he
    rcases hget j q hq with h | h
    · exact hg.begun j q h he
    · exact hearly (h ▸ he)

/-! ## The condition -/

/-- A cancel and a resume append to a job that is open at that moment; a recovery and the launch
of a worker moreover find no live worker. -/
def meetsOpenJob (s : System) : Turn → Bool
  | .next i _ =>
    match s.processes[i]? with
    | some (.requesting _) => isOpen s.log
    | some (.recovering _) | some .submitStored | some .relaunching =>
      isOpen s.log && s.processes.all fun p => !p.live
    | _ => true
  | _ => true

variable (hi : s.processes[i]? = some p)
include hi

/-- A cancel that goes on after its request appends nothing yet. -/
theorem good_abortOrRecover (hearly : p.early = false) :
    Good sha256 jobId (abortOrRecover s i) := by
  unfold abortOrRecover
  split
  · exact good_same_log hg ⟨rfl, hi, rfl, by simp [Process.live], by simp [Process.early]⟩ rfl
  · exact good_same_log hg ⟨rfl, hi, rfl, by simp [Process.live], fun _ => hearly⟩ rfl

omit hi in
/-- The job and its first event are stored once. -/
theorem good_submit {job : ReverseRunJob}
    (h : appendReverseRunJob sha256 dateParse jobId s job now = .ok t) :
    Good sha256 jobId (t.put i .submitStored) := by
  obtain ⟨queued, hqueued, h⟩ := bind_ok h
  obtain ⟨hid, hstatus⟩ := createReverseRunJobEvent_ok hqueued
  split at h
  · cases h
  · obtain ⟨log, hlog, h⟩ := bind_ok h
    cases h
    have hset : ∀ (j : Nat) (q : Process), (s.processes.set i .submitStored)[j]? = some q →
        q.live = true → s.processes[j]? = some q := by
      intro j q hq hl
      rw [List.getElem?_set] at hq
      split at hq
      · split at hq
        · cases hq
          cases hl
        · cases hq
      · exact hq
    rcases appendReverseRunJobEvent_ok hlog with ⟨⟨x, hx, hxid⟩, rfl⟩ | ⟨hnew, rfl⟩
    · refine ⟨hg.absorbing, fun j q hq hl => hg.idle j q (hset j q hq hl) hl, ?_, fun _ _ _ _ => rfl,
        fun _ => ⟨x, hx, hxid.trans hid⟩, fun hj => by cases hj⟩
      intro j k q r hq hr hlq hlr
      exact hg.one j k q r (hset j q hq hlq) (hset k r hr hlr) hlq hlr
    · -- the QUEUED event of a stored job would have been found
      have hnone : s.job = none := by
        rcases hj : s.job with _ | stored
        · rfl
        · obtain ⟨x, hx, hxid⟩ := hg.queued (by simp [hj])
          exact absurd (hxid.trans hid.symm) (hnew x hx)
      have hempty := hg.unjobbed hnone
      have hopen : isOpen s.log = true := by
        rw [hempty]
        rfl
      refine ⟨absorbing_append hg.absorbing hopen queued, fun j q hq hl => ?_, ?_,
        fun _ _ _ _ => rfl, fun _ => ⟨queued, by simp [System.put], hid⟩, fun hj => by cases hj⟩
      · show isOpen (s.log ++ [queued]) = true
        rw [isOpen_append, hstatus]
        rfl
      · intro j k q r hq hr hlq hlr
        exact hg.one j k q r (hset j q hq hlq) (hset k r hr hlr) hlq hlr

/-- The append of a status by a process that is not early keeps the invariant. -/
theorem good_status (hlive : p'.live = true → p.live = true)
    (hearly : p.early = false) (hopen : isOpen s.log = true)
    (hlast : status.terminal = true →
      (p.live = true ∧ p'.live = false) ∨ ∀ q ∈ s.processes, q.live = false)
    (h : appendReverseJobStatus sha256 dateParse jobId s.log count status details now = .ok log) :
    Good sha256 jobId ({ s with log }.put i p') := by
  have hmoves : Moves s ({ s with log }.put i p') i p p' := ⟨rfl, hi, rfl, hlive, fun _ => hearly⟩
  rcases appendReverseJobStatus_ok h with hlog | ⟨e, hlog, he⟩
  · exact good_same_log hg hmoves hlog
  · refine good_append hg hmoves hlog hopen hearly fun ht j q hq => ?_
    rcases hlast (he ▸ ht) with ⟨h1, h2⟩ | h1
    · exact none_live_of_ended hg hmoves h1 h2 hq
    · exact none_live_of_none hmoves h1 hq

/-- The failure of an append leads a live worker to its `catch` block, or to its end. -/
theorem good_move (hlive : p'.live = true → p.live = true)
    (hearly : p'.early = false → p.early = false) : Good sha256 jobId (s.put i p') :=
  good_same_log hg ⟨rfl, hi, rfl, hlive, hearly⟩ rfl

/-- A process that ends keeps it. -/
theorem good_done (result : Except Failure Unit) : Good sha256 jobId (s.put i (.done result)) :=
  good_move hg hi (by simp [Process.live]) (by simp [Process.early])

theorem good_put_launch
    (hearly : p.early = false) (hopen : isOpen s.log = true)
    (hnone : ∀ q ∈ s.processes, q.live = false) :
    Good sha256 jobId (s.put i (.done (.ok ()))).launch := by
  have hput : Good sha256 jobId (s.put i (.done (.ok ()))) :=
    good_done hg hi _
  refine good_launch hput hopen (fun q hq => ?_) (hg.begun i p hi hearly)
  rcases List.mem_or_eq_of_mem_set hq with h | h
  · exact hnone q h
  · rw [h]
    rfl

theorem advance_good (hc : meetsOpenJob s (.next i now) = true)
    (h : advance sha256 dateParse jobId s i p now = some t) : Good sha256 jobId t := by
  have hopen : p.live = true → isOpen s.log = true := fun hl => hg.idle i p hi hl
  cases p with
  | submitRead job existing =>
    cases existing with
    | none =>
      cases h
      exact good_move hg hi (by simp [Process.live]) (by simp [Process.early])
    | some existing =>
      simp only [advance] at h
      split at h <;> cases h <;> exact good_done hg hi _
  | submitChecked job runExists =>
    cases runExists with
    | true =>
      cases h
      exact good_done hg hi _
    | false =>
      simp only [advance] at h
      split at h
      · cases h
        exact good_done hg hi _
      · rename_i s' hs'
        cases h
        exact good_submit hg hs'
  | submitStored =>
    cases h
    simp only [meetsOpenJob, hi, Bool.and_eq_true, List.all_eq_true, Bool.not_eq_true'] at hc
    exact good_put_launch hg hi rfl hc.1 hc.2
  | relaunching =>
    cases h
    simp only [meetsOpenJob, hi, Bool.and_eq_true, List.all_eq_true, Bool.not_eq_true'] at hc
    exact good_put_launch hg hi rfl hc.1 hc.2
  | cancelRead events =>
    simp only [advance] at h
    split at h
    · cases h
      exact good_done hg hi _
    · split at h
      · cases h
        exact good_done hg hi _
      · split at h
        · cases h
          exact good_move hg hi (by simp [Process.live]) fun _ => rfl
        · cases h
          exact good_abortOrRecover hg hi rfl
  | resumeRead events =>
    simp only [advance] at h
    split at h
    · cases h
      exact good_done hg hi _
    · split at h
      · cases h
        exact good_done hg hi _
      · split at h
        · cases h
          exact good_done hg hi _
        · split at h <;> cases h <;> exact good_move hg hi (by simp [Process.live]) fun _ => rfl
  | requesting count =>
    simp only [meetsOpenJob, hi] at hc
    simp only [advance] at h
    split at h
    · cases h
      exact good_done hg hi _
    · rename_i log hlog
      cases h
      exact good_status hg hi (by simp [Process.live]) rfl hc (by simp [JobStatus.terminal]) hlog
  | requested =>
    cases h
    exact good_abortOrRecover hg hi rfl
  | recovering count =>
    simp only [meetsOpenJob, hi, Bool.and_eq_true, List.all_eq_true, Bool.not_eq_true'] at hc
    simp only [advance] at h
    split at h
    · cases h
      exact good_done hg hi _
    · rename_i log hlog
      cases h
      exact good_status hg hi (by simp [Process.live]) rfl hc.1 (fun _ => Or.inr hc.2) hlog
  | launched c =>
    simp only [advance] at h
    split at h <;> cases h <;> exact good_move hg hi (fun _ => rfl) fun _ => rfl
  | starting c count =>
    simp only [advance] at h
    split at h
    · cases h
      exact good_move hg hi (fun _ => rfl) fun _ => rfl
    · rename_i log hlog
      cases h
      exact good_status hg hi (fun _ => rfl) rfl (hopen rfl) (by simp [JobStatus.terminal]) hlog
  | executing c => cases h
  | finishing c count status details =>
    simp only [advance] at h
    split at h
    · cases h
      exact good_move hg hi (fun _ => rfl) fun _ => rfl
    · rename_i log hlog
      cases h
      exact good_status hg hi (by simp [Process.live]) rfl (hopen rfl) (fun _ => Or.inl ⟨rfl, rfl⟩)
        hlog
  | failing count status details =>
    simp only [advance] at h
    split at h
    · cases h
      exact good_move hg hi (by simp [Process.live]) fun _ => rfl
    · rename_i log hlog
      cases h
      exact good_status hg hi (by simp [Process.live]) rfl (hopen rfl) (fun _ => Or.inl ⟨rfl, rfl⟩)
        hlog
  | ended =>
    cases h
    exact good_same_log hg ⟨rfl, hi, rfl, by simp [Process.live], by simp [Process.early]⟩ rfl
  | done result => cases h

omit hi

omit hg

theorem step_good (s : System) (a : Turn) (t : System) (hg : Good sha256 jobId s)
    (hc : meetsOpenJob s a = true) (h : step sha256 dateParse projectId jobId s a = some t) :
    Good sha256 jobId t := by
  cases a with
  | submit input now =>
    simp only [step] at h
    split at h
    · cases h
      exact good_spawn hg rfl (by simp [Process.early])
    · split at h
      · cases h
        exact good_spawn hg rfl (by simp [Process.early])
      · cases h
  | cancel =>
    cases h
    split
    · rename_i hjob
      exact good_spawn hg rfl fun _ => hjob
    · exact good_spawn hg rfl (by simp [Process.early])
  | resume =>
    cases h
    split
    · rename_i hjob
      exact good_spawn hg rfl fun _ => hjob
    · exact good_spawn hg rfl (by simp [Process.early])
  | next i now =>
    obtain ⟨p, hi, hadvance⟩ := Option.bind_eq_some_iff.mp h
    exact advance_good hg hi hc hadvance
  | execute i outcome storesRun =>
    simp only [step] at h
    split at h
    · rename_i c hi
      cases h
      cases outcome with
      | returned runStatus =>
        exact good_same_log hg ⟨rfl, hi, rfl, fun _ => rfl, fun _ => rfl⟩ rfl
      | threw name message =>
        exact good_same_log hg ⟨rfl, hi, rfl, fun _ => rfl, fun _ => rfl⟩ rfl
    · cases h

theorem good_start : Good sha256 jobId start :=
  ⟨fun before e after h => by simp [start] at h, fun i p h => by simp [start] at h,
    fun i j p q h => by simp [start] at h, fun i p h => by simp [start] at h,
    fun h => by simp [start] at h, fun _ => rfl⟩

/-! ## The log only grows -/

theorem abortOrRecover_log (s : System) (i : Nat) : (abortOrRecover s i).log = s.log := by
  unfold abortOrRecover
  split <;> rfl

theorem appendReverseJobStatus_prefix
    (h : appendReverseJobStatus sha256 dateParse jobId log count status details now = .ok log') :
    log <+: log' := by
  rcases appendReverseJobStatus_ok h with rfl | ⟨e, rfl, _⟩
  · exact List.prefix_rfl
  · exact List.prefix_append _ _

theorem appendReverseRunJob_prefix {job : ReverseRunJob}
    (h : appendReverseRunJob sha256 dateParse jobId s job now = .ok t) : s.log <+: t.log := by
  obtain ⟨queued, _, h⟩ := bind_ok h
  split at h
  · cases h
  · obtain ⟨log, hlog, h⟩ := bind_ok h
    cases h
    rcases appendReverseRunJobEvent_ok hlog with ⟨_, rfl⟩ | ⟨_, rfl⟩
    · exact List.prefix_rfl
    · exact List.prefix_append _ _

theorem advance_log (h : advance sha256 dateParse jobId s i p now = some t) : s.log <+: t.log := by
  cases p with
  | submitRead job existing =>
    cases existing with
    | none => cases h; exact List.prefix_rfl
    | some existing =>
      simp only [advance] at h
      split at h <;> cases h <;> exact List.prefix_rfl
  | submitChecked job runExists =>
    cases runExists with
    | true => cases h; exact List.prefix_rfl
    | false =>
      simp only [advance] at h
      split at h
      · cases h; exact List.prefix_rfl
      · rename_i s' hs'
        have hstarts := appendReverseRunJob_prefix hs'
        cases h; exact hstarts
  | cancelRead events =>
    simp only [advance] at h
    split at h
    · cases h; exact List.prefix_rfl
    · split at h
      · cases h; exact List.prefix_rfl
      · split at h <;> cases h
        · exact List.prefix_rfl
        · simp only [abortOrRecover_log, List.prefix_rfl]
  | resumeRead events =>
    simp only [advance] at h
    split at h
    · cases h; exact List.prefix_rfl
    · split at h
      · cases h; exact List.prefix_rfl
      · split at h
        · cases h; exact List.prefix_rfl
        · split at h <;> cases h <;> exact List.prefix_rfl
  | requested =>
    cases h
    simp only [abortOrRecover_log, List.prefix_rfl]
  | submitStored | relaunching | ended => cases h; exact List.prefix_rfl
  | launched c =>
    simp only [advance] at h
    split at h <;> cases h <;> exact List.prefix_rfl
  | requesting | recovering | starting | finishing | failing =>
    simp only [advance] at h
    split at h <;> cases h
    · exact List.prefix_rfl
    · exact appendReverseJobStatus_prefix ‹_›
  | executing | done => cases h

theorem step_log {a : Turn}
    (h : step sha256 dateParse projectId jobId s a = some t) : s.log <+: t.log := by
  cases a with
  | submit input now =>
    simp only [step] at h
    split at h
    · cases h; exact List.prefix_rfl
    · split at h <;> cases h
      exact List.prefix_rfl
  | cancel | resume => cases h; exact List.prefix_rfl
  | next i now =>
    obtain ⟨p, _, hadvance⟩ := Option.bind_eq_some_iff.mp h
    exact advance_log hadvance
  | execute i outcome storesRun =>
    simp only [step] at h
    split at h
    · cases h
      cases outcome <;> exact List.prefix_rfl
    · cases h

end Laws

/-- For every interleaving of submits, cancels, resumes and workers: when cancels, resumes and
launches meet an open job, a terminal event is the last of the log for good, and every later
projection has its status. -/
theorem terminal_jobs_are_absorbing (sha256 : String → String) (dateParse : String → Option Int)
    (projectId jobId : String) (before after : List Turn) (s t : System)
    (hs : Machine.run (step sha256 dateParse projectId jobId) start before = some s)
    (ht : Machine.run (step sha256 dateParse projectId jobId) s after = some t)
    (hc : Machine.Along (step sha256 dateParse projectId jobId)
      (fun s a => meetsOpenJob s a = true) start (before ++ after))
    (e : JobEvent) (he : e ∈ s.log) (hterminal : e.status.terminal = true) :
    t.log = s.log ∧ ∃ p, projectReverseRunJob t.log = .ok p ∧ p.status = e.status ∧
      p.terminal = true := by
  obtain ⟨hcs, hct⟩ := Machine.along_append hs hc
  have hgs : Good sha256 jobId s := Machine.run_keeps_along step_good hs hcs good_start
  have hgt : Good sha256 jobId t := Machine.run_keeps_along step_good ht hct hgs
  have hgrows : ∀ u a v, s.log <+: u.log →
      step sha256 dateParse projectId jobId u a = some v → s.log <+: v.log :=
    fun u a v hu hv => hu.trans (step_log hv)
  obtain ⟨more, hmore⟩ := Machine.run_keeps hgrows ht List.prefix_rfl
  obtain ⟨first, rest, hlog⟩ := List.append_of_mem he
  have hlast : rest ++ more = [] := by
    refine hgt.absorbing first e (rest ++ more) ?_ hterminal
    rw [← hmore, hlog, List.append_assoc, List.cons_append]
  obtain ⟨rfl, rfl⟩ := List.append_eq_nil_iff.mp hlast
  rw [List.append_nil] at hmore
  obtain ⟨p, hp, hstatus, hlast⟩ := project_append first e
  exact ⟨hmore.symm, p, by rw [← hmore, hlog]; exact hp, hstatus, hlast.trans hterminal⟩

/-! ## A job that runs to its end, and a cancel that crosses its end -/

/-- The SHA-256 of the four texts that are hashed here. -/
def digest (text : String) : String :=
  if text = "\x7b\"jobId\":\"JOB\",\"sequence\":1,\"status\":\"QUEUED\"\x7d" then
    "c532e8efff23cb1f104702033fbe130f23e8323d22fbf517da958e47236c6588"
  else if text = "\x7b\"jobId\":\"JOB\",\"sequence\":2,\"status\":\"STARTED\"\x7d" then
    "e471dff1d18a356b5d2aa766ab46246c5096bad08fdb28a187206f9c4faab918"
  else if text = "\x7b\"jobId\":\"JOB\",\"sequence\":3,\"status\":\"COMPLETED\"\x7d" then
    "db82e3f6aa42e2ca636ab4b546b8c7ce983ee0c7a2126fe3256bbcce578ca323"
  else if text = "\x7b\"jobId\":\"JOB\",\"sequence\":3,\"status\":\"CANCEL_REQUESTED\"\x7d" then
    "97f380fee98edf79b6dcd9d25c0d23406ae2548508f8482f1d80c4ed1b64ffc4"
  else ""

def parseEpoch : String → Option Int := fun _ => some 0

def epoch : Instant := { time := 0, iso := "1970-01-01T00:00:00.000Z" }

def jobInput : Json :=
  .obj [("id", .str "JOB"), ("projectId", .str "P"), ("snapshotManifestId", .str "M"),
    ("sourceComponentId", .str "S"), ("factBundleIds", .arr [.str "B"]),
    ("skills", .arr [.str "K"])]

def jobStep : System → Turn → Option System := step digest parseEpoch "P" "JOB"

/-- The job is submitted, and its worker runs until the run has ended. -/
def untilRunEnds : List Turn :=
  [.submit jobInput epoch, .next 0 epoch, .next 0 epoch, .next 0 epoch, .next 1 epoch,
    .next 1 epoch, .execute 1 (.returned "COMPLETED") true]

def cancelTooLate : List Turn := [.next 1 epoch, .cancel, .next 2 epoch]

theorem completed_job_stays_completed :
    ∃ s t e, Machine.run jobStep start (untilRunEnds ++ [.next 1 epoch]) = some s ∧
      Machine.run jobStep s cancelTooLate = some t ∧ e ∈ s.log ∧ e.status = .COMPLETED ∧
      t.log = s.log ∧ ∃ p, projectReverseRunJob t.log = .ok p ∧ p.status = e.status ∧
        p.terminal = true := by
  have hrun : (Machine.run jobStep start (untilRunEnds ++ [.next 1 epoch])).map
      (fun s => (s.log.map (·.status), (Machine.run jobStep s cancelTooLate).isSome)) =
      some ([.QUEUED, .STARTED, .COMPLETED], true) := by decide +kernel
  obtain ⟨s, hs, he⟩ := Option.map_eq_some_iff.mp hrun
  simp only [Prod.mk.injEq] at he
  obtain ⟨t, ht⟩ := Option.isSome_iff_exists.mp he.2
  have hcompleted : JobStatus.COMPLETED ∈ s.log.map (·.status) := by simp [he.1]
  obtain ⟨e, hmem, hstatus⟩ := List.mem_map.mp hcompleted
  exact ⟨s, t, e, hs, ht, hmem, hstatus, terminal_jobs_are_absorbing digest parseEpoch "P" "JOB" _
    cancelTooLate s t hs ht (by decide +kernel) e hmem (by rw [hstatus]; rfl)⟩

/-- The cancel reads the log before the worker ends the job, and writes to it afterwards. -/
def cancelMeanwhile : List Turn := [.cancel, .next 2 epoch, .next 1 epoch]

theorem cancel_appends_after_the_end :
    ¬ ∀ (before after : List Turn) (s t : System), Machine.run jobStep start before = some s →
      Machine.run jobStep s after = some t → ∀ e ∈ s.log, e.status.terminal = true →
      t.log = s.log ∧ ∃ p, projectReverseRunJob t.log = .ok p ∧ p.status = e.status ∧
        p.terminal = true := by
  intro h
  have hrun : (Machine.run jobStep start (untilRunEnds ++ cancelMeanwhile)).map
      (fun s => (s.log.map (·.status), (Machine.run jobStep s [.next 2 epoch]).map
        fun t => t.log.map (·.status))) =
      some ([.QUEUED, .STARTED, .COMPLETED],
        some [.QUEUED, .STARTED, .COMPLETED, .CANCEL_REQUESTED]) := by decide +kernel
  obtain ⟨s, hs, he⟩ := Option.map_eq_some_iff.mp hrun
  simp only [Prod.mk.injEq] at he
  obtain ⟨t, ht, hlog⟩ := Option.map_eq_some_iff.mp he.2
  have hcompleted : JobStatus.COMPLETED ∈ s.log.map (·.status) := by simp [he.1]
  obtain ⟨e, hmem, hstatus⟩ := List.mem_map.mp hcompleted
  obtain ⟨hsame, _⟩ := h _ _ s t hs ht e hmem (by rw [hstatus]; rfl)
  rw [hsame, he.1] at hlog
  cases hlog

end Traqen.ReverseJob
