-- The run loops of one analysis job (`application/workspace-analysis-job-runner.js`). A loop
-- takes the job through its phases, each of them between two reads of the log; pause, resume,
-- fail and cancel write to the same log meanwhile.
import Traqen.JobCheckpoints
import Traqen.Lib.Machine

open Js

namespace Traqen.JobLoops

open JobCheckpoints

/-! ## The job -/

inductive Phase where
  | SOURCE_SCAN
  | FACT_COMMIT
  | ANALYSIS
  | RECONCILIATION
  | EVALUATION
  | PROJECTION
  | PUBLISHING
  | COMPLETED
deriving DecidableEq, Repr

def Phase.text : Phase → String
  | .SOURCE_SCAN => "SOURCE_SCAN"
  | .FACT_COMMIT => "FACT_COMMIT"
  | .ANALYSIS => "ANALYSIS"
  | .RECONCILIATION => "RECONCILIATION"
  | .EVALUATION => "EVALUATION"
  | .PROJECTION => "PROJECTION"
  | .PUBLISHING => "PUBLISHING"
  | .COMPLETED => "COMPLETED"

def orderedPhases : List Phase :=
  [.SOURCE_SCAN, .FACT_COMMIT, .ANALYSIS, .RECONCILIATION, .EVALUATION, .PROJECTION, .PUBLISHING,
    .COMPLETED]

/-- The phases that a loop runs: `orderedPhases.slice(0, -1)`. -/
def phases : List Phase := orderedPhases.dropLast

inductive JobStatus where
  | RUNNING
  | PAUSED
  | CANCELLED
  | FAILED
  | COMPLETED
deriving DecidableEq, Repr

def JobStatus.text : JobStatus → String
  | .RUNNING => "RUNNING"
  | .PAUSED => "PAUSED"
  | .CANCELLED => "CANCELLED"
  | .FAILED => "FAILED"
  | .COMPLETED => "COMPLETED"

def JobStatus.terminal : JobStatus → Bool
  | .CANCELLED | .FAILED | .COMPLETED => true
  | .RUNNING | .PAUSED => false

inductive DesiredState where
  | RUNNING
  | PAUSED
  | CANCELLED
deriving DecidableEq, Repr

def DesiredState.text : DesiredState → String
  | .RUNNING => "RUNNING"
  | .PAUSED => "PAUSED"
  | .CANCELLED => "CANCELLED"

structure JobError where
  code : String
  message : String
  retryable : Bool

/-- What no step of a job changes. -/
structure Identity where
  id : String
  projectId : String
  snapshotManifestId : Json
  createdAt : String
  others : List (String × Json)

/-- What the steps of a job change. An output that is undefined is recorded too. -/
structure Job where
  phase : Phase
  desiredState : DesiredState
  status : JobStatus
  version : Nat
  completedPhases : List Phase
  outputs : List (Phase × Option Json)
  error : Option JobError
  completedAt : Option String
  updatedAt : String

def JobError.toJson (e : JobError) : Json :=
  .obj [("code", .str e.code), ("message", .str e.message), ("retryable", .bool e.retryable)]

def outputsJson (outputs : List (Phase × Option Json)) : Json :=
  .obj (outputs.filterMap fun o => o.2.map fun value => (o.1.text, value))

def Job.toJson (identity : Identity) (job : Job) : Json :=
  .obj ([("status", .str job.status.text), ("phase", .str job.phase.text),
    ("completedPhases", .arr (job.completedPhases.map fun p => .str p.text)),
    ("outputs", outputsJson job.outputs), ("desiredState", .str job.desiredState.text),
    ("version", .num (Number.ofNat job.version)), ("updatedAt", .str job.updatedAt),
    ("id", .str identity.id), ("projectId", .str identity.projectId),
    ("snapshotManifestId", identity.snapshotManifestId), ("createdAt", .str identity.createdAt)] ++
    (job.error.map fun e => ("error", e.toJson)).toList ++
    (job.completedAt.map fun at_ => ("completedAt", .str at_)).toList ++ identity.others)

/-- `start`: the job that the first checkpoint holds. -/
def startedJob (now : String) : Job where
  phase := .SOURCE_SCAN
  desiredState := .RUNNING
  status := .RUNNING
  version := 1
  completedPhases := []
  outputs := []
  error := none
  completedAt := none
  updatedAt := now

def pausedJob (job : Job) (now : String) : Job :=
  { job with
    desiredState := .PAUSED, status := .PAUSED, version := job.version + 1, updatedAt := now }

/-- The pause that a loop finds when its phase has ended keeps the desired state. -/
def heldJob (job : Job) (now : String) : Job :=
  { job with status := .PAUSED, version := job.version + 1, updatedAt := now }

def resumedJob (job : Job) (now : String) : Job :=
  { job with
    desiredState := .RUNNING, status := .RUNNING, version := job.version + 1, updatedAt := now }

def failedJob (job : Job) (error : JobError) (now : String) : Job :=
  { job with status := .FAILED, version := job.version + 1, error := some error, updatedAt := now }

def cancelledJob (job : Job) (completedAt now : String) : Job :=
  { job with
    desiredState := .CANCELLED, status := .CANCELLED, version := job.version + 1
    completedAt := some completedAt, updatedAt := now }

def completedJob (job : Job) (completedAt now : String) : Job :=
  { job with
    phase := .COMPLETED, status := .COMPLETED, version := job.version + 1
    completedAt := some completedAt, updatedAt := now }

/-- The phase with a number; the last of them leads to COMPLETED. -/
def phaseAt (k : Nat) : Phase := orderedPhases.getD k .COMPLETED

def advancedJob (job : Job) (k : Nat) (output : Option Json) (now : String) : Job :=
  { job with
    phase := phaseAt (k + 1)
    completedPhases := job.completedPhases ++ [phaseAt k]
    outputs := OrderedMap.set job.outputs (phaseAt k) output
    version := job.version + 1, updatedAt := now }

/-! ## Reads of the log -/

section Steps

variable (sha256 : String → String) (identity : Identity) (configured : Phase → Bool)

abbrev JobCheckpoint := Checkpoint Job

/-- `listUnderstandingRecords`, and of these the checkpoints of the job. The order of the listing
only tells checkpoints of one number apart. -/
def checkpointsIn (log : Log Job) : List JobCheckpoint :=
  checkpointsOf log identity.projectId identity.id

def terminalRank : JobStatus → Nat
  | .CANCELLED => 0
  | .FAILED => 1
  | _ => 2

/-- The first terminal checkpoint; of two with one number, the more decisive one. -/
def authoritativeTerminal (existing : List JobCheckpoint) : Option JobCheckpoint :=
  ((existing.filter fun c => c.state.status.terminal).insertionSort fun a b =>
    a.checkpointSequence < b.checkpointSequence ∨
      a.checkpointSequence = b.checkpointSequence ∧
        terminalRank a.state.status ≤ terminalRank b.state.status).head?

/-- `get`, from the checkpoints that were listed. -/
def latestIn (existing : List JobCheckpoint) : Option Job :=
  match authoritativeTerminal existing with
  | some c => some c.state
  | none => (lastBySequence existing).map (·.state)

/-- `latest && latest.version > state.version`. -/
def newer (latest : Option Job) (state : Job) : Option Job :=
  latest.filter fun job => job.version > state.version

/-! ## The turns -/

/-- Who waits for `#persist`: a loop in a phase, or whoever wants its result (of a loop, with
its signal). -/
inductive After where
  | phase (signal k : Nat)
  | result (signal : Option Nat)

inductive Process where
  /-- run: the latest state was read before phase `k`. -/
  | beforePhase (signal k : Nat) (state : Job) (latest : Option Job)
  | authorizing (signal k : Nat) (state : Job)
  | handling (signal k : Nat) (state : Job)
  /-- run: the latest state was read after the handler of phase `k`. -/
  | afterPhase (signal k : Nat) (state : Job) (output : Option Json) (latest : Option Job)
  | beforeCompletion (signal : Nat) (state : Job) (latest : Option Job)
  /-- #persist: the checkpoints were listed. -/
  | persisting (after : After) (job : Job) (existing : List JobCheckpoint)
  | persisted (after : After) (stored : Except Failure Job)
  /-- fail: the latest state was read. -/
  | failing (job : Job) (error : JobError) (latest : Option Job)
  | done (result : Except Failure Job)

structure System where
  log : Log Job
  /-- Whether each signal that was made is aborted. -/
  aborted : List Bool
  processes : List Process

inductive Turn where
  /-- `new AbortController()`. -/
  | controller
  | abort (signal : Nat)
  /-- `run`, and the calls below, with the state of a stored checkpoint. -/
  | run (checkpoint signal : Nat)
  | pause (checkpoint : Nat) (now : String)
  | resume (checkpoint : Nat) (now : String)
  | fail (checkpoint : Nat) (error : JobError)
  | cancel (checkpoint : Nat) (completedAt now : String)
  | authorize (process : Nat) (verdict : Except Failure Unit)
  | handle (process : Nat) (outcome : Except Failure (Option Json))
  | next (process : Nat) (completedAt now : String)

def System.put (s : System) (i : Nat) (p : Process) : System :=
  { s with processes := s.processes.set i p }

def System.spawn (s : System) (p : Process) : System :=
  { s with processes := s.processes ++ [p] }

def System.isAborted (s : System) (signal : Nat) : Bool := s.aborted[signal]?.getD false

def System.checkpoints (s : System) : List JobCheckpoint := checkpointsIn identity s.log

def System.latest (s : System) : Option Job := latestIn (s.checkpoints identity)

/-- The details of a checkpoint of `#persist`. -/
def detailsOf (job : Job) : Details where
  val := [("projectId", .str identity.projectId),
    ("snapshotManifestId", identity.snapshotManifestId), ("analysisRunId", .str identity.id),
    ("artifactIds", .arr []), ("createdAt", .str job.updatedAt)]
  property := by simp

def persistRequest (job : Job) (existing : List JobCheckpoint) : Request Job where
  jobId := identity.id
  checkpointSequence := some (.num (Number.ofNat (currentSequence existing + 1)))
  state := job
  details := detailsOf identity job

/-- The second half of `#persist`, after the checkpoints were listed. -/
def persist (log : Log Job) (job : Job) (existing : List JobCheckpoint) :
    Except Failure Job × Log Job :=
  match authoritativeTerminal existing with
  | some c => (.ok c.state, log)
  | none =>
    match appendWorkspaceAnalysisJobCheckpoint (Job.toJson identity) sha256 log
      identity.projectId (persistRequest identity job existing) with
    | .error e => (.error e, log)
    | .ok (some stored, log') => (.ok stored.state, log')
    | .ok (none, log') =>
      (typeError "Cannot read properties of undefined (reading 'state')", log')

/-- The loop goes on to phase `k`, or past the last one. -/
def enterPhase (s : System) (i signal k : Nat) (state : Job) : System :=
  if k < phases.length then s.put i (.beforePhase signal k state (s.latest identity))
  else s.put i (.beforeCompletion signal state (s.latest identity))

def listCheckpoints (s : System) (i : Nat) (after : After) (job : Job) : System :=
  s.put i (.persisting after job (s.checkpoints identity))

def finish (s : System) (i : Nat) (result : Except Failure Job) : System := s.put i (.done result)

/-- The next turn of a process. -/
def advance (s : System) (i : Nat) (p : Process) (completedAt now : String) : Option System :=
  match p with
  | .beforePhase signal k state latest =>
    let state := (newer latest state).getD state
    if state.status.terminal then some (finish s i (.ok state))
    else if phaseAt k ∈ state.completedPhases then
      some (enterPhase identity s i signal (k + 1) state)
    else if s.isAborted signal || state.desiredState = .PAUSED then
      some (listCheckpoints identity s i (.result (some signal)) (pausedJob state now))
    else some (s.put i (.authorizing signal k state))
  | .afterPhase signal k state output latest =>
    match newer latest state with
    | some later =>
      if later.status = .CANCELLED ∨ later.status = .FAILED then some (finish s i (.ok later))
      else if later.desiredState = .PAUSED then
        some (listCheckpoints identity s i (.result (some signal)) (heldJob later now))
      else
        some (listCheckpoints identity s i (.phase signal k) (advancedJob later k output now))
    | none =>
      some (listCheckpoints identity s i (.phase signal k) (advancedJob state k output now))
  | .beforeCompletion signal state latest =>
    match newer latest state with
    | some later =>
      if later.status = .CANCELLED ∨ later.status = .FAILED then some (finish s i (.ok later))
      else
        some (listCheckpoints identity s i (.result (some signal))
          (completedJob state completedAt now))
    | none =>
      some (listCheckpoints identity s i (.result (some signal))
        (completedJob state completedAt now))
  | .persisting after job existing =>
    let (stored, log) := persist sha256 identity s.log job existing
    some ({ s with log }.put i (.persisted after stored))
  | .persisted (.phase signal k) (.ok state) =>
    if state.status.terminal then some (finish s i (.ok state))
    else some (enterPhase identity s i signal (k + 1) state)
  | .persisted _ result => some (finish s i result)
  | .failing job error latest =>
    match latest with
    | some later =>
      if later.status = .CANCELLED ∨ later.status = .COMPLETED then some (finish s i (.ok later))
      else
        some (listCheckpoints identity s i (.result none)
          (failedJob ((newer latest job).getD job) error now))
    | none => some (listCheckpoints identity s i (.result none) (failedJob job error now))
  | .authorizing .. | .handling .. | .done _ => none

/-- A call that checks the state it is given before it persists another. -/
def request (s : System) (job : Job) (allowed : Bool) (message : String) : System :=
  if allowed then s.spawn (.persisting (.result none) job (s.checkpoints identity))
  else s.spawn (.done (typeError message))

/-- `run` up to its first wait. -/
def startLoop (s : System) (job : Job) (signal : Nat) : System :=
  if job.status = .PAUSED then s.spawn (.done (.ok job))
  else s.spawn (.beforePhase signal 0 job (s.latest identity))

/-- `fail` up to its first wait. -/
def startFail (s : System) (job : Job) (error : JobError) : System :=
  s.spawn (.failing job error (s.latest identity))

def pause (s : System) (job : Job) (now : String) : System :=
  request identity s (pausedJob job now) (job.status = .RUNNING)
    "only a RUNNING job can be paused"

def resume (s : System) (job : Job) (now : String) : System :=
  request identity s (resumedJob job now) (job.status = .PAUSED)
    "only a PAUSED job can be resumed"

def cancel (s : System) (job : Job) (completedAt now : String) : System :=
  request identity s (cancelledJob job completedAt now) (!job.status.terminal)
    "a terminal job cannot be cancelled"

def step (s : System) : Turn → Option System
  | .controller => some { s with aborted := s.aborted ++ [false] }
  | .abort signal => some { s with aborted := s.aborted.set signal true }
  | .run n signal =>
    (s.checkpoints identity)[n]?.map fun c => startLoop identity s c.state signal
  | .pause n now => (s.checkpoints identity)[n]?.map fun c => pause identity s c.state now
  | .resume n now => (s.checkpoints identity)[n]?.map fun c => resume identity s c.state now
  | .fail n error => (s.checkpoints identity)[n]?.map fun c => startFail identity s c.state error
  | .cancel n completedAt now =>
    (s.checkpoints identity)[n]?.map fun c => cancel identity s c.state completedAt now
  | .authorize i verdict =>
    match s.processes[i]? with
    | some (.authorizing signal k state) =>
      match verdict with
      | .error e => some (finish s i (.error e))
      | .ok _ =>
        if configured (phaseAt k) then some (s.put i (.handling signal k state))
        else
          some (finish s i (typeError ("No handler configured for " ++ (phaseAt k).text)))
    | _ => none
  | .handle i outcome =>
    match s.processes[i]? with
    | some (.handling signal k state) =>
      match outcome with
      | .error e => some (finish s i (.error e))
      | .ok output => some (s.put i (.afterPhase signal k state output (s.latest identity)))
    | _ => none
  | .next i completedAt now =>
    s.processes[i]?.bind fun p => advance sha256 identity s i p completedAt now

/-- The log holds the checkpoint of the job that was started, and nothing runs yet. -/
def start (now : String) : System where
  log := call (Job.toJson identity) sha256 [] (identity.projectId,
    persistRequest identity (startedJob now) [])
  aborted := []
  processes := []

end Steps

/-! ## What the log says -/

variable {sha256 : String → String} {identity : Identity} {configured : Phase → Bool}

theorem isTerminal_eq (job : Job) : isTerminal (Job.toJson identity) job = job.status.terminal := by
  have hstatus : statusOf (Job.toJson identity) job = some (.str job.status.text) := rfl
  unfold isTerminal
  rw [hstatus]
  cases job.status <;> decide

/-- The job has a terminal checkpoint. -/
def Ended (checkpoints : List JobCheckpoint) : Prop :=
  ∃ c ∈ checkpoints, c.state.status.terminal = true

variable {c : JobCheckpoint} {existing : List JobCheckpoint}

theorem authoritativeTerminal_some (h : authoritativeTerminal existing = some c) :
    c ∈ existing ∧ c.state.status.terminal = true := by
  have hmem := List.mem_of_mem_head? h
  rw [List.mem_insertionSort] at hmem
  exact List.mem_filter.mp hmem

theorem authoritativeTerminal_none (h : ¬ Ended existing) :
    authoritativeTerminal existing = none := by
  cases hfound : authoritativeTerminal existing with
  | none => rfl
  | some c => exact absurd ⟨c, authoritativeTerminal_some hfound⟩ h

theorem latestIn_open (hnumbered : Numbered (Job.toJson identity) existing) (h : ¬ Ended existing) :
    latestIn existing = existing.getLast?.map (·.state) := by
  unfold latestIn
  rw [authoritativeTerminal_none h, hnumbered.last]

/-! ## Jobs -/

/-- The completed phases are the first ones in the order, each with an output. -/
structure Sound (job : Job) : Prop where
  prefixed : job.completedPhases = phases.take job.completedPhases.length
  outputs : ∀ p ∈ job.completedPhases, ∃ o, (p, o) ∈ job.outputs
  running : job.status = .RUNNING → job.desiredState = .RUNNING
  paused : job.status = .PAUSED → job.desiredState = .PAUSED

/-- Every phase ran, once and in the order, and each has an output. -/
def Complete (job : Job) : Prop :=
  job.completedPhases = phases ∧ ∀ p ∈ phases, ∃ o, (p, o) ∈ job.outputs

variable {job : Job}

theorem Sound.complete (h : Sound job)
    (hlength : job.completedPhases.length = phases.length) : Complete job := by
  have hall : job.completedPhases = phases := by
    rw [h.prefixed, hlength, List.take_length]
  exact ⟨hall, fun p hp => h.outputs p (hall ▸ hp)⟩

theorem Sound.length_le (h : Sound job) : job.completedPhases.length ≤ phases.length := by
  have hlength := congrArg List.length h.prefixed
  rw [List.length_take] at hlength
  omega

variable {k signal : Nat}

theorem phaseAt_mem_take {n : Nat} (hk : k < phases.length) (hn : n ≤ phases.length) :
    phaseAt k ∈ phases.take n ↔ k < n := by
  have hsmall : phases.length = 7 := rfl
  have hcheck : ∀ k < 7, ∀ n ≤ 7, phaseAt k ∈ phases.take n ↔ k < n := by decide
  exact hcheck k (by omega) n (by omega)

theorem Sound.mem_iff (h : Sound job) (hk : k < phases.length) :
    phaseAt k ∈ job.completedPhases ↔ k < job.completedPhases.length := by
  rw [← phaseAt_mem_take hk h.length_le, ← h.prefixed]

theorem take_phaseAt (hk : k < phases.length) :
    phases.take k ++ [phaseAt k] = phases.take (k + 1) := by
  have hsmall : phases.length = 7 := rfl
  have hcheck : ∀ k < 7, phases.take k ++ [phaseAt k] = phases.take (k + 1) := by decide
  exact hcheck k (by omega)

theorem sound_started (now : String) : Sound (startedJob now) :=
  ⟨rfl, fun _ h => absurd h List.not_mem_nil, fun _ => rfl, fun hs => JobStatus.noConfusion hs⟩

section Changes

variable {job : Job} (h : Sound job) (completedAt now : String)

include h

theorem sound_paused : Sound (pausedJob job now) :=
  ⟨h.prefixed, h.outputs, fun hs => JobStatus.noConfusion hs, fun _ => rfl⟩

theorem sound_held (hdesired : job.desiredState = .PAUSED) : Sound (heldJob job now) :=
  ⟨h.prefixed, h.outputs, fun hs => JobStatus.noConfusion hs, fun _ => hdesired⟩

theorem sound_resumed : Sound (resumedJob job now) :=
  ⟨h.prefixed, h.outputs, fun _ => rfl, fun hs => JobStatus.noConfusion hs⟩

theorem sound_failed (error : JobError) : Sound (failedJob job error now) :=
  ⟨h.prefixed, h.outputs, fun hs => JobStatus.noConfusion hs, fun hs => JobStatus.noConfusion hs⟩

theorem sound_cancelled : Sound (cancelledJob job completedAt now) :=
  ⟨h.prefixed, h.outputs, fun hs => JobStatus.noConfusion hs, fun hs => JobStatus.noConfusion hs⟩

theorem sound_completed : Sound (completedJob job completedAt now) :=
  ⟨h.prefixed, h.outputs, fun hs => JobStatus.noConfusion hs, fun hs => JobStatus.noConfusion hs⟩

theorem sound_advanced (hk : k < phases.length) (hlength : job.completedPhases.length = k)
    (output : Option Json) : Sound (advancedJob job k output now) := by
  refine ⟨?_, ?_, h.running, h.paused⟩
  · have hprefixed := h.prefixed
    rw [hlength] at hprefixed
    unfold advancedJob
    dsimp only
    rw [List.length_append, List.length_singleton, hlength, hprefixed, take_phaseAt hk]
  · intro p hp
    have hkeys := OrderedMap.key_mem_set job.outputs (phaseAt k) p output
    rcases List.mem_append.mp hp with hp | hp
    · obtain ⟨o, ho⟩ := h.outputs p hp
      obtain ⟨e, he, hkey⟩ := hkeys.mpr (Or.inr ⟨_, ho, rfl⟩)
      exact ⟨e.2, hkey ▸ he⟩
    · obtain ⟨e, he, hkey⟩ := hkeys.mpr (Or.inl (List.mem_singleton.mp hp))
      exact ⟨e.2, hkey ▸ he⟩

end Changes

/-! ## The invariant -/

/-- The process is of a run loop that has not returned. -/
def Process.inLoop : Process → Bool
  | .beforePhase .. | .authorizing .. | .handling .. | .afterPhase .. | .beforeCompletion .. => true
  | .persisting (.phase ..) .. | .persisting (.result (some _)) .. => true
  | .persisted (.phase ..) _ | .persisted (.result (some _)) _ => true
  | _ => false

/-- What the loop holds is as new as the latest checkpoint, unless that is no running state. -/
def Calm (state : Job) (checkpoints : List JobCheckpoint) : Prop :=
  ∀ c, checkpoints.getLast? = some c → c.state.status = .RUNNING → c.state.version ≤ state.version

/-- The loop may enter phase `k` with this state. -/
structure Ready (k : Nat) (state : Job) (checkpoints : List JobCheckpoint) : Prop where
  sound : Sound state
  live : state.status.terminal = false
  reached : state.status = .RUNNING → k ≤ state.completedPhases.length
  calm : Calm state checkpoints

/-- The loop runs phase `k` in this state. -/
structure Active (k : Nat) (state : Job) (checkpoints : List JobCheckpoint) : Prop where
  inside : k < phases.length
  sound : Sound state
  running : state.status = .RUNNING
  reached : state.completedPhases.length = k
  calm : Calm state checkpoints

/-- What a process holds, as long as the job has no terminal checkpoint. -/
def Holds (checkpoints : List JobCheckpoint) : Process → Prop
  | .beforePhase _ k state latest =>
    k < phases.length ∧ Ready k ((newer latest state).getD state) checkpoints
  | .authorizing _ k state | .handling _ k state => Active k state checkpoints
  | .afterPhase _ k state _ latest =>
    Active k state checkpoints ∧
      ∀ later, newer latest state = some later → Sound later ∧ later.status = .PAUSED
  | .beforeCompletion _ state _ =>
    Sound state ∧ state.completedPhases.length = phases.length
  | .persisting after job existing =>
    existing <+: checkpoints ∧ Sound job ∧
      match after with
      | .phase _ k =>
        k < phases.length ∧ job.status = .RUNNING ∧ job.completedPhases.length = k + 1 ∧
          Calm job checkpoints ∧
          (existing.length = checkpoints.length ∨
            ∀ c, checkpoints.getLast? = some c → c.state.status = .PAUSED)
      | .result signal =>
        (job.status = .COMPLETED → job.completedPhases.length = phases.length) ∧
          (signal.isSome = true → job.status ≠ .RUNNING)
  | .persisted (.phase _ k) (.ok state) =>
    k < phases.length ∧ Ready (k + 1) state checkpoints ∧
      (k + 1 = phases.length → state.completedPhases.length = phases.length)
  | .failing job _ latest => Sound job ∧ ∀ later, latest = some later → Sound later
  | .persisted .. | .done _ => True

/-- One loop at most, and every process holds what it should. -/
structure Orderly (identity : Identity) (s : System) : Prop where
  one : ∀ (i j : Nat) (p q : Process), s.processes[i]? = some p → s.processes[j]? = some q →
    p.inLoop = true → q.inLoop = true → i = j
  each : ∀ (i : Nat) (p : Process), s.processes[i]? = some p → Holds (s.checkpoints identity) p

structure Good (sha256 : String → String) (identity : Identity) (s : System) : Prop where
  log : GoodLog (Job.toJson identity) sha256 s.log
  sound : ∀ c ∈ s.checkpoints identity, Sound c.state
  complete : ∀ c ∈ s.checkpoints identity, c.state.status = .COMPLETED → Complete c.state
  orderly : ¬ Ended (s.checkpoints identity) → Orderly identity s

/-- A loop starts, and a resume is written, only while no loop of the job runs; and no
checkpoint is written while a loop writes the end of the last phase, unless the job has
ended. -/
def meetsOneLoop (identity : Identity) (s : System) : Turn → Bool
  | .run .. => s.processes.all fun p => !p.inLoop
  | .next i _ _ =>
    match s.processes[i]? with
    | some (.persisting (.result none) job _) =>
      job.status ≠ .RUNNING || s.processes.all fun p => !p.inLoop
    | some (.persisting (.phase _ k) _ existing) =>
      k + 1 < phases.length || existing.length = (s.checkpoints identity).length ||
        (s.checkpoints identity).any fun c => c.state.status.terminal
    | _ => true
  | _ => true

/-! ## A checkpoint more -/

variable {later state : Job}

variable {p : Process}

section Growth

variable {checkpoints : List JobCheckpoint} {c : JobCheckpoint}

theorem calm_of_not_running (state : Job) (hc : c.state.status ≠ .RUNNING) :
    Calm state (checkpoints ++ [c]) := by
  intro d hd hrunning
  rw [List.getLast?_concat] at hd
  cases hd
  exact absurd hrunning hc

theorem Ready.grow (h : Ready k state checkpoints)
    (hc : c.state.status ≠ .RUNNING) : Ready k state (checkpoints ++ [c]) :=
  ⟨h.sound, h.live, h.reached, calm_of_not_running state hc⟩

theorem Active.grow (h : Active k state checkpoints)
    (hc : c.state.status ≠ .RUNNING) : Active k state (checkpoints ++ [c]) :=
  ⟨h.inside, h.sound, h.running, h.reached, calm_of_not_running state hc⟩

/-- A pause is written while the process waits. -/
theorem holds_grow_paused (h : Holds checkpoints p) (hc : c.state.status = .PAUSED) :
    Holds (checkpoints ++ [c]) p := by
  have hnot : c.state.status ≠ .RUNNING := by
    rw [hc]
    exact fun h => JobStatus.noConfusion h
  cases p with
  | beforePhase signal k state latest => exact ⟨h.1, h.2.grow hnot⟩
  | authorizing signal k state => exact Active.grow h hnot
  | handling signal k state => exact Active.grow h hnot
  | afterPhase signal k state output latest => exact ⟨h.1.grow hnot, h.2⟩
  | beforeCompletion signal state latest => exact h
  | persisting after job existing =>
    obtain ⟨hstarts, hsound, hafter⟩ := h
    refine ⟨hstarts.trans (List.prefix_append _ _), hsound, ?_⟩
    cases after with
    | result signal => exact hafter
    | phase signal k =>
      obtain ⟨hk, hrunning, hlength, _, _⟩ := hafter
      refine ⟨hk, hrunning, hlength, calm_of_not_running job hnot, Or.inr ?_⟩
      intro d hd
      rw [List.getLast?_concat] at hd
      cases hd
      exact hc
  | persisted after stored =>
    cases after with
    | result signal => trivial
    | phase signal k =>
      cases stored with
      | error e => trivial
      | ok state => exact ⟨h.1, h.2.1.grow hnot, h.2.2⟩
  | failing job error latest => exact h
  | done result => trivial

/-- A process of no loop does not depend on the latest checkpoint. -/
theorem holds_grow_idle (h : Holds checkpoints p) (hidle : p.inLoop = false) :
    Holds (checkpoints ++ [c]) p := by
  cases p with
  | beforePhase | authorizing | handling | afterPhase | beforeCompletion => cases hidle
  | persisting after job existing =>
    obtain ⟨hstarts, hsound, hafter⟩ := h
    refine ⟨hstarts.trans (List.prefix_append _ _), hsound, ?_⟩
    cases after with
    | result signal => exact hafter
    | phase signal k => cases hidle
  | persisted after stored =>
    cases after with
    | result signal => trivial
    | phase signal k => cases hidle
  | failing job error latest => exact h
  | done result => trivial

end Growth

/-! ## Turns that write nothing -/

section Moves

variable {s : System} {i : Nat} {p p' : Process}

theorem get_put {j : Nat} {q : Process} (hq : (s.put i p').processes[j]? = some q) :
    j = i ∧ q = p' ∨ j ≠ i ∧ s.processes[j]? = some q := by
  unfold System.put at hq
  rw [List.getElem?_set] at hq
  split at hq
  · rename_i hij
    split at hq
    · cases hq
      exact Or.inl ⟨hij.symm, rfl⟩
    · cases hq
  · rename_i hij
    exact Or.inr ⟨fun h => hij h.symm, hq⟩

theorem get_spawn {j : Nat} {q : Process} (hq : (s.spawn p').processes[j]? = some q) :
    j = s.processes.length ∧ q = p' ∨ s.processes[j]? = some q := by
  unfold System.spawn at hq
  rw [List.getElem?_append] at hq
  split at hq
  · exact Or.inr hq
  · rw [List.getElem?_singleton] at hq
    split at hq
    · cases hq
      exact Or.inl ⟨by omega, rfl⟩
    · cases hq

/-- A process moves on without writing. -/
theorem good_put (hgood : Good sha256 identity s) (hi : s.processes[i]? = some p)
    (hloop : p'.inLoop = true → p.inLoop = true)
    (hholds : ¬ Ended (s.checkpoints identity) → Holds (s.checkpoints identity) p →
      Holds (s.checkpoints identity) p') :
    Good sha256 identity (s.put i p') := by
  refine ⟨hgood.log, hgood.sound, hgood.complete, ?_⟩
  intro hopen
  have horderly := hgood.orderly hopen
  have hback : ∀ (j : Nat) (q : Process), (s.put i p').processes[j]? = some q →
      q.inLoop = true → ∃ q₀, s.processes[j]? = some q₀ ∧ q₀.inLoop = true := by
    intro j q hq hin
    rcases get_put hq with ⟨rfl, rfl⟩ | ⟨_, hq⟩
    · exact ⟨p, hi, hloop hin⟩
    · exact ⟨q, hq, hin⟩
  refine ⟨?_, ?_⟩
  · intro j k q r hq hr hqin hrin
    obtain ⟨q₀, hq₀, hin₀⟩ := hback j q hq hqin
    obtain ⟨r₀, hr₀, hin₁⟩ := hback k r hr hrin
    exact horderly.one j k q₀ r₀ hq₀ hr₀ hin₀ hin₁
  · intro j q hq
    rcases get_put hq with ⟨rfl, rfl⟩ | ⟨_, hq⟩
    · exact hholds hopen (horderly.each _ p hi)
    · exact horderly.each j q hq

/-- A process is added, a loop only where there is none. -/
theorem good_spawn (hgood : Good sha256 identity s)
    (hloop : p'.inLoop = true → ∀ q ∈ s.processes, q.inLoop = false)
    (hholds : ¬ Ended (s.checkpoints identity) → Holds (s.checkpoints identity) p') :
    Good sha256 identity (s.spawn p') := by
  refine ⟨hgood.log, hgood.sound, hgood.complete, ?_⟩
  intro hopen
  have horderly := hgood.orderly hopen
  refine ⟨?_, ?_⟩
  · intro j k q r hq hr hqin hrin
    rcases get_spawn hq with ⟨hj, hqnew⟩ | hqold
    · rcases get_spawn hr with ⟨hk, _⟩ | hrold
      · exact hj.trans hk.symm
      · rw [hloop (hqnew ▸ hqin) r (List.mem_of_getElem? hrold)] at hrin
        cases hrin
    · rcases get_spawn hr with ⟨_, hrnew⟩ | hrold
      · rw [hloop (hrnew ▸ hrin) q (List.mem_of_getElem? hqold)] at hqin
        cases hqin
      · exact horderly.one j k q r hqold hrold hqin hrin
  · intro j q hq
    rcases get_spawn hq with ⟨rfl, rfl⟩ | hq
    · exact hholds hopen
    · exact horderly.each j q hq

end Moves

/-! ## The states that a loop takes up -/

variable {latest : Option Job}

section Reads

variable {s : System}

theorem open_status (hopen : ¬ Ended (s.checkpoints identity))
    (hc : c ∈ s.checkpoints identity) : c.state.status.terminal = false := by
  rw [Bool.eq_false_iff]
  intro hterminal
  exact hopen ⟨c, hc, hterminal⟩

/-- The latest state is that of the last checkpoint. -/
theorem latest_some (hgood : Good sha256 identity s) (hopen : ¬ Ended (s.checkpoints identity))
    (h : s.latest identity = some later) :
    ∃ c, (s.checkpoints identity).getLast? = some c ∧ c ∈ s.checkpoints identity ∧
      c.state = later := by
  have hnumbered : Numbered (Job.toJson identity) (s.checkpoints identity) :=
    hgood.log.numbered _ _
  unfold System.latest at h
  rw [latestIn_open hnumbered hopen] at h
  obtain ⟨c, hc, rfl⟩ := Option.map_eq_some_iff.mp h
  exact ⟨c, hc, List.mem_of_getLast? hc, rfl⟩

theorem newer_some (h : newer latest state = some later) :
    latest = some later ∧ state.version < later.version := by
  obtain ⟨hlatest, hversion⟩ := Option.filter_eq_some_iff.mp h
  exact ⟨hlatest, by simpa using hversion⟩

theorem not_running_is_paused {status : JobStatus} (hterminal : status.terminal = false)
    (hrunning : status ≠ .RUNNING) : status = .PAUSED := by
  cases status with
  | RUNNING => exact absurd rfl hrunning
  | PAUSED => rfl
  | CANCELLED => cases hterminal
  | FAILED => cases hterminal
  | COMPLETED => cases hterminal

/-- A newer state than that of the loop is a pause. -/
theorem newer_latest (hgood : Good sha256 identity s) (hopen : ¬ Ended (s.checkpoints identity))
    (hcalm : Calm state (s.checkpoints identity))
    (h : newer (s.latest identity) state = some later) :
    Sound later ∧ later.status = .PAUSED ∧ Calm later (s.checkpoints identity) := by
  obtain ⟨hlatest, hversion⟩ := newer_some h
  obtain ⟨c, hlast, hc, rfl⟩ := latest_some hgood hopen hlatest
  have hnot : c.state.status ≠ .RUNNING := by
    intro hrunning
    have hle := hcalm c hlast hrunning
    omega
  refine ⟨hgood.sound c hc, not_running_is_paused (open_status hopen hc) hnot, ?_⟩
  intro d hd hrunning
  rw [hlast] at hd
  cases hd
  exact absurd hrunning hnot

/-- What a loop holds before phase `k` when it has just read the latest state. -/
theorem ready_enter (hgood : Good sha256 identity s) (hopen : ¬ Ended (s.checkpoints identity))
    (h : Ready k state (s.checkpoints identity)) :
    Ready k ((newer (s.latest identity) state).getD state) (s.checkpoints identity) := by
  cases hnewer : newer (s.latest identity) state with
  | none => exact h
  | some later =>
    obtain ⟨hsound, hpaused, hcalm⟩ := newer_latest hgood hopen h.calm hnewer
    refine ⟨hsound, ?_, ?_, hcalm⟩
    · show later.status.terminal = false
      rw [hpaused]
      rfl
    · intro hrunning
      have hsame : later.status = .RUNNING := hrunning
      rw [hpaused] at hsame
      cases hsame

end Reads

/-! ## Turns that write -/

variable {after : After}

variable {completedAt now : String} {i : Nat}

section Writes

variable {s : System} {job : Job} {existing : List JobCheckpoint}

/-- A listing of the log has as many checkpoints as its highest number says. -/
theorem current_of_prefix {checkpoints : List JobCheckpoint}
    (h : Numbered (Job.toJson identity) checkpoints) (hstarts : existing <+: checkpoints) :
    currentSequence existing = existing.length := by
  obtain ⟨rest, rfl⟩ := hstarts
  have hsequence := h.sequence
  rw [List.map_append, List.length_append, ← List.range'_append_1] at hsequence
  have hfront := List.append_inj_left hsequence (by simp)
  unfold currentSequence
  rw [hfront, foldl_max_range']

/-- How `#persist` ends in a job without a terminal checkpoint. -/
inductive Persisted (identity : Identity) (s : System) (job : Job) (existing : List JobCheckpoint) :
    Except Failure Job → Log Job → Prop
  | refused (e : Failure) : Persisted identity s job existing (.error e) s.log
  | stale (c : JobCheckpoint) (hlast : (s.checkpoints identity).getLast? = some c)
      (hlater : existing.length ≠ (s.checkpoints identity).length) :
      Persisted identity s job existing (.ok c.state) s.log
  | stored (c : JobCheckpoint) (hstate : c.state = job) (hjob : c.jobId = identity.id) :
      Persisted identity s job existing (.ok job)
        (s.log ++ [((identity.projectId, c.id), c)])

variable (hlog : GoodLog (Job.toJson identity) sha256 s.log)
include hlog

theorem persist_open
    (hopen : ¬ Ended (s.checkpoints identity)) (hstarts : existing <+: s.checkpoints identity) :
    Persisted identity s job existing (persist sha256 identity s.log job existing).1
      (persist sha256 identity s.log job existing).2 := by
  have hnone : authoritativeTerminal existing = none := by
    apply authoritativeTerminal_none
    rintro ⟨c, hc, hterminal⟩
    exact hopen ⟨c, hstarts.subset hc, hterminal⟩
  unfold persist
  rw [hnone]
  dsimp only
  cases happend : appendWorkspaceAnalysisJobCheckpoint (Job.toJson identity) sha256 s.log
    identity.projectId (persistRequest identity job existing) with
  | error e => exact .refused e
  | ok result =>
    obtain ⟨stored, log'⟩ := result
    cases append_ok hlog happend with
    | ended c hc hterminal =>
      rw [isTerminal_eq] at hterminal
      exact absurd ⟨c, hc, hterminal⟩ hopen
    | stale hnot hsequence hstatus =>
      have hcurrent := current_of_prefix (hlog.numbered identity.projectId identity.id) hstarts
      cases hlast : (s.checkpoints identity).getLast? with
      | none =>
        have hlist : (checkpointsOf s.log identity.projectId
          (persistRequest identity job existing).jobId).getLast? = none := hlast
        rw [hlist]
        exact .refused _
      | some c =>
        have hlist : (checkpointsOf s.log identity.projectId
          (persistRequest identity job existing).jobId).getLast? = some c := hlast
        rw [hlist]
        refine .stale c hlast ?_
        intro hsame
        apply hsequence
        show some (Json.num (Number.ofNat (currentSequence existing + 1))) = _
        rw [hcurrent, hsame]
        rfl
    | stored c hnot hrequest hc =>
      have hstate : c.state = job := by rw [hc]; rfl
      show Persisted identity s job existing (.ok c.state) _
      rw [hstate]
      exact .stored c hstate (by rw [hc]; rfl)

/-- In a job that has ended nothing is written. -/
theorem persist_ended (hended : Ended (s.checkpoints identity)) :
    (persist sha256 identity s.log job existing).2 = s.log := by
  unfold persist
  split
  · rfl
  · obtain ⟨c, hc, hterminal⟩ := hended
    rw [← @isTerminal_eq identity] at hterminal
    have happend := append_ended hlog (r := persistRequest identity job existing) hc hterminal
    rw [happend]

theorem persist_keeps :
    GoodLog (Job.toJson identity) sha256 (persist sha256 identity s.log job existing).2 := by
  unfold persist
  split
  · exact hlog
  · split
    · exact hlog
    · exact append_keeps hlog ‹_›
    · exact append_keeps hlog ‹_›

omit hlog

/-- What a loop reads back from `#persist` lets it enter the next phase. -/
theorem holds_persisted (hgood : Good sha256 identity s) (hopen : ¬ Ended (s.checkpoints identity))
    (hholds : Holds (s.checkpoints identity) (.persisting after job existing))
    (hlast : (s.checkpoints identity).getLast? = some c)
    (hlater : existing.length ≠ (s.checkpoints identity).length)
    (hend : ∀ signal k, after = .phase signal k → k + 1 < phases.length) :
    Holds (s.checkpoints identity) (.persisted after (.ok c.state)) := by
  have hmem := List.mem_of_getLast? hlast
  cases after with
  | result signal => trivial
  | phase signal k =>
    obtain ⟨_, _, hk, _, _, _, hfresh⟩ := hholds
    have hpaused : c.state.status = .PAUSED := by
      rcases hfresh with hsame | hpaused
      · exact absurd hsame hlater
      · exact hpaused c hlast
    have hnot : c.state.status ≠ .RUNNING := by
      rw [hpaused]
      exact fun h => JobStatus.noConfusion h
    refine ⟨hk, ⟨hgood.sound c hmem, open_status hopen hmem, fun h => absurd h hnot, ?_⟩, ?_⟩
    · intro d hd hrunning
      rw [hlast] at hd
      cases hd
      exact absurd hrunning hnot
    · intro hlastPhase
      have hless := hend signal k rfl
      omega

theorem checkpoints_stored (hjob : c.jobId = identity.id) :
    checkpointsIn identity (s.log ++ [((identity.projectId, c.id), c)]) =
      s.checkpoints identity ++ [c] := by
  unfold checkpointsIn System.checkpoints
  rw [checkpointsOf_append, if_pos ⟨rfl, hjob⟩]
  rfl

/-- The condition on the turn in which a checkpoint is written. -/
theorem meets_persist (hi : s.processes[i]? = some (.persisting after job existing))
    (hc : meetsOneLoop identity s (.next i completedAt now) = true) :
    (after = .result none → job.status = .RUNNING → ∀ q ∈ s.processes, q.inLoop = false) ∧
      ∀ signal k, after = .phase signal k → k + 1 < phases.length ∨
        existing.length = (s.checkpoints identity).length ∨ Ended (s.checkpoints identity) := by
  unfold meetsOneLoop at hc
  dsimp only at hc
  rw [hi] at hc
  constructor
  · rintro rfl hrunning q hq
    simp only [hrunning, ne_eq, not_true_eq_false, decide_false, Bool.false_or,
      List.all_eq_true, Bool.not_eq_true'] at hc
    exact hc q hq
  · rintro signal k rfl
    simp only [Bool.or_eq_true, decide_eq_true_eq, List.any_eq_true] at hc
    rcases hc with (hc | hc) | hc
    · exact Or.inl hc
    · exact Or.inr (Or.inl hc)
    · exact Or.inr (Or.inr hc)

/-- A checkpoint is stored: of a loop, of a request, or of a resume while no loop runs. -/
theorem good_stored (hgood : Good sha256 identity s) (hopen : ¬ Ended (s.checkpoints identity))
    (hi : s.processes[i]? = some (.persisting after job existing))
    (hlog : GoodLog (Job.toJson identity) sha256 (s.log ++ [((identity.projectId, c.id), c)]))
    (hidle : after = .result none → job.status = .RUNNING → ∀ q ∈ s.processes, q.inLoop = false)
    (hstate : c.state = job) (hjob : c.jobId = identity.id) :
    Good sha256 identity
      ({ s with log := s.log ++ [((identity.projectId, c.id), c)] }.put i
        (.persisted after (.ok job))) := by
  have horderly := hgood.orderly hopen
  obtain ⟨_, hsound, hafter⟩ := horderly.each i _ hi
  have hcheckpoints : ({ s with log := s.log ++ [((identity.projectId, c.id), c)] }.put i
      (.persisted after (.ok job))).checkpoints identity = s.checkpoints identity ++ [c] :=
    checkpoints_stored hjob
  refine ⟨hlog, ?_, ?_, ?_⟩
  · rw [hcheckpoints]
    intro d hd
    rcases List.mem_append.mp hd with hd | hd
    · exact hgood.sound d hd
    · rw [List.mem_singleton.mp hd, hstate]
      exact hsound
  · rw [hcheckpoints]
    intro d hd hcompleted
    rcases List.mem_append.mp hd with hd | hd
    · exact hgood.complete d hd hcompleted
    · rw [List.mem_singleton.mp hd, hstate] at hcompleted ⊢
      cases after with
      | result signal => exact hsound.complete (hafter.1 hcompleted)
      | phase signal k =>
        rw [hafter.2.1] at hcompleted
        cases hcompleted
  · intro hstill
    rw [hcheckpoints] at hstill
    have hlive : job.status.terminal = false := by
      rw [Bool.eq_false_iff]
      intro hterminal
      exact hstill ⟨c, by simp, by rw [hstate]; exact hterminal⟩
    refine ⟨?_, ?_⟩
    · intro j k q r hq hr hqin hrin
      have hback : ∀ (j : Nat) (q : Process),
          ({ s with log := s.log ++ [((identity.projectId, c.id), c)] }.put i
            (.persisted after (.ok job))).processes[j]? = some q → q.inLoop = true →
          ∃ q₀, s.processes[j]? = some q₀ ∧ q₀.inLoop = true := by
        intro j q hq hin
        rcases get_put hq with ⟨rfl, rfl⟩ | ⟨_, hq⟩
        · refine ⟨_, hi, ?_⟩
          cases after with
          | phase signal k => rfl
          | result signal => cases signal <;> exact hin
        · exact ⟨q, hq, hin⟩
      obtain ⟨q₀, hq₀, hin₀⟩ := hback j q hq hqin
      obtain ⟨r₀, hr₀, hin₁⟩ := hback k r hr hrin
      exact horderly.one j k q₀ r₀ hq₀ hr₀ hin₀ hin₁
    · intro j q hq
      rw [hcheckpoints]
      rcases get_put hq with ⟨rfl, rfl⟩ | ⟨hne, hother⟩
      · cases after with
        | result signal => trivial
        | phase signal k =>
          obtain ⟨hk, _, hlength, _, _⟩ := hafter
          refine ⟨hk, ⟨hsound, hlive, fun _ => hlength.ge, ?_⟩, fun h => hlength.trans h⟩
          intro d hd _
          rw [List.getLast?_concat] at hd
          cases hd
          rw [hstate]
      · have hheld := horderly.each j q hother
        by_cases hrunning : job.status = .RUNNING
        · -- the writer is the one loop, or there is none
          apply holds_grow_idle hheld
          rw [Bool.eq_false_iff]
          intro hin
          cases after with
          | phase signal k => exact hne (horderly.one j i q _ hother hi hin rfl)
          | result signal =>
            cases signal with
            | none =>
              rw [hidle rfl hrunning q (List.mem_of_getElem? hother)] at hin
              cases hin
            | some signal => exact hafter.2 rfl hrunning
        · apply holds_grow_paused hheld
          rw [hstate]
          exact not_running_is_paused hlive hrunning

theorem good_persist (hgood : Good sha256 identity s)
    (hi : s.processes[i]? = some (.persisting after job existing))
    (hc : meetsOneLoop identity s (.next i completedAt now) = true) :
    Good sha256 identity ({ s with log := (persist sha256 identity s.log job existing).2 }.put i
      (.persisted after (persist sha256 identity s.log job existing).1)) := by
  obtain ⟨hidle, hlastPhase⟩ := meets_persist hi hc
  have hloop : ∀ stored, (Process.persisted after stored).inLoop = true →
      (Process.persisting after job existing).inLoop = true := by
    intro stored hin
    cases after with
    | phase signal k => rfl
    | result signal => cases signal <;> exact hin
  by_cases hended : Ended (s.checkpoints identity)
  · rw [persist_ended hgood.log hended]
    exact good_put hgood hi (hloop _) fun hopen => absurd hended hopen
  · have hholds := (hgood.orderly hended).each i _ hi
    have hkeeps : GoodLog (Job.toJson identity) sha256
        (persist sha256 identity s.log job existing).2 := persist_keeps hgood.log
    have hcases : Persisted identity s job existing (persist sha256 identity s.log job existing).1
        (persist sha256 identity s.log job existing).2 := persist_open hgood.log hended hholds.1
    generalize persist sha256 identity s.log job existing = result at hkeeps hcases
    obtain ⟨stored, log'⟩ := result
    dsimp only at hkeeps hcases ⊢
    cases hcases with
    | refused e =>
      refine good_put hgood hi (hloop _) fun _ _ => ?_
      cases after <;> trivial
    | stale c hlast hlater =>
      refine good_put hgood hi (hloop _) fun _ _ => ?_
      apply holds_persisted hgood hended hholds hlast hlater
      intro signal k hafter
      rcases hlastPhase signal k hafter with h | h | h
      · exact h
      · exact absurd h hlater
      · exact absurd h hended
    | stored c hstate hjob => exact good_stored hgood hended hi hkeeps hidle hstate hjob

end Writes

/-! ## Every turn -/

section Turns

variable {s t : System}

variable (hgood : Good sha256 identity s)
include hgood

variable (hi : s.processes[i]? = some p)
include hi

theorem good_finish {result : Except Failure Job}
    :
    Good sha256 identity (finish s i result) :=
  good_put hgood hi (fun h => by cases h) fun _ _ => trivial

/-- The loop reads the log again, before the next phase or before the end. -/
theorem good_enter
    (hin : p.inLoop = true)
    (hready : ¬ Ended (s.checkpoints identity) → Holds (s.checkpoints identity) p →
      Ready k state (s.checkpoints identity) ∧
        (phases.length ≤ k → state.completedPhases.length = phases.length)) :
    Good sha256 identity (enterPhase identity s i signal k state) := by
  unfold enterPhase
  split
  · rename_i hk
    refine good_put hgood hi (fun _ => hin) fun hopen hholds => ?_
    exact ⟨hk, ready_enter hgood hopen (hready hopen hholds).1⟩
  · rename_i hk
    refine good_put hgood hi (fun _ => hin) fun hopen hholds => ?_
    obtain ⟨hready, hall⟩ := hready hopen hholds
    exact ⟨hready.sound, hall (by omega)⟩

/-- The log is listed for a checkpoint of a result. -/
theorem good_list {signal : Option Nat}
    (hin : signal.isSome = true → p.inLoop = true)
    (hjob : ¬ Ended (s.checkpoints identity) → Holds (s.checkpoints identity) p →
      Sound job ∧ (job.status = .COMPLETED → job.completedPhases.length = phases.length) ∧
        (signal.isSome = true → job.status ≠ .RUNNING)) :
    Good sha256 identity (listCheckpoints identity s i (.result signal) job) := by
  refine good_put hgood hi ?_ fun hopen hholds => ?_
  · intro h
    cases signal with
    | none => cases h
    | some signal => exact hin rfl
  · obtain ⟨hsound, hcompleted, hrunning⟩ := hjob hopen hholds
    exact ⟨List.prefix_rfl, hsound, hcompleted, hrunning⟩

/-- The log is listed for the checkpoint of a phase that has ended. -/
theorem good_advanced {output : Option Json}
    (hin : p.inLoop = true)
    (hactive : ¬ Ended (s.checkpoints identity) → Holds (s.checkpoints identity) p →
      Active k state (s.checkpoints identity)) :
    Good sha256 identity
      (listCheckpoints identity s i (.phase signal k) (advancedJob state k output now)) := by
  refine good_put hgood hi (fun _ => hin) fun hopen hholds => ?_
  have h := hactive hopen hholds
  refine ⟨List.prefix_rfl, sound_advanced h.sound now h.inside h.reached output, h.inside,
    h.running, ?_, ?_, Or.inl rfl⟩
  · show (state.completedPhases ++ [phaseAt k]).length = k + 1
    rw [List.length_append, h.reached]
    rfl
  · intro c hc hrunning
    exact (h.calm c hc hrunning).trans (Nat.le_succ _)

omit hi

theorem beforePhase_good (hi : s.processes[i]? = some (.beforePhase signal k state latest))
    (h : advance sha256 identity s i (.beforePhase signal k state latest) completedAt now =
      some t) : Good sha256 identity t := by
  unfold advance at h
  dsimp only at h
  generalize hstate : (newer latest state).getD state = current at h
  have hheld : ¬ Ended (s.checkpoints identity) →
      Holds (s.checkpoints identity) (.beforePhase signal k state latest) →
      k < phases.length ∧ Ready k current (s.checkpoints identity) :=
    fun _ hholds => hstate ▸ hholds
  split at h
  · cases h
    exact good_finish hgood hi
  · split at h
    · rename_i hmem
      cases h
      refine good_enter hgood hi rfl fun hopen hholds => ?_
      obtain ⟨hk, hready⟩ := hheld hopen hholds
      have hless := (hready.sound.mem_iff hk).mp hmem
      have hle := hready.sound.length_le
      exact ⟨⟨hready.sound, hready.live, fun _ => hless, hready.calm⟩, fun _ => by omega⟩
    · split at h
      · cases h
        refine good_list hgood hi (fun _ => rfl) fun hopen hholds => ?_
        obtain ⟨_, hready⟩ := hheld hopen hholds
        exact ⟨sound_paused hready.sound now, fun h => JobStatus.noConfusion h,
          fun _ h => JobStatus.noConfusion h⟩
      · rename_i hmem hpaused
        cases h
        refine good_put hgood hi (fun _ => rfl) fun hopen hholds => ?_
        obtain ⟨hk, hready⟩ := hheld hopen hholds
        have hrunning : current.status = .RUNNING := by
          by_contra hnot
          have hdesired := hready.sound.paused (not_running_is_paused hready.live hnot)
          simp [hdesired] at hpaused
        have hle := hready.reached hrunning
        have hnot : ¬ k < current.completedPhases.length :=
          fun hless => hmem ((hready.sound.mem_iff hk).mpr hless)
        exact ⟨hk, hready.sound, hrunning, by omega, hready.calm⟩

theorem afterPhase_good {output : Option Json}
    (hi : s.processes[i]? = some (.afterPhase signal k state output latest))
    (h : advance sha256 identity s i (.afterPhase signal k state output latest) completedAt now =
      some t) : Good sha256 identity t := by
  unfold advance at h
  dsimp only at h
  split at h
  · rename_i later hlater
    split at h
    · cases h
      exact good_finish hgood hi
    · split at h
      · rename_i hdesired
        cases h
        refine good_list hgood hi (fun _ => rfl) fun _ hholds => ?_
        obtain ⟨hsound, _⟩ := hholds.2 later hlater
        exact ⟨sound_held hsound now hdesired, fun h => JobStatus.noConfusion h,
          fun _ h => JobStatus.noConfusion h⟩
      · rename_i hdesired
        cases h
        refine good_advanced hgood hi rfl fun _ hholds => ?_
        obtain ⟨hsound, hpaused⟩ := hholds.2 later hlater
        exact absurd (hsound.paused hpaused) hdesired
  · cases h
    exact good_advanced hgood hi rfl fun _ hholds => hholds.1

theorem beforeCompletion_good (hi : s.processes[i]? = some (.beforeCompletion signal state latest))
    (h : advance sha256 identity s i (.beforeCompletion signal state latest) completedAt now =
      some t) : Good sha256 identity t := by
  have hcompletes : Good sha256 identity (listCheckpoints identity s i (.result (some signal))
      (completedJob state completedAt now)) := by
    refine good_list hgood hi (fun _ => rfl) fun _ hholds => ?_
    exact ⟨sound_completed hholds.1 completedAt now, fun _ => hholds.2,
      fun _ h => JobStatus.noConfusion h⟩
  unfold advance at h
  dsimp only at h
  split at h
  · split at h
    · cases h
      exact good_finish hgood hi
    · cases h
      exact hcompletes
  · cases h
    exact hcompletes

theorem persisted_good {stored : Except Failure Job}
    (hi : s.processes[i]? = some (.persisted after stored))
    (h : advance sha256 identity s i (.persisted after stored) completedAt now = some t) :
    Good sha256 identity t := by
  cases after with
  | result signal =>
    cases h
    exact good_finish hgood hi
  | phase signal k =>
    cases stored with
    | error e =>
      cases h
      exact good_finish hgood hi
    | ok state =>
      unfold advance at h
      dsimp only at h
      split at h
      · cases h
        exact good_finish hgood hi
      · cases h
        refine good_enter hgood hi rfl fun _ hholds => ?_
        obtain ⟨hk, hready, hall⟩ := hholds
        exact ⟨hready, fun _ => hall (by omega)⟩

theorem failing_good {error : JobError} (hi : s.processes[i]? = some (.failing job error latest))
    (h : advance sha256 identity s i (.failing job error latest) completedAt now = some t) :
    Good sha256 identity t := by
  have hfails : ∀ job', (Holds (s.checkpoints identity) (.failing job error latest) →
      Sound job') → Good sha256 identity
        (listCheckpoints identity s i (.result none) (failedJob job' error now)) := by
    intro job' hjob
    refine good_list hgood hi (fun h => by cases h) fun _ hholds => ?_
    exact ⟨sound_failed (hjob hholds) now error, fun h => JobStatus.noConfusion h,
      fun h => by cases h⟩
  unfold advance at h
  dsimp only at h
  split at h
  · split at h
    · cases h
      exact good_finish hgood hi
    · rename_i later _
      cases h
      apply hfails
      intro hholds
      cases hnewer : newer (some later) job with
      | none => exact hholds.1
      | some latest => exact hholds.2 latest (newer_some hnewer).1
  · cases h
    exact hfails job fun hholds => hholds.1

theorem advance_good (hi : s.processes[i]? = some p)
    (hc : meetsOneLoop identity s (.next i completedAt now) = true)
    (h : advance sha256 identity s i p completedAt now = some t) : Good sha256 identity t := by
  cases p with
  | beforePhase signal k state latest => exact beforePhase_good hgood hi h
  | authorizing signal k state => cases h
  | handling signal k state => cases h
  | afterPhase signal k state output latest => exact afterPhase_good hgood hi h
  | beforeCompletion signal state latest => exact beforeCompletion_good hgood hi h
  | persisting after job existing =>
    cases h
    exact good_persist hgood hi hc
  | persisted after stored => exact persisted_good hgood hi h
  | failing job error latest => exact failing_good hgood hi h
  | done result => cases h

/-- A request waits for the listing of the log with its new state. -/
theorem good_request {allowed : Bool} {message : String}
    (hsound : Sound job) (hnot : job.status ≠ .COMPLETED) :
    Good sha256 identity (request identity s job allowed message) := by
  unfold request
  split
  · refine good_spawn hgood (fun h => by cases h) fun _ => ?_
    exact ⟨List.prefix_rfl, hsound, fun h => absurd h hnot, fun h => by cases h⟩
  · exact good_spawn hgood (fun h => by cases h) fun _ => trivial

theorem run_good {n : Nat} (hc : meetsOneLoop identity s (.run n signal) = true)
    (h : step sha256 identity configured s (.run n signal) = some t) : Good sha256 identity t := by
  obtain ⟨c, hget, rfl⟩ := Option.map_eq_some_iff.mp h
  have hmem := List.mem_of_getElem? hget
  unfold startLoop
  split
  · exact good_spawn hgood (fun h => by cases h) fun _ => trivial
  · refine good_spawn hgood (fun _ q hq => ?_) fun hopen => ?_
    · simp only [meetsOneLoop, List.all_eq_true, Bool.not_eq_true'] at hc
      exact hc q hq
    · refine ⟨by decide, ?_⟩
      cases hnewer : newer (s.latest identity) c.state with
      | none =>
        refine ⟨hgood.sound c hmem, open_status hopen hmem, fun _ => Nat.zero_le _, ?_⟩
        intro d hd _
        -- no newer state was read, so the last checkpoint is not newer
        have hlatest : s.latest identity = some d.state := by
          have hnumbered : Numbered (Job.toJson identity) (s.checkpoints identity) :=
            hgood.log.numbered _ _
          unfold System.latest
          rw [latestIn_open hnumbered hopen, hd]
          rfl
        unfold newer at hnewer
        rw [hlatest, Option.filter_eq_none_iff] at hnewer
        simpa using hnewer d.state rfl
      | some later =>
        obtain ⟨hlatest, _⟩ := newer_some hnewer
        obtain ⟨d, hd, hdmem, rfl⟩ := latest_some hgood hopen hlatest
        refine ⟨hgood.sound d hdmem, open_status hopen hdmem, fun _ => Nat.zero_le _, ?_⟩
        intro e he _
        rw [hd] at he
        cases he
        exact le_refl _

omit hgood

theorem step_good (a : Turn) (hgood : Good sha256 identity s)
    (hc : meetsOneLoop identity s a = true)
    (h : step sha256 identity configured s a = some t) : Good sha256 identity t := by
  cases a with
  | controller =>
    cases h
    exact ⟨hgood.log, hgood.sound, hgood.complete, fun hopen =>
      ⟨(hgood.orderly hopen).one, (hgood.orderly hopen).each⟩⟩
  | abort signal =>
    cases h
    exact ⟨hgood.log, hgood.sound, hgood.complete, fun hopen =>
      ⟨(hgood.orderly hopen).one, (hgood.orderly hopen).each⟩⟩
  | run n signal => exact run_good hgood hc h
  | pause n now =>
    obtain ⟨c, hget, rfl⟩ := Option.map_eq_some_iff.mp h
    exact good_request hgood (sound_paused (hgood.sound c (List.mem_of_getElem? hget)) now)
      fun h => JobStatus.noConfusion h
  | resume n now =>
    obtain ⟨c, hget, rfl⟩ := Option.map_eq_some_iff.mp h
    exact good_request hgood (sound_resumed (hgood.sound c (List.mem_of_getElem? hget)) now)
      fun h => JobStatus.noConfusion h
  | cancel n completedAt now =>
    obtain ⟨c, hget, rfl⟩ := Option.map_eq_some_iff.mp h
    exact good_request hgood
      (sound_cancelled (hgood.sound c (List.mem_of_getElem? hget)) completedAt now)
      fun h => JobStatus.noConfusion h
  | fail n error =>
    obtain ⟨c, hget, rfl⟩ := Option.map_eq_some_iff.mp h
    refine good_spawn hgood (fun h => by cases h) fun hopen => ?_
    refine ⟨hgood.sound c (List.mem_of_getElem? hget), ?_⟩
    intro later hlater
    obtain ⟨d, _, hmem, rfl⟩ := latest_some hgood hopen hlater
    exact hgood.sound d hmem
  | authorize i verdict =>
    simp only [step] at h
    split at h
    · rename_i signal k state hi
      split at h
      · cases h
        exact good_finish hgood hi
      · split at h
        · cases h
          exact good_put hgood hi (fun _ => rfl) fun _ hholds => hholds
        · cases h
          exact good_finish hgood hi
    · cases h
  | handle i outcome =>
    simp only [step] at h
    split at h
    · rename_i signal k state hi
      split at h
      · cases h
        exact good_finish hgood hi
      · cases h
        refine good_put hgood hi (fun _ => rfl) fun hopen hholds => ?_
        refine ⟨hholds, ?_⟩
        intro later hlater
        obtain ⟨hsound, hpaused, _⟩ := newer_latest hgood hopen (Active.calm hholds) hlater
        exact ⟨hsound, hpaused⟩
    · cases h
  | next i completedAt now =>
    obtain ⟨p, hi, hadvance⟩ := Option.bind_eq_some_iff.mp h
    exact advance_good hgood hi hc hadvance

end Turns

theorem good_start (now : String) : Good sha256 identity (start sha256 identity now) := by
  have hnew : (start sha256 identity now).log = [((identity.projectId, checkpointId
      (Job.toJson identity) sha256 identity.id 1 (startedJob now)),
      normalized (Job.toJson identity) sha256 1
        (persistRequest identity (startedJob now) []))] := rfl
  have hcheckpoints : (start sha256 identity now).checkpoints identity =
      [normalized (Job.toJson identity) sha256 1
        (persistRequest identity (startedJob now) [])] := by
    unfold System.checkpoints checkpointsIn checkpointsOf
    rw [hnew]
    simp [normalized, persistRequest]
  have hkeeps : GoodLog (Job.toJson identity) sha256 (start sha256 identity now).log :=
    (stored_logAfter [(identity.projectId, persistRequest identity (startedJob now) [])]).good
  refine ⟨hkeeps, ?_, ?_, ?_⟩
  · rw [hcheckpoints]
    intro c hc
    rw [List.mem_singleton.mp hc]
    exact sound_started now
  · rw [hcheckpoints]
    intro c hc hcompleted
    rw [List.mem_singleton.mp hc] at hcompleted
    cases hcompleted
  · intro _
    exact ⟨fun i j p q hp => by simp [start] at hp, fun i p hp => by simp [start] at hp⟩

/-- In every interleaving in which loops and resumes of the job do not overlap and the last phase
is written without another checkpoint in between, each checkpoint of a completed job has the
seven phases, once and in their order, with their outputs. -/
theorem completed_jobs_ran_every_phase (sha256 : String → String) (identity : Identity)
    (configured : Phase → Bool) (now : String) (turns : List Turn) (s : System)
    (hrun : Machine.run (step sha256 identity configured) (start sha256 identity now) turns =
      some s)
    (hc : Machine.Along (step sha256 identity configured)
      (fun s a => meetsOneLoop identity s a = true) (start sha256 identity now) turns)
    (c : JobCheckpoint) (hmem : c ∈ s.checkpoints identity)
    (hcompleted : c.state.status = .COMPLETED) :
    c.state.completedPhases = phases ∧ ∀ p ∈ phases, ∃ output, (p, output) ∈ c.state.outputs := by
  have hstep : ∀ s a t, Good sha256 identity s → meetsOneLoop identity s a = true →
      step sha256 identity configured s a = some t → Good sha256 identity t :=
    fun s a t hgood hcondition h => step_good a hgood hcondition h
  have hgood := Machine.run_keeps_along hstep hrun hc (good_start now)
  exact hgood.complete c hmem hcompleted

/-! ## A job that runs to its end, and a pause that crosses its end -/

/-- SHA-256 on what the ids of the checkpoints of the two runs are made from. -/
def jobDigest : String → String :=
  tabledDigest [(9481, "3e49d9cdb216c990023b437dfffa30d177559d1be1e6e0666622305ebfd16317"),
    (10388, "7ce9eda6b69bb6b14ffd8040c192e6ae7ea377d3331a2ce0a4db8e24b8d8feaf"),
    (11113, "1f2192989fa53eab4efe8e64cbfbb6cf24ee831313e7d9718146b371f2d8853a"),
    (12269, "7ae9dc3fa65400f98ce21f7d9131eadca553072e28d33dae35200bf7e53c68bc"),
    (13142, "79cb1f1fc407a58eb11bd87e4f0360a71cc6fa08ed5b4472a54220268be486e1"),
    (14020, "5b8f877c0191bc47e0bd73ab6c17e44d345521fe98ec88bffd06cdbbdfe49aef"),
    (14890, "b00b3add7746905f2553b0751d57c107647085af84fe13240d69f60d061fa539"),
    (15672, "4c38b5bc5069cb80b7870f06543ad6063d893e5a83e3986d4ba1592d7c687441"),
    (15797, "6af825adb55321cc57b701381e081dded7ec04e60a8bfd95217c6540489e1efc"),
    (14796, "e3140dd89c8ed0c19cd5cd062f8e2307324fea5b5f42b008906b4864de2821a5"),
    (14928, "aae532e69123ae951698e64f38c3742daa6d603d39d511a7fbc2b55cb4ba1b86")]

def sampleJob : Identity where
  id := "JOB"
  projectId := "P"
  snapshotManifestId := .str "M"
  createdAt := "2026-07-15T12:00:00.000Z"
  others := []

def noon : String := "2026-07-15T12:00:00.000Z"

def sampleStep : System → Turn → Option System := step jobDigest sampleJob fun _ => true

def sampleStart : System := start jobDigest sampleJob noon

/-- The turns of the first loop from one phase to the next, up to its listing of the log. -/
def untilListed : List Turn :=
  [.next 0 noon noon, .authorize 0 (.ok ()), .handle 0 (.ok none), .next 0 noon noon]

def throughPhase : List Turn := untilListed ++ [.next 0 noon noon, .next 0 noon noon]

def throughCompletion : List Turn := [.next 0 noon noon, .next 0 noon noon]

/-- One loop runs the job from its start to its end. -/
def undisturbed : List Turn :=
  [.controller, .run 0 0] ++ (List.replicate 7 throughPhase).flatten ++ throughCompletion

theorem undisturbed_job_ran_every_phase :
    ∃ s c, Machine.run sampleStep sampleStart undisturbed = some s ∧
      c ∈ s.checkpoints sampleJob ∧ c.state.status = .COMPLETED ∧
      c.state.completedPhases = phases ∧ ∀ p ∈ phases, ∃ output, (p, output) ∈ c.state.outputs := by
  have hrun : (Machine.run (Machine.guarded sampleStep (meetsOneLoop sampleJob)) sampleStart
      undisturbed).map (fun s => (s.checkpoints sampleJob).any fun c =>
        c.state.status = .COMPLETED) = some true := by decide +kernel
  obtain ⟨s, hguarded, hany⟩ := Option.map_eq_some_iff.mp hrun
  obtain ⟨hs, halong⟩ := Machine.run_guarded hguarded
  obtain ⟨c, hmem, hcompleted⟩ := List.any_eq_true.mp hany
  have hstatus : c.state.status = .COMPLETED := by simpa using hcompleted
  exact ⟨s, c, hs, hmem, hstatus, completed_jobs_ran_every_phase jobDigest sampleJob (fun _ => true)
    noon undisturbed s hs halong c hmem hstatus⟩

/-- The pause is written between the listing and the checkpoint of the last phase. -/
def pausedAtTheEnd : List Turn :=
  [.controller, .run 0 0] ++ (List.replicate 6 throughPhase).flatten ++ untilListed ++
    [.pause 6 noon, .next 1 noon noon, .next 0 noon noon, .next 0 noon noon] ++ throughCompletion

theorem paused_job_completes_without_its_last_phase :
    ¬ ∀ (turns : List Turn) (s : System), Machine.run sampleStep sampleStart turns = some s →
      ∀ c ∈ s.checkpoints sampleJob, c.state.status = .COMPLETED →
        c.state.completedPhases = phases ∧
          ∀ p ∈ phases, ∃ output, (p, output) ∈ c.state.outputs := by
  intro h
  have hrun : (Machine.run sampleStep sampleStart pausedAtTheEnd).map
      (fun s => (s.checkpoints sampleJob).any fun c =>
        c.state.status = .COMPLETED && decide (c.state.completedPhases ≠ phases)) =
      some true := by decide +kernel
  obtain ⟨s, hs, hany⟩ := Option.map_eq_some_iff.mp hrun
  obtain ⟨c, hmem, hboth⟩ := List.any_eq_true.mp hany
  simp only [Bool.and_eq_true, decide_eq_true_eq] at hboth
  exact hboth.2 (h pausedAtTheEnd s hs c hmem hboth.1).1

end Traqen.JobLoops
