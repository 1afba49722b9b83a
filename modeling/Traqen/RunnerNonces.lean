-- Runs that share a nonce registry (`ControlledRunner.run` of `runner/controlled-runner.js`). A run
-- checks its task, waits for the target policy, binds both in one turn and then acts on the
-- target, one action after the other.
import Traqen.RunnerAdmission
import Traqen.Lib.Machine

open Js

namespace Traqen.RunnerNonces

open ExecutionEvidence RunnerErrors RunnerTasks TestSpecs RunnerAdmission

/-! ## Runs -/

structure Runner where
  id : String
  secret : String
  /-- A fixture lifecycle executor is configured. -/
  hasFixtures : Bool

/-- The actions of a run on its target. -/
inductive Stage where
  | setup
  | step (index : Nat)
  | cleanup
deriving DecidableEq, Repr

inductive Phase where
  | rejected
  /-- The task is authentic; the target policy is awaited. -/
  | resolving (task : RunnerTask)
  /-- The task is bound; its variables are awaited. -/
  | preparing (task : RunnerTask) (policy : Json) (level : TestOperationLevel)
  /-- The fixture session is awaited. -/
  | opening (task : RunnerTask) (policy : Json)
  | executing (task : RunnerTask) (policy : Json) (level : TestOperationLevel) (stage : Stage)
  /-- A bound run has settled. -/
  | ended (task : RunnerTask) (policy : Json)

structure Run where
  runner : Runner
  attested : Json
  acceptedAt : Int
  phase : Phase

/-- A setup, a step or a cleanup that was executed, and the policy that it was given. -/
structure Touch where
  run : Nat
  nonce : String
  stage : Stage
  policy : Json

structure System where
  usedNonces : Nonces
  runs : List Run
  touched : List Touch

/-- How an action ends: the run goes on, it fails and goes to its cleanup, or it rejects. -/
inductive Outcome where
  | goesOn
  | fails
  | rejects
deriving DecidableEq, Repr

inductive Turn where
  | run (runner : Runner) (attested : Json) (now : Int)
  | policy (run : Nat) (answer : Except RunnerError (Option Json)) (now : Instant)
  | resolved (run : Nat) (outcome : Except RunnerError Unit)
  | session (run : Nat) (outcome : Except RunnerError Unit)
  /-- An action that fails before its handler or executor is called touches nothing. -/
  | act (run : Nat) (touches : Bool) (outcome : Outcome)

def System.put (s : System) (i : Nat) (r : Run) (phase : Phase) : System :=
  { s with runs := s.runs.set i { r with phase } }

/-- What follows the last step. -/
def closing (level : TestOperationLevel) : Option Stage :=
  if level = .CONTROLLED_WRITE then some .cleanup else none

def stepOrClosing (task : RunnerTask) (level : TestOperationLevel) (index : Nat) : Option Stage :=
  if index < (itemsOf (field (some task.testSpec) "steps")).length then some (.step index)
  else closing level

def nextStage (task : RunnerTask) (level : TestOperationLevel) (stage : Stage)
    (outcome : Outcome) : Option Stage :=
  match outcome, stage with
  | .rejects, _ | _, .cleanup => none
  | .fails, _ => closing level
  | .goesOn, .setup => stepOrClosing task level 0
  | .goesOn, .step index => stepOrClosing task level (index + 1)

/-- The run goes to a stage, or has none left. -/
def enter (task : RunnerTask) (policy : Json) (level : TestOperationLevel) (stage : Option Stage) :
    Phase :=
  match stage with
  | some stage => .executing task policy level stage
  | none => .ended task policy

section Steps

variable (toUpperCase : String → String) (dateParse : String → Option Int)
  (sha256 : String → String) (hmac : String → String → String)

/-- The policy is there: it is bound in the turn in which its hash is checked. -/
def bind (s : System) (i : Nat) (r : Run) (task : RunnerTask) (policy : Json) (now : Instant) :
    System :=
  match bindRunnerTaskPolicy sha256 task policy s.usedNonces with
  | .error _ => s.put i r .rejected
  | .ok (task, usedNonces) =>
    match admitTask toUpperCase dateParse task policy r.runner.hasFixtures now with
    | .error _ => { s with usedNonces }.put i r (.ended task policy)
    | .ok admission => { s with usedNonces }.put i r (.preparing task policy admission.operationLevel)

def step (s : System) : Turn → Option System
  | .run runner attested now =>
    match authenticateRunnerTask dateParse hmac attested runner.id runner.secret now s.usedNonces with
    | .error _ => some { s with runs := s.runs ++ [⟨runner, attested, now, .rejected⟩] }
    | .ok task => some { s with runs := s.runs ++ [⟨runner, attested, now, .resolving task⟩] }
  | .policy i answer now =>
    match s.runs[i]? with
    | some r =>
      match r.phase, answer with
      | .resolving task, .ok (some policy) =>
        if truthy (some policy) then
          some (bind toUpperCase dateParse sha256 s i r task policy now)
        else some (s.put i r .rejected)
      | .resolving _, _ => some (s.put i r .rejected)
      | _, _ => none
    | none => none
  | .resolved i outcome =>
    match s.runs[i]? with
    | some r =>
      match r.phase, outcome with
      | .preparing task policy _, .error _ => some (s.put i r (.ended task policy))
      | .preparing task policy level, .ok _ =>
        if level = .CONTROLLED_WRITE then some (s.put i r (.opening task policy))
        else some (s.put i r (enter task policy level (stepOrClosing task level 0)))
      | _, _ => none
    | none => none
  | .session i outcome =>
    match s.runs[i]? with
    | some r =>
      match r.phase, outcome with
      | .opening task policy, .error _ => some (s.put i r (.ended task policy))
      | .opening task policy, .ok _ =>
        some (s.put i r (.executing task policy .CONTROLLED_WRITE .setup))
      | _, _ => none
    | none => none
  | .act i touches outcome =>
    match s.runs[i]? with
    | some r =>
      match r.phase with
      | .executing task policy level stage =>
        let touched :=
          if touches then s.touched ++ [Touch.mk i task.nonce stage policy] else s.touched
        some ({ s with touched }.put i r
          (enter task policy level (nextStage task level stage outcome)))
      | _ => none
    | none => none

def start (usedNonces : Nonces) : System where
  usedNonces
  runs := []
  touched := []

end Steps

/-! ## What a run is bound to -/

/-- The task and the policy of a run that used up its nonce. -/
def Phase.bound : Phase → Option (RunnerTask × Json)
  | .rejected | .resolving _ => none
  | .preparing task policy _ | .opening task policy | .executing task policy _ _
  | .ended task policy => some (task, policy)

/-- The stage `t` can only come after `s`. -/
def Stage.before : Stage → Stage → Bool
  | .setup, .setup => false
  | .setup, _ => true
  | .step i, .step j => i < j
  | .step _, .cleanup => true
  | _, _ => false

/-- A stage may have been executed in a phase. -/
def Phase.past (phase : Phase) (stage : Stage) : Prop :=
  match phase with
  | .executing _ _ _ now => stage.before now = true
  | .ended .. => True
  | _ => False

theorem not_before_self (stage : Stage) : stage.before stage = false := by
  cases stage <;> simp [Stage.before]

theorem before_trans {a b c : Stage} (h : a.before b = true) (hbc : b.before c = true) :
    a.before c = true := by
  cases a <;> cases b <;> cases c <;> simp [Stage.before] at *
  omega

theorem bound_enter (task : RunnerTask) (policy : Json) (level : TestOperationLevel)
    (stage : Option Stage) : (enter task policy level stage).bound = some (task, policy) := by
  cases stage <;> rfl

variable {level : TestOperationLevel} {next stage : Stage}

theorem before_closing
    (hstage : stage ≠ .cleanup) (h : closing level = some next) : stage.before next = true := by
  unfold closing at h
  split at h
  · cases h
    cases stage with
    | cleanup => exact absurd rfl hstage
    | _ => rfl
  · cases h

variable {task : RunnerTask}

theorem before_stepOrClosing
    {index : Nat} (hstage : stage ≠ .cleanup) (hstep : stage.before (.step index) = true)
    (h : stepOrClosing task level index = some next) : stage.before next = true := by
  unfold stepOrClosing at h
  split at h
  · cases h
    exact hstep
  · exact before_closing hstage h

theorem before_nextStage {outcome : Outcome} (h : nextStage task level stage outcome = some next) :
    stage.before next = true := by
  cases stage with
  | cleanup => cases outcome <;> cases h
  | setup =>
    cases outcome with
    | rejects => cases h
    | fails => exact before_closing Stage.noConfusion h
    | goesOn => exact before_stepOrClosing Stage.noConfusion rfl h
  | step index =>
    cases outcome with
    | rejects => cases h
    | fails => exact before_closing Stage.noConfusion h
    | goesOn =>
      have hstep : (Stage.step index).before (.step (index + 1)) = true := by simp [Stage.before]
      exact before_stepOrClosing Stage.noConfusion hstep h

variable {policy : Json}

/-- What was past stays past, and so does the stage that a run leaves. -/
theorem past_enter
    {done : Stage} {outcome : Outcome} (h : done.before stage = true ∨ done = stage) :
    (enter task policy level (nextStage task level stage outcome)).past done := by
  cases hnext : nextStage task level stage outcome with
  | none => trivial
  | some next =>
    have hbefore := before_nextStage hnext
    rcases h with h | rfl
    · exact before_trans h hbefore
    · exact hbefore

/-! ## The invariant -/

variable {toUpperCase : String → String} {dateParse : String → Option Int}
  {sha256 : String → String} {hmac : String → String → String} {initial : Nonces}

/-- The task of a run is authentic for its runner at the time of the call. -/
def RunsAs (dateParse : String → Option Int) (hmac : String → String → String) (r : Run)
    (task : RunnerTask) : Prop :=
  Authentic dateParse hmac r.attested r.runner.id r.runner.secret r.acceptedAt task

structure Bound (dateParse : String → Option Int) (sha256 : String → String)
    (hmac : String → String → String) (initial : Nonces) (usedNonces : Nonces) (r : Run)
    (task : RunnerTask) (policy : Json) : Prop where
  runs : RunsAs dateParse hmac r task
  hash : task.policyHash = runnerPolicyHash sha256 policy
  used : task.nonce ∈ usedNonces
  fresh : task.nonce ∉ initial

/-- Each nonce was used up by one run, and every action belongs to the run that used its nonce. -/
structure Single (dateParse : String → Option Int) (sha256 : String → String)
    (hmac : String → String → String) (initial : Nonces) (s : System) : Prop where
  kept : ∀ nonce ∈ initial, nonce ∈ s.usedNonces
  resolving : ∀ (i : Nat) (r : Run) (task : RunnerTask), s.runs[i]? = some r →
    r.phase = .resolving task → RunsAs dateParse hmac r task
  bound : ∀ (i : Nat) (r : Run) (task : RunnerTask) (policy : Json), s.runs[i]? = some r →
    r.phase.bound = some (task, policy) →
    Bound dateParse sha256 hmac initial s.usedNonces r task policy
  one : ∀ (i j : Nat) (r q : Run) (task other : RunnerTask) (policy policy' : Json),
    s.runs[i]? = some r → s.runs[j]? = some q → r.phase.bound = some (task, policy) →
    q.phase.bound = some (other, policy') → task.nonce = other.nonce → i = j
  owned : ∀ e ∈ s.touched, ∃ r task, s.runs[e.run]? = some r ∧
    r.phase.bound = some (task, e.policy) ∧ task.nonce = e.nonce ∧ r.phase.past e.stage
  once : (s.touched.map fun e => (e.run, e.stage)).Nodup

section Moves

variable {s : System} {i : Nat} {r : Run}

theorem get_put {phase : Phase} {j : Nat} {q : Run} (h : (s.put i r phase).runs[j]? = some q) :
    j = i ∧ q = { r with phase } ∨ j ≠ i ∧ s.runs[j]? = some q := by
  unfold System.put at h
  rw [List.getElem?_set] at h
  split at h
  · rename_i hij
    split at h
    · cases h
      exact Or.inl ⟨hij.symm, rfl⟩
    · cases h
  · rename_i hij
    exact Or.inr ⟨fun h => hij h.symm, h⟩

theorem get_put_self (hi : s.runs[i]? = some r) (phase : Phase) :
    (s.put i r phase).runs[i]? = some { r with phase } :=
  List.getElem?_set_self (List.getElem?_eq_some_iff.mp hi).1

theorem get_put_ne {j : Nat} (hij : i ≠ j) (phase : Phase) :
    (s.put i r phase).runs[j]? = s.runs[j]? :=
  List.getElem?_set_ne hij

variable (h : Single dateParse sha256 hmac initial s)
include h

/-- A run that is bound goes on with the same task and policy. -/
theorem single_go_on {phase : Phase}
    (hi : s.runs[i]? = some r)
    (hbound : r.phase.bound = some (task, policy)) (hsame : phase.bound = some (task, policy))
    (hpast : ∀ stage, r.phase.past stage → phase.past stage) :
    Single dateParse sha256 hmac initial (s.put i r phase) := by
  have hback : ∀ (j : Nat) (q : Run) (other : RunnerTask) (policy' : Json),
      (s.put i r phase).runs[j]? = some q → q.phase.bound = some (other, policy') →
      ∃ p, s.runs[j]? = some p ∧ p.phase.bound = some (other, policy') ∧ q.runner = p.runner ∧
        q.attested = p.attested ∧ q.acceptedAt = p.acceptedAt := by
    intro j q other policy' hj hq
    rcases get_put hj with ⟨rfl, rfl⟩ | ⟨_, hj⟩
    · exact ⟨r, hi, hbound.trans (hsame.symm.trans hq), rfl, rfl, rfl⟩
    · exact ⟨q, hj, hq, rfl, rfl, rfl⟩
  refine ⟨h.kept, ?_, ?_, ?_, ?_, h.once⟩
  · intro j q other hj hphase
    rcases get_put hj with ⟨rfl, rfl⟩ | ⟨_, hj⟩
    · change phase = _ at hphase
      rw [hphase] at hsame
      cases hsame
    · exact h.resolving j q other hj hphase
  · intro j q other policy' hj hq
    obtain ⟨p, hp, hpbound, hrunner, hattested, haccepted⟩ := hback j q other policy' hj hq
    obtain ⟨hruns, hhash, hused, hfresh⟩ := h.bound j p other policy' hp hpbound
    refine ⟨?_, hhash, hused, hfresh⟩
    unfold RunsAs
    rw [hrunner, hattested, haccepted]
    exact hruns
  · intro j k q p other other' policy' policy'' hj hk hq hp hnonce
    obtain ⟨q', hq', hqbound, _⟩ := hback j q other policy' hj hq
    obtain ⟨p', hp', hpbound, _⟩ := hback k p other' policy'' hk hp
    exact h.one j k q' p' other other' policy' policy'' hq' hp' hqbound hpbound hnonce
  · intro e he
    obtain ⟨q, other, hq, hqbound, hnonce, hqpast⟩ := h.owned e he
    by_cases hei : e.run = i
    · rw [hei] at hq
      rw [hi] at hq
      cases hq
      rw [hbound] at hqbound
      cases hqbound
      exact ⟨{ r with phase }, task, hei ▸ get_put_self hi phase, hsame, hnonce,
        hpast e.stage hqpast⟩
    · exact ⟨q, other, (get_put_ne (Ne.symm hei) phase).trans hq, hqbound, hnonce, hqpast⟩

/-- A run that was not bound is rejected. -/
theorem single_reject (hi : s.runs[i]? = some r)
    (hfree : r.phase.bound = none) : Single dateParse sha256 hmac initial (s.put i r .rejected) := by
  have hback : ∀ (j : Nat) (q : Run) (other : RunnerTask) (policy' : Json),
      (s.put i r .rejected).runs[j]? = some q → q.phase.bound = some (other, policy') →
      s.runs[j]? = some q := by
    intro j q other policy' hj hq
    rcases get_put hj with ⟨rfl, rfl⟩ | ⟨_, hj⟩
    · cases hq
    · exact hj
  refine ⟨h.kept, ?_, ?_, ?_, ?_, h.once⟩
  · intro j q other hj hphase
    rcases get_put hj with ⟨rfl, rfl⟩ | ⟨_, hj⟩
    · cases hphase
    · exact h.resolving j q other hj hphase
  · intro j q other policy' hj hq
    exact h.bound j q other policy' (hback j q other policy' hj hq) hq
  · intro j k q p other other' policy' policy'' hj hk hq hp hnonce
    exact h.one j k q p other other' policy' policy'' (hback j q other policy' hj hq)
      (hback k p other' policy'' hk hp) hq hp hnonce
  · intro e he
    obtain ⟨q, other, hq, hqbound, hnonce, hqpast⟩ := h.owned e he
    have hne : i ≠ e.run := by
      rintro rfl
      rw [hi] at hq
      cases hq
      rw [hfree] at hqbound
      cases hqbound
    exact ⟨q, other, (get_put_ne hne .rejected).trans hq, hqbound, hnonce, hqpast⟩

/-- A run uses up its nonce. -/
theorem single_bind {phase : Phase}
    (hi : s.runs[i]? = some r)
    (hphase : r.phase = .resolving task) (hunused : task.nonce ∉ s.usedNonces)
    (hhash : task.policyHash = runnerPolicyHash sha256 policy)
    (hbound : phase.bound = some (task, policy)) :
    Single dateParse sha256 hmac initial
      ({ s with usedNonces := s.usedNonces ++ [task.nonce] }.put i r phase) := by
  have hfree : ∀ (j : Nat) (q : Run) (other : RunnerTask) (policy' : Json),
      s.runs[j]? = some q → q.phase.bound = some (other, policy') → other.nonce ≠ task.nonce := by
    intro j q other policy' hj hq hsame
    exact hunused (hsame ▸ (h.bound j q other policy' hj hq).used)
  refine ⟨?_, ?_, ?_, ?_, ?_, h.once⟩
  · intro nonce hnonce
    exact List.mem_append_left _ (h.kept nonce hnonce)
  · intro j q other hj hresolving
    rcases get_put hj with ⟨rfl, rfl⟩ | ⟨_, hj⟩
    · change phase = _ at hresolving
      rw [hresolving] at hbound
      cases hbound
    · exact h.resolving j q other hj hresolving
  · intro j q other policy' hj hq
    rcases get_put hj with ⟨rfl, rfl⟩ | ⟨_, hj⟩
    · change phase.bound = _ at hq
      rw [hbound] at hq
      cases hq
      refine ⟨h.resolving j r task hi hphase, hhash, ?_, ?_⟩
      · exact List.mem_append_right _ (List.mem_singleton.mpr rfl)
      · exact fun hnonce => hunused (h.kept _ hnonce)
    · obtain ⟨hruns, hhash', hused, hfresh⟩ := h.bound j q other policy' hj hq
      exact ⟨hruns, hhash', List.mem_append_left _ hused, hfresh⟩
  · intro j k q p other other' policy' policy'' hj hk hq hp hnonce
    rcases get_put hj with ⟨hji, rfl⟩ | ⟨_, hj⟩
    · change phase.bound = _ at hq
      rw [hbound] at hq
      cases hq
      rcases get_put hk with ⟨hki, _⟩ | ⟨_, hk⟩
      · exact hji.trans hki.symm
      · exact absurd hnonce.symm (hfree k p other' policy'' hk hp)
    · rcases get_put hk with ⟨_, rfl⟩ | ⟨_, hk⟩
      · change phase.bound = _ at hp
        rw [hbound] at hp
        cases hp
        exact absurd hnonce (hfree j q other policy' hj hq)
      · exact h.one j k q p other other' policy' policy'' hj hk hq hp hnonce
  · intro e he
    obtain ⟨q, other, hq, hqbound, hnonce, hqpast⟩ := h.owned e he
    have hne : i ≠ e.run := by
      rintro rfl
      rw [hi] at hq
      cases hq
      rw [hphase] at hqbound
      cases hqbound
    exact ⟨q, other, (get_put_ne hne phase).trans hq, hqbound, hnonce, hqpast⟩

/-- A run acts on its target, for the first time in this stage. -/
theorem single_touch (hi : s.runs[i]? = some r)
    (hphase : r.phase = .executing task policy level stage) (outcome : Outcome) :
    Single dateParse sha256 hmac initial
      ({ s with touched := s.touched ++ [Touch.mk i task.nonce stage policy] }.put i r
        (enter task policy level (nextStage task level stage outcome))) := by
  have hbound : r.phase.bound = some (task, policy) := by
    rw [hphase]
    rfl
  have hmoved := single_go_on h hi hbound
    (bound_enter task policy level (nextStage task level stage outcome)) (fun done hdone => by
      rw [hphase] at hdone
      exact past_enter (Or.inl hdone))
  refine ⟨hmoved.kept, hmoved.resolving, hmoved.bound, hmoved.one, ?_, ?_⟩
  · intro e he
    rcases List.mem_append.mp he with he | he
    · exact hmoved.owned e he
    · obtain rfl := List.mem_singleton.mp he
      exact ⟨_, task, get_put_self hi _, bound_enter task policy level _, rfl,
        past_enter (Or.inr rfl)⟩
  · change ((s.touched ++ [Touch.mk i task.nonce stage policy]).map fun e => (e.run, e.stage)).Nodup
    rw [List.map_append, List.nodup_append]
    refine ⟨h.once, List.nodup_singleton _, ?_⟩
    intro a ha b hb hab
    obtain ⟨e, he, rfl⟩ := List.mem_map.mp ha
    rw [List.map_singleton, List.mem_singleton] at hb
    -- an earlier action of this run was in an earlier stage
    obtain ⟨q, other, hq, _, _, hpast⟩ := h.owned e he
    rw [hb, Prod.mk.injEq] at hab
    rw [hab.1, hi] at hq
    cases hq
    rw [hphase, hab.2] at hpast
    change stage.before stage = true at hpast
    rw [not_before_self] at hpast
    cases hpast

/-- A call adds a run that is not bound. -/
theorem single_call (hfree : r.phase.bound = none)
    (hruns : ∀ task, r.phase = .resolving task → RunsAs dateParse hmac r task) :
    Single dateParse sha256 hmac initial { s with runs := s.runs ++ [r] } := by
  have hback : ∀ (j : Nat) (q : Run), (s.runs ++ [r])[j]? = some q →
      q = r ∨ s.runs[j]? = some q := by
    intro j q hj
    rw [List.getElem?_append] at hj
    split at hj
    · exact Or.inr hj
    · exact Or.inl (List.mem_singleton.mp (List.mem_of_getElem? hj))
  have hbound : ∀ (j : Nat) (q : Run) (other : RunnerTask) (policy' : Json),
      (s.runs ++ [r])[j]? = some q → q.phase.bound = some (other, policy') →
      s.runs[j]? = some q := by
    intro j q other policy' hj hq
    rcases hback j q hj with rfl | hj
    · rw [hfree] at hq
      cases hq
    · exact hj
  refine ⟨h.kept, ?_, ?_, ?_, ?_, h.once⟩
  · intro j q other hj hphase
    rcases hback j q hj with rfl | hj
    · exact hruns other hphase
    · exact h.resolving j q other hj hphase
  · intro j q other policy' hj hq
    exact h.bound j q other policy' (hbound j q other policy' hj hq) hq
  · intro j k q p other other' policy' policy'' hj hk hq hp hnonce
    exact h.one j k q p other other' policy' policy'' (hbound j q other policy' hj hq)
      (hbound k p other' policy'' hk hp) hq hp hnonce
  · intro e he
    obtain ⟨q, other, hq, hrest⟩ := h.owned e he
    refine ⟨q, other, ?_, hrest⟩
    change (s.runs ++ [r])[e.run]? = some q
    rw [List.getElem?_append_left (List.getElem?_eq_some_iff.mp hq).1]
    exact hq

omit h

end Moves

section Turns

variable {s t : System}

theorem single_policy {i : Nat} {r : Run} {now : Instant}
    (h : Single dateParse sha256 hmac initial s) (hi : s.runs[i]? = some r)
    (hphase : r.phase = .resolving task) :
    Single dateParse sha256 hmac initial
      (bind toUpperCase dateParse sha256 s i r task policy now) := by
  have hfree : r.phase.bound = none := by
    rw [hphase]
    rfl
  unfold bind
  split
  · exact single_reject h hi hfree
  · rename_i bound usedNonces hbind
    obtain ⟨rfl, rfl, hunused, hhash⟩ := bindRunnerTaskPolicy_ok hbind
    split
    · exact single_bind h hi hphase hunused hhash rfl
    · exact single_bind h hi hphase hunused hhash rfl

theorem step_single (a : Turn) (h : Single dateParse sha256 hmac initial s)
    (ht : step toUpperCase dateParse sha256 hmac s a = some t) :
    Single dateParse sha256 hmac initial t := by
  cases a with
  | run runner attested now =>
    simp only [step] at ht
    split at ht
    · cases ht
      exact single_call h rfl fun _ hphase => by cases hphase
    · rename_i task hauthenticated
      cases ht
      refine single_call h rfl fun other hphase => ?_
      cases hphase
      exact (authenticateRunnerTask_ok hauthenticated).1
  | policy i answer now =>
    simp only [step] at ht
    split at ht
    · rename_i r hi
      split at ht
      · rename_i task policy hphase
        split at ht <;> cases ht
        · exact single_policy h hi hphase
        · exact single_reject h hi (by rw [hphase]; rfl)
      · rename_i hphase _
        cases ht
        exact single_reject h hi (by rw [hphase]; rfl)
      · cases ht
    · cases ht
  | resolved i outcome =>
    simp only [step] at ht
    split at ht
    · rename_i r hi
      split at ht
      · rename_i task policy level e hphase
        cases ht
        exact single_go_on h hi (by rw [hphase]; rfl) rfl fun stage hpast => by
          rw [hphase] at hpast
          exact hpast.elim
      · rename_i task policy level _ hphase
        split at ht <;> cases ht
        · exact single_go_on h hi (by rw [hphase]; rfl) rfl fun stage hpast => by
            rw [hphase] at hpast
            exact hpast.elim
        · exact single_go_on h hi (by rw [hphase]; rfl) (bound_enter ..) fun stage hpast => by
            rw [hphase] at hpast
            exact hpast.elim
      · cases ht
    · cases ht
  | session i outcome =>
    simp only [step] at ht
    split at ht
    · rename_i r hi
      split at ht
      · rename_i task policy e hphase
        cases ht
        exact single_go_on h hi (by rw [hphase]; rfl) rfl fun stage hpast => by
          rw [hphase] at hpast
          exact hpast.elim
      · rename_i task policy _ hphase
        cases ht
        exact single_go_on h hi (by rw [hphase]; rfl) rfl fun stage hpast => by
          rw [hphase] at hpast
          exact hpast.elim
      · cases ht
    · cases ht
  | act i touches outcome =>
    simp only [step] at ht
    split at ht
    · rename_i r hi
      split at ht
      · rename_i task policy level stage hphase
        cases ht
        cases touches with
        | true => exact single_touch h hi hphase outcome
        | false =>
          refine single_go_on h hi (by rw [hphase]; rfl) (bound_enter ..) fun done hpast => ?_
          rw [hphase] at hpast
          exact past_enter (Or.inl hpast)
      · cases ht
    · cases ht

end Turns

theorem single_start : Single dateParse sha256 hmac initial (start initial) := by
  refine ⟨fun _ h => h, ?_, ?_, ?_, ?_, List.nodup_nil⟩
  · intro i r task hi
    simp [start] at hi
  · intro i r task policy hi
    simp [start] at hi
  · intro i j r q task other policy policy' hi
    simp [start] at hi
  · intro e he
    simp [start] at he

/-! ## The law -/

/-- The policy finds the nonce used: the run is rejected. -/
theorem rejected_when_used {s t : System} {i : Nat} {r : Run}
    {answer : Except RunnerError (Option Json)} {now : Instant} (hi : s.runs[i]? = some r)
    (hphase : r.phase = .resolving task) (hused : task.nonce ∈ s.usedNonces)
    (ht : step toUpperCase dateParse sha256 hmac s (.policy i answer now) = some t) :
    t.runs[i]? = some { r with phase := .rejected } := by
  have hrejects : t = s.put i r .rejected := by
    cases answer with
    | error e =>
      simp only [step, hi, hphase] at ht
      exact (Option.some.inj ht).symm
    | ok policy? =>
      cases policy? with
      | none =>
        simp only [step, hi, hphase] at ht
        exact (Option.some.inj ht).symm
      | some policy =>
        simp only [step, hi, hphase] at ht
        split at ht
        · rw [← Option.some.inj ht, bind, bindRunnerTaskPolicy, if_pos hused]
          rfl
        · exact (Option.some.inj ht).symm
  rw [hrejects]
  exact get_put_self hi .rejected

/-- A run with the nonce of this action, other than the run that acts, is rejected or will be as
soon as its policy is there. -/
def RejectedBeside (toUpperCase : String → String) (dateParse : String → Option Int)
    (sha256 : String → String) (hmac : String → String → String) (s : System) (e : Touch) : Prop :=
  ∀ (j : Nat) (r : Run) (task : RunnerTask), j ≠ e.run → s.runs[j]? = some r →
    createRunnerTask dateParse (some r.attested) = .ok task → task.nonce = e.nonce →
      (∀ e' ∈ s.touched, e'.run ≠ j) ∧
      (r.phase = .rejected ∨ r.phase = .resolving task ∧
        ∀ answer now t, step toUpperCase dateParse sha256 hmac s (.policy j answer now) = some t →
          t.runs[j]? = some { r with phase := .rejected })

/-- In every interleaving of the runs of any runners that share a nonce registry, a step or a
fixture is executed at most once for a nonce, by one run, whose task is authentic and bound to
the policy in use; every other run with this nonce rejects and touches nothing. -/
theorem nonce_executes_once_as_signed (toUpperCase : String → String)
    (dateParse : String → Option Int) (sha256 : String → String) (hmac : String → String → String)
    (initial : Nonces) (turns : List Turn) (s : System)
    (hrun : Machine.run (step toUpperCase dateParse sha256 hmac) (start initial) turns = some s) :
    (s.touched.map fun e => (e.nonce, e.stage)).Nodup ∧
      ∀ e ∈ s.touched, e.nonce ∉ initial ∧ (∃ r task, s.runs[e.run]? = some r ∧
        RunsAs dateParse hmac r task ∧ task.nonce = e.nonce ∧
        task.policyHash = runnerPolicyHash sha256 e.policy) ∧
        (∀ e' ∈ s.touched, e'.nonce = e.nonce → e'.run = e.run) ∧
        RejectedBeside toUpperCase dateParse sha256 hmac s e := by
  have hsingle : Single dateParse sha256 hmac initial s :=
    Machine.run_keeps (fun s a t h ht => step_single a h ht) hrun single_start
  have hsame : ∀ e ∈ s.touched, ∀ e' ∈ s.touched, e'.nonce = e.nonce → e'.run = e.run := by
    intro e he e' he' hnonce
    obtain ⟨r, task, hr, hbound, htask, _⟩ := hsingle.owned e he
    obtain ⟨q, other, hq, hbound', hother, _⟩ := hsingle.owned e' he'
    exact hsingle.one e'.run e.run q r other task e'.policy e.policy hq hr hbound' hbound
      (by rw [hother, htask, hnonce])
  refine ⟨?_, ?_⟩
  · have honce := List.Nodup.of_map _ hsingle.once
    refine (List.nodup_map_iff_inj_on honce).mpr ?_
    intro e he e' he' heq
    rw [Prod.mk.injEq] at heq
    have hpair : (e.run, e.stage) = (e'.run, e'.stage) := by
      rw [hsame e' he' e he heq.1, heq.2]
    exact List.inj_on_of_nodup_map hsingle.once he he' hpair
  · intro e he
    obtain ⟨r, task, hr, hbound, htask, _⟩ := hsingle.owned e he
    obtain ⟨hruns, hhash, hused, hfresh⟩ := hsingle.bound e.run r task e.policy hr hbound
    refine ⟨htask ▸ hfresh, ⟨r, task, hr, hruns, htask, hhash⟩, hsame e he, ?_⟩
    intro j q other hj hq hread hnonce
    have hfree : q.phase.bound = none := by
      cases hphase : q.phase.bound with
      | none => rfl
      | some pair =>
        obtain ⟨own, policy⟩ := pair
        have hown := (hsingle.bound j q own policy hq hphase).runs.read
        rw [hread] at hown
        cases hown
        exact absurd (hsingle.one j e.run q r other task policy e.policy hq hr hphase hbound
          (by rw [hnonce, htask])) hj
    refine ⟨?_, ?_⟩
    · intro e' he' hrun'
      obtain ⟨p, own, hp, hpbound, _⟩ := hsingle.owned e' he'
      rw [hrun', hq] at hp
      cases hp
      rw [hfree] at hpbound
      cases hpbound
    · cases hphase : q.phase with
      | rejected => exact Or.inl rfl
      | resolving own =>
        have hown := (hsingle.resolving j q own hq hphase).read
        rw [hread] at hown
        cases hown
        refine Or.inr ⟨rfl, ?_⟩
        intro answer now t ht
        have hotherUsed : other.nonce ∈ s.usedNonces := by
          rw [hnonce, ← htask]
          exact hused
        exact rejected_when_used hq hphase hotherUsed ht
      | _ =>
        rw [hphase] at hfree
        cases hfree

/-! ## Two runs of one task -/

/-- One request and one assertion on it. -/
def sampleTestSpec : Json :=
  .obj [("id", .str "T"), ("version", .num (Number.ofNat 1)), ("name", .str "N"),
    ("risk", .str "LOW"), ("featureId", .str "F"),
    ("verifiesClaims", .arr [.obj [("id", .str "C"), ("version", .num (Number.ofNat 1))]]),
    ("environment", .obj [("target", .str "t"), ("operationLevel", .str "SAFE_READ")]),
    ("steps", .arr [.obj [("id", .str "S"), ("executor", .str "HTTP"), ("method", .str "GET"),
      ("path", .str "/")]]),
    ("assertions", .arr [.obj [("id", .str "A"), ("type", .str "HTTP_STATUS"),
      ("stepId", .str "S"), ("expected", .num (Number.ofNat 200))]]),
    ("policy", .obj [("approvalRequired", .bool false)])]

def samplePolicy : Json :=
  .obj [("snapshotBinding", sampleComponents), ("allowedOperationLevels", .arr [.str "SAFE_READ"])]

/-- SHA-256 of the sample policy. -/
def policyDigest : String → String :=
  tabledDigest [(18825, "b5ea234daa8dbe7985c1a1e8e872d381d857fc84a109be9bde4079bbb15d52c8")]

/-- HMAC-SHA256 of the sample task under its secret. -/
def taskHmac (_ : String) : String → String :=
  tabledDigest [(64814, "9a83c78a51016a1c420c5e5da70ed20380b8b39ea3d4fa988c609e903227e924")]

def sampleTask : List (String × Json) :=
  [("id", .str "K"), ("projectId", .str "P"), ("executionId", .str "E"), ("runnerId", .str "R"),
    ("nonce", .str "once"),
    ("policyHash", .str "sha256:b5ea234daa8dbe7985c1a1e8e872d381d857fc84a109be9bde4079bbb15d52c8"),
    ("issuedAt", .str "2026-07-15T12:00:00Z"), ("expiresAt", .str "2026-07-15T12:05:00Z"),
    ("testSpec", sampleTestSpec),
    ("snapshotManifest", .obj [("complete", .bool true), ("components", sampleComponents)])]

def attestedTask : Json :=
  .obj (sampleTask ++ [("attestation", .obj [("algorithm", .str "HMAC-SHA256"),
    ("signature", .str "9a83c78a51016a1c420c5e5da70ed20380b8b39ea3d4fa988c609e903227e924")])])

def sampleRunner : Runner where
  id := "R"
  secret := "shared"
  hasFixtures := false

/-- Both runs accept the task before the first of them is bound. -/
def crossingRuns : List Turn :=
  [.run sampleRunner attestedTask 1784116860000, .run sampleRunner attestedTask 1784116860000,
    .policy 1 (.ok (some samplePolicy)) sampleNow, .policy 0 (.ok (some samplePolicy)) sampleNow,
    .resolved 1 (.ok ()), .act 1 true .goesOn]

theorem crossing_runs_execute_once :
    ∃ s, Machine.run (step id parsedInstant policyDigest taskHmac) (start []) crossingRuns =
        some s ∧ (s.touched.map fun e => (e.run, e.nonce)) = [(1, "once")] ∧
      (s.touched.map fun e => (e.nonce, e.stage)).Nodup ∧
      ∀ e ∈ s.touched, e.nonce ∉ ([] : Nonces) ∧ (∃ r task, s.runs[e.run]? = some r ∧
        RunsAs parsedInstant taskHmac r task ∧ task.nonce = e.nonce ∧
        task.policyHash = runnerPolicyHash policyDigest e.policy) ∧
        (∀ e' ∈ s.touched, e'.nonce = e.nonce → e'.run = e.run) ∧
        RejectedBeside id parsedInstant policyDigest taskHmac s e := by
  have hrun : (Machine.run (step id parsedInstant policyDigest taskHmac) (start [])
      crossingRuns).map (fun s => s.touched.map fun e => (e.run, e.nonce)) =
      some [(1, "once")] := by decide +kernel
  obtain ⟨s, hs, htouched⟩ := Option.map_eq_some_iff.mp hrun
  exact ⟨s, hs, htouched, nonce_executes_once_as_signed id parsedInstant policyDigest taskHmac []
    crossingRuns s hs⟩

end Traqen.RunnerNonces
