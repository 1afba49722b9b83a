-- The watchdog of the parser (`deterministic-facts/parser-deadline.js`): progress is taken phase by
-- phase in one order, and a run is complete only when the last phase was reported with every
-- material. The clock and the timers are answers from outside.
import Mathlib
import Traqen.BusinessGraph

open Js

namespace Traqen.ParserDeadline

open BusinessGraph (safeInteger)

def parserPhases : List String :=
  ["NORMALIZE", "MATERIALS", "DOCUMENT_LINKS", "JAVASCRIPT_MODULES", "JAVA_BINDINGS",
    "TEST_REFERENCES", "ENDPOINT_CONTRACTS", "SORT_OBJECTS", "SORT_EVIDENCE", "SORT_FACTS",
    "SORT_GAPS", "RESULT"]

/-! ## The deadline -/

/-- The `details` of a timeout, with its `version` left out. -/
structure Timeout where
  deadline : String
  phase : String
  completed : Int
  total : Int
  elapsedMs : Int
  progressAgeMs : Int
  unitBudgetMs : Int
  wallBudgetMs : Int
  deriving DecidableEq

structure Deadline where
  materialCount : Int
  timeoutMs : Int
  maxDurationMs : Int
  started : ℚ
  unitStarted : ℚ
  /-- The place in `parserPhases`, `-1` before the first report. -/
  phase : Int
  completed : Int
  stopped : Bool
  /-- The calls of `onTimeout`. -/
  timeouts : List Timeout
  deriving DecidableEq

def invalidDeadline : Failure := { name := .TypeError, message := "invalid parser deadline" }

/-- An integer of a range that starts above `least`. -/
def within (least most : Int) (v : Json) : Option Int :=
  (safeInteger (some v)).filter fun i => least ≤ i ∧ i ≤ most

/-- `createParserDeadline`, with the two first readings of the clock; `onTimeout` is a function. -/
def createParserDeadline (materialCount timeoutMs maxDurationMs : Json) (started armed : ℚ) :
    Except Failure Deadline :=
  match within 0 200000 materialCount, within 1 120000 timeoutMs,
    within 1 (20 * 60000) maxDurationMs with
  | some materialCount, some timeoutMs, some maxDurationMs =>
    .ok { materialCount, timeoutMs, maxDurationMs, started, unitStarted := armed
          phase := -1, completed := 0, stopped := false, timeouts := [] }
  | _, _, _ => .error invalidDeadline

def stop (d : Deadline) : Deadline := { d with stopped := true }

/-- `expire(reason)` at a time. -/
def expire (reason : String) (observed : ℚ) (d : Deadline) : Deadline :=
  if d.stopped then d
  else
    { stop d with
      timeouts := d.timeouts ++
        [{ deadline := reason
           phase := if d.phase < 0 then "STARTUP" else parserPhases.getD d.phase.toNat ""
           completed := d.completed, total := d.materialCount
           elapsedMs := ⌈observed - d.started⌉, progressAgeMs := ⌈observed - d.unitStarted⌉
           unitBudgetMs := d.timeoutMs, wallBudgetMs := d.maxDurationMs }] }

/-- `parserPhases.indexOf(value.phase)`. -/
def phaseIndex (phase : Option Json) : Int :=
  match phase with
  | some (.str name) => (parserPhases.idxOf? name).elim (-1) fun i => i
  | _ => -1

/-- The rules of `progress`: the phase and the count that a report moves on to. -/
def accepted (materialCount phase completed : Int) (value : Json) : Option (Int × Int) :=
  if truthy (some value) = false ∨
      field (some value) "total" ≠ some (.num (.ofInt materialCount)) then none
  else
    match safeInteger (field (some value) "completed") with
    | none => none
    | some count =>
      let next := phaseIndex (field (some value) "phase")
      if count < completed ∨ materialCount < count then none
      else if next = -1 ∨ (next ≠ phase ∧ next ≠ phase + 1) then none
      else if next = phase ∧ (next ≠ 1 ∨ count ≤ completed) then none
      else if next = 0 ∧ count ≠ 0 then none
      else if next = 1 ∧ phase = 0 ∧ count ≠ 0 then none
      else if 1 < next ∧ (completed ≠ materialCount ∨ count ≠ materialCount) then none
      else some (next, count)

/-- The readings of the clock during one call, in their order. -/
structure Readings where
  first : ℚ
  second : ℚ
  third : ℚ

/-- `progress(value)`. -/
def progress (now : Readings) (value : Json) (d : Deadline) : Bool × Deadline :=
  if d.stopped then (false, d)
  else if d.maxDurationMs ≤ now.first - d.started then (false, expire "wall" now.second d)
  else if d.timeoutMs ≤ now.second - d.unitStarted then (false, expire "unit" now.third d)
  else
    match accepted d.materialCount d.phase d.completed value with
    | none => (false, d)
    | some (next, count) =>
      (true, { d with phase := next, completed := count, unitStarted := now.third })

def complete (d : Deadline) : Bool :=
  !d.stopped && decide (d.phase = parserPhases.length - 1) && decide (d.completed = d.materialCount)

/-! ## Runs -/

/-- What happens to a deadline: a report, a timer that runs out, or `stop()`. -/
inductive Event where
  | report (now : Readings) (value : Json)
  | timer (reason : String) (observed : ℚ)
  | stop

/-- What a call of `progress` answers. -/
def answer (d : Deadline) : Event → Option Bool
  | .report now value => some (progress now value d).1
  | _ => none

def next (d : Deadline) : Event → Deadline
  | .report now value => (progress now value d).2
  | .timer reason observed => expire reason observed d
  | .stop => stop d

def follow (d : Deadline) (events : List Event) : Deadline := events.foldl next d

/-- The answers of `progress` along the way. -/
def answers (d : Deadline) : List Event → List Bool
  | [] => []
  | e :: es => (answer d e).toList ++ answers (next d e) es

/-- The values that `progress` was called with. -/
def reported (events : List Event) : List Json :=
  events.filterMap fun
    | .report _ value => some value
    | _ => none

/-! ## A deadline that is not stopped -/

theorem expire_stopped (reason : String) (observed : ℚ) (d : Deadline) :
    (expire reason observed d).stopped = true := by
  unfold expire
  by_cases hs : d.stopped = true
  · rw [if_pos hs, hs]
  · rw [if_neg hs]
    rfl

variable {d : Deadline}

/-- One call of `progress` that leaves the deadline running. -/
theorem progress_running {now : Readings} {value : Json}
    (h : (progress now value d).2.stopped = false) :
    d.stopped = false ∧
      (accepted d.materialCount d.phase d.completed value = none ∧
        progress now value d = (false, d) ∨
      ∃ next count, accepted d.materialCount d.phase d.completed value = some (next, count) ∧
        progress now value d =
          (true, { d with phase := next, completed := count, unitStarted := now.third })) := by
  unfold progress at h ⊢
  by_cases hs : d.stopped = true
  · rw [if_pos hs, hs] at h
    cases h
  rw [if_neg hs] at h ⊢
  refine ⟨Bool.eq_false_iff.mpr hs, ?_⟩
  by_cases hwall : d.maxDurationMs ≤ now.first - d.started
  · rw [if_pos hwall, expire_stopped] at h
    cases h
  rw [if_neg hwall] at h ⊢
  by_cases hunit : d.timeoutMs ≤ now.second - d.unitStarted
  · rw [if_pos hunit, expire_stopped] at h
    cases h
  rw [if_neg hunit]
  cases ha : accepted d.materialCount d.phase d.completed value with
  | none => exact .inl ⟨rfl, rfl⟩
  | some moved => exact .inr ⟨moved.1, moved.2, rfl, rfl⟩

theorem stopped_next (e : Event) (h : d.stopped = true) :
    (next d e).stopped = true := by
  cases e with
  | report now value =>
    show (progress now value d).2.stopped = true
    unfold progress
    rw [if_pos h]
    exact h
  | timer reason observed => exact expire_stopped reason observed d
  | stop => rfl

theorem stopped_follow (events : List Event) (h : d.stopped = true) :
    (follow d events).stopped = true := by
  induction events generalizing d with
  | nil => exact h
  | cons e es ih => exact ih (stopped_next e h)

/-- No event of a run that is still on was a timer or a stop. -/
theorem running_report {e : Event} (h : (next d e).stopped = false) :
    ∃ now value, e = .report now value := by
  cases e with
  | report now value => exact ⟨now, value, rfl⟩
  | timer reason observed =>
    rw [next, expire_stopped] at h
    cases h
  | stop => cases h

theorem follow_append (d : Deadline) (before after : List Event) :
    follow d (before ++ after) = follow (follow d before) after := List.foldl_append

theorem answers_append (d : Deadline) (before after : List Event) :
    answers d (before ++ after) = answers d before ++ answers (follow d before) after := by
  induction before generalizing d with
  | nil => rfl
  | cons e es ih =>
    rw [List.cons_append, answers, answers, ih, List.append_assoc]
    rfl

/-- A run that is still on was on all the time. -/
theorem running_before {before after : List Event}
    (h : (follow d (before ++ after)).stopped = false) : (follow d before).stopped = false := by
  rw [follow_append] at h
  by_contra hstopped
  have hall := stopped_follow after (Bool.eq_true_of_not_eq_false hstopped)
  rw [h] at hall
  cases hall

theorem running_next {e : Event} {es : List Event}
    (h : (follow d (e :: es)).stopped = false) : (next d e).stopped = false :=
  @running_before d [e] es h

/-- The reports by the rules alone, from a phase and a count. -/
def track (materialCount : Int) (start : Int × Int) (values : List Json) : Option (Int × Int) :=
  values.foldlM (fun place value => accepted materialCount place.1 place.2 value) start

/-- As long as nothing expires, the reports that were all taken are those that the rules allow. -/
theorem follow_track {events : List Event}
    (hrunning : (follow d events).stopped = false) (hall : ∀ b ∈ answers d events, b = true) :
    track d.materialCount (d.phase, d.completed) (reported events) =
      some ((follow d events).phase, (follow d events).completed) ∧
    (follow d events).materialCount = d.materialCount := by
  induction events generalizing d with
  | nil => exact ⟨rfl, rfl⟩
  | cons e es ih =>
    have hnext := running_next hrunning
    obtain ⟨now, value, rfl⟩ := running_report hnext
    obtain ⟨-, ⟨-, hp⟩ | ⟨phase, count, ha, hp⟩⟩ := progress_running hnext
    · have hfalse := hall false (by simp [answers, answer, hp])
      cases hfalse
    · have hd : next d (.report now value) =
          { d with phase := phase, completed := count, unitStarted := now.third } :=
        congrArg Prod.snd hp
      rw [follow, List.foldl_cons] at hrunning ⊢
      rw [hd] at hrunning ⊢
      obtain ⟨htrack, hcount⟩ := ih hrunning (by
        intro b hb
        apply hall b
        rw [answers, hd]
        exact List.mem_append_right _ hb)
      refine ⟨?_, hcount⟩
      have hvalues : reported (.report now value :: es) = value :: reported es := rfl
      rw [hvalues, track, List.foldlM_cons, ha]
      exact htrack

/-- As long as nothing expires, reports that the rules allow are all taken. -/
theorem answers_of_track {events : List Event} {place : Int × Int}
    (hrunning : (follow d events).stopped = false)
    (htrack : track d.materialCount (d.phase, d.completed) (reported events) = some place) :
    answers d events = (reported events).map fun _ => true := by
  induction events generalizing d with
  | nil => rfl
  | cons e es ih =>
    have hnext := running_next hrunning
    obtain ⟨now, value, rfl⟩ := running_report hnext
    have hvalues : reported (.report now value :: es) = value :: reported es := rfl
    rw [hvalues, track, List.foldlM_cons] at htrack
    obtain ⟨-, ⟨ha, hp⟩ | ⟨phase, count, ha, hp⟩⟩ := progress_running hnext
    · rw [ha] at htrack
      cases htrack
    · rw [ha] at htrack
      have hd : next d (.report now value) =
          { d with phase := phase, completed := count, unitStarted := now.third } :=
        congrArg Prod.snd hp
      rw [follow, List.foldl_cons, hd] at hrunning
      rw [hvalues, answers, hd, ih hrunning htrack, List.map_cons, answer, hp]
      rfl

/-- A deadline before its first report. -/
theorem createParserDeadline_ok {n : Nat} {timeoutMs maxDurationMs : Json} {started armed : ℚ}
    (hn : n ≤ 200000) (ht : (within 1 120000 timeoutMs).isSome = true)
    (hm : (within 1 (20 * 60000) maxDurationMs).isSome = true) :
    ∃ d, createParserDeadline (.num (.ofNat n)) timeoutMs maxDurationMs started armed = .ok d ∧
      d.materialCount = n ∧ d.phase = -1 ∧ d.completed = 0 := by
  obtain ⟨unit, hunit⟩ := Option.isSome_iff_exists.mp ht
  obtain ⟨wall, hwall⟩ := Option.isSome_iff_exists.mp hm
  have hcount : within 0 200000 (.num (.ofNat n)) = some (n : Int) := by
    rw [within, BusinessGraph.safeInteger_ofNat (by omega), Option.filter_some, if_pos]
    simp
    omega
  unfold createParserDeadline
  rw [hcount, hunit, hwall]
  exact ⟨_, rfl, rfl, rfl, rfl⟩

end Traqen.ParserDeadline
