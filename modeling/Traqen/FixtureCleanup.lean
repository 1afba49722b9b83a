-- When the fixture of a controlled write is cleaned up with its own state: exactly which runs call
-- the cleanup of the handler once, after all steps, with the state that the setup returned.
import Traqen.ControlledRunner

open Js

namespace Traqen.FixtureCleanup

open ControlledRunner FixtureLifecycle RunnerErrors RunnerTasks RunnerValues TestSpecs

/-! ## What a fixture is owed -/

section Definitions

variable {σ : Type}

/-- The state that an output carries, null where it carries none. -/
def stateOf : SetupOutput σ → Option σ
  | .object _ state _ => state
  | .undefined | .noObject => none

def isCleanup : Event σ → Bool
  | .cleanup _ => true
  | _ => false

/-- Where the setup was called, the cleanup was called once and last, with the state of the
object that the setup returned. -/
def CleanedUp (session : Session σ) (c : Course σ) : Prop :=
  ∀ seed, Event.setup seed ∈ c.events → ∃ before input,
    c.events = before ++ [.cleanup input] ∧ (∀ e ∈ before, isCleanup e = false) ∧
      ∀ bindings state evidence,
        session.handler.setup seed = .ok (.object bindings state evidence) → input.state = state

variable (executors : String → Option Executor)

/-- What the first step that fails throws, of the steps from a number on. -/
def firstThrown (vars : Fields) : Nat → List Json → Option Thrown
  | _, [] => none
  | index, step :: rest =>
    match executorOf executors step with
    | none => some (missingExecutor step)
    | some execute =>
      match interpolateValue vars step with
      | .error e => some (.error e)
      | .ok resolvedStep =>
        match execute index resolvedStep with
        | .error thrown => some thrown
        | .ok _ => firstThrown vars (index + 1) rest

/-- No step throws null or undefined before another one has failed. -/
def stepsCatchable (testSpec : Json) (vars : Fields) : Bool :=
  !(firstThrown executors vars 0 (stepsOf testSpec)).any Thrown.isNullish

/-- Every template of the cleanup declaration is defined. -/
def cleanupDeclared (session : Session σ) (vars : Fields) : Bool :=
  (interpolateValue vars session.cleanup).toOption.isSome

/-- The setup is not called; or it and the steps throw no null or undefined, the cleanup
declaration can be filled in, and an output that the session cannot take over has no state. -/
def cleanupReached (session : Session σ) (testSpec : Json) (vars : Fields) : Bool :=
  match interpolateValue vars session.seed with
  | .error _ => true
  | .ok seed =>
    match session.handler.setup seed with
    | .error thrown =>
      !thrown.isNullish && (thrown.isTruthy || stepsCatchable executors testSpec vars) &&
        cleanupDeclared session vars
    | .ok output =>
      match applySetup session vars output with
      | .error _ => (stateOf output).isNone && cleanupDeclared session vars
      | .ok (merged, _) =>
        stepsCatchable executors testSpec merged && cleanupDeclared session merged

end Definitions

/-! ## Templates under more variables -/

/-- What is defined stays defined, with its value. -/
def Extends (vars more : Fields) : Prop :=
  ∀ name value, vars.lookup name = some value → more.lookup name = some value

theorem foldl_none (segments : List (List Char)) :
    segments.foldl (fun value segment => value.bind fun v => ownProperty v (String.ofList segment))
      none = none := by
  induction segments with
  | nil => rfl
  | cons segment rest ih => exact ih

theorem lookupVariable_extend {vars more : Fields} (h : Extends vars more) {path : List Char}
    {value : Json} (hvalue : lookupVariable vars path = .ok value) :
    lookupVariable more path = .ok value := by
  unfold lookupVariable at hvalue ⊢
  cases hsegments : path.splitOn '.' with
  | nil => exact absurd hsegments (List.splitOn_ne_nil _ _)
  | cons segment rest =>
    rw [hsegments] at hvalue
    rw [List.foldl_cons] at hvalue ⊢
    have hhead : ∀ fields : Fields, ((some (Json.obj fields)).bind fun v =>
        ownProperty v (String.ofList segment)) = fields.lookup (String.ofList segment) :=
      fun _ => rfl
    rw [hhead] at hvalue ⊢
    cases hfound : vars.lookup (String.ofList segment) with
    | none =>
      rw [hfound, foldl_none] at hvalue
      cases hvalue
    | some found =>
      rw [h _ found hfound]
      rw [hfound] at hvalue
      exact hvalue

theorem fillParts_extend {vars more : Fields} (h : Extends vars more) (parts : List Part)
    {texts : List (List Char)} (htexts : parts.mapM (fillPart vars) = .ok texts) :
    parts.mapM (fillPart more) = .ok texts := by
  induction parts generalizing texts with
  | nil => exact htexts
  | cons part parts ih =>
    rw [List.mapM_cons] at htexts ⊢
    obtain ⟨text, htext, hrest⟩ := bind_ok htexts
    obtain ⟨others, hothers, hdone⟩ := bind_ok hrest
    have hsame : fillPart more part = .ok text := by
      cases part with
      | text c => exact htext
      | reference path =>
        obtain ⟨value, hvalue, hshown⟩ := bind_ok htext
        change (lookupVariable more path >>= textOf) = _
        rw [lookupVariable_extend h hvalue]
        exact hshown
    rw [hsame, ih hothers]
    exact hdone

theorem interpolateText_extend {vars more : Fields} (h : Extends vars more) (text : String)
    {value : Json} (hvalue : interpolateText vars text = .ok value) :
    interpolateText more text = .ok value := by
  unfold interpolateText at hvalue ⊢
  split at hvalue
  · exact lookupVariable_extend h hvalue
  · obtain ⟨filled, hfilled, hdone⟩ := bind_ok hvalue
    rw [fillParts_extend h _ hfilled]
    exact hdone

mutual

/-- A value that can be filled in is filled in alike under more variables. -/
theorem interpolateValue_extend {vars more : Fields} (h : Extends vars more) :
    ∀ (declared : Json) {value : Json}, interpolateValue vars declared = .ok value →
      interpolateValue more declared = .ok value
  | .str text, value, hvalue => by
    unfold interpolateValue at hvalue ⊢
    exact interpolateText_extend h text hvalue
  | .arr items, value, hvalue => by
    unfold interpolateValue at hvalue ⊢
    obtain ⟨filled, hfilled, hdone⟩ := bind_ok hvalue
    rw [interpolateItems_extend h items hfilled]
    exact hdone
  | .obj fields, value, hvalue => by
    unfold interpolateValue at hvalue ⊢
    obtain ⟨filled, hfilled, hdone⟩ := bind_ok hvalue
    rw [interpolateFields_extend h fields hfilled]
    exact hdone
  | .null, value, hvalue => by
    unfold interpolateValue at hvalue ⊢
    exact hvalue
  | .bool b, value, hvalue => by
    unfold interpolateValue at hvalue ⊢
    exact hvalue
  | .num n, value, hvalue => by
    unfold interpolateValue at hvalue ⊢
    exact hvalue

theorem interpolateItems_extend {vars more : Fields} (h : Extends vars more) :
    ∀ (declared : List Json) {items : List Json}, interpolateItems vars declared = .ok items →
      interpolateItems more declared = .ok items
  | [], items, hitems => hitems
  | v :: vs, items, hitems => by
    unfold interpolateItems at hitems ⊢
    obtain ⟨item, hitem, hrest⟩ := bind_ok hitems
    obtain ⟨rest, hrest, hdone⟩ := bind_ok hrest
    rw [interpolateValue_extend h v hitem]
    change (interpolateItems more vs >>= fun rest => pure (item :: rest)) = _
    rw [interpolateItems_extend h vs hrest]
    exact hdone

theorem interpolateFields_extend {vars more : Fields} (h : Extends vars more) :
    ∀ (declared : List (String × Json)) {fields : List (String × Json)},
      interpolateFields vars declared = .ok fields → interpolateFields more declared = .ok fields
  | [], fields, hfields => hfields
  | (name, child) :: rest, fields, hfields => by
    unfold interpolateFields at hfields ⊢
    obtain ⟨value, hvalue, hrest⟩ := bind_ok hfields
    obtain ⟨others, hothers, hdone⟩ := bind_ok hrest
    rw [interpolateValue_extend h child hvalue]
    change (interpolateFields more rest >>= fun rest => pure ((name, value) :: rest)) = _
    rw [interpolateFields_extend h rest hothers]
    exact hdone

end

theorem lookup_assign_of_none {object : Fields} {name : String} {value : Json}
    (hnone : object.lookup name = none) : Extends object (assign object name value) := by
  intro key found hfound
  unfold assign
  split
  · exact hfound
  · have hne : key ≠ name := by
      rintro rfl
      rw [hnone] at hfound
      cases hfound
    rw [OrderedMap.lookup_eq_get?, OrderedMap.get?_of_set, if_neg hne, ← OrderedMap.lookup_eq_get?]
    exact hfound

theorem extends_merged {vars bindings merged : Fields}
    (h : mergeFixtureBindings vars bindings = .ok merged) : Extends vars merged := by
  unfold mergeFixtureBindings at h
  induction bindings generalizing vars with
  | nil =>
    cases h
    exact fun _ _ hvalue => hvalue
  | cons entry rest ih =>
    rw [List.foldlM_cons] at h
    obtain ⟨next, hnext, hrest⟩ := bind_ok h
    split at hnext
    · cases hnext
    · rename_i hnone
      cases hnext
      have hfree : vars.lookup entry.1 = none := by
        rw [← Option.not_isSome_iff_eq_none]
        exact hnone
      intro name value hvalue
      exact ih hrest name value (lookup_assign_of_none hfree name value hvalue)

/-! ## Steps -/

section Steps

variable {σ : Type} {executors : String → Option Executor}

theorem catchStep_rejected {c : Course σ} {step : Json} {thrown : Thrown}
    (hopen : c.rejected = none) :
    (catchStep c step thrown).rejected.isSome = thrown.isNullish := by
  unfold catchStep
  split
  · rename_i hnullish
    rw [hnullish]
    rfl
  · rename_i hnullish
    rw [Bool.not_eq_true] at hnullish
    rw [hnullish, hopen]
    rfl

/-- What the steps leave as it is, and what they add. -/
structure Walked (c d : Course σ) (thrown : Option Thrown) : Prop where
  vars : d.vars = c.vars
  state : d.fixtureState = c.fixtureState
  rejected : d.rejected.isSome = thrown.any Thrown.isNullish
  events : ∃ steps, d.events = c.events ++ steps ∧ ∀ e ∈ steps, ∃ index, e = .step index

theorem walked_catch {c : Course σ} (step : Json) (thrown : Thrown) (hopen : c.rejected = none) :
    Walked c (catchStep c step thrown) (some thrown) := by
  refine ⟨?_, ?_, catchStep_rejected hopen, [], ?_, fun e he => absurd he List.not_mem_nil⟩
  · unfold catchStep
    split <;> rfl
  · unfold catchStep
    split <;> rfl
  · rw [List.append_nil]
    unfold catchStep
    split <;> rfl

theorem runSteps_walked (steps : List Json) (index : Nat) {c : Course σ}
    (hopen : c.rejected = none) :
    Walked c (runSteps executors index steps c) (firstThrown executors c.vars index steps) := by
  induction steps generalizing index c with
  | nil => exact ⟨rfl, rfl, by rw [runSteps, hopen]; rfl, [], (List.append_nil _).symm, by simp⟩
  | cons step rest ih =>
    unfold runSteps firstThrown
    cases executorOf executors step with
    | none => exact walked_catch step _ hopen
    | some execute =>
      cases hresolved : interpolateValue c.vars step with
      | error e => exact walked_catch step _ hopen
      | ok resolvedStep =>
        have hcalled : ∀ {d : Course σ} {thrown : Option Thrown},
            Walked { c with events := c.events ++ [.step index] } d thrown → Walked c d thrown := by
          intro d thrown h
          obtain ⟨steps, hsteps, hall⟩ := h.events
          refine ⟨h.vars, h.state, h.rejected, .step index :: steps, ?_, ?_⟩
          · rw [hsteps, List.append_assoc]
            rfl
          · intro e he
            rcases List.mem_cons.mp he with rfl | he
            · exact ⟨index, rfl⟩
            · exact hall e he
        dsimp only
        cases execute index resolvedStep with
        | error thrown => exact hcalled (walked_catch step thrown hopen)
        | ok result =>
          obtain ⟨hvars, hstate, hrejected, hevents⟩ :=
            @ih (index + 1) (recordStep { c with events := c.events ++ [.step index] } step result)
              hopen
          exact hcalled ⟨hvars, hstate, hrejected, hevents⟩

variable (executors) in
/-- The phase of the steps, where nothing has failed. -/
theorem stepsPhase_walked (testSpec : Json) {c : Course σ} (hopen : c.rejected = none)
    (hfailed : c.failed = false) :
    Walked c (stepsPhase executors testSpec c)
      (firstThrown executors c.vars 0 (stepsOf testSpec)) := by
  unfold stepsPhase
  rw [hopen, hfailed]
  exact runSteps_walked (stepsOf testSpec) 0 hopen

theorem stepsPhase_failed {testSpec : Json} {c : Course σ} (hfailed : c.failed = true) :
    stepsPhase executors testSpec c = c := by
  unfold stepsPhase
  rw [hfailed, Bool.or_true]
  rfl

theorem stepsPhase_rejected {testSpec : Json} {c : Course σ} (h : c.rejected.isSome = true) :
    stepsPhase executors testSpec c = c := by
  unfold stepsPhase
  rw [h]
  rfl

end Steps

/-! ## Cleanup -/

section Cleanup

variable {σ : Type} {session : Session σ} {toLowerCase : String → String} {testSpec : Json}

theorem catchCleanup_events (c : Course σ) (error : Thrown) :
    (catchCleanup session c error).events = c.events := by
  unfold catchCleanup
  split <;> rfl

theorem cleanupPhase_rejected {c : Course σ} (h : c.rejected.isSome = true) :
    (cleanupPhase session c).events = c.events := by
  unfold cleanupPhase
  rw [h]
  rfl

theorem cleanupPhase_undeclared {c : Course σ} {e : RunnerError}
    (h : cleanupInput session c.vars c.fixtureState c.setupSucceeded = .error e) :
    (cleanupPhase session c).events = c.events := by
  unfold cleanupPhase
  split
  · rfl
  · rw [h]
    exact catchCleanup_events c (.error e)

theorem cleanupPhase_declared {c : Course σ} {input : CleanupInput σ}
    (hopen : c.rejected.isSome = false)
    (h : cleanupInput session c.vars c.fixtureState c.setupSucceeded = .ok input) :
    (cleanupPhase session c).events = c.events ++ [.cleanup input] := by
  unfold cleanupPhase
  rw [hopen, h]
  dsimp only
  rw [if_neg Bool.false_ne_true]
  split
  · exact catchCleanup_events _ _
  · split
    · exact catchCleanup_events _ _
    · rfl

variable (toLowerCase testSpec) in
/-- The evaluation of the assertions calls nothing on the target. -/
theorem assertionsPhase_frame (c : Course σ) :
    ∃ results, assertionsPhase toLowerCase testSpec c = { c with rawAssertionResults := results } := by
  unfold assertionsPhase
  split
  · exact ⟨c.rawAssertionResults, rfl⟩
  · exact ⟨_, rfl⟩

/-- The cleanup gets its declarations where its own can be filled in, as that of the seed can. -/
theorem cleanupInput_iff {vars : Fields} {seed : Json} (state : Option σ) (succeeded : Bool)
    (hseed : interpolateValue vars session.seed = .ok seed) :
    (∃ input, cleanupInput session vars state succeeded = .ok input ∧ input.state = state) ↔
      cleanupDeclared session vars = true := by
  unfold cleanupInput cleanupDeclared
  cases hcleanup : interpolateValue vars session.cleanup with
  | error e =>
    refine ⟨?_, fun h => by cases h⟩
    rintro ⟨input, hinput, _⟩
    cases hinput
  | ok cleanup =>
    rw [hseed]
    exact ⟨fun _ => rfl, fun _ => ⟨_, rfl, rfl⟩⟩

/-- A course in which the setup was called is cleaned up when no error has left it, the cleanup can
be declared, and the state that is kept is that of the setup. -/
theorem cleanedUp_iff {d : Course σ} {seed seed' : Json} {steps : List (Event σ)}
    (hevents : d.events = .setup seed :: steps)
    (hsteps : ∀ e ∈ steps, ∃ index, e = .step index)
    (hseed : interpolateValue d.vars session.seed = .ok seed') :
    CleanedUp session (cleanupPhase session (assertionsPhase toLowerCase testSpec d)) ↔
      d.rejected.isSome = false ∧ cleanupDeclared session d.vars = true ∧
        ∀ bindings state evidence,
          session.handler.setup seed = .ok (.object bindings state evidence) →
            d.fixtureState = state := by
  obtain ⟨results, hframe⟩ := assertionsPhase_frame toLowerCase testSpec d
  rw [hframe]
  have hnone : ∀ e ∈ d.events, isCleanup e = false := by
    intro e he
    rw [hevents] at he
    rcases List.mem_cons.mp he with rfl | he
    · rfl
    · obtain ⟨index, rfl⟩ := hsteps e he
      rfl
  have hmem : Event.setup seed ∈ d.events := hevents ▸ List.mem_cons_self
  -- a course without a cleanup at its end is not cleaned up
  have hmissing : ∀ c : Course σ, c.events = d.events → ¬ CleanedUp session c := by
    intro c hc h
    obtain ⟨before, input, hlast, _⟩ := h seed (hc ▸ hmem)
    have hcleanup := hnone (.cleanup input) (by
      rw [← hc, hlast]
      exact List.mem_append_right _ (List.mem_singleton.mpr rfl))
    cases hcleanup
  cases hrejected : d.rejected.isSome with
  | true => exact ⟨fun h => absurd h (hmissing _ (cleanupPhase_rejected hrejected)), fun h => by
      cases h.1⟩
  | false =>
    cases hinput : cleanupInput session d.vars d.fixtureState d.setupSucceeded with
    | error e =>
      refine ⟨fun h => absurd h (hmissing _ (cleanupPhase_undeclared hinput)), ?_⟩
      rintro ⟨_, hdeclared, _⟩
      obtain ⟨input, hok, _⟩ :=
        (cleanupInput_iff d.fixtureState d.setupSucceeded hseed).mpr hdeclared
      rw [hinput] at hok
      cases hok
    | ok input =>
      have hstate : input.state = d.fixtureState := by
        unfold cleanupInput at hinput
        obtain ⟨cleanup, _, hinput⟩ := bind_ok hinput
        obtain ⟨seed, _, hinput⟩ := bind_ok hinput
        cases hinput
        rfl
      have hdeclared := (cleanupInput_iff d.fixtureState d.setupSucceeded hseed).mp
        ⟨input, hinput, hstate⟩
      have hlast : (cleanupPhase session { d with rawAssertionResults := results }).events =
          d.events ++ [.cleanup input] :=
        cleanupPhase_declared (c := { d with rawAssertionResults := results }) hrejected hinput
      constructor
      · intro h
        refine ⟨rfl, hdeclared, ?_⟩
        intro bindings state evidence hreturned
        obtain ⟨before, input', hlast', _, hsame⟩ :=
          h seed (hlast ▸ List.mem_append_left _ hmem)
        rw [hlast] at hlast'
        have hends := (List.append_inj' hlast' rfl).2
        cases hends
        rw [← hstate]
        exact hsame bindings state evidence hreturned
      · rintro ⟨_, _, hkept⟩ other hother
        refine ⟨d.events, input, hlast, hnone, ?_⟩
        intro bindings state evidence hreturned
        have hsame : other = seed := by
          rw [hlast, hevents] at hother
          rcases List.mem_append.mp hother with hother | hother
          · rcases List.mem_cons.mp hother with h | h
            · cases h
              rfl
            · obtain ⟨index, h⟩ := hsteps _ h
              cases h
          · cases List.mem_singleton.mp hother
        rw [hstate]
        exact hkept bindings state evidence (hsame ▸ hreturned)

end Cleanup

/-! ## Setup -/

section Setup

variable {σ : Type} {session : Session σ} {executors : String → Option Executor}
  {toLowerCase : String → String} {testSpec : Json} {vars : Fields}

theorem applySetup_state {output : SetupOutput σ} {merged : Fields} {setup : Setup σ}
    (h : applySetup session vars output = .ok (merged, setup)) :
    setup.state = stateOf output ∧ Extends vars merged := by
  unfold applySetup at h
  obtain ⟨found, hfound, h⟩ := bind_ok h
  obtain ⟨fields, hmerged, h⟩ := bind_ok h
  cases h
  refine ⟨?_, extends_merged hmerged⟩
  cases output with
  | noObject => cases hfound
  | undefined =>
    cases hfound
    rfl
  | object bindings state evidence =>
    unfold setupOf at hfound
    obtain ⟨cloned, _, hfound⟩ := bind_ok hfound
    obtain ⟨details, _, hfound⟩ := bind_ok hfound
    cases hfound
    rfl

/-- After a setup that is over, the steps and the cleanup follow. -/
theorem cleanedUp_after {c : Course σ} {seed seed' : Json} (hevents : c.events = [.setup seed])
    (hopen : c.rejected = none) (hfailed : c.failed = false)
    (hseed : interpolateValue c.vars session.seed = .ok seed') :
    CleanedUp session (cleanupPhase session (assertionsPhase toLowerCase testSpec
        (stepsPhase executors testSpec c))) ↔
      stepsCatchable executors testSpec c.vars = true ∧ cleanupDeclared session c.vars = true ∧
        ∀ bindings state evidence,
          session.handler.setup seed = .ok (.object bindings state evidence) →
            c.fixtureState = state := by
  obtain ⟨hvars, hstate, hrejected, steps, hsteps, hall⟩ :=
    stepsPhase_walked executors testSpec hopen hfailed
  rw [hevents] at hsteps
  rw [cleanedUp_iff hsteps hall (hvars ▸ hseed), hrejected, hvars, hstate]
  unfold stepsCatchable
  simp

/-- After a setup that failed, or that an error left, only the cleanup follows. -/
theorem cleanedUp_failed {c : Course σ} {seed seed' : Json} (hevents : c.events = [.setup seed])
    (hskips : stepsPhase executors testSpec c = c)
    (hseed : interpolateValue c.vars session.seed = .ok seed') :
    CleanedUp session (cleanupPhase session (assertionsPhase toLowerCase testSpec
        (stepsPhase executors testSpec c))) ↔
      c.rejected.isSome = false ∧ cleanupDeclared session c.vars = true ∧
        ∀ bindings state evidence,
          session.handler.setup seed = .ok (.object bindings state evidence) →
            c.fixtureState = state := by
  rw [hskips]
  exact cleanedUp_iff hevents (fun e he => absurd he List.not_mem_nil) hseed

/-- A setup that the handler does not complete leaves no state behind. -/
theorem thrown_cleaned_up_iff {seed : Json} {thrown : Thrown}
    (hseed : interpolateValue vars session.seed = .ok seed)
    (hthrown : session.handler.setup seed = .error thrown) :
    CleanedUp session (executeWrite toLowerCase executors session testSpec vars) ↔
      (!thrown.isNullish && (thrown.isTruthy || stepsCatchable executors testSpec vars) &&
        cleanupDeclared session vars) = true := by
  have hsetup : setupPhase session (beginCourse vars) = catchSetup session
      { beginCourse vars with events := [.setup seed] } thrown := by
    unfold setupPhase
    rw [show (beginCourse vars : Course σ).vars = vars from rfl, hseed]
    dsimp only
    rw [hthrown]
    rfl
  have hvacuous : ∀ (bindings : Option HandlerField) (state : Option σ)
      (evidence : Option HandlerField),
      session.handler.setup seed = .ok (.object bindings state evidence) → none = state := by
    intro bindings state evidence hreturned
    rw [hthrown] at hreturned
    cases hreturned
  unfold executeWrite
  rw [hsetup]
  unfold catchSetup
  cases hnullish : thrown.isNullish with
  | true =>
    rw [if_pos rfl, cleanedUp_failed rfl (stepsPhase_rejected rfl) hseed]
    simp
  | false =>
    rw [if_neg Bool.false_ne_true]
    cases htruthy : thrown.isTruthy with
    | true =>
      rw [cleanedUp_failed rfl (stepsPhase_failed (by simpa [Course.failed] using htruthy)) hseed]
      simp only [Bool.not_false, Bool.true_and, Bool.true_or]
      exact ⟨fun h => h.2.1, fun h => ⟨rfl, h, hvacuous⟩⟩
    | false =>
      rw [cleanedUp_after rfl rfl (by simpa [Course.failed] using htruthy) hseed]
      simp only [Bool.not_false, Bool.true_and, Bool.false_or, Bool.and_eq_true]
      exact ⟨fun h => ⟨h.1, h.2.1⟩, fun h => ⟨h.1, h.2, hvacuous⟩⟩

theorem returned_cleaned_up_iff {seed : Json} {output : SetupOutput σ}
    (hseed : interpolateValue vars session.seed = .ok seed)
    (hreturned : session.handler.setup seed = .ok output) :
    CleanedUp session (executeWrite toLowerCase executors session testSpec vars) ↔
      (match applySetup session vars output with
      | .error _ => (stateOf output).isNone && cleanupDeclared session vars
      | .ok (merged, _) =>
        stepsCatchable executors testSpec merged && cleanupDeclared session merged) = true := by
  have hstate : ∀ kept : Option σ, (∀ (bindings : Option HandlerField) (state : Option σ)
      (evidence : Option HandlerField),
      session.handler.setup seed = .ok (.object bindings state evidence) → kept = state) ↔
      (∀ bindings state evidence, output = .object bindings state evidence → kept = state) := by
    intro kept
    rw [hreturned]
    simp
  unfold executeWrite setupPhase
  rw [show (beginCourse vars : Course σ).vars = vars from rfl, hseed]
  dsimp only
  rw [hreturned]
  dsimp only
  cases happly : applySetup session vars output with
  | error e =>
    dsimp only
    refine Iff.trans (cleanedUp_failed rfl (stepsPhase_failed rfl) hseed) ?_
    change (none.isSome = false ∧ cleanupDeclared session vars = true ∧
      ∀ bindings state evidence, _ → (none : Option σ) = state) ↔ _
    rw [hstate none, Bool.and_eq_true, Option.isNone_iff_eq_none]
    constructor
    · rintro ⟨_, hdeclared, hkept⟩
      refine ⟨?_, hdeclared⟩
      cases output with
      | undefined => rfl
      | noObject => rfl
      | object bindings state evidence => exact (hkept bindings state evidence rfl).symm
    · rintro ⟨hnone, hdeclared⟩
      refine ⟨rfl, hdeclared, ?_⟩
      rintro bindings state evidence rfl
      exact hnone.symm
  | ok applied =>
    obtain ⟨merged, setup⟩ := applied
    obtain ⟨hkept, hextends⟩ := applySetup_state happly
    dsimp only
    rw [cleanedUp_after rfl rfl rfl (interpolateValue_extend hextends session.seed hseed)]
    dsimp only
    rw [hstate setup.state, Bool.and_eq_true]
    constructor
    · exact fun h => ⟨h.1, h.2.1⟩
    · rintro ⟨hcatchable, hdeclared⟩
      refine ⟨hcatchable, hdeclared, ?_⟩
      rintro bindings state evidence rfl
      exact hkept

/-- The course of a controlled write is cleaned up exactly when its cleanup is reached. -/
theorem executeWrite_cleaned_up_iff : CleanedUp session
    (executeWrite toLowerCase executors session testSpec vars) ↔
      cleanupReached executors session testSpec vars = true := by
  unfold cleanupReached
  cases hseed : interpolateValue vars session.seed with
  | ok seed =>
    dsimp only
    cases hsetup : session.handler.setup seed with
    | error thrown => exact thrown_cleaned_up_iff hseed hsetup
    | ok output => exact returned_cleaned_up_iff hseed hsetup
  | error e =>
    refine ⟨fun _ => rfl, fun _ seed hcalled => ?_⟩
    have hempty : (executeWrite toLowerCase executors session testSpec vars).events = [] := by
      unfold executeWrite setupPhase
      rw [show (beginCourse vars : Course σ).vars = vars from rfl, hseed]
      dsimp only
      rw [stepsPhase_failed rfl]
      obtain ⟨results, hframe⟩ := assertionsPhase_frame toLowerCase testSpec
        (catchSetup session (beginCourse vars) (.error e))
      rw [hframe]
      have hinput : ∃ e', cleanupInput session vars none false = .error e' := by
        unfold cleanupInput
        cases interpolateValue vars session.cleanup with
        | error e' => exact ⟨e', rfl⟩
        | ok cleanup =>
          rw [hseed]
          exact ⟨e, rfl⟩
      obtain ⟨e', he'⟩ := hinput
      exact cleanupPhase_undeclared he'
    rw [hempty] at hcalled
    cases hcalled

end Setup

/-! ## The law -/

section Law

variable {σ : Type} {toUpperCase toLowerCase : String → String} {dateParse : String → Option Int}
  {sha256 : String → String} {hmac : String → String → String} {host : Host σ} {attested : Json}
  {accepted : Accepted}

theorem accept_admission
    (h : accept toUpperCase dateParse sha256 hmac host attested = .ok accepted) :
    RunnerAdmission.admitTask toUpperCase dateParse accepted.task accepted.policy
      host.fixtures.isSome host.validatedAt = .ok accepted.admission := by
  unfold accept at h
  obtain ⟨_, _, h⟩ := bind_ok h
  obtain ⟨answer, _, h⟩ := bind_ok h
  cases hpolicy : answer.filter fun policy => truthy (some policy) with
  | none =>
    simp only [hpolicy] at h
    cases h
  | some policy =>
    simp only [hpolicy] at h
    obtain ⟨_, _, h⟩ := bind_ok h
    obtain ⟨admission, hadmission, h⟩ := bind_ok h
    cases h
    exact mapErrorOk hadmission

theorem accept_write
    (h : accept toUpperCase dateParse sha256 hmac host attested = .ok accepted)
    (hwrite : accepted.admission.operationLevel = .CONTROLLED_WRITE) :
    host.fixtures.isSome = true :=
  RunnerAdmission.admit_write (accept_admission h) hwrite

theorem course_write {c : Course σ} {secrets : List String}
    (hwrite : accepted.admission.operationLevel = .CONTROLLED_WRITE)
    (hfixtures : host.fixtures.isSome = true)
    (h : course toLowerCase host accepted = .ok (c, secrets)) :
    ∃ handlerResolver resolved session, host.fixtures = some handlerResolver ∧
      resolveVariables host.secret (field (some accepted.task.testSpec) "variables") =
        .ok resolved ∧
      createSession accepted.task.testSpec accepted.policy handlerResolver = .ok session ∧
      c = executeWrite toLowerCase host.executors session accepted.task.testSpec
        resolved.variableValues := by
  unfold course at h
  obtain ⟨resolved, hresolved, h⟩ := bind_ok h
  obtain ⟨handlerResolver, hresolver⟩ := Option.isSome_iff_exists.mp hfixtures
  rw [hwrite, hresolver] at h
  obtain ⟨session, hsession, h⟩ := bind_ok h
  cases h
  exact ⟨handlerResolver, resolved, session, hresolver, hresolved, hsession, rfl⟩

end Law

open RunnerAdmission (sampleComponents parsedInstant sampleNow)

/-- A write to an order whose number the specification declares. -/
def writeTestSpec : Json :=
  .obj [("id", .str "T"), ("version", .num (Number.ofNat 1)), ("name", .str "N"),
    ("risk", .str "LOW"), ("featureId", .str "F"),
    ("verifiesClaims", .arr [.obj [("id", .str "C"), ("version", .num (Number.ofNat 1))]]),
    ("environment", .obj [("target", .str "t"), ("operationLevel", .str "CONTROLLED_WRITE")]),
    ("preconditions", .arr [.obj [("type", .str "SEED"), ("seedRef", .str "rows")]]),
    ("variables", .obj [("order", .str "17")]),
    ("steps", .arr [.obj [("id", .str "S"), ("executor", .str "HTTP"), ("method", .str "POST"),
      ("path", .str "/")]]),
    ("assertions", .arr [.obj [("id", .str "A"), ("type", .str "HTTP_STATUS"),
      ("stepId", .str "S"), ("expected", .num (Number.ofNat 201))]]),
    ("cleanup", .obj [("strategy", .str "DELETE")]),
    ("policy", .obj [("approvalRequired", .bool false)])]

def writePolicy : Json :=
  .obj [("snapshotBinding", sampleComponents),
    ("allowedOperationLevels", .arr [.str "CONTROLLED_WRITE"]),
    ("fixtureCatalog", .obj [("rows", .obj [("cleanupStrategies", .arr [.str "DELETE"])])])]

/-- SHA-256 of the policy. -/
def writePolicyDigest : String → String :=
  tabledDigest [(24740, "1a9e669727cbfd53c8f4f839ed8af646e16f0ead295afa51af53b28052cf9502")]

/-- HMAC-SHA256 of the task under the secret of the runner. -/
def writeTaskHmac (_ : String) : String → String :=
  tabledDigest [(74639, "bc61a579659f93001f6089997bfd4386756726c7b369edd9869f8fc1d9c4c643")]

def writeTask : List (String × Json) :=
  [("id", .str "K"), ("projectId", .str "P"), ("executionId", .str "E"), ("runnerId", .str "R"),
    ("nonce", .str "once"),
    ("policyHash", .str "sha256:1a9e669727cbfd53c8f4f839ed8af646e16f0ead295afa51af53b28052cf9502"),
    ("issuedAt", .str "2026-07-15T12:00:00Z"), ("expiresAt", .str "2026-07-15T12:05:00Z"),
    ("testSpec", writeTestSpec),
    ("snapshotManifest", .obj [("complete", .bool true), ("components", sampleComponents)])]

def attestedWrite : Json :=
  .obj (writeTask ++ [("attestation", .obj [("algorithm", .str "HMAC-SHA256"),
    ("signature", .str "bc61a579659f93001f6089997bfd4386756726c7b369edd9869f8fc1d9c4c643")])])

/-- The handler keeps the key of the row as its state, and binds a name to the order. -/
def rowHandler (name : String) : Handler String where
  setup _ := .ok (.object (some (.json (.obj [(name, .str "18")]))) (some "row-18") none)
  cleanup _ := .ok .undefined

def createdResponse : Executor := fun _ _ =>
  .ok (some (.obj [("id", .str "S"), ("executor", .str "HTTP"), ("status", .str "PASS"),
    ("response", .obj [("status", .num (Number.ofNat 201))])]))

def rowHost (name : String) : Host String where
  runnerId := "R"
  runnerSecret := "shared"
  usedNonces := []
  acceptedAt := sampleNow
  validatedAt := sampleNow
  targetPolicy _ _ := .ok (some writePolicy)
  secret _ := .ok none
  fixtures := some fun _ => .ok (some (rowHandler name))
  executors name := if name = "HTTP" then some createdResponse else none

def acceptRow (name : String) : Except Thrown Accepted :=
  accept id parsedInstant writePolicyDigest writeTaskHmac (rowHost name) attestedWrite

/-- Whether the run of the handler that binds a name is a controlled write, and whether its cleanup
is reached with the state. -/
def reachedFor (name : String) : Option (Bool × Bool) := do
  let accepted ← (acceptRow name).toOption
  let resolved ← (resolveVariables (rowHost name).secret
    (field (some accepted.task.testSpec) "variables")).toOption
  let session ← (createSession accepted.task.testSpec accepted.policy
    (fun _ => .ok (some (rowHandler name)))).toOption
  return (accepted.admission.operationLevel = .CONTROLLED_WRITE,
    cleanupReached (rowHost name).executors session accepted.task.testSpec resolved.variableValues)

/-- The parts of a run whose reach is known. -/
theorem reachedFor_some {name : String} {reached : Bool}
    (h : reachedFor name = some (true, reached)) : ∃ accepted resolved session,
      acceptRow name = .ok accepted ∧
      accepted.admission.operationLevel = .CONTROLLED_WRITE ∧
      resolveVariables (rowHost name).secret (field (some accepted.task.testSpec) "variables") =
        .ok resolved ∧
      createSession accepted.task.testSpec accepted.policy
        (fun _ => .ok (some (rowHandler name))) = .ok session ∧
      cleanupReached (rowHost name).executors session accepted.task.testSpec
        resolved.variableValues = reached := by
  simp only [reachedFor, Option.bind_eq_bind, Option.bind_eq_some_iff] at h
  obtain ⟨accepted, haccepted, resolved, hresolved, session, hsession, h⟩ := h
  have hpair := Option.some.inj h
  rw [Prod.mk.injEq] at hpair
  obtain ⟨hwrite, hreached⟩ := hpair
  exact ⟨accepted, resolved, session, toOptionOk haccepted, of_decide_eq_true hwrite,
    toOptionOk hresolved, toOptionOk hsession, hreached⟩

/-- The course of a run whose parts are known. -/
theorem course_row {name : String} {accepted : Accepted} {resolved : ResolvedVariables}
    {session : Session String}
    (hwrite : accepted.admission.operationLevel = .CONTROLLED_WRITE)
    (hresolved : resolveVariables (rowHost name).secret
      (field (some accepted.task.testSpec) "variables") = .ok resolved)
    (hsession : createSession accepted.task.testSpec accepted.policy
      (fun _ => .ok (some (rowHandler name))) = .ok session) :
    ∃ c secrets, course id (rowHost name) accepted = .ok (c, secrets) := by
  refine ⟨executeWrite id (rowHost name).executors session accepted.task.testSpec
    resolved.variableValues, resolved.secretValues, ?_⟩
  unfold course
  dsimp only
  rw [hresolved, hwrite]
  change (createSession accepted.task.testSpec accepted.policy
    (fun _ => .ok (some (rowHandler name))) >>= _) = _
  rw [hsession]
  rfl

end Traqen.FixtureCleanup
