-- What the validation of an executable specification ensures (`domain/test-spec.js`), said of the
-- parsed value itself: a runner reads that value, not the normalized one that was validated.
import Traqen.RunnerAdmission

open Js

namespace Traqen.SpecValidation

open ExecutionEvidence RunnerAdmission RunnerErrors TestSpecs

/-! ## Normalized parts -/

/-- Entries that an object has already change none of its fields. -/
theorem lookup_setAll_same {fields : Fields} (entries : Fields)
    (h : ∀ e ∈ entries, fields.lookup e.1 = some e.2) (key : String) :
    (OrderedMap.setAll fields entries).lookup key = fields.lookup key := by
  induction entries generalizing fields with
  | nil => rfl
  | cons e entries ih =>
    have hset : ∀ k, (OrderedMap.set fields e.1 e.2).lookup k = fields.lookup k := by
      intro k
      rw [OrderedMap.lookup_eq_get?, OrderedMap.get?_of_set, ← OrderedMap.lookup_eq_get?]
      split
      · rename_i hk
        rw [hk, h e List.mem_cons_self]
      · rfl
    change (OrderedMap.setAll (OrderedMap.set fields e.1 e.2) entries).lookup key = _
    rw [ih fun e' he' => (hset e'.1).trans (h e' (List.mem_cons_of_mem _ he')), hset]

/-- A normalized part has the fields of the parsed one. -/
def SameFields (parsed : Json) (normalized : Fields) : Prop :=
  ∀ key, field (some parsed) key = normalized.lookup key

variable {normalized : Fields}

theorem normalizeStep_ok {step : Json} {index : Nat}
    (h : normalizeStep step index = .ok normalized) : SameFields step normalized ∧
      (∃ id, field (some step) "id" = some (.str id) ∧ isBlank id = false) ∧
      ∃ executor, field (some step) "executor" = some executor ∧
        executor.toText ∈ EnumValues.names TestExecutor := by
  obtain ⟨fields, hfields, h⟩ := bind_ok h
  obtain ⟨id, hid, h⟩ := bind_ok h
  obtain ⟨executor, hexecutor, h⟩ := bind_ok h
  cases h
  cases requireObject_ok hfields
  obtain ⟨hid, hfilled⟩ := requireNonEmptyString_ok hid
  obtain ⟨hexecutor, hmember⟩ := assertEnum_ok hexecutor
  refine ⟨fun key => (lookup_setAll_same _ ?_ key).symm, ⟨id, hid, hfilled⟩,
    executor, hexecutor, hmember⟩
  simp [hid, hexecutor]

theorem normalizeAssertion_ok {assertion : Json} {index : Nat}
    (h : normalizeAssertion assertion index = .ok normalized) : SameFields assertion normalized ∧
      (∃ id, field (some assertion) "id" = some (.str id) ∧ isBlank id = false) ∧
      ∃ type, field (some assertion) "type" = some (.str type) := by
  obtain ⟨fields, hfields, h⟩ := bind_ok h
  obtain ⟨id, hid, h⟩ := bind_ok h
  obtain ⟨type, htype, h⟩ := bind_ok h
  cases h
  cases requireObject_ok hfields
  obtain ⟨hid, hfilled⟩ := requireNonEmptyString_ok hid
  obtain ⟨htype, _⟩ := requireNonEmptyString_ok htype
  refine ⟨fun key => (lookup_setAll_same _ ?_ key).symm, ⟨id, hid, hfilled⟩, type, htype⟩
  simp [hid, htype]

variable {items : List Json}

theorem requireArray_ok {value : Option Json} {name : String} {nonEmpty : Bool}
    (h : requireArray value name nonEmpty = .ok items) :
    value = some (.arr items) := by
  unfold requireArray typeError at h
  dsimp only at h
  split at h
  · split at h
    · cases h
    · cases h
      rfl
  · cases h

theorem requireUniqueIds_ok {items unique : List Fields} {name : String}
    (h : requireUniqueIds items name = .ok unique) :
    unique = items ∧ (items.map (List.lookup "id")).Nodup := by
  unfold requireUniqueIds typeError at h
  dsimp only at h
  split at h
  · cases h
  · rename_i hlength
    cases h
    have hsize := not_not.mp hlength
    have hbeq : (Option.instBEq : BEq (Option Json)) = instBEqOfDecidableEq :=
      lawful_beq_subsingleton _ _
    rw [hbeq] at hsize
    exact ⟨rfl, (OrderedMap.nodup_iff_size _).mp hsize⟩

/-- The parts of a list stand for the parsed items, in their order. -/
theorem parts_ok {normalize : Json → Nat → Except Failure Fields}
    {parts : List Fields}
    (h : (items.zipIdx.mapM fun (item, index) => normalize item index) = .ok parts) :
    List.Forall₂ (fun (item : Json) part => ∃ index, normalize item index = .ok part)
      items parts := by
  have hall := mapM_ok h
  have hitems : items = items.zipIdx.map (·.1) := by simp
  rw [hitems, List.forall₂_map_left_iff]
  exact hall.imp fun _ _ hpart => ⟨_, hpart⟩

/-! ## The validated specification -/

variable {steps : List Fields}

theorem normalizeSteps_ok {value : Option Json}
    (h : normalizeSteps value = .ok steps) :
    List.Forall₂ (fun (step : Json) fields => ∃ index, normalizeStep step index = .ok fields)
      (itemsOf value) steps ∧ (steps.map (List.lookup "id")).Nodup := by
  obtain ⟨items, hitems, h⟩ := bind_ok h
  obtain ⟨parts, hparts, h⟩ := bind_ok h
  obtain ⟨rfl, hunique⟩ := requireUniqueIds_ok h
  rw [requireArray_ok hitems]
  exact ⟨parts_ok hparts, hunique⟩

theorem normalizeAssertions_ok {value : Option Json} {assertions : List Fields}
    (h : normalizeAssertions (some (nullish value (.arr []))) = .ok assertions) :
    List.Forall₂ (fun (assertion : Json) fields => ∃ index,
        normalizeAssertion assertion index = .ok fields) (itemsOf value) assertions ∧
      (assertions.map (List.lookup "id")).Nodup := by
  obtain ⟨items, hitems, h⟩ := bind_ok h
  obtain ⟨parts, hparts, h⟩ := bind_ok h
  obtain ⟨rfl, hunique⟩ := requireUniqueIds_ok h
  have hvalue : itemsOf value = items := by
    have harr := requireArray_ok hitems
    rcases value with _ | v
    · cases harr
      rfl
    · cases v with
      | null =>
        cases harr
        rfl
      | arr =>
        cases harr
        rfl
      | _ => cases harr
  exact ⟨hvalue ▸ parts_ok hparts, hunique⟩

section Creation

variable {dateParse : String → Option Int} {input : Option Json} {now : Instant}
  {testSpec : TestSpec}

/-- The parts of a specification that the protocol of an execution is about. -/
structure Parts (input : Option Json) (testSpec : TestSpec) : Prop where
  level : testSpec.environment.lookup "operationLevel" =
    field (field input "environment") "operationLevel"
  steps : List.Forall₂ (fun (step : Json) fields => ∃ index, normalizeStep step index = .ok fields)
    (itemsOf (field input "steps")) testSpec.steps
  stepIds : (testSpec.steps.map (List.lookup "id")).Nodup
  assertions : List.Forall₂ (fun (assertion : Json) fields => ∃ index,
    normalizeAssertion assertion index = .ok fields) (itemsOf (field input "assertions"))
    testSpec.assertions
  assertionIds : (testSpec.assertions.map (List.lookup "id")).Nodup

theorem normalizeEnvironment_ok {environment : Fields}
    (h : normalizeEnvironment environment = .ok normalized) :
    normalized.lookup "operationLevel" = environment.lookup "operationLevel" := by
  obtain ⟨target, htarget, h⟩ := bind_ok h
  obtain ⟨level, hlevel, h⟩ := bind_ok h
  cases h
  obtain ⟨htarget, _⟩ := requireNonEmptyString_ok htarget
  obtain ⟨hlevel, _⟩ := assertEnum_ok hlevel
  refine lookup_setAll_same _ ?_ _
  simp [htarget, hlevel]

theorem createTestSpec_ok (h : createTestSpec dateParse input now = .ok testSpec) :
    Parts input testSpec := by
  obtain ⟨environment, henvironment, h⟩ := bind_ok h
  obtain ⟨policy, hpolicy, h⟩ := bind_ok h
  obtain ⟨approved, happroved, h⟩ := bind_ok h
  obtain ⟨approval, happroval, h⟩ := bind_ok h
  obtain ⟨createdAt, hcreatedAt, h⟩ := bind_ok h
  split at h
  · cases h
  · obtain ⟨id, hid, h⟩ := bind_ok h
    obtain ⟨version, hversion, h⟩ := bind_ok h
    obtain ⟨name, hname, h⟩ := bind_ok h
    obtain ⟨risk, hrisk, h⟩ := bind_ok h
    obtain ⟨featureId, hfeature, h⟩ := bind_ok h
    obtain ⟨claims, hclaims, h⟩ := bind_ok h
    obtain ⟨origin, horigin, h⟩ := bind_ok h
    obtain ⟨snapshot, hsnapshot, h⟩ := bind_ok h
    obtain ⟨normalized, hnormalized, h⟩ := bind_ok h
    obtain ⟨preconditions, hpreconditions, h⟩ := bind_ok h
    obtain ⟨variableValues, hvariables, h⟩ := bind_ok h
    obtain ⟨steps, hsteps, h⟩ := bind_ok h
    obtain ⟨assertions, hassertions, h⟩ := bind_ok h
    obtain ⟨cleanup, hcleanup, h⟩ := bind_ok h
    obtain ⟨flags, hflags, h⟩ := bind_ok h
    cases h
    obtain ⟨hsteps, hstepIds⟩ := normalizeSteps_ok hsteps
    obtain ⟨hassertions, hassertionIds⟩ := normalizeAssertions_ok hassertions
    refine ⟨?_, hsteps, hstepIds, hassertions, hassertionIds⟩
    rw [normalizeEnvironment_ok hnormalized, requireObject_ok henvironment]
    rfl

end Creation

/-! ## What a runner may rely on -/

section Checked

variable (toUpperCase : String → String) (level : Option Json)

structure StepChecked (step : Json) : Prop where
  id : ∃ id, field (some step) "id" = some (.str id) ∧ isBlank id = false
  executor : ∃ executor, field (some step) "executor" = some executor ∧
    executor.toText ∈ EnumValues.names TestExecutor
  method : isMember (field (some step) "executor") TestExecutor.HTTP = true →
    ∃ method, field (some step) "method" = some (.str method) ∧
      (isMember level TestOperationLevel.SAFE_READ = true → toUpperCase method ∈ readMethods) ∧
      (isMember level TestOperationLevel.CONTROLLED_WRITE = true →
        toUpperCase method ∈ writeMethods)

/-- An assertion is on a step of the executor that its type requires. -/
structure AssertionChecked (steps : List Json) (assertion : Json) : Prop where
  id : ∃ id, field (some assertion) "id" = some (.str id) ∧ isBlank id = false
  target : ∃ type executor step, field (some assertion) "type" = some (.str type) ∧
    assertionExecutors.lookup type = some executor ∧ step ∈ steps ∧
    strictEq (field (some assertion) "stepId") (field (some step) "id") = true ∧
    isMember (field (some step) "executor") executor = true

structure Checked (steps assertions : List Json) : Prop where
  eachStep : ∀ step ∈ steps, StepChecked toUpperCase level step
  stepIds : (steps.map fun step => field (some step) "id").Nodup
  eachAssertion : ∀ assertion ∈ assertions, AssertionChecked steps assertion
  assertionIds : (assertions.map fun assertion => field (some assertion) "id").Nodup

end Checked

section Validation

variable {toUpperCase : String → String} {level : Option Json}

theorem httpViolations_empty {step : Fields} {path : String}
    (h : httpViolations toUpperCase level step path = []) :
    ∃ method, step.lookup "method" = some (.str method) ∧
      (isMember level TestOperationLevel.SAFE_READ = true → toUpperCase method ∈ readMethods) ∧
      (isMember level TestOperationLevel.CONTROLLED_WRITE = true →
        toUpperCase method ∈ writeMethods) := by
  unfold httpViolations at h
  dsimp only at h
  split at h
  · cases h
  · rename_i hdeclared
    have hmethod : ∃ method, step.lookup "method" = some (.str method) ∧
        declaredMethod toUpperCase step = toUpperCase method := by
      unfold declaredMethod at hdeclared ⊢
      split
      · exact ⟨_, ‹_›, rfl⟩
      · rename_i hnone
        split at hdeclared
        · exact absurd ‹_› (hnone _)
        · simp at hdeclared
    obtain ⟨method, hmethod, hupper⟩ := hmethod
    rw [hupper] at h
    refine ⟨method, hmethod, fun hread => ?_, fun hwrite => ?_⟩
    · by_contra hnot
      rw [if_pos (by simp [hread, hnot])] at h
      cases h
    · split at h
      · cases h
      · by_contra hnot
        rw [if_pos (by simp [hwrite, hnot])] at h
        cases h

theorem stepChecked_of {step : Json} {index index' : Nat}
    (hstep : normalizeStep step index' = .ok normalized)
    (h : stepViolations toUpperCase level normalized index = []) :
    StepChecked toUpperCase level step := by
  obtain ⟨hsame, hid, hexecutor⟩ := normalizeStep_ok hstep
  refine ⟨hid, hexecutor, fun hhttp => ?_⟩
  unfold stepViolations at h
  rw [← hsame "executor", hhttp] at h
  obtain ⟨method, hmethod, hlevels⟩ := httpViolations_empty (List.append_eq_nil_iff.mp h).2
  exact ⟨method, (hsame "method").trans hmethod, hlevels⟩

theorem stepById_some {stepId : Option Json} {step : Fields}
    (h : stepById steps stepId = some step) :
    step ∈ steps ∧ strictEq stepId (step.lookup "id") = true := by
  unfold stepById at h
  have hid := List.find?_some h
  exact ⟨List.mem_of_find?_eq_some h, hid⟩

theorem referenceViolations_empty {assertion : Fields}
    {type required path : String} {executor : Option TestExecutor}
    (h : referenceViolations steps assertion type required executor path = []) :
    ∃ step ∈ steps, strictEq (assertion.lookup "stepId") (step.lookup "id") = true ∧
      ∃ e, executor = some e ∧ isMember (step.lookup "executor") e = true := by
  unfold referenceViolations at h
  split at h
  · cases h
  · rename_i step hstep
    obtain ⟨hmem, hid⟩ := stepById_some hstep
    split at h
    · rename_i hany
      exact ⟨step, hmem, hid, (Option.any_eq_true _ _).mp hany⟩
    · cases h

theorem assertionChecked_of {assertion : Json}
    {index index' : Nat}
    (hsteps : List.Forall₂ (fun (step : Json) fields => ∃ index,
      normalizeStep step index = .ok fields) items steps)
    (hassertion : normalizeAssertion assertion index' = .ok normalized)
    (h : assertionViolations steps normalized index = .ok []) :
    AssertionChecked items assertion := by
  obtain ⟨hsame, hid, type, htype⟩ := normalizeAssertion_ok hassertion
  refine ⟨hid, ?_⟩
  have hlookup : normalized.lookup "type" = some (.str type) := (hsame "type").symm.trans htype
  have htarget : ∀ {required : String} {executor : Option TestExecutor} {path : String},
      referenceViolations steps normalized type required executor path = [] →
      executor = assertionExecutors.lookup type → ∃ type executor step,
        field (some assertion) "type" = some (.str type) ∧
        assertionExecutors.lookup type = some executor ∧ step ∈ items ∧
        strictEq (field (some assertion) "stepId") (field (some step) "id") = true ∧
        isMember (field (some step) "executor") executor = true := by
    intro required executor path hempty htable
    obtain ⟨fields, hmem, hstepId, e, he, hkind⟩ := referenceViolations_empty hempty
    obtain ⟨step, hstep, _, hnormalized⟩ := exists_source hsteps hmem
    obtain ⟨hfields, _⟩ := normalizeStep_ok hnormalized
    refine ⟨type, e, step, htype, htable ▸ he, hstep, ?_, ?_⟩
    · rw [hsame "stepId", hfields "id"]
      exact hstepId
    · rw [hfields "executor"]
      exact hkind
  unfold assertionViolations at h
  have htext : ((some (Json.str type)).getD .null).toText = type := rfl
  rw [hlookup] at h
  simp only [htext] at h
  cases hknown : assertionExecutors.lookup type with
  | some executor =>
    simp only [hknown] at h
    obtain ⟨sensitive, _, h⟩ := bind_ok h
    exact htarget (List.append_eq_nil_iff.mp (Except.ok.inj h)).1 hknown.symm
  | none =>
    cases hinherited : inheritedExecutor? type with
    | some inherited =>
      simp only [hknown, hinherited] at h
      obtain ⟨sensitive, _, h⟩ := bind_ok h
      exact htarget (List.append_eq_nil_iff.mp (Except.ok.inj h)).1 hknown.symm
    | none =>
      simp only [hknown, hinherited] at h
      cases h

/-- The ids of parts are those of the parsed items. -/
theorem ids_nodup {normalize : Json → Nat → Except Failure Fields}
    {parts : List Fields}
    (hparts : List.Forall₂ (fun (item : Json) part => ∃ index, normalize item index = .ok part)
      items parts)
    (hsame : ∀ item index part, normalize item index = .ok part → SameFields item part)
    (h : (parts.map (List.lookup "id")).Nodup) :
    (items.map fun item => field (some item) "id").Nodup := by
  have hids : (items.map fun item => field (some item) "id") = parts.map (List.lookup "id") := by
    clear h
    induction hparts with
    | nil => rfl
    | cons hpart _ ih =>
      obtain ⟨index, hpart⟩ := hpart
      rw [List.map_cons, List.map_cons, ih, hsame _ _ _ hpart "id"]
  exact hids ▸ h

theorem checked_of {dateParse : String → Option Int} {input : Option Json} {now : Instant}
    {testSpec : TestSpec} (hspec : createTestSpec dateParse input now = .ok testSpec)
    (h : executionProtocolViolations toUpperCase testSpec = .ok []) :
    Checked toUpperCase (field (field input "environment") "operationLevel")
      (itemsOf (field input "steps")) (itemsOf (field input "assertions")) := by
  have hparts := createTestSpec_ok hspec
  obtain ⟨ofAssertions, hassertions, h⟩ := bind_ok h
  obtain ⟨hofSteps, hnone⟩ := List.append_eq_nil_iff.mp (Except.ok.inj h)
  refine ⟨?_, ids_nodup hparts.steps (fun _ _ _ h => (normalizeStep_ok h).1) hparts.stepIds,
    ?_, ids_nodup hparts.assertions (fun _ _ _ h => (normalizeAssertion_ok h).1)
      hparts.assertionIds⟩
  · intro step hstep
    obtain ⟨fields, hfields, index', hnormalized⟩ := exists_of_mem hparts.steps hstep
    obtain ⟨index, hindex⟩ := List.mem_iff_getElem?.mp hfields
    have hviolations := List.flatMap_eq_nil_iff.mp hofSteps (fields, index)
      (List.mem_zipIdx_iff_getElem?.mpr hindex)
    unfold operationLevel at hviolations
    rw [hparts.level] at hviolations
    exact stepChecked_of hnormalized hviolations
  · intro assertion hassertion
    obtain ⟨fields, hfields, index', hnormalized⟩ := exists_of_mem hparts.assertions hassertion
    obtain ⟨index, hindex⟩ := List.mem_iff_getElem?.mp hfields
    have hitem : (fields, index) ∈ testSpec.assertions.zipIdx :=
      List.mem_zipIdx_iff_getElem?.mpr hindex
    obtain ⟨violations, hmem, hviolations⟩ := exists_of_mem (mapM_ok hassertions) hitem
    rw [List.flatten_eq_nil_iff.mp hnone violations hmem] at hviolations
    exact assertionChecked_of hparts.steps hnormalized hviolations

/-- Of a specification that a runner admits, the steps and the assertions are checked. -/
theorem checkTestSpec_ok {dateParse : String → Option Int} {testSpec : Json} {now : Instant}
    (h : checkTestSpec toUpperCase dateParse testSpec now = .ok ()) :
    Checked toUpperCase (levelOf testSpec) (itemsOf (field (some testSpec) "steps"))
      (itemsOf (field (some testSpec) "assertions")) := by
  obtain ⟨validation, hvalidation, h⟩ := bind_ok h
  have hvalid := mapErrorOk hvalidation
  split at h
  · rename_i hexecutable
    unfold validateTestSpec at hvalid
    split at hvalid
    · cases hvalid
      cases hexecutable
    · rename_i created hcreated
      obtain ⟨protocol, hprotocol, hvalid⟩ := bind_ok hvalid
      cases hvalid
      have hempty := List.isEmpty_iff.mp hexecutable
      obtain ⟨hfront, _⟩ := List.append_eq_nil_iff.mp hempty
      rw [(List.append_eq_nil_iff.mp hfront).2] at hprotocol
      exact checked_of hcreated hprotocol
  · cases h

end Validation

end Traqen.SpecValidation
