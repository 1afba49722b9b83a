-- What the storage guard makes of a specification that is reported valid
-- (`assertTestSpecSafeToStore` of `domain/test-spec.js`): the two lists of codes are kept by hand,
-- and a command that a step carries is in the list of the guard only.
import Traqen.TestSpecs

open Js

namespace Traqen.TestSpecStorage

open ExecutionEvidence (isMember)
open TestSpecs

section Storage

variable (toUpperCase : String → String)

/-- The violations of the protocol that are not stored. -/
def unsafeCodes : List ViolationCode :=
  [.RAW_SQL_FORBIDDEN, .RAW_TEST_COMMAND_FORBIDDEN, .SENSITIVE_ASSERTION_FORBIDDEN]

def assertTestSpecSafeToStore (testSpec : TestSpec) : Except Failure TestSpec :=
  match (sensitiveValueViolations testSpec).head? with
  | some rawSecretViolation => typeError rawSecretViolation.message
  | none => do
    let protocol ← executionProtocolViolations toUpperCase testSpec
    match protocol.find? fun item => item.code ∈ unsafeCodes with
    | some unsafeProtocolViolation => typeError unsafeProtocolViolation.message
    | none => return testSpec

end Storage

/-- A step of an existing test with a command of its own. -/
def SuppliesCommand (step : Fields) : Prop :=
  isMember (step.lookup "executor") TestExecutor.EXISTING_TEST = true ∧
    ∃ forbidden ∈ forbiddenTestFields, (step.lookup forbidden).isSome = true

/-! ## Codes -/

section Codes

variable {toUpperCase : String → String} {step : Fields} {path : String} {level : Option Json}

def codes (violations : List Violation) : List ViolationCode := violations.map (·.code)

theorem codes_append (xs ys : List Violation) : codes (xs ++ ys) = codes xs ++ codes ys :=
  List.map_append

theorem database_no_command : .RAW_TEST_COMMAND_FORBIDDEN ∉ codes (databaseViolations step path) := by
  unfold databaseViolations codes
  split_ifs <;> simp

theorem http_no_command :
    .RAW_TEST_COMMAND_FORBIDDEN ∉ codes (httpViolations toUpperCase level step path) := by
  unfold httpViolations codes
  dsimp only
  split_ifs <;> simp

theorem mem_codes_if {b : Bool} {violations : List Violation} {code : ViolationCode} :
    code ∈ codes (if b = true then violations else []) ↔ b = true ∧ code ∈ codes violations := by
  cases b <;> simp [codes]

theorem existingTest_command_iff :
    .RAW_TEST_COMMAND_FORBIDDEN ∈ codes (existingTestViolations step path) ↔
      ∃ forbidden ∈ forbiddenTestFields, (step.lookup forbidden).isSome = true := by
  unfold existingTestViolations
  rw [codes_append, List.mem_append, mem_codes_if]
  simp [codes]

theorem step_command_iff (index : Nat) :
    .RAW_TEST_COMMAND_FORBIDDEN ∈ codes (stepViolations toUpperCase level step index) ↔
      SuppliesCommand step := by
  unfold stepViolations SuppliesCommand
  dsimp only
  rw [codes_append, codes_append, List.mem_append, List.mem_append, mem_codes_if, mem_codes_if,
    mem_codes_if, existingTest_command_iff]
  simp only [database_no_command, http_no_command, and_false, false_or, or_false]

theorem assertion_no_command {steps : List Fields} {assertion : Fields} {index : Nat}
    {violations : List Violation} (h : assertionViolations steps assertion index = .ok violations) :
    .RAW_TEST_COMMAND_FORBIDDEN ∉ codes violations := by
  have hreference : ∀ type required executor path, .RAW_TEST_COMMAND_FORBIDDEN ∉
      codes (referenceViolations steps assertion type required executor path) := by
    intro type required executor path
    unfold referenceViolations codes
    split
    · simp
    · split_ifs <;> simp
  have hsensitive : ∀ path sensitive, sensitiveTargetViolations assertion path = .ok sensitive →
      .RAW_TEST_COMMAND_FORBIDDEN ∉ codes sensitive := by
    intro path sensitive h
    unfold sensitiveTargetViolations at h
    split_ifs at h <;> cases h <;> simp [codes]
  unfold assertionViolations at h
  dsimp only at h
  split at h
  · obtain ⟨sensitive, hs, h⟩ := bind_ok h
    cases h
    rw [codes_append, List.mem_append, not_or]
    exact ⟨hreference _ _ _ _, hsensitive _ _ hs⟩
  · obtain ⟨sensitive, hs, h⟩ := bind_ok h
    cases h
    rw [codes_append, List.mem_append, not_or]
    exact ⟨hreference _ _ _ _, hsensitive _ _ hs⟩
  · cases h
    simp [codes]

/-- Only the steps raise a command. -/
theorem protocol_command_iff {testSpec : TestSpec} {protocol : List Violation}
    (h : executionProtocolViolations toUpperCase testSpec = .ok protocol) :
    .RAW_TEST_COMMAND_FORBIDDEN ∈ codes protocol ↔ ∃ step ∈ testSpec.steps, SuppliesCommand step := by
  obtain ⟨ofAssertions, hassertions, h⟩ := bind_ok h
  cases h
  have hnone : .RAW_TEST_COMMAND_FORBIDDEN ∉ codes ofAssertions.flatten := by
    intro hmem
    obtain ⟨item, hitem, hcode⟩ := List.mem_map.mp hmem
    obtain ⟨violations, hviolations, hitem⟩ := List.mem_flatten.mp hitem
    obtain ⟨⟨assertion, index⟩, -, hassertion⟩ := exists_source (mapM_ok hassertions) hviolations
    exact assertion_no_command hassertion (List.mem_map.mpr ⟨item, hitem, hcode⟩)
  rw [codes_append, List.mem_append, or_iff_left hnone]
  unfold codes
  rw [List.map_flatMap, List.mem_flatMap]
  constructor
  · rintro ⟨⟨step, index⟩, hstep, hcode⟩
    exact ⟨step, List.fst_mem_of_mem_zipIdx hstep, (step_command_iff index).mp hcode⟩
  · rintro ⟨step, hstep, hcommand⟩
    obtain ⟨index, hindex⟩ := List.mem_iff_getElem?.mp hstep
    exact ⟨(step, index), List.mem_zipIdx_iff_getElem?.mpr hindex, (step_command_iff index).mpr hcommand⟩

mutual

theorem code_sensitiveIn (path : String) : ∀ v, ∀ c ∈ codes (sensitiveIn path v),
    c = .RAW_SECRET_FORBIDDEN
  | .arr items => by
    rw [sensitiveIn]
    exact code_sensitiveInItems path 0 items
  | .obj fields => by
    rw [sensitiveIn]
    exact code_sensitiveInFields path fields
  | .null | .bool _ | .num _ | .str _ => by simp [sensitiveIn, codes]

theorem code_sensitiveInItems (path : String) (index : Nat) : ∀ vs,
    ∀ c ∈ codes (sensitiveInItems path index vs), c = .RAW_SECRET_FORBIDDEN
  | [] => by simp [sensitiveInItems, codes]
  | v :: vs => by
    rw [sensitiveInItems, codes_append, List.forall_mem_append]
    exact ⟨code_sensitiveIn _ v, code_sensitiveInItems path (index + 1) vs⟩

theorem code_sensitiveInFields (path : String) : ∀ fields,
    ∀ c ∈ codes (sensitiveInFields path fields), c = .RAW_SECRET_FORBIDDEN
  | [] => by simp [sensitiveInFields, codes]
  | (name, child) :: rest => by
    rw [sensitiveInFields, codes_append, List.forall_mem_append]
    refine ⟨?_, code_sensitiveInFields path rest⟩
    split_ifs
    · simp [codes]
    · exact code_sensitiveIn _ child

end

end Codes

/-! ## Validation and storage -/

/-- A specification that is reported valid is stored exactly where no step carries a command. -/
theorem stored_iff_no_command {toUpperCase : String → String} {dateParse : String → Option Int}
    {input : Option Json} {now : Instant} {testSpec : TestSpec} {validation : Validation}
    (hspec : createTestSpec dateParse input now = .ok testSpec)
    (hvalidation : validateTestSpec toUpperCase dateParse input now = .ok validation)
    (hvalid : validation.valid = true) :
    assertTestSpecSafeToStore toUpperCase testSpec = .ok testSpec ↔
      ∀ step ∈ testSpec.steps, ¬ SuppliesCommand step := by
  unfold validateTestSpec at hvalidation
  rw [hspec] at hvalidation
  obtain ⟨protocol, hprotocol, hvalidation⟩ := bind_ok hvalidation
  cases hvalidation
  simp only [Bool.not_eq_true', List.any_eq_false, decide_eq_true_eq, List.mem_append] at hvalid
  have hsecret : sensitiveValueViolations testSpec = [] := by
    rw [List.eq_nil_iff_forall_not_mem]
    intro item hitem
    have hcode := code_sensitiveIn _ _ _ (List.mem_map_of_mem hitem)
    exact hvalid item (Or.inl (Or.inl hitem)) (hcode ▸ by simp [invalidatingCodes])
  -- of the codes that are not stored, only a command is reported as valid
  have hfind : protocol.find? (fun item => item.code ∈ unsafeCodes) = none ↔
      .RAW_TEST_COMMAND_FORBIDDEN ∉ codes protocol := by
    rw [List.find?_eq_none]
    constructor
    · intro h hmem
      obtain ⟨item, hitem, hcode⟩ := List.mem_map.mp hmem
      have hnot := h item hitem
      simp [hcode, unsafeCodes] at hnot
    · intro h item hitem hbad
      have hnot := hvalid item (Or.inl (Or.inr hitem))
      have hcommand : item.code = .RAW_TEST_COMMAND_FORBIDDEN := by
        simp only [unsafeCodes, decide_eq_true_eq, List.mem_cons, List.not_mem_nil, or_false] at hbad
        rcases hbad with hcode | hcode | hcode
        · simp [hcode, invalidatingCodes] at hnot
        · exact hcode
        · simp [hcode, invalidatingCodes] at hnot
      exact h (hcommand ▸ List.mem_map_of_mem hitem)
  have hnone : protocol.find? (fun item => item.code ∈ unsafeCodes) = none ↔
      ∀ step ∈ testSpec.steps, ¬ SuppliesCommand step := by
    rw [hfind, protocol_command_iff hprotocol, not_exists]
    simp only [not_and]
  rw [← hnone]
  unfold assertTestSpecSafeToStore
  rw [hsecret, hprotocol]
  cases hfound : protocol.find? fun item => item.code ∈ unsafeCodes with
  | none => simp [hfound, bind, Except.bind, pure, Except.pure]
  | some item => simp [hfound, bind, Except.bind, typeError]

/-! ## A command -/

/-- A specification that runs one existing test, with more fields of the step. -/
def existingTestSpec (more : Fields) : Json :=
  .obj [("id", .str "T"), ("version", .num (Number.ofNat 1)), ("name", .str "N"),
    ("risk", .str "LOW"), ("featureId", .str "F"),
    ("verifiesClaims", .arr [.obj [("id", .str "C"), ("version", .num (Number.ofNat 1))]]),
    ("environment", .obj [("target", .str "t"), ("operationLevel", .str "SAFE_READ")]),
    ("steps", .arr [.obj ([("id", .str "S"), ("executor", .str "EXISTING_TEST"),
      ("testRef", .str "suite")] ++ more)]),
    ("assertions", .arr [.obj [("id", .str "A"), ("type", .str "EXISTING_TEST_EXIT_CODE"),
      ("stepId", .str "S"), ("expected", .num (Number.ofNat 0))]]),
    ("policy", .obj [("approvalRequired", .bool false)])]

def clock : Instant := { time := 0, iso := "1970-01-01T00:00:00.000Z" }

theorem reference_stored : ∃ testSpec,
    createTestSpec (fun _ => some 0) (some (existingTestSpec [])) clock = .ok testSpec ∧
      assertTestSpecSafeToStore id testSpec = .ok testSpec := by
  have hvalid : validateTestSpec id (fun _ => some 0) (some (existingTestSpec [])) clock =
      .ok { valid := true, executable := true, violations := [] } := by decide +kernel
  have hsteps : (createTestSpec (fun _ => some 0) (some (existingTestSpec [])) clock).toOption.map
      TestSpec.steps = some [[("id", .str "S"), ("executor", .str "EXISTING_TEST"),
        ("testRef", .str "suite")]] := by rfl
  obtain ⟨testSpec, hspec, hsteps⟩ := Option.map_eq_some_iff.mp hsteps
  refine ⟨testSpec, toOption_some hspec,
    (stored_iff_no_command (toOption_some hspec) hvalid rfl).mpr ?_⟩
  rw [hsteps]
  rintro step hstep ⟨-, forbidden, hforbidden, hsupplied⟩
  obtain rfl := List.mem_singleton.mp hstep
  revert forbidden
  decide

/-- A command is reported, but not as invalid, and the specification is not stored. -/
theorem command_valid_and_not_stored : ¬ ∀ (input : Option Json) (testSpec : TestSpec)
    (validation : Validation), createTestSpec (fun _ => some 0) input clock = .ok testSpec →
      validateTestSpec id (fun _ => some 0) input clock = .ok validation → validation.valid = true →
      assertTestSpecSafeToStore id testSpec = .ok testSpec := by
  intro h
  have hruns : ((createTestSpec (fun _ => some 0)
        (some (existingTestSpec [("command", .str "npm test")])) clock).toOption.bind fun testSpec =>
      (validateTestSpec id (fun _ => some 0)
        (some (existingTestSpec [("command", .str "npm test")])) clock).toOption.map fun validation =>
          (validation.valid, (assertTestSpecSafeToStore id testSpec).toOption.isSome)) =
      some (true, false) := by decide +kernel
  obtain ⟨testSpec, hspec, hruns⟩ := Option.bind_eq_some_iff.mp hruns
  obtain ⟨validation, hvalidation, hruns⟩ := Option.map_eq_some_iff.mp hruns
  obtain ⟨hvalid, hrefused⟩ := Prod.mk.inj hruns
  rw [h _ _ _ (toOption_some hspec) (toOption_some hvalidation) hvalid] at hrefused
  cases hrefused

end Traqen.TestSpecStorage
