-- What a passing assertion says (`runner/assertions.js`): the value that it selects is there, as
-- an own value of the step's result, and is the expected one. A missing value has a stand-in, which
-- may be what is expected as well.
import Traqen.CanonicalOrder
import Traqen.RunnerAssertions

open Js

namespace Traqen.RunnerAssertions

open ExecutionEvidence RunnerErrors RunnerValues TestSpecs
open SourceIdentity (SameUpToOrder DistinctKeys DistinctFields DistinctItems)

/-! ## Selections -/

/-- The executor that an assertion needs, what it reads from, which has to be there, and the keys
from there to the value. -/
structure Selection where
  executor : String
  parent : List String
  rest : List String

/-- The value at the end of the own properties. -/
def ownAt (value : Option Json) (keys : List String) : Option Json :=
  keys.foldl (fun current key => current.bind fun v => ownProperty v key) value

/-- The text of a field, if it has one that is not empty. -/
def textField (assertion : Json) (key : String) (of : String → String) : Option String :=
  match stringOf (nullish (field (some assertion) key) (.str "")) with
  | .ok text => if of text = "" then none else some (of text)
  | .error _ => none

def selection (toLowerCase : String → String) (assertion : Json) : Option Selection :=
  match field (some assertion) "type" with
  | some (.str "HTTP_STATUS") => some ⟨"HTTP", ["response"], ["status"]⟩
  | some (.str "RESPONSE_HEADER") => (textField assertion "name" toLowerCase).map fun name =>
      ⟨"HTTP", ["response", "headers"], [name]⟩
  | some (.str "JSON_PATH") => (jsonPath? (field (some assertion) "expression")).map fun rest =>
      ⟨"HTTP", ["response"], "json" :: (pathTokens rest).map String.ofList⟩
  | some (.str "DATABASE_ROW_COUNT") => some ⟨"DATABASE", ["rows"], ["length"]⟩
  | some (.str "DATABASE_FIELD") =>
    (rowIndex? (field (some assertion) "row")).bind fun row =>
      (textField assertion "field" id).map fun name => ⟨"DATABASE", ["rows"], [toString row, name]⟩
  | some (.str "EXISTING_TEST_EXIT_CODE") => some ⟨"EXISTING_TEST", [], ["exitCode"]⟩
  | _ => none

/-- What is compared where no own value is selected: null for a header, and nothing for the rest;
for the name of a prototype an empty object. -/
def standIn (assertion step : Json) (s : Selection) : Option Json :=
  match field (some assertion) "type", s.rest with
  | some (.str "RESPONSE_HEADER"), [name] => headerValue (.obj []) name
  | some (.str "DATABASE_FIELD"), [row, name] =>
    (ownAt (some step) (s.parent ++ [row])).bind fun r =>
      if r = .null then none else rowValue (.obj []) name
  | _, _ => none

/-- The step of the assertion. -/
def stepOf (assertion : Json) (stepResults : StepResults) : Option Json :=
  (stepResults.find? fun e => strictEq (field (some assertion) "stepId") (some (.str e.1))).bind
    (·.2)

/-- The assertion is evaluated on the step. -/
structure Evaluated (toLowerCase : String → String) (assertion : Json) (stepResults : StepResults)
    (step : Json) (s : Selection) : Prop where
  found : stepOf assertion stepResults = some step
  passed : field (some step) "status" = some (.str "PASS")
  selects : selection toLowerCase assertion = some s
  executor : field (some step) "executor" = some (.str s.executor)
  present : ∃ v, ownAt (some step) s.parent = some v ∧ v ≠ .null

/-- Where the assertion passes, its step has passed and holds the value that it selects, and this
is the value that is expected. -/
def PassesOnMatch (toLowerCase : String → String) (assertion : Json) (stepResults : StepResults) :
    Prop :=
  ∀ r, evaluateAssertion toLowerCase assertion stepResults = .ok r →
    field (some r) "status" = some (.str "PASS") →
    ∃ step s value expected, stepOf assertion stepResults = some step ∧
      field (some step) "status" = some (.str "PASS") ∧
      selection toLowerCase assertion = some s ∧
      ownAt (some step) (s.parent ++ s.rest) = some value ∧
      field (some assertion) "expected" = some expected ∧ SameUpToOrder value expected

/-! ## Paths -/

/-- A name behind a dot, or an index in brackets. -/
inductive Accessor where
  | name (text : List Char)
  | index (digits : List Char)

def Accessor.Proper : Accessor → Prop
  | .name text => text ≠ [] ∧ '.' ∉ text ∧ '[' ∉ text
  | .index digits => digits ≠ [] ∧ ∀ c ∈ digits, c.isDigit = true

def Accessor.token : Accessor → List Char
  | .name text => text
  | .index digits => digits

def Accessor.text : Accessor → List Char
  | .name text => '.' :: text
  | .index digits => '[' :: digits ++ [']']

/-- `$.`, and the accessors; the dot of a first name is there already. -/
def expressionOf (accessors : List Accessor) : List Char :=
  match accessors with
  | .name text :: rest => '$' :: '.' :: text ++ rest.flatMap Accessor.text
  | accessors => '$' :: '.' :: accessors.flatMap Accessor.text

/-- A path leads along the own properties that its accessors name. -/
def FollowsPaths : Prop :=
  ∀ (value : Option Json) (accessors : List Accessor), (∀ a ∈ accessors, a.Proper) →
    jsonPathValue value (some (.str (String.ofList (expressionOf accessors)))) =
      .ok (ownAt value (accessors.map fun a => String.ofList a.token))

section Paths

theorem dottedFrom_skip (xs rest : List Char) : dottedFrom xs.length (xs ++ rest) =
    dottedFrom 0 rest := by
  induction xs with
  | nil => rfl
  | cons x xs ih => exact ih

variable {accessors : List Accessor}

theorem dottedFrom_plain {text : List Char} (h : '[' ∉ text) (rest : List Char) :
    dottedFrom 0 (text ++ rest) = text ++ dottedFrom 0 rest := by
  induction text with
  | nil => rfl
  | cons c text ih =>
    have hc : c ≠ '[' := fun heq => h (heq ▸ List.mem_cons_self)
    rw [List.cons_append, List.cons_append, ← ih fun hin => h (List.mem_cons_of_mem c hin)]
    rw [dottedFrom]
    exact fun heq => hc heq

theorem dottedFrom_index {digits : List Char} (hne : digits ≠ [])
    (hdigits : ∀ c ∈ digits, c.isDigit = true) (rest : List Char) :
    dottedFrom 0 ('[' :: digits ++ ']' :: rest) = '.' :: digits ++ dottedFrom 0 rest := by
  have htake : (digits ++ ']' :: rest).takeWhile Char.isDigit = digits := by
    rw [List.takeWhile_append_of_pos hdigits, List.takeWhile_cons_of_neg (by decide),
      List.append_nil]
  rw [List.cons_append, dottedFrom]
  rw [htake, List.drop_left, if_pos ⟨hne, rfl⟩]
  have hskip := dottedFrom_skip (digits ++ [']']) rest
  rw [List.length_append, List.append_assoc] at hskip
  exact congrArg (fun tail => '.' :: digits ++ tail) hskip

variable (h : ∀ a ∈ accessors, a.Proper)
include h

/-- The text with dots only. -/
theorem dottedFrom_accessors : dottedFrom 0 (accessors.flatMap Accessor.text) =
      accessors.flatMap fun a => '.' :: a.token := by
  induction accessors with
  | nil => rfl
  | cons a accessors ih =>
    have hrest := ih fun b hb => h b (List.mem_cons_of_mem a hb)
    rw [List.flatMap_cons, List.flatMap_cons]
    cases a with
    | name text =>
      obtain ⟨-, -, hplain⟩ := h (.name text) List.mem_cons_self
      have hdot : '[' ∉ '.' :: text := by simp [hplain]
      rw [Accessor.text, dottedFrom_plain hdot, hrest]
      rfl
    | index digits =>
      obtain ⟨hne, hdigits⟩ := h (.index digits) List.mem_cons_self
      have happend : (Accessor.index digits).text ++ accessors.flatMap Accessor.text =
          '[' :: digits ++ ']' :: accessors.flatMap Accessor.text := by
        simp [Accessor.text]
      rw [happend, dottedFrom_index hne hdigits, hrest]
      rfl

omit h in
theorem Accessor.Proper.token_ne {a : Accessor} (h : a.Proper) : a.token ≠ [] := by
  cases a with
  | name text => exact h.1
  | index digits => exact h.1

omit h in
theorem Accessor.Proper.no_dot {a : Accessor} (h : a.Proper) :
    ∀ c ∈ a.token, (c == '.') = false := by
  intro c hc
  rw [beq_eq_false_iff_ne]
  rintro rfl
  cases a with
  | name text => exact h.2.1 hc
  | index digits => exact absurd (h.2 '.' hc) (by decide)

/-- Tokens that are joined by dots are cut at the dots. -/
theorem split_tokens {first : List Char} (hfirst : ∀ c ∈ first, (c == '.') = false) :
    (first ++ accessors.flatMap fun a => '.' :: a.token).splitOn '.' =
      first :: accessors.map Accessor.token := by
  unfold List.splitOn
  induction accessors generalizing first with
  | nil =>
    rw [List.flatMap_nil, List.append_nil]
    exact List.splitOnP_eq_singleton hfirst
  | cons a accessors ih =>
    rw [List.flatMap_cons, List.cons_append, List.splitOnP_append_cons_of_forall_mem hfirst '.' rfl,
      ih (fun b hb => h b (List.mem_cons_of_mem a hb)) (h a List.mem_cons_self).no_dot]
    rfl

theorem filter_tokens :
    (accessors.map Accessor.token).filter (· ≠ []) = accessors.map Accessor.token := by
  rw [List.filter_eq_self]
  intro token htoken
  obtain ⟨a, ha, rfl⟩ := List.mem_map.mp htoken
  exact decide_eq_true (h a ha).token_ne

theorem pathTokens_accessors :
    pathTokens (accessors.flatMap Accessor.text) = accessors.map Accessor.token := by
  have hsplit := @split_tokens _ h [] nofun
  unfold pathTokens
  rw [dottedFrom_accessors h]
  rw [List.nil_append] at hsplit
  rw [hsplit, List.filter_cons_of_neg (by simp), filter_tokens h]

omit h

theorem follows_paths : FollowsPaths := by
  intro value accessors h
  have hread : ∀ rest, jsonPath? (some (.str (String.ofList ('$' :: '.' :: rest)))) =
      some rest := by
    intro rest
    simp [jsonPath?]
  have htokens : ∃ rest, expressionOf accessors = '$' :: '.' :: rest ∧
      pathTokens rest = accessors.map Accessor.token := by
    unfold expressionOf
    split
    · next text rest =>
      refine ⟨text ++ rest.flatMap Accessor.text, rfl, ?_⟩
      obtain ⟨hne, hdot, hplain⟩ := h (.name text) List.mem_cons_self
      have hrest : ∀ a ∈ rest, a.Proper := fun a ha => h a (List.mem_cons_of_mem _ ha)
      have hsplit : (text ++ rest.flatMap fun a => '.' :: a.token).splitOn '.' =
          text :: rest.map Accessor.token :=
        split_tokens hrest (h (.name text) List.mem_cons_self).no_dot
      unfold pathTokens
      rw [dottedFrom_plain hplain, dottedFrom_accessors hrest, hsplit,
        List.filter_cons_of_pos (by simpa using hne), filter_tokens hrest]
      rfl
    · exact ⟨_, rfl, pathTokens_accessors h⟩
  obtain ⟨rest, hexpression, htokens⟩ := htokens
  unfold jsonPathValue
  rw [hexpression, hread]
  dsimp only
  rw [htokens]
  unfold ownAt
  rw [List.foldl_map, List.foldl_map]

end Paths

/-! ## What is compared -/

section Compared

variable {toLowerCase : String → String} {assertion step : Json} {stepResults : StepResults}

theorem member_ok {value w : Option Json} {key : String} :
    member value key = .ok w ↔
      (∃ v, value = some v ∧ v ≠ .null) ∧ w = value.bind fun v => ownProperty v key := by
  unfold member
  split
  · simp [engineError]
  · simp [engineError]
  · next v hne =>
    constructor
    · intro h
      exact ⟨⟨v, rfl, hne⟩, (Except.ok.inj h).symm⟩
    · rintro ⟨-, rfl⟩
      rfl

theorem headerValue_eq (headers : Json) (name : String) :
    headerValue headers name = (ownProperty headers name).or (headerValue (.obj []) name) := by
  unfold headerValue property
  cases ownProperty headers name with
  | some v => rfl
  | none => rfl

theorem rowValue_of_ne {row : Json} (hrow : row ≠ .null) (name : String) :
    rowValue row name = match property row name with | .value v => some v | _ => none := by
  cases row <;> first | exact absurd rfl hrow | (unfold rowValue; split <;> simp_all)

theorem rowValue_eq {row : Json} (hrow : row ≠ .null) (name : String) :
    rowValue row name = (ownProperty row name).or (rowValue (.obj []) name) := by
  have hempty : Json.obj [] ≠ .null := nofun
  rw [rowValue_of_ne hrow, rowValue_of_ne hempty]
  unfold property
  cases ownProperty row name with
  | some v => rfl
  | none => rfl

/-- What an assertion compares with its expected value. -/
def compared (assertion step : Json) (s : Selection) : Option Json :=
  (ownAt (some step) (s.parent ++ s.rest)).or (standIn assertion step s)

theorem requireStepOf_ok {type executor article : String} {u : Unit} :
    requireStepOf step type executor article = .ok u ↔
      field (some step) "executor" = some (.str executor) := by
  unfold requireStepOf
  simp only [strictEq_str]
  split <;> simp [*, specError]

theorem specError_ok {α : Type} {cause : SpecCause} {a : α} : ¬ specError cause = .ok a := nofun

variable {r v : Json}

/-- What is read from a value that is there. -/
theorem ownAt_cons (key : String) (keys : List String) :
    ownAt (some v) (key :: keys) = ownAt (ownProperty v key) keys := rfl

/-- An assertion of a known type is compared where its selection can be read. -/
def Compares (toLowerCase : String → String) (assertion step r : Json) : Prop :=
  ∃ s, selection toLowerCase assertion = some s ∧
    field (some step) "executor" = some (.str s.executor) ∧
    (∃ v, ownAt (some step) s.parent = some v ∧ v ≠ .null) ∧
    r = result (field (some assertion) "id") (compared assertion step s)
      (field (some assertion) "expected")

theorem nullish_of_ne {d : Json} (h : v ≠ .null) : nullish (some v) d = v := by
  cases v <;> first | rfl | exact absurd rfl h

theorem ne_null (h : step.isObject = true) : step ≠ .null := by
  rintro rfl
  cases h

variable (hobject : step.isObject = true)
include hobject

theorem single_iff (htype : field (some assertion) "type" = some (.str "HTTP_STATUS") ∨
      field (some assertion) "type" = some (.str "DATABASE_ROW_COUNT")) :
    evaluateOn toLowerCase assertion step = .ok r ↔ Compares toLowerCase assertion step r := by
  have hstep := ne_null hobject
  unfold evaluateOn Compares selection compared standIn
  rcases htype with htype | htype
  all_goals
    rw [htype]
    simp only [bind_ok_iff, requireStepOf_ok, member_ok]
    simp [ownAt, pure, Except.pure, hstep]
    exact fun _ _ _ _ => eq_comm

theorem exitCode_iff
    (htype : field (some assertion) "type" = some (.str "EXISTING_TEST_EXIT_CODE")) :
    evaluateOn toLowerCase assertion step = .ok r ↔ Compares toLowerCase assertion step r := by
  have hstep := ne_null hobject
  unfold evaluateOn Compares selection compared standIn
  rw [htype]
  simp only [bind_ok_iff, requireStepOf_ok]
  have hcode : field (some step) "exitCode" = ownProperty step "exitCode" := by
    cases step with
    | obj fields => rfl
    | _ => cases hobject
  rw [hcode]
  simp [ownAt, pure, Except.pure, hstep]
  exact fun _ => eq_comm

theorem jsonPath_iff (htype : field (some assertion) "type" = some (.str "JSON_PATH")) :
    evaluateOn toLowerCase assertion step = .ok r ↔ Compares toLowerCase assertion step r := by
  have hstep := ne_null hobject
  unfold evaluateOn Compares selection compared standIn
  rw [htype]
  simp only [bind_ok_iff, requireStepOf_ok, member_ok]
  unfold jsonPathValue
  cases jsonPath? (field (some assertion) "expression") with
  | none => simp [specError]
  | some rest =>
    simp [ownAt, pure, Except.pure, hstep, List.foldl_map]
    exact fun _ _ _ _ => eq_comm

theorem header_iff (htype : field (some assertion) "type" = some (.str "RESPONSE_HEADER")) :
    evaluateOn toLowerCase assertion step = .ok r ↔ Compares toLowerCase assertion step r := by
  have hstep := ne_null hobject
  unfold evaluateOn Compares selection compared standIn
  rw [htype]
  unfold evaluateHeader textField
  simp only [bind_ok_iff, requireStepOf_ok]
  cases stringOf (nullish (field (some assertion) "name") (.str "")) with
  | error e => simp
  | ok text =>
    by_cases hname : toLowerCase text = ""
    · simp [hname, specError]
    · simp [hname, bind_ok_iff, member_ok, ownAt, pure, Except.pure, hstep]
      intro _
      cases hresponse : ownProperty step "response" with
      | none => simp
      | some response =>
        simp only [Option.bind_some, Option.some.injEq, exists_eq_left']
        cases hheaders : ownProperty response "headers" with
        | none => simp
        | some headers =>
          by_cases hnull : headers = .null
          · simp [hnull]
          · have hthere : response ≠ .null := by
              rintro rfl
              cases hheaders
            rw [nullish_of_ne hnull, headerValue_eq]
            simp [hnull, hthere, eq_comm]

-- A header named like a member of every object has nothing to compare.
example : headerValue (.obj []) "toString" = none := by decide +kernel

theorem field_iff (htype : field (some assertion) "type" = some (.str "DATABASE_FIELD")) :
    evaluateOn toLowerCase assertion step = .ok r ↔ Compares toLowerCase assertion step r := by
  have hstep := ne_null hobject
  unfold evaluateOn Compares selection compared standIn
  rw [htype]
  unfold evaluateField textField
  simp only [bind_ok_iff, requireStepOf_ok]
  cases rowIndex? (field (some assertion) "row") with
  | none => simp [specError]
  | some index =>
    cases stringOf (nullish (field (some assertion) "field") (.str "")) with
    | error e => simp [bind_ok_iff]
    | ok name =>
      by_cases hname : name = ""
      · simp [hname, specError, bind_ok_iff]
      · simp [hname, bind_ok_iff, member_ok, ownAt, pure, Except.pure, hstep]
        intro _ rows hrows _
        rw [hrows, Option.bind_some]
        cases hrow : ownProperty rows index.repr with
        | none => exact eq_comm
        | some row =>
          by_cases hnull : row = .null
          · subst hnull
            exact eq_comm
          · rw [nullish_of_ne hnull, rowValue_eq hnull]
            simp [hnull, eq_comm]

theorem evaluateOn_iff :
    evaluateOn toLowerCase assertion step = .ok r ↔ Compares toLowerCase assertion step r := by
  by_cases hknown : ∃ type ∈ ["HTTP_STATUS", "RESPONSE_HEADER", "JSON_PATH", "DATABASE_ROW_COUNT",
      "DATABASE_FIELD", "EXISTING_TEST_EXIT_CODE"],
      field (some assertion) "type" = some (.str type)
  · obtain ⟨type, hmem, htype⟩ := hknown
    simp only [List.mem_cons, List.not_mem_nil, or_false] at hmem
    rcases hmem with rfl | rfl | rfl | rfl | rfl | rfl
    · exact single_iff hobject (Or.inl htype)
    · exact header_iff hobject htype
    · exact jsonPath_iff hobject htype
    · exact single_iff hobject (Or.inr htype)
    · exact field_iff hobject htype
    · exact exitCode_iff hobject htype
  · have hno : ∀ type, type ∈ ["HTTP_STATUS", "RESPONSE_HEADER", "JSON_PATH", "DATABASE_ROW_COUNT",
        "DATABASE_FIELD", "EXISTING_TEST_EXIT_CODE"] →
        field (some assertion) "type" ≠ some (.str type) := fun type hmem htype =>
      hknown ⟨type, hmem, htype⟩
    have hselection : selection toLowerCase assertion = none := by
      unfold selection
      split <;> first | rfl | (exfalso; refine hno _ ?_ (by assumption); decide)
    have hevaluate : ∀ r, evaluateOn toLowerCase assertion step ≠ .ok r := by
      intro r
      unfold evaluateOn
      dsimp only
      split <;> first | exact specError_ok | (exfalso; refine hno _ ?_ (by assumption); decide)
    refine iff_of_false (hevaluate r) ?_
    rintro ⟨s, hs, -⟩
    rw [hselection] at hs
    cases hs

omit hobject

/-- An assertion has a result where it is evaluated: what is compared with what is expected. -/
theorem evaluateAssertion_iff :
    evaluateAssertion toLowerCase assertion stepResults = .ok r ↔
      ∃ step s, Evaluated toLowerCase assertion stepResults step s ∧
        r = result (field (some assertion) "id") (compared assertion step s)
          (field (some assertion) "expected") := by
  have hpassed : ∀ step : Json, strictEq (field (some step) "status") (some (.str "PASS")) = true →
      step.isObject = true ∧ truthy (some step) = true := by
    intro step hstatus
    rw [strictEq_str] at hstatus
    cases step with
    | obj fields => exact ⟨rfl, rfl⟩
    | _ => cases hstatus
  have hfound : ∀ step, stepOf assertion stepResults = some step →
      (evaluateAssertion toLowerCase assertion stepResults = .ok r ↔
        field (some step) "status" = some (.str "PASS") ∧
          evaluateOn toLowerCase assertion step = .ok r) := by
    intro step hstep
    unfold stepOf at hstep
    unfold evaluateAssertion
    dsimp only
    rw [hstep]
    dsimp only
    rw [← strictEq_str]
    cases hstatus : strictEq (field (some step) "status") (some (.str "PASS")) with
    | true => simp [(hpassed step hstatus).2]
    | false => cases truthy (some step) <;> simp [specError, executionError]
  cases hstep : stepOf assertion stepResults with
  | none =>
    refine iff_of_false ?_ ?_
    · unfold stepOf at hstep
      unfold evaluateAssertion
      dsimp only
      rw [hstep]
      exact specError_ok
    · rintro ⟨step, s, hevaluated, -⟩
      rw [hevaluated.found] at hstep
      cases hstep
  | some step =>
    rw [hfound step hstep]
    constructor
    · rintro ⟨hstatus, hrun⟩
      obtain ⟨s, hs, hexecutor, hpresent, rfl⟩ :=
        (evaluateOn_iff (hpassed step ((strictEq_str _ _).mpr hstatus)).1).mp hrun
      exact ⟨step, s, ⟨hstep, hstatus, hs, hexecutor, hpresent⟩, rfl⟩
    · rintro ⟨step', s, ⟨hstep', hstatus, hs, hexecutor, hpresent⟩, rfl⟩
      obtain rfl : step = step' := Option.some.inj (hstep.symm.trans hstep')
      refine ⟨hstatus, (evaluateOn_iff (hpassed step ((strictEq_str _ _).mpr hstatus)).1).mpr ?_⟩
      exact ⟨s, hs, hexecutor, hpresent, rfl⟩

theorem result_passes {id actual expected : Option Json} :
    field (some (result id actual expected)) "status" = some (.str "PASS") ↔
      actual.map canonicalJson = expected.map canonicalJson := by
  have hstatus : field (some (result id actual expected)) "status" =
      some (.str (if valuesEqual actual expected = true then "PASS" else "FAIL")) := by
    unfold result objectOf
    cases id <;> rfl
  rw [hstatus]
  unfold valuesEqual
  by_cases h : actual.map canonicalJson = expected.map canonicalJson <;> simp [h]

/-! ## Own values -/

theorem distinct_lookup {fields : List (String × Json)} (h : DistinctFields fields) {key : String}
    (hv : fields.lookup key = some v) : DistinctKeys v := by
  induction fields with
  | nil => cases hv
  | cons e fields ih =>
    simp only [DistinctFields] at h
    rw [List.lookup_cons] at hv
    split at hv
    · exact Option.some.inj hv ▸ h.1
    · exact ih h.2 hv

theorem distinct_item {items : List Json} (h : DistinctItems items) (hv : v ∈ items) :
    DistinctKeys v := by
  induction items with
  | nil => cases hv
  | cons item items ih =>
    simp only [DistinctItems] at h
    rcases List.mem_cons.mp hv with rfl | hv
    · exact h.1
    · exact ih h.2 hv

theorem distinct_own {w : Json} (h : DistinctKeys v) {key : String}
    (hw : ownProperty v key = some w) : DistinctKeys w := by
  unfold ownProperty at hw
  split at hw
  · simp only [DistinctKeys] at h
    exact distinct_lookup h.2 hw
  · simp only [DistinctKeys] at h
    split at hw
    · obtain rfl := Option.some.inj hw
      trivial
    · obtain ⟨index, -, hindex⟩ := Option.bind_eq_some_iff.mp hw
      exact distinct_item h (List.mem_of_getElem? hindex)
  · cases hw

theorem distinct_ownAt {w : Json} (h : DistinctKeys v) {keys : List String}
    (hw : ownAt (some v) keys = some w) : DistinctKeys w := by
  induction keys generalizing v with
  | nil => exact Option.some.inj hw ▸ h
  | cons key keys ih =>
    rw [ownAt_cons] at hw
    cases hown : ownProperty v key with
    | none =>
      rw [hown] at hw
      have hnone : ∀ keys, ownAt none keys = none := by
        intro keys
        induction keys with
        | nil => rfl
        | cons _ _ ih => exact ih
      rw [hnone] at hw
      cases hw
    | some u =>
      rw [hown] at hw
      exact ih (distinct_own h hown) hw

end Compared

/-! ## Passing -/

section Passing

variable {toLowerCase : String → String} {assertion : Json} {stepResults : StepResults}

/-- Where the own value is missing, its stand-in has another text than what is expected. -/
def NoStandIn (toLowerCase : String → String) (assertion : Json) (stepResults : StepResults) :
    Prop :=
  ∀ step s, Evaluated toLowerCase assertion stepResults step s →
    ownAt (some step) (s.parent ++ s.rest) = none →
    (standIn assertion step s).map canonicalJson ≠
      (field (some assertion) "expected").map canonicalJson

end Passing

/-! ## Two assertions -/

def orderStep : Fields := [("id", .str "READ"), ("executor", .str "HTTP")]

/-- An assertion about the order that a step has read, with what it expects, if anything. -/
def orderAssertion (expected : Fields) : Fields :=
  [("id", .str "A-1"), ("type", .str "JSON_PATH"), ("stepId", .str "READ"),
    ("expression", .str "$.items[0].state")] ++ expected

/-- The results of the step, with the items that it has read. -/
def orderResults (items : List Json) : StepResults :=
  [("READ", some (.obj [("id", .str "READ"), ("executor", .str "HTTP"), ("status", .str "PASS"),
    ("response", .obj [("status", .num (Number.ofNat 200)), ("headers", .obj []),
      ("json", .obj [("items", .arr items)])])]))]

theorem orderResults_distinct {items : List Json} (h : DistinctItems items) :
    ∀ e ∈ orderResults items, ∀ step, e.2 = some step → DistinctKeys step := by
  intro e he step hstep
  obtain rfl := List.mem_singleton.mp he
  obtain rfl := Option.some.inj hstep
  simp [DistinctKeys, DistinctFields, h]

end Traqen.RunnerAssertions
