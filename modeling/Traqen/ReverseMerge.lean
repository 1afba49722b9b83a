-- Merging the artifact bundles of one reverse run (`mergeReverseArtifactBundles` of
-- `domain/reverse-skill.js`): candidates that say the same become one, and claims that
-- contradict each other become a conflict. Nothing is lost and the order of the bundles does
-- not matter.
import Traqen.CanonicalText
import Traqen.ReverseSkill
import Traqen.Lib.CodeUnits
import Traqen.Lib.Grouping
import Traqen.Lib.Pairs

open Js

namespace Traqen.ReverseSkill

/-! ## The merge -/

/-- Both values allow something in common: an item of two arrays, or the value itself. -/
def valuesMeet : Json → Json → Bool
  | .arr left, .arr right =>
    left.any fun value => right.any fun candidate => canonicalJson candidate = canonicalJson value
  | left, right => canonicalJson left = canonicalJson right

/-- An object has each key once, so this compares the values of the keys that both have. -/
def scopeOverlaps (left right : List (String × Json)) : Bool :=
  left.all fun l => right.all fun r => l.1 ≠ r.1 || valuesMeet l.2 r.2

def isOperator (operator : Json) (name : String) : Bool :=
  strictEq (some operator) (some (.str name))

def isOneOf (operator : Json) (names : List String) : Bool := names.any (isOperator operator)

def noneInCommon : Json → Json → Bool
  | .arr left, .arr right => !valuesMeet (.arr left) (.arr right)
  | _, _ => false

/-- What the operators say of two values of one dimension. -/
def operatorsConflict (left right : Constraint) : Bool :=
  let sameValue : Bool := canonicalJson left.value = canonicalJson right.value
  if isOperator left.operator "EQUALS" && isOperator right.operator "EQUALS" then !sameValue
  else if !strictEq (some left.operator) (some right.operator) &&
      isOneOf left.operator ["EQUALS", "NOT_EQUALS"] &&
      isOneOf right.operator ["EQUALS", "NOT_EQUALS"] then
    sameValue
  else if isOneOf left.operator ["ALLOWS", "FORBIDS"] &&
      isOneOf right.operator ["ALLOWS", "FORBIDS"] then
    !strictEq (some left.operator) (some right.operator) && sameValue
  else if isOperator left.operator "IN" && isOperator right.operator "IN" then
    noneInCommon left.value right.value
  else false

def constraintsConflict : Option Constraint → Option Constraint → Bool
  | some left, some right => left.dimension = right.dimension && operatorsConflict left right
  | _, _ => false

structure MergedSource where
  candidateId : String
  producer : Producer
deriving DecidableEq

structure MergedFeature where
  id : String
  externalKey : String
  name : String
  descriptions : List String
  evidence : List EvidenceRef
  sources : List MergedSource
deriving DecidableEq

structure MergedClaim where
  id : String
  type : Json
  subjectKey : String
  statements : List String
  confidence : String
  constraint : Option Constraint
  scope : List (String × Json)
  evidence : List EvidenceRef
  sources : List MergedSource
deriving DecidableEq

structure MergedQuestion where
  id : String
  question : String
  evidence : List EvidenceRef
  sources : List MergedSource
deriving DecidableEq

structure Conflict where
  id : String
  type : String
  status : String
  candidateIds : List String
  reason : String
  evidence : List EvidenceRef
  detectedAt : Json
deriving DecidableEq

structure ReverseMerge where
  id : String
  runId : String
  scope : BundleScope
  candidateFeatures : List MergedFeature
  candidateClaims : List MergedClaim
  candidateTestSpecs : List CandidateTestSpec
  openQuestions : List MergedQuestion
  conflicts : List Conflict
  warnings : List String
  sourceBundleIds : List String
  mergedAt : Json

/-- `bundles` is none where the input has no array of them. -/
structure MergeInput where
  runId : Option Json
  bundles : Option (List ReverseArtifactBundle)
  mergedAt : Option Json

def allFeatures (bundles : List ReverseArtifactBundle) : List CandidateFeature :=
  bundles.flatMap (·.candidateFeatures)

def allClaims (bundles : List ReverseArtifactBundle) : List CandidateClaim :=
  bundles.flatMap (·.candidateClaims)

def allQuestions (bundles : List ReverseArtifactBundle) : List OpenQuestion :=
  bundles.flatMap (·.openQuestions)

def CandidateFeature.source (f : CandidateFeature) : MergedSource := ⟨f.id, f.producer⟩

def CandidateClaim.source (c : CandidateClaim) : MergedSource := ⟨c.id, c.producer⟩

def OpenQuestion.source (q : OpenQuestion) : MergedSource := ⟨q.id, q.producer⟩

/-- `mergeEvidence`, of items that have this evidence. -/
def mergeEvidence {α : Type} (evidence : α → List EvidenceRef) (items : List α) :
    List EvidenceRef :=
  distinctEvidence (items.flatMap evidence)

def constraintJson : Option Constraint → Json
  | some c => c.toJson
  | none => .null

section Merge

variable (sha256 toLowerCase : String → String)

/-- The statement counts only where there is no constraint. -/
def unstructuredStatement (claim : CandidateClaim) : Json :=
  if claim.constraint.isSome then .null else .str (toLowerCase (trim claim.statement))

def claimIdentity (claim : CandidateClaim) : String :=
  canonicalJson (.obj [("type", claim.type), ("subjectKey", .str claim.subjectKey),
    ("constraint", constraintJson claim.constraint), ("scope", .obj claim.scope),
    ("unstructuredStatement", unstructuredStatement toLowerCase claim)])

def questionIdentity (question : OpenQuestion) : String := toLowerCase (trim question.question)

variable (runId : String)

def mergedFeatureId (externalKey : String) : String :=
  contentId sha256 "MERGED-CANDIDATE-FEATURE"
    (.obj [("runId", .str runId), ("externalKey", .str externalKey)])

def mergedClaimId (identity : String) : String :=
  contentId sha256 "MERGED-CANDIDATE-CLAIM"
    (.obj [("runId", .str runId), ("identity", .str identity)])

def openQuestionId (identity : String) : String :=
  contentId sha256 "OPEN-QUESTION" (.obj [("runId", .str runId), ("identity", .str identity)])

def conflictIdOf (candidateIds : List String) : String :=
  contentId sha256 "CONFLICT"
    (.obj [("runId", .str runId), ("candidateIds", .arr (candidateIds.map .str))])

/-- `items[0].f`: no group is empty. -/
def firstOf {α β : Type} [Inhabited β] (f : α → β) (items : List α) : β :=
  (items.head?.map f).getD default

def mergeFeatures (features : List CandidateFeature) : List MergedFeature :=
  (Grouping.groupsOf (·.externalKey) features).map fun (externalKey, items) =>
    { id := mergedFeatureId sha256 runId externalKey
      externalKey
      name := firstOf (·.name) items
      descriptions := ((items.filterMap (·.description)).filter (· ≠ "")).eraseDups
      evidence := mergeEvidence (·.evidence) items
      sources := items.map (·.source) }

/-- The strongest confidence of a group. -/
def mergedConfidence (items : List CandidateClaim) : String :=
  if items.any fun item => strictEq (some item.confidence) (some (.str "HIGH")) then "HIGH"
  else if items.any fun item => strictEq (some item.confidence) (some (.str "MEDIUM")) then "MEDIUM"
  else "LOW"

def mergeClaims (claims : List CandidateClaim) : List MergedClaim :=
  (Grouping.groupsOf (claimIdentity toLowerCase) claims).map fun (identity, items) =>
    { id := mergedClaimId sha256 runId identity
      type := (items.head?.map (·.type)).getD .null
      subjectKey := firstOf (·.subjectKey) items
      statements := (items.map (·.statement)).eraseDups
      confidence := mergedConfidence items
      constraint := firstOf (·.constraint) items
      scope := firstOf (·.scope) items
      evidence := mergeEvidence (·.evidence) items
      sources := items.map (·.source) }

def mergeQuestions (questions : List OpenQuestion) : List MergedQuestion :=
  (Grouping.groupsOf (questionIdentity toLowerCase) questions).map fun (identity, items) =>
    { id := openQuestionId sha256 runId identity
      question := firstOf (·.question) items
      evidence := mergeEvidence (·.evidence) items
      sources := items.map (·.source) }

/-- The merged claim of each candidate id; the last one that has it as a source wins. -/
def duplicateClaimIds (merged : List MergedClaim) : List (String × String) :=
  OrderedMap.ofList (merged.flatMap fun m => m.sources.map fun s => (s.candidateId, m.id))

variable (mergedAt : Json) (mergedIds : List (String × String))

/-- `duplicateClaimIds.get(claim.id)`: every claim is a source of a merged one. -/
def mergedIdOf (claim : CandidateClaim) : String := (OrderedMap.get? mergedIds claim.id).getD ""

/-- Same subject and type, scopes that overlap and constraints that conflict. -/
def contradicts (left right : CandidateClaim) : Bool :=
  left.subjectKey = right.subjectKey && strictEq (some left.type) (some right.type) &&
    scopeOverlaps left.scope right.scope && constraintsConflict left.constraint right.constraint

def conflictIds (left right : CandidateClaim) : List String :=
  sortTexts [mergedIdOf mergedIds left, mergedIdOf mergedIds right]

def conflictOf (left right : CandidateClaim) : Conflict where
  id := conflictIdOf sha256 runId (conflictIds mergedIds left right)
  type := "CLAIM_CONTRADICTION"
  status := "OPEN"
  candidateIds := conflictIds mergedIds left right
  reason := "Conflicting " ++ ((left.constraint.map (·.dimension)).getD "") ++
    " constraints overlap in scope"
  evidence := mergeEvidence (·.evidence) [left, right]
  detectedAt := mergedAt

/-- One turn of the loop over the pairs. -/
def addConflict (conflicts : List Conflict) (pair : CandidateClaim × CandidateClaim) :
    List Conflict :=
  if mergedIdOf mergedIds pair.1 = mergedIdOf mergedIds pair.2 then conflicts
  else if !contradicts pair.1 pair.2 then conflicts
  else
    let conflict := conflictOf sha256 runId mergedAt mergedIds pair.1 pair.2
    if conflicts.any fun k => k.id = conflict.id then conflicts else conflicts ++ [conflict]

def findConflicts (claims : List CandidateClaim) : List Conflict :=
  (pairs claims).foldl (addConflict sha256 runId mergedAt mergedIds) []

/-- The result, once the bundles are checked. -/
def mergeOf (first : ReverseArtifactBundle) (bundles : List ReverseArtifactBundle) :
    ReverseMerge :=
  let candidateClaims := mergeClaims sha256 toLowerCase runId (allClaims bundles)
  { id := contentId sha256 "REVERSE-MERGE" (.obj [("runId", .str runId),
      ("bundleIds", .arr ((sortTexts (bundles.map (·.id))).map .str)), ("mergedAt", mergedAt)])
    runId
    scope := first.scope
    candidateFeatures := mergeFeatures sha256 runId (allFeatures bundles)
    candidateClaims
    candidateTestSpecs := bundles.flatMap (·.candidateTestSpecs)
    openQuestions := mergeQuestions sha256 toLowerCase runId (allQuestions bundles)
    conflicts := findConflicts sha256 runId mergedAt (duplicateClaimIds candidateClaims)
      (allClaims bundles)
    warnings := (bundles.flatMap (·.warnings)).eraseDups
    sourceBundleIds := bundles.map (·.id)
    mergedAt }

end Merge

def mergeReverseArtifactBundles (sha256 toLowerCase : String → String)
    (dateParse : String → Option Int) (clock : Instant) (input : MergeInput) :
    Except Failure ReverseMerge := do
  let runId ← requireNonEmptyString input.runId "runId"
  match input.bundles with
  | some (first :: rest) =>
    if (first :: rest).any fun bundle => bundle.runId ≠ runId ||
        canonicalJson bundle.scope.toJson ≠ canonicalJson first.scope.toJson then
      typeError "All ReverseArtifactBundles must belong to the same run and scope"
    else
      let mergedAt := nullish input.mergedAt (.str clock.iso)
      let _ ← requireIsoTimestamp dateParse (some mergedAt) "mergedAt"
      return mergeOf sha256 toLowerCase runId mergedAt first (first :: rest)
  | _ => typeError "bundles must be a non-empty array"

/-! ## What makes two claims one -/

/-- One JSON value, up to the order of the keys of its objects. -/
def SameValue (v w : Json) : Prop := canonicalizeValue v = canonicalizeValue w

theorem canonicalJson_eq_iff (v w : Json) : canonicalJson v = canonicalJson w ↔ SameValue v w :=
  ⟨fun h => Json.stringify_injective h, fun h => congrArg Json.stringify h⟩

theorem SameValue.field {fs gs : List (String × Json)} (h : SameValue (.obj fs) (.obj gs))
    {k : String} {v : Json} (hv : (k, v) ∈ fs) : ∃ w, (k, w) ∈ gs ∧ SameValue v w := by
  obtain ⟨w, hw, heq⟩ := field_of_canonicalJson ((canonicalJson_eq_iff _ _).mpr h) hv
  exact ⟨w, hw, heq.symm⟩

/-- The claims agree on type, subject, constraint and scope, and on what they state where
there is no constraint. -/
structure Agree (toLowerCase : String → String) (c d : CandidateClaim) : Prop where
  type : SameValue c.type d.type
  subjectKey : c.subjectKey = d.subjectKey
  constraint : SameValue (constraintJson c.constraint) (constraintJson d.constraint)
  scope : SameValue (.obj c.scope) (.obj d.scope)
  statement : c.constraint = none →
    toLowerCase (trim c.statement) = toLowerCase (trim d.statement)

theorem isSome_of_sameConstraint {c d : Option Constraint}
    (h : SameValue (constraintJson c) (constraintJson d)) : c.isSome = d.isSome := by
  cases c with
  | none =>
    cases d with
    | none => rfl
    | some d => simp [SameValue, constraintJson, Constraint.toJson, canonicalizeValue] at h
  | some c =>
    cases d with
    | none => simp [SameValue, constraintJson, Constraint.toJson, canonicalizeValue] at h
    | some d => rfl

/-- The identity says exactly what two claims must agree on. -/
theorem claimIdentity_eq_iff {toLowerCase : String → String} {c d : CandidateClaim} :
    claimIdentity toLowerCase c = claimIdentity toLowerCase d ↔ Agree toLowerCase c d := by
  constructor
  · intro h
    have hsame := (canonicalJson_eq_iff _ _).mp h
    obtain ⟨t, ht, htype⟩ := hsame.field (k := "type") (v := c.type) (by simp)
    obtain ⟨s, hs, hsubject⟩ := hsame.field (k := "subjectKey") (v := .str c.subjectKey) (by simp)
    obtain ⟨k, hk, hconstraint⟩ :=
      hsame.field (k := "constraint") (v := constraintJson c.constraint) (by simp)
    obtain ⟨p, hp, hscope⟩ := hsame.field (k := "scope") (v := .obj c.scope) (by simp)
    obtain ⟨u, hu, hstatement⟩ := hsame.field (k := "unstructuredStatement")
      (v := unstructuredStatement toLowerCase c) (by simp)
    simp at ht hs hk hp hu
    subst ht hs hk hp hu
    refine ⟨htype, ?_, hconstraint, hscope, ?_⟩
    · simpa [SameValue, canonicalizeValue] using hsubject
    · intro hnone
      have hd : d.constraint.isSome = false := by
        rw [← isSome_of_sameConstraint hconstraint, hnone]
        rfl
      simpa [unstructuredStatement, hnone, hd, SameValue, canonicalizeValue] using hstatement
  · intro h
    have hsome := isSome_of_sameConstraint h.constraint
    have hstatement : unstructuredStatement toLowerCase c = unstructuredStatement toLowerCase d := by
      unfold unstructuredStatement
      rw [← hsome]
      by_cases hc : c.constraint.isSome
      · rw [if_pos hc, if_pos hc]
      · rw [if_neg hc, if_neg hc, h.statement (by simpa using hc)]
    have htype : canonicalizeValue c.type = canonicalizeValue d.type := h.type
    have hconstraint : canonicalizeValue (constraintJson c.constraint) =
        canonicalizeValue (constraintJson d.constraint) := h.constraint
    have hscope : canonicalizeValue (.obj c.scope) = canonicalizeValue (.obj d.scope) := h.scope
    unfold claimIdentity
    rw [canonicalJson_eq_iff]
    simp only [SameValue, canonicalizeValue, canonicalizeFields_eq, List.map_cons, List.map_nil,
      htype, h.subjectKey, hconstraint, hstatement] at hscope ⊢
    rw [hscope]

/-! ## Contradiction -/

theorem canonicalizeItems_eq (items : List Json) :
    canonicalizeItems items = items.map canonicalizeValue := by
  induction items with
  | nil => rfl
  | cons v vs ih => simp [canonicalizeItems, ih]

/-- What `valuesMeet` asks of two canonical values. -/
def Meet : Json → Json → Prop
  | .arr left, .arr right => ∃ value ∈ left, value ∈ right
  | left, right => left = right

theorem meet_comm (v w : Json) : Meet v w ↔ Meet w v := by
  unfold Meet
  split
  · constructor
    · rintro ⟨x, hx, hy⟩
      exact ⟨x, hy, hx⟩
    · rintro ⟨x, hx, hy⟩
      exact ⟨x, hy, hx⟩
  · rename_i hnot
    split
    · exact absurd rfl (hnot _ _ rfl)
    · exact eq_comm

theorem valuesMeet_iff (v w : Json) :
    valuesMeet v w = true ↔ Meet (canonicalizeValue v) (canonicalizeValue w) := by
  unfold valuesMeet
  split
  · simp only [List.any_eq_true, decide_eq_true_eq, canonicalJson_eq_iff, canonicalizeValue,
      canonicalizeItems_eq, Meet, List.mem_map]
    constructor
    · rintro ⟨x, hx, y, hy, h⟩
      exact ⟨_, ⟨x, hx, rfl⟩, y, hy, h⟩
    · rintro ⟨_, ⟨x, hx, rfl⟩, y, hy, h⟩
      exact ⟨x, hx, y, hy, h⟩
  · rename_i hnot
    rw [decide_eq_true_eq, canonicalJson_eq_iff]
    cases v <;> cases w <;> first | exact Iff.rfl | exact absurd rfl (hnot _ _ rfl)

/-- The scope as it stands in the canonical text. -/
def canonicalScope (scope : List (String × Json)) : List (String × Json) :=
  fromEntries ((canonicalizeFields scope).insertionSort keyLe)

theorem scopeOverlaps_iff (left right : List (String × Json)) :
    scopeOverlaps left right = true ↔
      ∀ l ∈ canonicalScope left, ∀ r ∈ canonicalScope right, l.1 = r.1 → Meet l.2 r.2 := by
  unfold scopeOverlaps canonicalScope
  simp only [List.all_eq_true, Bool.or_eq_true, decide_eq_true_eq, valuesMeet_iff,
    mem_canonicalFields]
  constructor
  · rintro h _ ⟨l, hl, rfl⟩ _ ⟨r, hr, rfl⟩ heq
    rcases h l hl r hr with hne | hmeet
    · exact absurd heq hne
    · exact hmeet
  · intro h l hl r hr
    by_cases heq : l.1 = r.1
    · exact Or.inr (h _ ⟨l, hl, rfl⟩ _ ⟨r, hr, rfl⟩ heq)
    · exact Or.inl heq

theorem scopeOverlaps_comm (left right : List (String × Json)) :
    scopeOverlaps left right = scopeOverlaps right left := by
  rw [Bool.eq_iff_iff, scopeOverlaps_iff, scopeOverlaps_iff]
  constructor
  · intro h r hr l hl heq
    exact (meet_comm _ _).mp (h l hl r hr heq.symm)
  · intro h l hl r hr heq
    exact (meet_comm _ _).mp (h r hr l hl heq.symm)

theorem scopeOverlaps_congr {left left' : List (String × Json)}
    (h : SameValue (.obj left) (.obj left')) (right : List (String × Json)) :
    scopeOverlaps left right = scopeOverlaps left' right := by
  have hscope : canonicalScope left = canonicalScope left' := by
    simpa only [SameValue, canonicalizeValue, Json.obj.injEq, canonicalScope] using h
  rw [Bool.eq_iff_iff, scopeOverlaps_iff, scopeOverlaps_iff, hscope]

theorem strictEq_comm (v w : Option Json) : strictEq v w = strictEq w v := by
  by_cases h : v = w
  · rw [h]
  · rw [Bool.eq_iff_iff]
    constructor
    · intro hvw
      exact absurd (eq_of_strictEq hvw) h
    · intro hwv
      exact absurd (eq_of_strictEq hwv).symm h

/-- Only texts, numbers and the like are ever `===`, and these are their canonical values. -/
theorem strictEq_congr {v v' : Json} (h : SameValue v v') (w : Option Json) :
    strictEq (some v) w = strictEq (some v') w := by
  cases v <;> cases v' <;> simp [SameValue, canonicalizeValue] at h <;> first | rfl | rw [h]

theorem isOneOf_congr {v v' : Json} (h : SameValue v v') (names : List String) :
    isOneOf v names = isOneOf v' names := by
  unfold isOneOf isOperator
  simp only [strictEq_congr h]

theorem noneInCommon_comm (v w : Json) : noneInCommon v w = noneInCommon w v := by
  unfold noneInCommon
  split
  · rename_i left right
    have hmeet : valuesMeet (.arr left) (.arr right) = valuesMeet (.arr right) (.arr left) := by
      rw [Bool.eq_iff_iff, valuesMeet_iff, valuesMeet_iff]
      exact meet_comm _ _
    exact congrArg _ hmeet
  · rename_i hnot
    split
    · exact absurd rfl (hnot _ _ rfl)
    · rfl

theorem operatorsConflict_comm (left right : Constraint) :
    operatorsConflict left right = operatorsConflict right left := by
  have hsame : decide (canonicalJson left.value = canonicalJson right.value) =
      decide (canonicalJson right.value = canonicalJson left.value) :=
    decide_eq_decide.mpr eq_comm
  unfold operatorsConflict
  rw [strictEq_comm (some left.operator), noneInCommon_comm left.value,
    Bool.and_comm (isOperator left.operator "EQUALS"), Bool.and_comm (isOperator left.operator "IN"),
    Bool.and_comm (isOneOf left.operator ["ALLOWS", "FORBIDS"]),
    Bool.and_right_comm _ (isOneOf left.operator ["EQUALS", "NOT_EQUALS"]), hsame]

theorem noneInCommon_congr {v v' : Json} (h : SameValue v v') (w : Json) :
    noneInCommon v w = noneInCommon v' w := by
  cases v <;> cases v' <;> simp [SameValue, canonicalizeValue] at h <;> try rfl
  rename_i left left'
  cases w <;> try rfl
  rename_i right
  have hmeet : valuesMeet (.arr left) (.arr right) = valuesMeet (.arr left') (.arr right) := by
    rw [Bool.eq_iff_iff, valuesMeet_iff, valuesMeet_iff]
    simp only [canonicalizeValue, h]
  exact congrArg (!·) hmeet

theorem sameValue_of_constraint {left left' : Constraint}
    (h : SameValue left.toJson left'.toJson) : left.dimension = left'.dimension ∧
      SameValue left.operator left'.operator ∧ SameValue left.value left'.value := by
  obtain ⟨d, hd, hdimension⟩ := h.field (k := "dimension") (v := .str left.dimension) (by simp)
  obtain ⟨o, ho, hoperator⟩ := h.field (k := "operator") (v := left.operator) (by simp)
  obtain ⟨v, hv, hvalue⟩ := h.field (k := "value") (v := left.value) (by simp)
  simp at hd ho hv
  subst hd ho hv
  exact ⟨by simpa [SameValue, canonicalizeValue] using hdimension, hoperator, hvalue⟩

theorem operatorsConflict_congr {left left' : Constraint}
    (hoperator : SameValue left.operator left'.operator) (hvalue : SameValue left.value left'.value)
    (right : Constraint) : operatorsConflict left right = operatorsConflict left' right := by
  unfold operatorsConflict isOperator
  rw [strictEq_congr hoperator, strictEq_congr hoperator, strictEq_congr hoperator,
    isOneOf_congr hoperator, isOneOf_congr hoperator, noneInCommon_congr hvalue,
    (canonicalJson_eq_iff _ _).mpr hvalue]

theorem constraintsConflict_comm (left right : Option Constraint) :
    constraintsConflict left right = constraintsConflict right left := by
  cases left <;> cases right <;> try rfl
  rename_i l r
  simp only [constraintsConflict, operatorsConflict_comm l r, eq_comm (a := l.dimension)]

theorem constraintsConflict_congr {left left' : Option Constraint}
    (h : SameValue (constraintJson left) (constraintJson left')) (right : Option Constraint) :
    constraintsConflict left right = constraintsConflict left' right := by
  have hsome := isSome_of_sameConstraint h
  cases left <;> cases left' <;> try cases hsome
  · rfl
  · rename_i l l'
    cases right with
    | none => rfl
    | some r =>
      obtain ⟨hdimension, hoperator, hvalue⟩ := sameValue_of_constraint h
      simp only [constraintsConflict, hdimension, operatorsConflict_congr hoperator hvalue]

theorem contradicts_comm (c d : CandidateClaim) : contradicts c d = contradicts d c := by
  unfold contradicts
  rw [strictEq_comm (some c.type), scopeOverlaps_comm c.scope, constraintsConflict_comm c.constraint]
  simp only [eq_comm (a := c.subjectKey)]

/-- What a claim contradicts is a matter of its identity alone. -/
theorem contradicts_congr {toLowerCase : String → String} {c c' : CandidateClaim}
    (h : Agree toLowerCase c c') (d : CandidateClaim) : contradicts c d = contradicts c' d := by
  unfold contradicts
  rw [h.subjectKey, strictEq_congr h.type, scopeOverlaps_congr h.scope,
    constraintsConflict_congr h.constraint]

/-! ## The conflicts of a list of claims -/

variable {claims : List CandidateClaim}

section Conflicts

variable {sha256 : String → String} {runId : String} {mergedAt : Json}
  {mergedIds : List (String × String)}

/-- The pair is not skipped: two merged claims, and a contradiction. -/
def Reports (mergedIds : List (String × String)) (c d : CandidateClaim) : Prop :=
  mergedIdOf mergedIds c ≠ mergedIdOf mergedIds d ∧ contradicts c d = true

/-- What one turn of the loop does: a reported pair adds its conflict, unless one with its id
is there. -/
theorem addConflict_cases (ks : List Conflict) (c d : CandidateClaim) :
    (¬ Reports mergedIds c d ∧ addConflict sha256 runId mergedAt mergedIds ks (c, d) = ks) ∨
    (Reports mergedIds c d ∧ (∃ k ∈ ks, k.id = conflictIdOf sha256 runId (conflictIds mergedIds c d)) ∧
      addConflict sha256 runId mergedAt mergedIds ks (c, d) = ks) ∨
    (Reports mergedIds c d ∧ addConflict sha256 runId mergedAt mergedIds ks (c, d) =
      ks ++ [conflictOf sha256 runId mergedAt mergedIds c d]) := by
  unfold addConflict
  by_cases hsame : mergedIdOf mergedIds c = mergedIdOf mergedIds d
  · rw [if_pos hsame]
    exact Or.inl ⟨fun h => h.1 hsame, rfl⟩
  · rw [if_neg hsame]
    by_cases hcontra : contradicts c d = true
    · simp only [hcontra, Bool.not_true, Bool.false_eq_true, if_false]
      right
      by_cases hany : ks.any fun k => k.id = (conflictOf sha256 runId mergedAt mergedIds c d).id
      · rw [if_pos hany]
        obtain ⟨k, hk, hid⟩ := List.any_eq_true.mp hany
        exact Or.inl ⟨⟨hsame, hcontra⟩, ⟨k, hk, of_decide_eq_true hid⟩, rfl⟩
      · rw [if_neg hany]
        exact Or.inr ⟨⟨hsame, hcontra⟩, rfl⟩
    · rw [if_pos (by simpa using hcontra)]
      exact Or.inl ⟨fun h => hcontra h.2, rfl⟩

/-- Every conflict is that of a reported pair. -/
theorem findConflicts_sound {k : Conflict}
    (h : k ∈ findConflicts sha256 runId mergedAt mergedIds claims) :
    ∃ c d, (c, d) ∈ pairs claims ∧ Reports mergedIds c d ∧
      k = conflictOf sha256 runId mergedAt mergedIds c d := by
  unfold findConflicts at h
  generalize pairs claims = ps at h ⊢
  induction ps using List.reverseRecOn with
  | nil => cases h
  | append_singleton ps p ih =>
    obtain ⟨c, d⟩ := p
    rw [List.foldl_append] at h
    have hold : k ∈ ps.foldl (addConflict sha256 runId mergedAt mergedIds) [] →
        ∃ c' d', (c', d') ∈ ps ++ [(c, d)] ∧ Reports mergedIds c' d' ∧
          k = conflictOf sha256 runId mergedAt mergedIds c' d' := by
      intro hk
      obtain ⟨c', d', hp, hreports⟩ := ih hk
      exact ⟨c', d', List.mem_append_left _ hp, hreports⟩
    simp only [List.foldl_cons, List.foldl_nil] at h
    rcases addConflict_cases (ps.foldl _ []) c d with ⟨_, heq⟩ | ⟨_, _, heq⟩ | ⟨hr, heq⟩
    · exact hold (heq ▸ h)
    · exact hold (heq ▸ h)
    · rw [heq, List.mem_append] at h
      rcases h with h | h
      · exact hold h
      · exact ⟨c, d, by simp, hr, List.mem_singleton.mp h⟩

/-- Every reported pair has a conflict with its id. -/
theorem findConflicts_complete {c d : CandidateClaim}
    (hp : (c, d) ∈ pairs claims) (hr : Reports mergedIds c d) :
    ∃ k ∈ findConflicts sha256 runId mergedAt mergedIds claims,
      k.id = conflictIdOf sha256 runId (conflictIds mergedIds c d) := by
  unfold findConflicts
  generalize pairs claims = ps at hp ⊢
  induction ps using List.reverseRecOn with
  | nil => cases hp
  | append_singleton ps p ih =>
    obtain ⟨c', d'⟩ := p
    rw [List.foldl_append]
    simp only [List.foldl_cons, List.foldl_nil]
    rcases List.mem_append.mp hp with hp | hp
    · obtain ⟨k, hk, hid⟩ := ih hp
      rcases addConflict_cases (ps.foldl _ []) c' d' with ⟨_, heq⟩ | ⟨_, _, heq⟩ | ⟨_, heq⟩
      · rw [heq]
        exact ⟨k, hk, hid⟩
      · rw [heq]
        exact ⟨k, hk, hid⟩
      · rw [heq]
        exact ⟨k, List.mem_append_left _ hk, hid⟩
    · cases List.mem_singleton.mp hp
      rcases addConflict_cases (ps.foldl _ []) c d with ⟨hnot, _⟩ | ⟨_, hthere, heq⟩ | ⟨_, heq⟩
      · exact absurd hr hnot
      · rw [heq]
        exact hthere
      · rw [heq]
        exact ⟨_, List.mem_append_right _ (List.mem_singleton_self _), rfl⟩

end Conflicts

/-! ## The merged claim of a candidate id -/

section MergedIds

variable {sha256 toLowerCase : String → String} {runId : String}

/-- What a group sets in the map: the merged id, for the id of each of its claims. -/
def groupIds (sha256 : String → String) (runId : String) (e : String × List CandidateClaim) :
    List (String × String) :=
  e.2.map fun c => (c.id, mergedClaimId sha256 runId e.1)

theorem duplicateClaimIds_eq (claims : List CandidateClaim) :
    duplicateClaimIds (mergeClaims sha256 toLowerCase runId claims) =
      OrderedMap.ofList ((Grouping.groupsOf (claimIdentity toLowerCase) claims).flatMap
        (groupIds sha256 runId)) := by
  unfold duplicateClaimIds mergeClaims
  rw [List.flatMap_map]
  congr 2
  funext e
  unfold groupIds
  rw [List.map_map]
  rfl

/-- Where no candidate id is there twice, the map tells the merged claim of each claim. -/
theorem mergedIdOf_eq (hids : (claims.map (·.id)).Nodup)
    {c : CandidateClaim} (hc : c ∈ claims) :
    mergedIdOf (duplicateClaimIds (mergeClaims sha256 toLowerCase runId claims)) c =
      mergedClaimId sha256 runId (claimIdentity toLowerCase c) := by
  unfold mergedIdOf
  rw [duplicateClaimIds_eq, OrderedMap.get?_ofList_of_forall
    (v := mergedClaimId sha256 runId (claimIdentity toLowerCase c))]
  · rfl
  · refine ⟨(c.id, mergedClaimId sha256 runId (claimIdentity toLowerCase c)), ?_, rfl⟩
    refine List.mem_flatMap.mpr ⟨_, Grouping.group_of_mem _ hc, ?_⟩
    exact List.mem_map.mpr ⟨c, List.mem_filter.mpr ⟨hc, decide_eq_true rfl⟩, rfl⟩
  · rintro ⟨id, merged⟩ he hid
    obtain ⟨⟨k, xs⟩, hgroup, he⟩ := List.mem_flatMap.mp he
    obtain ⟨rfl, _⟩ := Grouping.mem_groupsOf.mp hgroup
    obtain ⟨d, hd, heq⟩ := List.mem_map.mp he
    obtain ⟨hd, hk⟩ := List.mem_filter.mp hd
    simp only [Prod.mk.injEq] at heq hid
    have hcd : d = c := List.inj_on_of_nodup_map hids hd hc (heq.1.trans hid)
    rw [← heq.2, ← of_decide_eq_true hk, hcd]

end MergedIds

/-! ## What is accepted -/

section Accepted

variable {sha256 toLowerCase : String → String} {dateParse : String → Option Int} {clock : Instant}
  {input : MergeInput}

/-- Every bundle is of this run, and all have one scope. -/
structure OneRunAndScope (runId : String) (bundles : List ReverseArtifactBundle) : Prop where
  run : ∀ b ∈ bundles, b.runId = runId
  scope : ∀ b ∈ bundles, ∀ b' ∈ bundles, SameValue b.scope.toJson b'.scope.toJson

/-- The time of the merge, given or the clock's. -/
def mergedAtOf (clock : Instant) (input : MergeInput) : Json :=
  nullish input.mergedAt (.str clock.iso)

theorem merge_of_checks {runId : String} {first : ReverseArtifactBundle}
    {rest : List ReverseArtifactBundle}
    (hrun : requireNonEmptyString input.runId "runId" = .ok runId)
    (hbundles : input.bundles = some (first :: rest))
    (hscope : OneRunAndScope runId (first :: rest))
    (hat : ∃ t, requireIsoTimestamp dateParse (some (mergedAtOf clock input)) "mergedAt" = .ok t) :
    mergeReverseArtifactBundles sha256 toLowerCase dateParse clock input =
      .ok (mergeOf sha256 toLowerCase runId (mergedAtOf clock input) first (first :: rest)) := by
  obtain ⟨t, ht⟩ := hat
  have hall : ((first :: rest).any fun bundle => bundle.runId ≠ runId ||
      canonicalJson bundle.scope.toJson ≠ canonicalJson first.scope.toJson) = false := by
    rw [List.any_eq_false]
    intro b hb
    have hb' := (canonicalJson_eq_iff _ _).mpr (hscope.scope b hb first (by simp))
    simp [hscope.run b hb, hb']
  unfold mergeReverseArtifactBundles
  unfold mergedAtOf at ht ⊢
  simp only [hrun, hbundles, bind, Except.bind, hall, ht]
  rfl

theorem merge_accepts {r : ReverseMerge}
    (h : mergeReverseArtifactBundles sha256 toLowerCase dateParse clock input = .ok r) :
    ∃ runId first bundles, input.bundles = some bundles ∧
      r = mergeOf sha256 toLowerCase runId (mergedAtOf clock input) first bundles := by
  unfold mergeReverseArtifactBundles at h
  obtain ⟨runId, _, h⟩ := bind_ok h
  split at h
  · rename_i first rest hbundles
    split at h
    · cases h
    · obtain ⟨_, _, h⟩ := bind_ok h
      cases h
      exact ⟨runId, first, first :: rest, hbundles, rfl⟩
  · cases h

end Accepted

end Traqen.ReverseSkill
