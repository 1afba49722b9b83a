-- The publication of graph revisions (`publishGraphRevision` and
-- `publishHistoricalGraphRevision` of the memory store). A revision is appended while it is
-- EVALUATING and is replaced in place, once, when it is PUBLISHED; only the first of the two
-- operations moves the head of the project.
import Mathlib
import Traqen.UnderstandingRecords
import Traqen.Lib.Machine

open Js

namespace Traqen.GraphPublication

open OrderedMap (get? setAll get?_of_set)
open Machine (run_keeps watch watch_some)

/-! ## Evaluations -/

def evaluationDenominators : List String :=
  ["inventory", "anchors", "candidateSample", "requiredRelationships", "forbiddenRelationships",
    "sourceAttributions", "gaps", "replaySamples", "incrementalComparisons"]

/-- `Number.isSafeInteger`, with the integer. -/
def safeInteger? : Option Json → Option Int
  | some (.num n) =>
    if n.isInteger && decide (n.toInt.natAbs < 2 ^ 53) then some n.toInt else none
  | _ => none

/-- One turn of the loop over the denominators. -/
def checkDenominator (evaluation : Json) (denominator : String) : Except Failure Unit :=
  let required := safeInteger? (path evaluation ["minimumDenominators", denominator])
  let actual := safeInteger? (path evaluation ["denominators", denominator])
  match required with
  | none => typeError ("GraphRevision evaluation minimumDenominators." ++ denominator ++
      " is incomplete")
  | some minimum =>
    if minimum < 1 then
      typeError ("GraphRevision evaluation minimumDenominators." ++ denominator ++
        " is incomplete")
    else if actual.all fun count => count < minimum then
      typeError ("GraphRevision evaluation denominator " ++ denominator ++ " is incomplete")
    else .ok ()

def assertEvaluationPublicationReady (evaluation : Option Json) : Except Failure Unit :=
  match evaluation with
  | none => typeError "GraphRevision evaluation must be PASSED"
  | some evaluation =>
    if field (some evaluation) "status" ≠ some (.str "PASSED") then
      typeError "GraphRevision evaluation must be PASSED"
    else
      match field (some evaluation) "policyVersion" with
      | some (.str version) =>
        if version = "" then typeError "GraphRevision evaluation policyVersion is required"
        else do
          let _ ← evaluationDenominators.mapM (checkDenominator evaluation)
          return ()
      | _ => typeError "GraphRevision evaluation policyVersion is required"

/-- The error that the store makes of it. -/
def checkEvaluation (evaluation : Option Json) : Except Failure Unit :=
  match assertEvaluationPublicationReady evaluation with
  | .ok () => .ok ()
  | .error e => conflictError e.message

/-! ## Revisions -/

section Revisions

variable (sha256 : String → String)

/-- The metadata of a publication, all three or none. -/
def publicationMetadata (input : Json) : Except Failure (List (String × Json)) :=
  let given (name : String) : Json := nullish (field (some input) name) .null
  if given "dataClassification" = .null ∧ given "productionEligible" = .null ∧
      given "evaluationEvidenceType" = .null then .ok []
  else do
    let dataClassification ←
      requireNonEmptyString (field (some input) "dataClassification") "dataClassification"
    let evaluationEvidenceType ←
      requireNonEmptyString (field (some input) "evaluationEvidenceType") "evaluationEvidenceType"
    match field (some input) "productionEligible" with
    | some (.bool eligible) =>
      return [("dataClassification", .str dataClassification),
        ("productionEligible", .bool eligible),
        ("evaluationEvidenceType", .str evaluationEvidenceType)]
    | _ => typeError "productionEligible must be a boolean"

def checkMode (input : Json) (mode : String) : Except Failure Unit :=
  if mode ≠ "FULL" ∧ mode ≠ "INCREMENTAL" then typeError "mode must be FULL or INCREMENTAL"
  else if mode = "FULL" ∧ truthy (field (some input) "baseRevisionId") then
    typeError "FULL revision cannot have a baseRevisionId"
  else if mode = "INCREMENTAL" ∧ !truthy (field (some input) "baseRevisionId") then
    typeError "INCREMENTAL revision requires baseRevisionId"
  else .ok ()

/-- The field of a reanalysis, which is left out where there is none. -/
def reanalysisField (input : Json) : Except Failure (List (String × Json)) :=
  if truthy (field (some input) "reanalysisOfGraphRevisionId") then do
    let id ← requireNonEmptyString (field (some input) "reanalysisOfGraphRevisionId")
      "reanalysisOfGraphRevisionId"
    return [("reanalysisOfGraphRevisionId", .str id)]
  else .ok []

def createGraphRevision (input : Json) (now : Instant) : Except Failure (List (String × Json)) := do
  let mode ← requireNonEmptyString (field (some input) "mode") "mode"
  checkMode input mode
  let required (name : String) := requireNonEmptyString (field (some input) name) name
  let orNull (name : String) : Json := nullish (field (some input) name) .null
  let projectId ← required "projectId"
  let snapshotManifestId ← required "snapshotManifestId"
  let analysisRunId ← required "analysisRunId"
  let evaluationRunId ← required "evaluationRunId"
  let graphArtifactId ← required "graphArtifactId"
  let graphArtifactDigest ← required "graphArtifactDigest"
  let semanticDigest ← required "semanticDigest"
  let reanalysis ← reanalysisField input
  let metadata ← publicationMetadata input
  let identity : List (String × Json) :=
    [("projectId", .str projectId), ("snapshotManifestId", .str snapshotManifestId),
      ("analysisRunId", .str analysisRunId), ("mode", .str mode),
      ("baseRevisionId", orNull "baseRevisionId"), ("changeSetId", orNull "changeSetId"),
      ("impactAssessmentId", orNull "impactAssessmentId"),
      ("evaluationRunId", .str evaluationRunId), ("graphArtifactId", .str graphArtifactId),
      ("graphArtifactDigest", .str graphArtifactDigest),
      ("semanticDigest", .str semanticDigest)] ++ reanalysis ++ metadata
  let id := nullish (field (some input) "id")
    (.str (contentId sha256 "GRAPH-REVISION" (.obj identity)))
  return ("id", id) :: identity ++
    [("status", .str "BUILDING"), ("createdAt", .str now.iso), ("publishedAt", .null)]

end Revisions

/-! ## The store -/

structure GraphHead where
  projectId : String
  graphRevisionId : String
  version : Nat
  updatedAt : String
deriving DecidableEq

structure Store where
  records : Records
  currentGraphHeads : List (String × GraphHead)

def Store.empty : Store where
  records := []
  currentGraphHeads := []

def Store.head? (s : Store) (projectId : String) : Option GraphHead :=
  get? s.currentGraphHeads projectId

/-- `current?.version ?? 0`. -/
def Store.headVersion (s : Store) (projectId : String) : Nat :=
  ((s.head? projectId).map (·.version)).getD 0

def Store.record? (s : Store) (projectId recordType id : String) : Option Json :=
  get? s.records (projectId, recordType, id)

def Store.revision? (s : Store) (projectId revisionId : String) : Option Json :=
  s.record? projectId "GRAPH_REVISION" revisionId

def Store.evaluation? (s : Store) (projectId : String) (revision : Json) : Option Json :=
  s.record? projectId "EVALUATION_RUN" (templateText (field (some revision) "evaluationRunId"))

def Store.artifact? (s : Store) (projectId : String) (revision : Json) : Option Json :=
  s.record? projectId "GRAPH_ARTIFACT" (templateText (field (some revision) "graphArtifactId"))

/-- The status of a record is the given text. -/
def HasStatus (record : Json) (status : String) : Prop :=
  field (some record) "status" = some (.str status)

instance (record : Json) (status : String) : Decidable (HasStatus record status) :=
  inferInstanceAs (Decidable (_ = _))

def HasMode (revision : Json) (mode : String) : Prop :=
  field (some revision) "mode" = some (.str mode)

instance (revision : Json) (mode : String) : Decidable (HasMode revision mode) :=
  inferInstanceAs (Decidable (_ = _))

/-- The artifact is the one that the revision was made from. -/
def matchesArtifact (projectId : String) (revision artifact : Json) : Bool :=
  strictEq (field (some artifact) "graphArtifactDigest")
      (field (some revision) "graphArtifactDigest") &&
    strictEq (field (some artifact) "projectId") (some (.str projectId)) &&
    strictEq (field (some artifact) "snapshotManifestId")
      (field (some revision) "snapshotManifestId") &&
    strictEq (field (some artifact) "analysisRunId") (field (some revision) "analysisRunId")

def checkArtifact (projectId : String) (revision : Json) (artifact : Option Json)
    (message : String) : Except Failure Unit :=
  if artifact.any (matchesArtifact projectId revision) then .ok () else conflictError message

/-- `{ ...revision, status: "PUBLISHED", publishedAt }`. -/
def published (revision : Json) (publishedAt : String) : Json :=
  match revision with
  | .obj fields => .obj (setAll fields
      [("status", .str "PUBLISHED"), ("publishedAt", .str publishedAt)])
  | v => v

/-- The checks of `publishGraphRevision` up to the one of the evaluation; the expected version
is 0 where none is given. -/
def publishable (s : Store) (projectId revisionId : String) (expectedHeadVersion : Option Json) :
    Except Failure Json :=
  let expected := expectedHeadVersion.getD (.num (Number.ofNat 0))
  if !strictEq (some (.num (Number.ofNat (s.headVersion projectId)))) (some expected) then
    conflictError ("CurrentGraphHead version " ++ toString (s.headVersion projectId) ++
      " does not match " ++ expected.toText)
  else
    match s.revision? projectId revisionId with
    | none => conflictError ("GraphRevision " ++ revisionId ++ " does not exist")
    | some revision =>
      if ¬ HasStatus revision "EVALUATING" then
        conflictError "GraphRevision must be EVALUATING"
      else if field (some revision) "reanalysisOfGraphRevisionId" ≠ none then
        conflictError "Historical reanalysis GraphRevision must use historical publication"
      else .ok revision

/-- The checks of the mode against the head. -/
def checkBase (current : Option GraphHead) (revision : Json) : Except Failure Unit :=
  match current with
  | none =>
    if ¬ HasMode revision "FULL" then
      conflictError "The first published GraphRevision must be FULL"
    else .ok ()
  | some head =>
    if HasMode revision "INCREMENTAL" ∧
        field (some revision) "baseRevisionId" ≠ some (.str head.graphRevisionId) then
      conflictError "Incremental GraphRevision must use the current head as its base"
    else .ok ()

/-- `now` is `new Date().toISOString()`. -/
def publishGraphRevision (s : Store) (projectId revisionId : String)
    (expectedHeadVersion : Option Json) (now : String) : Except Failure (Store × GraphHead) := do
  let revision ← publishable s projectId revisionId expectedHeadVersion
  checkEvaluation (s.evaluation? projectId revision)
  checkArtifact projectId revision (s.artifact? projectId revision)
    "GraphRevision immutable graph artifact is missing or mismatched"
  checkBase (s.head? projectId) revision
  let head : GraphHead :=
    { projectId
      graphRevisionId := revisionId
      version := s.headVersion projectId + 1
      updatedAt := now }
  return ({ records := OrderedMap.set s.records (projectId, "GRAPH_REVISION", revisionId)
              (published revision now)
            currentGraphHeads := OrderedMap.set s.currentGraphHeads projectId head }, head)

/-- A reanalysis is bound to the published revision that it repeats. -/
def isBoundTo (revision sourceRevision : Json) (sourceRevisionId : String) : Bool :=
  strictEq (field (some revision) "reanalysisOfGraphRevisionId") (some (.str sourceRevisionId)) &&
    strictEq (field (some revision) "snapshotManifestId")
      (field (some sourceRevision) "snapshotManifestId") &&
    strictEq (field (some revision) "mode") (some (.str "FULL")) &&
    strictEq (field (some revision) "baseRevisionId") (some .null)

/-- The checks of `publishHistoricalGraphRevision` up to the one of the evaluation. -/
def historicallyPublishable (s : Store) (projectId revisionId sourceRevisionId : String) :
    Except Failure Json :=
  match (s.revision? projectId revisionId).filter fun r => HasStatus r "EVALUATING" with
  | none => conflictError "Historical reanalysis GraphRevision must be EVALUATING"
  | some revision =>
    match (s.revision? projectId sourceRevisionId).filter fun r => HasStatus r "PUBLISHED" with
    | none =>
      conflictError ("Published source GraphRevision " ++ sourceRevisionId ++ " does not exist")
    | some sourceRevision =>
      if isBoundTo revision sourceRevision sourceRevisionId then .ok revision
      else conflictError
        "Historical reanalysis must be FULL and bound to its source Revision Snapshot"

def publishHistoricalGraphRevision (s : Store)
    (projectId revisionId sourceRevisionId now : String) : Except Failure (Store × Json) := do
  let revision ← historicallyPublishable s projectId revisionId sourceRevisionId
  checkEvaluation (s.evaluation? projectId revision)
  checkArtifact projectId revision (s.artifact? projectId revision)
    "Historical reanalysis graph artifact is missing or mismatched"
  return ({ s with
    records := OrderedMap.set s.records (projectId, "GRAPH_REVISION", revisionId)
      (published revision now) }, published revision now)

/-! ## Runs -/

/-- The calls of a run. A graph revision is appended while it is EVALUATING. -/
inductive Call where
  | append (projectId recordType : String) (record : Json)
      (evaluating : recordType = "GRAPH_REVISION" → HasStatus record "EVALUATING")
  | publish (projectId revisionId : String) (expectedHeadVersion : Option Json) (now : String)
  | publishHistorical (projectId revisionId sourceRevisionId now : String)

def perform (s : Store) : Call → Except Failure Store
  | .append projectId recordType record _ => do
    let records ← appendUnderstandingRecord s.records projectId recordType (some record)
    return { s with records }
  | .publish projectId revisionId expectedHeadVersion now => do
    let (t, _) ← publishGraphRevision s projectId revisionId expectedHeadVersion now
    return t
  | .publishHistorical projectId revisionId sourceRevisionId now => do
    let (t, _) ← publishHistoricalGraphRevision s projectId revisionId sourceRevisionId now
    return t

/-- A call that fails changes nothing. -/
def step (s : Store) (c : Call) : Option Store := some ((perform s c).toOption.getD s)

/-- A successful `publishGraphRevision`, with the head that it replaced. -/
structure Publication where
  projectId : String
  revisionId : String
  previous : Option GraphHead

def publications (s : Store) (c : Call) (_ : Store) : List Publication :=
  match c with
  | .publish projectId revisionId _ _ =>
    if (perform s c).isOk then [{ projectId, revisionId, previous := s.head? projectId }] else []
  | _ => []

/-- The evaluation has passed, and each denominator is as large as it must be. -/
structure PassedComplete (evaluation : Json) : Prop where
  passed : HasStatus evaluation "PASSED"
  complete : ∀ d ∈ evaluationDenominators, ∃ required actual,
    safeInteger? (path evaluation ["minimumDenominators", d]) = some required ∧
    safeInteger? (path evaluation ["denominators", d]) = some actual ∧
    1 ≤ required ∧ required ≤ actual

/-- The evaluation and the artifact of the revision are stored, as they have to be. -/
structure Ready (s : Store) (projectId : String) (revision : Json) : Prop where
  evaluation : ∃ e, s.evaluation? projectId revision = some e ∧ PassedComplete e
  artifact : ∃ a, s.artifact? projectId revision = some a ∧
    matchesArtifact projectId revision a = true

/-- The revision is stored, and published. -/
structure IsPublished (s : Store) (projectId revisionId : String) (revision : Json) : Prop where
  stored : s.revision? projectId revisionId = some revision
  status : HasStatus revision "PUBLISHED"

/-- Following the base revisions ends in a published FULL revision. -/
inductive EndsInFull (s : Store) (projectId : String) : String → Prop where
  | full {id : String} {r : Json} : IsPublished s projectId id r → HasMode r "FULL" →
      EndsInFull s projectId id
  | incremental {id base : String} {r : Json} : IsPublished s projectId id r →
      HasMode r "INCREMENTAL" → field (some r) "baseRevisionId" = some (.str base) →
      EndsInFull s projectId base → EndsInFull s projectId id

/-- The invariant of the published graph. -/
structure PublishedHistory (s : Store) (seen : List Publication) : Prop where
  head : ∀ p h, s.head? p = some h → ∃ r, IsPublished s p h.graphRevisionId r
  ready : ∀ p id r, IsPublished s p id r → Ready s p r
  version : ∀ p, s.headVersion p = (seen.filter fun e => e.projectId = p).length
  based : ∀ p id r, IsPublished s p id r → HasMode r "INCREMENTAL" →
    ∃ e ∈ seen, e.projectId = p ∧ e.revisionId = id ∧
      ∃ h, e.previous = some h ∧ field (some r) "baseRevisionId" = some (.str h.graphRevisionId)

/-- A record that a publication does not touch any more. -/
def Settled (k : RecordKey) (v : Json) : Prop :=
  k.2.1 ≠ "GRAPH_REVISION" ∨ HasStatus v "PUBLISHED"

/-! ## The published record -/

theorem field_obj (fields : List (String × Json)) (k : String) :
    field (some (.obj fields)) k = get? fields k := by
  unfold field Json.get?
  exact OrderedMap.lookup_eq_get? fields k

variable {r v : Json}

theorem obj_of_field {w : Json} {k : String} (h : field (some v) k = some w) :
    ∃ fields, v = .obj fields := by
  cases v with
  | obj fields => exact ⟨fields, rfl⟩
  | _ => cases h

variable {id now p : String}

theorem published_status {status : String} (h : HasStatus r status) :
    HasStatus (published r now) "PUBLISHED" := by
  obtain ⟨fields, rfl⟩ := obj_of_field h
  unfold HasStatus published setAll
  rw [field_obj]
  simp [get?_of_set]

/-- The publication changes two fields only. -/
theorem published_field (r : Json) (now : String) {k : String} (hs : k ≠ "status")
    (hp : k ≠ "publishedAt") : field (some (published r now)) k = field (some r) k := by
  cases r with
  | obj fields =>
    unfold published setAll
    rw [field_obj, field_obj]
    simp [get?_of_set, hs, hp]
  | _ => rfl

variable {s t : Store}

theorem ready_published (h : Ready s p r) : Ready s p (published r now) := by
  obtain ⟨⟨e, he, hready⟩, a, ha, hmatch⟩ := h
  have hfield : ∀ k, k ≠ "status" → k ≠ "publishedAt" →
      field (some (published r now)) k = field (some r) k := fun k => published_field r now
  refine ⟨⟨e, ?_, hready⟩, a, ?_, ?_⟩
  · unfold Store.evaluation?
    rw [hfield _ (by decide) (by decide)]
    exact he
  · unfold Store.artifact?
    rw [hfield _ (by decide) (by decide)]
    exact ha
  · unfold matchesArtifact
    rw [hfield _ (by decide) (by decide), hfield _ (by decide) (by decide),
      hfield _ (by decide) (by decide)]
    exact hmatch

/-! ## What one call does -/

/-- What a publication has checked. -/
structure Publishes (s : Store) (p id : String) (r : Json) : Prop where
  stored : s.revision? p id = some r
  evaluating : HasStatus r "EVALUATING"
  ready : Ready s p r

theorem checkDenominator_ok {e : Json} {d : String} (h : checkDenominator e d = .ok ()) :
    ∃ required actual, safeInteger? (path e ["minimumDenominators", d]) = some required ∧
      safeInteger? (path e ["denominators", d]) = some actual ∧
      1 ≤ required ∧ required ≤ actual := by
  unfold checkDenominator typeError at h
  dsimp only at h
  split at h
  · cases h
  · rename_i required hrequired
    split at h
    · cases h
    · rename_i hpositive
      split at h
      · cases h
      · rename_i henough
        cases ha : safeInteger? (path e ["denominators", d]) with
        | none => simp [ha] at henough
        | some actual =>
          have hle : required ≤ actual := by simpa [ha] using henough
          exact ⟨required, actual, hrequired, rfl, by omega, hle⟩

theorem assertEvaluationPublicationReady_ok {e : Json}
    (h : assertEvaluationPublicationReady (some e) = .ok ()) : PassedComplete e := by
  unfold assertEvaluationPublicationReady typeError at h
  dsimp only at h
  split at h
  · cases h
  · rename_i hstatus
    split at h
    · split at h
      · cases h
      · obtain ⟨_, hall, _⟩ := bind_ok h
        refine ⟨not_not.mp hstatus, ?_⟩
        intro d hd
        obtain ⟨_, _, hcheck⟩ := exists_of_mem (mapM_ok hall) hd
        exact checkDenominator_ok hcheck
    · cases h

theorem checks_ready {message : String} (he : checkEvaluation (s.evaluation? p r) = .ok ())
    (ha : checkArtifact p r (s.artifact? p r) message = .ok ()) : Ready s p r := by
  constructor
  · unfold checkEvaluation conflictError at he
    cases h : s.evaluation? p r with
    | none =>
      rw [h] at he
      cases he
    | some e =>
      refine ⟨e, rfl, assertEvaluationPublicationReady_ok ?_⟩
      rw [h] at he
      split at he
      · assumption
      · cases he
  · unfold checkArtifact conflictError at ha
    split at ha
    · rename_i hany
      cases h : s.artifact? p r with
      | none => simp [h] at hany
      | some a => exact ⟨a, rfl, by simpa [h] using hany⟩
    · cases ha

theorem publish_ok {expected : Option Json} {head : GraphHead}
    (h : publishGraphRevision s p id expected now = .ok (t, head)) :
    ∃ r, Publishes s p id r ∧ checkBase (s.head? p) r = .ok () ∧
      head = { projectId := p, graphRevisionId := id, version := s.headVersion p + 1,
               updatedAt := now } ∧
      t = { records := OrderedMap.set s.records (p, "GRAPH_REVISION", id) (published r now)
            currentGraphHeads := OrderedMap.set s.currentGraphHeads p head } := by
  unfold publishGraphRevision at h
  obtain ⟨r, hr, h⟩ := bind_ok h
  obtain ⟨_, he, h⟩ := bind_ok h
  obtain ⟨_, ha, h⟩ := bind_ok h
  obtain ⟨_, hb, h⟩ := bind_ok h
  cases h
  refine ⟨r, ?_, hb, rfl, rfl⟩
  have hready := checks_ready he ha
  unfold publishable conflictError at hr
  dsimp only at hr
  split at hr
  · cases hr
  · split at hr
    · cases hr
    · rename_i revision hrevision
      split at hr
      · cases hr
      · rename_i hstatus
        split at hr
        · cases hr
        · cases hr
          exact ⟨hrevision, not_not.mp hstatus, hready⟩

theorem publishHistorical_ok {source : String}
    (h : publishHistoricalGraphRevision s p id source now = .ok (t, v)) :
    ∃ r, Publishes s p id r ∧ HasMode r "FULL" ∧
      t = { s with records :=
              OrderedMap.set s.records (p, "GRAPH_REVISION", id) (published r now) } := by
  unfold publishHistoricalGraphRevision at h
  obtain ⟨r, hr, h⟩ := bind_ok h
  obtain ⟨_, he, h⟩ := bind_ok h
  obtain ⟨_, ha, h⟩ := bind_ok h
  cases h
  have hready := checks_ready he ha
  unfold historicallyPublishable conflictError at hr
  split at hr
  · cases hr
  · rename_i revision hrevision
    split at hr
    · cases hr
    · split at hr
      · rename_i hbound
        cases hr
        obtain ⟨hstored, hstatus⟩ := Option.filter_eq_some_iff.mp hrevision
        refine ⟨r, ⟨hstored, of_decide_eq_true hstatus, hready⟩, ?_, rfl⟩
        unfold isBoundTo at hbound
        simp only [Bool.and_eq_true] at hbound
        exact (strictEq_str _ _).mp hbound.1.2
      · cases hr

/-- Everything that a call can do. -/
inductive Effect (s : Store) (c : Call) : Store → Prop where
  | none (quiet : publications s c s = []) : Effect s c s
  | append {p type text : String} {record : Json}
      {evaluating : type = "GRAPH_REVISION" → HasStatus record "EVALUATING"}
      (call : c = .append p type record evaluating) (new : s.record? p type text = none)
      (quiet : ∀ t, publications s c t = []) :
      Effect s c { s with records := OrderedMap.set s.records (p, type, text) record }
  | publish {p id now : String} {expected : Option Json} {r : Json} {head : GraphHead}
      (call : c = .publish p id expected now) (publishes : Publishes s p id r)
      (base : checkBase (s.head? p) r = .ok ())
      (newHead : head = { projectId := p, graphRevisionId := id,
                          version := s.headVersion p + 1, updatedAt := now })
      (shown : ∀ t, publications s c t =
        [{ projectId := p, revisionId := id, previous := s.head? p }]) :
      Effect s c
        { records := OrderedMap.set s.records (p, "GRAPH_REVISION", id) (published r now)
          currentGraphHeads := OrderedMap.set s.currentGraphHeads p head }
  | historical {p id source now : String} {r : Json}
      (call : c = .publishHistorical p id source now) (publishes : Publishes s p id r)
      (mode : HasMode r "FULL") (quiet : ∀ t, publications s c t = []) :
      Effect s c
        { s with records := OrderedMap.set s.records (p, "GRAPH_REVISION", id) (published r now) }

variable {c : Call}

theorem step_effect (h : step s c = some t) : Effect s c t := by
  unfold step at h
  cases hp : perform s c with
  | error e =>
    rw [hp] at h
    cases h
    apply Effect.none
    cases c with
    | append p type record evaluating => rfl
    | publish p id expected now =>
      unfold publications
      rw [hp]
      rfl
    | publishHistorical p id source now => rfl
  | ok u =>
    rw [hp] at h
    cases h
    cases c with
    | append p type record evaluating =>
      obtain ⟨records, hrecords, hu⟩ := bind_ok hp
      cases hu
      obtain ⟨value, id, hvalue, _, ⟨_, _, _, rfl⟩ | ⟨hnone, rfl⟩⟩ :=
        appendUnderstandingRecord_ok hrecords
      · exact Effect.none rfl
      · cases hvalue
        exact Effect.append rfl hnone fun _ => rfl
    | publish p id expected now =>
      have hshown : ∀ v, publications s (.publish p id expected now) v =
          [{ projectId := p, revisionId := id, previous := s.head? p }] := by
        intro v
        unfold publications
        rw [hp]
        rfl
      obtain ⟨⟨v, head⟩, hv, hu⟩ := bind_ok hp
      cases hu
      obtain ⟨r, hr, hb, hhead, rfl⟩ := publish_ok hv
      exact Effect.publish rfl hr hb hhead hshown
    | publishHistorical p id source now =>
      obtain ⟨⟨v, w⟩, hv, hu⟩ := bind_ok hp
      cases hu
      obtain ⟨r, hr, hm, rfl⟩ := publishHistorical_ok hv
      exact Effect.historical rfl hr hm fun _ => rfl

/-! ## What stays -/

/-- A new publication stands in the place of a revision that was EVALUATING, so no settled
record is in its way. -/
theorem settled_keeps {k : RecordKey}
    (h : step s c = some t) (hk : get? s.records k = some v) (hs : Settled k v) :
    get? t.records k = some v := by
  have hplace : ∀ {p id r now}, Publishes s p id r →
      get? (OrderedMap.set s.records (p, "GRAPH_REVISION", id) (published r now)) k =
        some v := by
    intro p id r now hr
    rw [get?_of_set, if_neg, hk]
    rintro rfl
    have hstored := hr.stored
    unfold Store.revision? Store.record? at hstored
    rw [hk] at hstored
    cases hstored
    rcases hs with hs | hs
    · exact hs rfl
    · have := hs.symm.trans hr.evaluating
      simp at this
  cases step_effect h with
  | none quiet => exact hk
  | @append p type text record evaluating call new quiet =>
    rw [get?_of_set, if_neg, hk]
    rintro rfl
    unfold Store.record? at new
    rw [new] at hk
    cases hk
  | publish call publishes base newHead shown => exact hplace publishes
  | historical call publishes mode quiet => exact hplace publishes

theorem published_keeps
    (h : step s c = some t) (hr : IsPublished s p id r) : IsPublished t p id r :=
  ⟨settled_keeps h hr.stored (Or.inr hr.status), hr.status⟩

theorem ready_keeps (h : step s c = some t) (hr : Ready s p r) : Ready t p r := by
  obtain ⟨⟨e, he, hready⟩, a, ha, hmatch⟩ := hr
  refine ⟨⟨e, settled_keeps h he (Or.inl ?_), hready⟩, a, settled_keeps h ha (Or.inl ?_), hmatch⟩
  · simp
  · simp

theorem published_keeps_run {cs : List Call}
    (h : Machine.run step s cs = some t) (hr : IsPublished s p id r) : IsPublished t p id r :=
  run_keeps (fun _ _ _ hs hstep => published_keeps hstep hs) h hr

/-- The revisions that are published after a call: those from before, and perhaps one more. -/
theorem published_of_set {heads : List (String × GraphHead)} {q j : String}
    (h : IsPublished { records := OrderedMap.set s.records (p, "GRAPH_REVISION", id)
                         (published r now)
                       currentGraphHeads := heads } q j v) :
    (q = p ∧ j = id ∧ v = published r now) ∨ IsPublished s q j v := by
  obtain ⟨hstored, hstatus⟩ := h
  unfold Store.revision? Store.record? at hstored
  rw [get?_of_set] at hstored
  split at hstored
  · rename_i heq
    simp only [Prod.mk.injEq, true_and] at heq
    cases hstored
    exact Or.inl ⟨heq.1, heq.2, rfl⟩
  · exact Or.inr ⟨hstored, hstatus⟩

theorem published_of_append {type text q j : String} {record : Json}
    (evaluating : type = "GRAPH_REVISION" → HasStatus record "EVALUATING")
    (h : IsPublished { s with records := OrderedMap.set s.records (p, type, text) record } q j v) :
    IsPublished s q j v := by
  obtain ⟨hstored, hstatus⟩ := h
  unfold Store.revision? Store.record? at hstored
  rw [get?_of_set] at hstored
  split at hstored
  · rename_i heq
    simp only [Prod.mk.injEq] at heq
    cases hstored
    have := hstatus.symm.trans (evaluating heq.2.1.symm)
    simp at this
  · exact ⟨hstored, hstatus⟩

/-! ## The invariant -/

theorem head?_set (s : Store) (records : Records) (p q : String) (head : GraphHead) :
    Store.head? { records, currentGraphHeads := OrderedMap.set s.currentGraphHeads p head } q =
      if q = p then some head else s.head? q := by
  unfold Store.head?
  rw [get?_of_set]

/-- The base of an incremental revision is the head that it replaces. -/
theorem checkBase_ok {current : Option GraphHead} (h : checkBase current r = .ok ())
    (hm : HasMode r "INCREMENTAL") :
    ∃ head, current = some head ∧
      field (some r) "baseRevisionId" = some (.str head.graphRevisionId) := by
  unfold checkBase conflictError at h
  split at h
  · split at h
    · cases h
    · rename_i hfull
      have := hm.symm.trans (not_not.mp hfull)
      simp at this
  · rename_i head
    split at h
    · cases h
    · rename_i hbase
      refine ⟨head, rfl, ?_⟩
      by_contra hne
      exact hbase ⟨hm, hne⟩

theorem history_start : PublishedHistory Store.empty [] := by
  constructor
  · intro p h hh
    cases hh
  · intro p id r hr
    cases hr.stored
  · intro p
    rfl
  · intro p id r hr
    cases hr.stored

variable {seen : List Publication}

theorem history_step (hs : PublishedHistory s seen) (h : step s c = some t) :
    PublishedHistory t (seen ++ publications s c t) := by
  have hold : ∀ {p id r}, IsPublished s p id r → Ready t p r :=
    fun hr => ready_keeps h (hs.ready _ _ _ hr)
  cases step_effect h with
  | none quiet =>
    rw [quiet, List.append_nil]
    exact hs
  | @append p type text record evaluating call new quiet =>
    rw [quiet, List.append_nil]
    constructor
    · intro p head hhead
      obtain ⟨r, hr⟩ := hs.head p head hhead
      exact ⟨r, published_keeps h hr⟩
    · intro p id r hr
      exact hold (published_of_append evaluating hr)
    · exact hs.version
    · intro p id r hr
      exact hs.based p id r (published_of_append evaluating hr)
  | @publish p id now expected r head call publishes base newHead shown =>
    rw [shown]
    constructor
    · intro q h' hq
      rw [head?_set] at hq
      split at hq
      · rename_i hqp
        cases hq
        rw [hqp, newHead]
        refine ⟨published r now, ?_, published_status publishes.evaluating⟩
        unfold Store.revision? Store.record?
        rw [get?_of_set, if_pos rfl]
      · obtain ⟨v, hv⟩ := hs.head q h' hq
        exact ⟨v, published_keeps h hv⟩
    · intro q j v hv
      rcases published_of_set hv with ⟨rfl, rfl, rfl⟩ | hv
      · exact ready_published (ready_keeps h publishes.ready)
      · exact hold hv
    · intro q
      unfold Store.headVersion
      rw [head?_set, List.filter_append, List.length_append, ← hs.version q]
      by_cases hqp : q = p
      · rw [if_pos hqp, hqp]
        simp [newHead]
      · rw [if_neg hqp]
        simp [Ne.symm hqp, Store.headVersion]
    · intro q j v hv hm
      rcases published_of_set hv with ⟨rfl, rfl, rfl⟩ | hv
      · unfold HasMode at hm
        rw [published_field r now (by decide) (by decide)] at hm ⊢
        obtain ⟨previous, hprevious, hbase⟩ := checkBase_ok base hm
        exact ⟨_, List.mem_append_right _ List.mem_cons_self, rfl, rfl, previous, hprevious, hbase⟩
      · obtain ⟨e, he, hrest⟩ := hs.based q j v hv hm
        exact ⟨e, List.mem_append_left _ he, hrest⟩
  | @historical p id source now r call publishes mode quiet =>
    rw [quiet, List.append_nil]
    constructor
    · intro q head hhead
      obtain ⟨v, hv⟩ := hs.head q head hhead
      exact ⟨v, published_keeps h hv⟩
    · intro q j v hv
      rcases published_of_set hv with ⟨rfl, rfl, rfl⟩ | hv
      · exact ready_published (ready_keeps h publishes.ready)
      · exact hold hv
    · exact hs.version
    · intro q j v hv hm
      rcases published_of_set hv with ⟨rfl, rfl, rfl⟩ | hv
      · -- a historical publication is FULL
        unfold HasMode at hm
        rw [published_field r now (by decide) (by decide)] at hm
        have := hm.symm.trans mode
        simp at this
      · exact hs.based q j v hv hm

/-! ## The chain of bases -/

section Chain

variable (sha256 : String → String)

/-- The graph revisions of a run are those that `createGraphRevision` makes, put to EVALUATING. -/
def FromCreate : Call → Prop
  | .append _ recordType record _ => recordType = "GRAPH_REVISION" →
      ∃ input now fields, createGraphRevision sha256 input now = .ok fields ∧
        record = .obj (OrderedMap.set fields "status" (.str "EVALUATING"))
  | _ => True

/-- The revision is FULL or INCREMENTAL. -/
def HasEitherMode (revision : Json) : Prop :=
  HasMode revision "FULL" ∨ HasMode revision "INCREMENTAL"

theorem createGraphRevision_ok {input : Json} {now : Instant} {fields : List (String × Json)}
    (h : createGraphRevision sha256 input now = .ok fields) :
    ∃ mode, get? fields "mode" = some (.str mode) ∧ checkMode input mode = .ok () := by
  unfold createGraphRevision at h
  obtain ⟨mode, _, h⟩ := bind_ok h
  obtain ⟨_, hmode, h⟩ := bind_ok h
  obtain ⟨_, _, h⟩ := bind_ok h
  obtain ⟨_, _, h⟩ := bind_ok h
  obtain ⟨_, _, h⟩ := bind_ok h
  obtain ⟨_, _, h⟩ := bind_ok h
  obtain ⟨_, _, h⟩ := bind_ok h
  obtain ⟨_, _, h⟩ := bind_ok h
  obtain ⟨_, _, h⟩ := bind_ok h
  obtain ⟨_, _, h⟩ := bind_ok h
  obtain ⟨_, _, h⟩ := bind_ok h
  cases h
  exact ⟨mode, rfl, hmode⟩

theorem createGraphRevision_mode {input : Json} {now : Instant} {fields : List (String × Json)}
    (h : createGraphRevision sha256 input now = .ok fields) :
    HasEitherMode (.obj (OrderedMap.set fields "status" (.str "EVALUATING"))) := by
  obtain ⟨mode, hfield, hmode⟩ := createGraphRevision_ok sha256 h
  unfold HasEitherMode HasMode
  rw [field_obj, get?_of_set, if_neg (by decide), hfield]
  unfold checkMode typeError at hmode
  by_cases hfull : mode = "FULL"
  · exact Or.inl (by rw [hfull])
  · by_cases hinc : mode = "INCREMENTAL"
    · exact Or.inr (by rw [hinc])
    · rw [if_pos ⟨hfull, hinc⟩] at hmode
      cases hmode

/-- Every revision has a mode, and every published one leads to a FULL one. -/
structure Chained (s : Store) : Prop where
  moded : ∀ p id r, s.revision? p id = some r → HasEitherMode r
  ends : ∀ p id r, IsPublished s p id r → EndsInFull s p id

theorem endsInFull_keeps (h : step s c = some t) (he : EndsInFull s p id) : EndsInFull t p id := by
  induction he with
  | full hr hm => exact .full (published_keeps h hr) hm
  | incremental hr hm hb _ ih => exact .incremental (published_keeps h hr) hm hb ih

theorem published_mode (h : HasEitherMode r) : HasEitherMode (published r now) := by
  unfold HasEitherMode HasMode at h ⊢
  rw [published_field r now (by decide) (by decide)]
  exact h

/-- A revision that takes the place of another one keeps the modes of all. -/
theorem moded_of_set {heads : List (String × GraphHead)}
    (hs : ∀ p id r, s.revision? p id = some r → HasEitherMode r)
    (hr : s.revision? p id = some r) :
    ∀ q j v, Store.revision? { records := OrderedMap.set s.records (p, "GRAPH_REVISION", id)
                                 (published r now)
                               currentGraphHeads := heads } q j = some v → HasEitherMode v := by
  intro q j v hv
  unfold Store.revision? Store.record? at hv
  rw [get?_of_set] at hv
  split at hv
  · cases hv
    exact published_mode (hs p id r hr)
  · exact hs q j v hv

theorem chained_step (hs : PublishedHistory s seen) (hc : Chained s) (hcreate : FromCreate sha256 c)
    (h : step s c = some t) : Chained t := by
  have hold : ∀ {p id r}, IsPublished s p id r → EndsInFull t p id :=
    fun hr => endsInFull_keeps h (hc.ends _ _ _ hr)
  have heffect := step_effect h
  cases heffect with
  | none quiet => exact hc
  | @append p type text record evaluating call new quiet =>
    constructor
    · intro q j v hv
      unfold Store.revision? Store.record? at hv
      rw [get?_of_set] at hv
      split at hv
      · rename_i heq
        simp only [Prod.mk.injEq] at heq
        cases hv
        rw [call] at hcreate
        obtain ⟨input, now, fields, hfields, rfl⟩ := hcreate heq.2.1.symm
        exact createGraphRevision_mode sha256 hfields
      · exact hc.moded q j v hv
    · intro q j v hv
      exact hold (published_of_append evaluating hv)
  | @publish p id now expected r head call publishes base newHead shown =>
    constructor
    · exact moded_of_set hc.moded publishes.stored
    · intro q j v hv
      rcases published_of_set hv with ⟨rfl, rfl, rfl⟩ | hold'
      · have hmode : HasEitherMode (published r now) :=
          published_mode (hc.moded _ _ _ publishes.stored)
        rcases hmode with hm | hm
        · exact .full hv hm
        · have hm' := hm
          unfold HasMode at hm'
          rw [published_field r now (by decide) (by decide)] at hm'
          obtain ⟨previous, hprevious, hbase⟩ := checkBase_ok base hm'
          obtain ⟨w, hw⟩ := hs.head _ previous hprevious
          refine .incremental hv hm ?_ (hold hw)
          rw [published_field r now (by decide) (by decide)]
          exact hbase
      · exact hold hold'
  | @historical p id source now r call publishes mode quiet =>
    constructor
    · exact moded_of_set hc.moded publishes.stored
    · intro q j v hv
      rcases published_of_set hv with ⟨rfl, rfl, rfl⟩ | hold'
      · refine .full hv ?_
        unfold HasMode
        rw [published_field r now (by decide) (by decide)]
        exact mode
      · exact hold hold'

theorem chained_start : Chained Store.empty := by
  constructor
  · intro p id r hr
    cases hr
  · intro p id r hr
    cases hr.stored

/-- The invariants hold together after every run. -/
theorem history_run {calls : List Call}
    (h : Machine.run (watch step publications) (Store.empty, []) calls = some (s, seen)) :
    PublishedHistory s seen := by
  have hstep : ∀ (x : Store × List Publication) (c : Call) (y : Store × List Publication),
      PublishedHistory x.1 x.2 → watch step publications x c = some y →
        PublishedHistory y.1 y.2 := by
    intro x c y hx hy
    obtain ⟨hc, hseen⟩ := watch_some hy
    rw [hseen]
    exact history_step hx hc
  exact run_keeps hstep h history_start

theorem chained_run {calls : List Call}
    (h : Machine.run (watch step publications) (Store.empty, []) calls = some (s, seen))
    (hcreate : ∀ c ∈ calls, FromCreate sha256 c) : Chained s := by
  have hstep : ∀ (x : Store × List Publication) (c : Call) (y : Store × List Publication),
      PublishedHistory x.1 x.2 ∧ Chained x.1 → FromCreate sha256 c →
        watch step publications x c = some y →
          PublishedHistory y.1 y.2 ∧ Chained y.1 := by
    intro x c y hx hc hy
    obtain ⟨hcall, hseen⟩ := watch_some hy
    rw [hseen]
    exact ⟨history_step hx.1 hcall, chained_step sha256 hx.1 hx.2 hc hcall⟩
  exact (Machine.run_keeps_along hstep h (Machine.along_of_forall (fun c hc _ => hcreate c hc) _)
    ⟨history_start, chained_start⟩).2

end Chain

/-- A success of `publishGraphRevision` adds one to the version of its head, and nothing else
moves a head. -/
theorem headVersion_step (h : step s c = some t) (p : String) : t.headVersion p =
      s.headVersion p + ((publications s c t).filter fun e => e.projectId = p).length := by
  cases step_effect h with
  | none quiet =>
    rw [quiet]
    rfl
  | append call new quiet =>
    rw [quiet]
    rfl
  | historical call publishes mode quiet =>
    rw [quiet]
    rfl
  | @publish q id now expected r head call publishes base newHead shown =>
    rw [shown]
    unfold Store.headVersion
    rw [head?_set]
    by_cases hpq : p = q
    · rw [if_pos hpq, hpq]
      simp [newHead, Store.headVersion]
    · rw [if_neg hpq]
      simp [Ne.symm hpq]

theorem historical_keeps_heads {source : String}
    (h : step s (.publishHistorical p id source now) = some t) :
    t.currentGraphHeads = s.currentGraphHeads := by
  cases step_effect h with
  | none quiet => rfl
  | append call new quiet => rfl
  | publish call publishes base newHead shown => cases call
  | historical call publishes mode quiet => rfl

/-- The published graph after any run: the head stands on a published revision with its
artifact and its passed evaluation, each success moves it on by one, the bases are the heads
of their time and lead back to a FULL revision, and what is published stays. -/
theorem published_graph_history (sha256 : String → String) {calls : List Call} {s : Store}
    {seen : List Publication}
    (h : Machine.run (watch step publications) (Store.empty, []) calls = some (s, seen)) :
    PublishedHistory s seen ∧
    ((∀ c ∈ calls, FromCreate sha256 c) →
      ∀ p head, s.head? p = some head → EndsInFull s p head.graphRevisionId) ∧
    (∀ c t, step s c = some t → ∀ p, t.headVersion p =
      s.headVersion p + ((publications s c t).filter fun e => e.projectId = p).length) ∧
    (∀ p id source now t, step s (.publishHistorical p id source now) = some t →
      t.currentGraphHeads = s.currentGraphHeads) ∧
    ∀ more t, Machine.run step s more = some t →
      ∀ p id r, IsPublished s p id r → IsPublished t p id r := by
  have hhistory := history_run h
  refine ⟨hhistory, ?_, ?_, ?_, ?_⟩
  · intro hcreate p head hhead
    obtain ⟨r, hr⟩ := hhistory.head p head hhead
    exact (chained_run sha256 h hcreate).ends p _ r hr
  · intro c t hstep p
    exact headVersion_step hstep p
  · intro p id source now t hstep
    exact historical_keeps_heads hstep
  · intro more t hrun p id r hr
    exact published_keeps_run hrun hr

/-! ## A full and an incremental revision -/

def passedEvaluation : Json :=
  let ones := evaluationDenominators.map fun d => (d, Json.num (Number.ofNat 1))
  .obj [("id", .str "E1"), ("status", .str "PASSED"), ("policyVersion", .str "1"),
    ("minimumDenominators", .obj ones), ("denominators", .obj ones)]

def graphArtifact : Json :=
  .obj [("id", .str "A1"), ("graphArtifactDigest", .str "D"), ("projectId", .str "P"),
    ("snapshotManifestId", .str "S"), ("analysisRunId", .str "R")]

def evaluatingRevision (id mode : String) (base : Json) : Json :=
  .obj [("id", .str id), ("projectId", .str "P"), ("snapshotManifestId", .str "S"),
    ("analysisRunId", .str "R"), ("mode", .str mode), ("baseRevisionId", base),
    ("evaluationRunId", .str "E1"), ("graphArtifactId", .str "A1"),
    ("graphArtifactDigest", .str "D"), ("status", .str "EVALUATING")]

def twoRevisions : List Call :=
  [.append "P" "EVALUATION_RUN" passedEvaluation (by decide),
    .append "P" "GRAPH_ARTIFACT" graphArtifact (by decide),
    .append "P" "GRAPH_REVISION" (evaluatingRevision "G1" "FULL" .null) (fun _ => rfl),
    .publish "P" "G1" none "2026-01-01T00:00:00.000Z",
    .append "P" "GRAPH_REVISION" (evaluatingRevision "G2" "INCREMENTAL" (.str "G1")) (fun _ => rfl),
    .publish "P" "G2" (some (.num (Number.ofNat 1))) "2026-01-02T00:00:00.000Z"]

theorem two_revisions_are_published :
    ∃ s seen, Machine.run (watch step publications) (Store.empty, []) twoRevisions =
      some (s, seen) ∧ s.headVersion "P" = 2 ∧ PublishedHistory s seen := by
  have hversion : (Machine.run (watch step publications) (Store.empty, []) twoRevisions).map
      (fun x => x.1.headVersion "P") = some 2 := by
    decide +kernel
  obtain ⟨⟨s, seen⟩, hrun, hv⟩ := Option.map_eq_some_iff.mp hversion
  exact ⟨s, seen, hrun, hv, (published_graph_history (fun text => text) hrun).1⟩

end Traqen.GraphPublication
