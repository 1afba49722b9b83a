-- The evaluation of an understanding against a reviewed Truth Set
-- (`application/reviewed-understanding-evaluation.js`, which reads the reviews, and
-- `application/understanding-evaluator.js`, which measures them by a policy).
import Traqen.CanonicalJson
import Traqen.Model
import Traqen.Lib.JsonText
import Traqen.Lib.OrderedMap

open Js

namespace Traqen.UnderstandingEvaluation

/-! ## Relationships -/

/-- A part of the triple of a key: what is undefined in an array is written as null. -/
def triplePart (relation : Json) (key : String) : Json := (relation.get? key).getD .null

/-- The triple that the key of a relationship is made of. An array of another length passes
as an object without the three fields. -/
def truthTriple (relation : Option Json) : Except Failure (Json × Json × Json) :=
  match relation with
  | some (.arr [subject, predicate, object]) => .ok (subject, predicate, object)
  | some (.arr _) => .ok (.null, .null, .null)
  | some (.obj fields) =>
    let r := Json.obj fields
    .ok (triplePart r "subject", triplePart r "predicate", triplePart r "object")
  | _ => typeError "Truth Set relationships must be triples"

def tripleText (t : Json × Json × Json) : String := canonicalJson (.arr [t.1, t.2.1, t.2.2])

def truthRelationKey (relation : Option Json) : Except Failure String := do
  let t ← truthTriple relation
  return tripleText t

structure RelationParts where
  sourceAnchorId : Json
  predicate : Json
  targetAnchorId : Json

/-- The parts that the text of the key parses to. -/
def truthRelationParts (relation : Option Json) : Except Failure RelationParts := do
  let t ← truthTriple relation
  return { sourceAnchorId := canonicalizeValue t.1
           predicate := canonicalizeValue t.2.1
           targetAnchorId := canonicalizeValue t.2.2 }

/-! ## The Truth Set -/

def requiredRelationships (truthSet : Json) : List Json :=
  itemsOf (truthSet.get? "requiredRelationships")

def forbiddenRelationships (truthSet : Json) : List Json :=
  itemsOf (truthSet.get? "forbiddenRelationships")

def isWord : Json → Bool
  | .str s => !isBlank s
  | _ => false

/-- The keys of the relationships, each of an assessed predicate and new. -/
def collectKeys (label : String) (assessed : List Json) :
    List Json → List String → Except Failure (List String)
  | [], keys => .ok keys
  | r :: rs, keys => do
    let key ← truthRelationKey (some r)
    let parts ← truthRelationParts (some r)
    if parts.predicate ∉ assessed then
      typeError ("Truth Set " ++ label ++ " predicate " ++ parts.predicate.toText ++
        " is outside the assessed producer vocabulary")
    else if key ∈ keys then
      typeError ("Truth Set " ++ label ++ "Relationships must be unique")
    else collectKeys label assessed rs (keys ++ [key])

def relationshipKeys (label : String) (assessed : List Json) (relationships : Option Json) :
    Except Failure (List String) :=
  match relationships with
  | some (.arr items) => collectKeys label assessed items []
  | _ => typeError ("Truth Set " ++ label ++ "Relationships must be an array")

def requireSealed (truthSet : Json) : Except Failure Unit :=
  if truthSet.get? "status" = some (.str "SEALED") then .ok ()
  else typeError "a sealed reviewed TruthSetVersion is required"

def requireAssessedPredicates (truthSet : Json) : Except Failure (List Json) :=
  let predicates := itemsOf (truthSet.get? "assessedRelationPredicates")
  if predicates = [] ∨ predicates.all isWord = false ∨ ¬ predicates.Nodup then
    typeError "Truth Set assessedRelationPredicates must be a non-empty unique string array"
  else .ok predicates

def validateReviewedTruthSet (truthSet : Json) : Except Failure Unit := do
  requireSealed truthSet
  let assessed ← requireAssessedPredicates truthSet
  let requiredKeys ← relationshipKeys "required" assessed (truthSet.get? "requiredRelationships")
  let forbiddenKeys ← relationshipKeys "forbidden" assessed
    (truthSet.get? "forbiddenRelationships")
  if forbiddenKeys.any fun key => decide (key ∈ requiredKeys) then
    typeError "Truth Set cannot require and forbid the same relationship"
  else return ()

/-! ## The analysed output -/

structure Job where
  id : String
  projectId : String
  snapshotManifestId : String

structure Artifact where
  id : String
  relativePath : String

structure Inventory where
  inventoryDigest : String
  artifacts : List Artifact
  totalCount : Nat
  disposedCount : Nat

structure Candidate where
  id : String
  evidenceFactIds : List String
  sourceSliceIds : List String

/-- The candidates, and the ids of the gaps. -/
structure CandidateBundle where
  candidates : List Candidate
  gapIds : List String

structure SurfaceRelation where
  id : String
  sourceId : String
  predicate : String
  targetId : String

structure SemanticSurface where
  digest : String
  relations : List SurfaceRelation

/-- Whether the replay, and the full run, gave an equivalent output. -/
structure EquivalenceReport where
  analysisRunId : String
  replay : Bool
  full : Bool

/-- How many of a total. -/
structure Sample where
  total : Nat
  part : Nat

/-! ## Reading the reviews -/

/-- The field that names the subject of a review, or of an anchor. -/
def subjectOf (key : String) (review : Json) : Except Failure (Option Json) :=
  match review with
  | .null => typeError ("Cannot read properties of null (reading '" ++ key ++ "')")
  | v => .ok (v.get? key)

/-- `new Set(keys).size === keys.length`, by the comparison of the keys. -/
def allDistinct {κ : Type} (same : κ → κ → Bool) : List κ → Bool
  | [] => true
  | k :: ks => !ks.any (same k) && allDistinct same ks

def requireUniqueReviews {κ : Type} (reviews : Option Json) (keyOf : Json → Except Failure κ)
    (same : κ → κ → Bool) (label : String) : Except Failure (List Json) :=
  match reviews with
  | some (.arr items) => do
    let keys ← items.mapM keyOf
    if allDistinct same keys then return items
    else typeError (label ++ " must not contain duplicate subjects")
  | _ => typeError (label ++ " must be an array")

/-- The last anchor of an id, as the map of the anchors holds it. -/
def anchorWith (anchors : List Json) (id : Option Json) : Option Json :=
  anchors.reverse.find? fun anchor => strictEq (anchor.get? "id") id

/-- The number of anchors of the map. -/
def anchorCount : List Json → Nat
  | [] => 0
  | a :: rest =>
    if rest.any fun b => strictEq (b.get? "id") (a.get? "id") then anchorCount rest
    else anchorCount rest + 1

/-- A verdict is one of two words. -/
def verdictOf (review : Json) : Option Json := review.get? "verdict"

def hasVerdict (word : String) (review : Json) : Bool :=
  decide (verdictOf review = some (.str word))

/-- `artifactsById.get(id)`. -/
def artifactWith (inventory : Inventory) (id : Option Json) : Option Artifact :=
  match id with
  | some (.str s) =>
    OrderedMap.get? (OrderedMap.ofList (inventory.artifacts.map fun a => (a.id, a))) s
  | _ => none

/-- An anchor that was observed, with the artifact it was observed in. -/
structure ObservedAnchor where
  anchorId : Option Json
  artifactId : String

def reviewAnchor (inventory : Inventory) (anchors : List Json) (review : Json) :
    Except Failure (List ObservedAnchor) :=
  let anchorId := review.get? "anchorId"
  if hasVerdict "MISSING" review then .ok []
  else if hasVerdict "OBSERVED" review then
    match artifactWith inventory (review.get? "artifactId") with
    | some artifact =>
      if field (anchorWith anchors anchorId) "path" = some (.str artifact.relativePath) then
        .ok [{ anchorId, artifactId := artifact.id }]
      else typeError ("anchor review " ++ ((anchorId.map Json.toText).getD "undefined") ++
        " does not resolve to the reviewed output artifact")
    | none => typeError ("anchor review " ++ ((anchorId.map Json.toText).getD "undefined") ++
        " does not resolve to the reviewed output artifact")
  else typeError "anchor review verdict is invalid"

/-- The anchors of the Truth Set, none of them null. -/
def truthAnchors (truthSet : Json) : Except Failure (List Json) :=
  match truthSet.get? "anchors" with
  | some (.arr items) => do
    let _ ← items.mapM (subjectOf "id")
    return items
  | _ => typeError "truthSet.anchors.map is not a function"

def reviewAnchors (truthSet measurements : Json) (inventory : Inventory) :
    Except Failure (List ObservedAnchor) := do
  let anchors ← truthAnchors truthSet
  let reviews ← requireUniqueReviews (measurements.get? "anchorReviews") (subjectOf "anchorId")
    strictEq "anchorReviews"
  if reviews.length ≠ anchorCount anchors ∨
      reviews.any fun r => (anchorWith anchors (r.get? "anchorId")).isNone then
    typeError "anchorReviews must cover the exact reviewed Truth Set anchors"
  else do
    let observed ← reviews.mapM (reviewAnchor inventory anchors)
    return observed.flatten

def candidateWith (bundle : CandidateBundle) (id : Option Json) : Option Candidate :=
  match id with
  | some (.str s) =>
    OrderedMap.get? (OrderedMap.ofList (bundle.candidates.map fun c => (c.id, c))) s
  | _ => none

/-- The references of a review are some of the candidate's own. -/
def validReferences (candidate : Candidate) (references : Option Json) : Bool :=
  match references with
  | some (.arr (r :: rs)) =>
    (r :: rs).all fun ref =>
      (candidate.evidenceFactIds ++ candidate.sourceSliceIds).any fun id => decide (ref = .str id)
  | _ => false

/-- The review is counted as correct or not. -/
def reviewCandidate (bundle : CandidateBundle) (review : Json) : Except Failure Bool :=
  let id := ((review.get? "candidateId").map Json.toText).getD "undefined"
  match candidateWith bundle (review.get? "candidateId") with
  | none => typeError ("reviewed Candidate " ++ id ++ " is absent from the persisted output")
  | some candidate =>
    if !hasVerdict "CORRECT" review && !hasVerdict "INCORRECT" review then
      typeError "Candidate review verdict is invalid"
    else if !validReferences candidate (review.get? "evidenceRefIds") then
      typeError ("reviewed Candidate " ++ id ++ " has no valid persisted evidence reference")
    else .ok (hasVerdict "CORRECT" review)

def reviewCandidates (measurements : Json) (bundle : CandidateBundle) :
    Except Failure (List Bool) := do
  let reviews ← requireUniqueReviews (measurements.get? "candidateReviews")
    (subjectOf "candidateId") strictEq "candidateReviews"
  reviews.mapM (reviewCandidate bundle)

/-- The artifact that an anchor was observed in. -/
def artifactOf (observed : List ObservedAnchor) (anchorId : Json) : Option String :=
  (observed.find? fun o => strictEq o.anchorId (some anchorId)).map (·.artifactId)

/-- The relation of the output that a relationship of the Truth Set is found as. -/
def matchingRelation (surface : SemanticSurface) (observed : List ObservedAnchor)
    (parts : RelationParts) : Option SurfaceRelation :=
  ((OrderedMap.ofList (surface.relations.map fun r => (r.id, r))).map (·.2)).find? fun r =>
    decide (some r.sourceId = artifactOf observed parts.sourceAnchorId) &&
    decide (Json.str r.predicate = parts.predicate) &&
    decide (some r.targetId = artifactOf observed parts.targetAnchorId)

/-- The review names the relation that is found. -/
def namesRelation (review : Json) (found : Option SurfaceRelation) : Bool :=
  found.any fun r => decide (review.get? "relationId" = some (.str r.id))

/-- The relationship, as the review writes it, when it was observed. -/
def reviewRelation (surface : SemanticSurface) (observed : List ObservedAnchor)
    (requiredKeys : List String) (review : Json) : Except Failure (List Json) := do
  let relationship := review.get? "relationship"
  let key ← truthRelationKey relationship
  let parts ← truthRelationParts relationship
  let found := matchingRelation surface observed parts
  if key ∈ requiredKeys then
    if hasVerdict "MISSING" review then return []
    else if !hasVerdict "OBSERVED" review then typeError "required relation verdict is invalid"
    else if !namesRelation review found then
      typeError ("reviewed relationship " ++ key ++ " is absent from the persisted output")
    else return relationship.toList
  else if hasVerdict "ABSENT" review then
    if found.isSome then
      typeError ("forbidden relationship " ++ key ++ " exists in the persisted output")
    else return []
  else if !hasVerdict "VIOLATION" review then typeError "forbidden relation verdict is invalid"
  else if !namesRelation review found then
    typeError ("forbidden relationship violation " ++ key ++ " is not output-bound")
  else return relationship.toList

def reviewKey (review : Json) : Except Failure String :=
  match review with
  | .null => typeError "Cannot read properties of null (reading 'relationship')"
  | v => truthRelationKey (v.get? "relationship")

/-- The number of keys of the set. -/
def keyCount (keys : List String) : Nat := keys.dedup.length

def reviewRelations (truthSet measurements : Json) (surface : SemanticSurface)
    (observed : List ObservedAnchor) : Except Failure (List Json) := do
  let reviews ← requireUniqueReviews (measurements.get? "relationReviews") reviewKey
    (fun a b => decide (a = b)) "relationReviews"
  let requiredKeys ← (requiredRelationships truthSet).mapM fun r => truthRelationKey (some r)
  let forbiddenKeys ← (forbiddenRelationships truthSet).mapM fun r => truthRelationKey (some r)
  let keys ← reviews.mapM reviewKey
  if reviews.length ≠ keyCount (requiredKeys ++ forbiddenKeys) ∨
      keys.any fun key => decide (key ∉ requiredKeys ++ forbiddenKeys) then
    typeError
      "relationReviews must cover every required and forbidden Truth Set relationship exactly once"
  else do
    let relationships ← reviews.mapM (reviewRelation surface observed requiredKeys)
    return relationships.flatten

def reviewGap (bundle : CandidateBundle) (review : Json) : Except Failure Bool :=
  let id := review.get? "gapId"
  if !bundle.gapIds.any fun g => decide (id = some (.str g)) then
    typeError ("reviewed Gap " ++ (id.map Json.toText).getD "undefined" ++
      " is absent from the persisted output")
  else if !hasVerdict "HONEST" review && !hasVerdict "DISHONEST" review then
    typeError "Gap review verdict is invalid"
  else .ok (hasVerdict "HONEST" review)

def reviewGaps (measurements : Json) (bundle : CandidateBundle) : Except Failure (List Bool) := do
  let reviews ← requireUniqueReviews (measurements.get? "gapReviews") (subjectOf "gapId") strictEq
    "gapReviews"
  reviews.mapM (reviewGap bundle)

structure DerivedMeasurements where
  observedAnchorIds : List (Option Json)
  observedRelationships : List Json
  candidateSample : Sample
  sourceAttribution : Sample
  gaps : Sample

/-- How many of the verdicts are true. -/
def sampleOf (verdicts : List Bool) : Sample where
  total := verdicts.length
  part := verdicts.count true

def deriveReviewedMeasurements (truthSet measurements : Json) (inventory : Inventory)
    (candidateBundle : CandidateBundle) (semanticSurface : SemanticSurface) :
    Except Failure DerivedMeasurements :=
  if measurements.get? "outputDigest" ≠ some (.str semanticSurface.digest) then
    typeError "reviewed measurements are not bound to the exact persisted understanding output"
  else do
    let observed ← reviewAnchors truthSet measurements inventory
    let candidates ← reviewCandidates measurements candidateBundle
    let relationships ← reviewRelations truthSet measurements semanticSurface observed
    let gaps ← reviewGaps measurements candidateBundle
    return { observedAnchorIds := observed.map (·.anchorId)
             observedRelationships := relationships
             candidateSample := sampleOf candidates
             sourceAttribution := { total := candidates.length, part := candidates.length }
             gaps := sampleOf gaps }

/-! ## The measurement by a policy -/

/-- A quotient of counts. For the lengths of arrays the comparison of the two products is
that of the rounded quotients. -/
structure Ratio where
  part : Nat
  total : Nat
  positive : 0 < total

def Ratio.below (a b : Ratio) : Bool := decide (a.part * b.total < b.part * a.total)

def ratio (numerator denominator : Nat) : Option Ratio :=
  if h : 0 < denominator then some { part := numerator, total := denominator, positive := h }
  else none

/-- The minimum of each denominator and the threshold of each metric, by its name. -/
structure Policy where
  id : String
  version : String
  reviewerRequired : Bool
  minimumDenominators : List (String × Nat)
  thresholds : List (String × Ratio)

structure EvaluationInput where
  projectId : String
  analysisRunId : String
  productionInputDigest : String
  truthSetDigest : String
  truthSet : Json
  policy : Policy
  reviewerId : Option String
  implementationAuthorId : String
  observedAnchorIds : List (Option Json)
  observedRelationships : List Json
  inventory : Sample
  candidateSample : Sample
  sourceAttribution : Sample
  gaps : Sample
  replay : Sample
  incrementalComparison : Sample

/-- The relationships of the Truth Set whose JSON text is that of an observed one. -/
def seenAmong (observed relationships : List Json) : List Json :=
  relationships.filter fun edge => decide (edge.stringify ∈ observed.map Json.stringify)

/-- The anchors of the Truth Set whose id was observed. -/
def recalledAnchors (input : EvaluationInput) : List Json :=
  (itemsOf (input.truthSet.get? "anchors")).filter fun anchor =>
    input.observedAnchorIds.any fun id => strictEq id (anchor.get? "id")

def denominators (input : EvaluationInput) : List (String × Nat) :=
  [("inventory", input.inventory.total),
    ("anchors", (itemsOf (input.truthSet.get? "anchors")).length),
    ("candidateSample", input.candidateSample.total),
    ("requiredRelationships", (requiredRelationships input.truthSet).length),
    ("forbiddenRelationships", (forbiddenRelationships input.truthSet).length),
    ("sourceAttributions", input.sourceAttribution.total),
    ("gaps", input.gaps.total),
    ("replaySamples", input.replay.total),
    ("incrementalComparisons", input.incrementalComparison.total)]

def metrics (input : EvaluationInput) : List (String × Option Ratio) :=
  let anchors := itemsOf (input.truthSet.get? "anchors")
  let required := requiredRelationships input.truthSet
  let forbidden := forbiddenRelationships input.truthSet
  [("inventoryDispositionRate", ratio input.inventory.part input.inventory.total),
    ("anchorRecall", ratio (recalledAnchors input).length anchors.length),
    ("candidatePrecision", ratio input.candidateSample.part input.candidateSample.total),
    ("requiredRelationshipRate",
      ratio (seenAmong input.observedRelationships required).length required.length),
    ("forbiddenRelationshipViolations",
      ratio (seenAmong input.observedRelationships forbidden).length (max forbidden.length 1)),
    ("sourceAttributionRate", ratio input.sourceAttribution.part input.sourceAttribution.total),
    ("gapHonestyRate", ratio input.gaps.part input.gaps.total),
    ("replayEquivalenceRate", ratio input.replay.part input.replay.total),
    ("incrementalEquivalenceRate",
      ratio input.incrementalComparison.part input.incrementalComparison.total)]

/-- `Number.isSafeInteger(value) && value >= minimum`. -/
def meetsMinimum (value : Option Nat) (minimum : Nat) : Bool :=
  value.any fun n => decide (n ≤ 9007199254740991 ∧ minimum ≤ n)

structure MissingDenominator where
  dimension : String
  value : Nat
  minimum : Nat

def missingDenominator (values : List (String × Nat)) (e : String × Nat) :
    Option MissingDenominator :=
  let value := values.lookup e.1
  if meetsMinimum value e.2 then none
  else some { dimension := e.1, value := value.getD 0, minimum := e.2 }

structure ThresholdFailure where
  dimension : String
  value : Ratio
  threshold : Ratio

/-- A metric that is null, or that the policy names and nothing measures, fails no threshold. -/
def thresholdFailure (values : List (String × Option Ratio)) (e : String × Ratio) :
    Option ThresholdFailure :=
  match values.lookup e.1 with
  | some (some value) =>
    let failed :=
      if e.1 = "forbiddenRelationshipViolations" then e.2.below value else value.below e.2
    if failed then some { dimension := e.1, value, threshold := e.2 } else none
  | _ => none

inductive EvaluationStatus where
  | NOT_EVALUATED
  | PASSED
  | FAILED
deriving DecidableEq

structure Evaluation where
  projectId : String
  analysisRunId : String
  truthSetVersionId : Option Json
  policyId : String
  policyVersion : String
  metrics : List (String × Option Ratio)
  denominators : List (String × Nat)
  minimumDenominators : List (String × Nat)
  missingDenominators : List MissingDenominator
  failures : List ThresholdFailure
  status : EvaluationStatus
  reviewerId : Option String
  completedAt : String

def statusOf (missing : List MissingDenominator) (failures : List ThresholdFailure) :
    EvaluationStatus :=
  if missing.isEmpty then if failures.isEmpty then .PASSED else .FAILED else .NOT_EVALUATED

def evaluateUnderstanding (now : Instant) (input : EvaluationInput) : Except Failure Evaluation :=
  if input.productionInputDigest = input.truthSetDigest then
    typeError "Truth Set leakage detected in production input"
  else if input.truthSet.get? "status" ≠ some (.str "SEALED") then
    typeError "a sealed TruthSetVersion is required"
  else if input.policy.reviewerRequired ∧
      (input.reviewerId = none ∨ input.reviewerId = some input.implementationAuthorId) then
    typeError "an independent reviewer is required"
  else
    let missing := input.policy.minimumDenominators.filterMap
      (missingDenominator (denominators input))
    let failures := input.policy.thresholds.filterMap (thresholdFailure (metrics input))
    .ok { projectId := input.projectId
          analysisRunId := input.analysisRunId
          truthSetVersionId := input.truthSet.get? "id"
          policyId := input.policy.id
          policyVersion := input.policy.version
          metrics := metrics input
          denominators := denominators input
          minimumDenominators := input.policy.minimumDenominators
          missingDenominators := missing
          failures
          status := statusOf missing failures
          reviewerId := input.reviewerId
          completedAt := now.iso }

/-! ## The reviewed evaluation of a run -/

def one : Ratio := { part := 1, total := 1, positive := by omega }
def nineTenths : Ratio := { part := 9, total := 10, positive := by omega }
def zero : Ratio := { part := 0, total := 1, positive := by omega }

def releaseGate : Policy where
  id := "traqen-reviewed-understanding-release-gate"
  version := "1"
  reviewerRequired := true
  minimumDenominators :=
    [("inventory", 1), ("anchors", 30), ("candidateSample", 30), ("requiredRelationships", 60),
      ("forbiddenRelationships", 30), ("sourceAttributions", 30), ("gaps", 1),
      ("replaySamples", 1), ("incrementalComparisons", 1)]
  thresholds :=
    [("inventoryDispositionRate", one), ("anchorRecall", nineTenths),
      ("candidatePrecision", nineTenths), ("requiredRelationshipRate", one),
      ("forbiddenRelationshipViolations", zero), ("sourceAttributionRate", nineTenths),
      ("gapHonestyRate", one), ("replayEquivalenceRate", one),
      ("incrementalEquivalenceRate", one)]

/-- What the resolver is made with, the reviewed measurements it is given for a run, and
the output of that run. -/
structure ReviewedRun where
  truthSet : Json
  reviewerId : String
  implementationAuthorId : String
  measurements : Json
  job : Job
  inventory : Inventory
  candidateBundle : CandidateBundle
  semanticSurface : SemanticSurface
  equivalenceReport : EquivalenceReport

section Resolver

variable (dateParse : String → Option Int)

def createReviewedUnderstandingEvaluationResolver (q : ReviewedRun) : Except Failure Unit := do
  validateReviewedTruthSet q.truthSet
  if isBlank q.reviewerId then typeError "reviewerId is required"
  else if q.reviewerId = q.implementationAuthorId then
    typeError "reviewer must be independent from the implementation author"
  else return ()

def isReviewedAt (value : Option Json) : Bool :=
  match value with
  | some (.str s) => (dateParse s).isSome
  | _ => false

def requireBound (q : ReviewedRun) : Except Failure Unit :=
  let m := q.measurements
  if !truthy (some m) ∨ !strictEq (m.get? "truthSetVersionId") (q.truthSet.get? "id") then
    typeError "reviewed measurements must identify the exact TruthSetVersion"
  else if m.get? "analysisRunId" ≠ some (.str q.job.id) ∨
      m.get? "snapshotManifestId" ≠ some (.str q.job.snapshotManifestId) then
    typeError "reviewed measurements must identify the exact AnalysisRun and Snapshot"
  else if m.get? "reviewerId" ≠ some (.str q.reviewerId) ∨
      m.get? "independent" ≠ some (.bool true) then
    typeError "reviewed measurements must be approved by the configured independent reviewer"
  else if !isReviewedAt dateParse (m.get? "reviewedAt") then
    typeError "reviewed measurements require a valid reviewedAt timestamp"
  else if m.get? "productionInputDigest" ≠
      some (.str ("production:" ++ q.inventory.inventoryDigest)) then
    typeError "reviewed measurements are not bound to the current production input"
  else if q.equivalenceReport.analysisRunId ≠ q.job.id then
    typeError "server-measured equivalence report is required"
  else .ok ()

/-- One sample, equivalent or not. -/
def equivalence (equivalent : Bool) : Sample := { total := 1, part := if equivalent then 1 else 0 }

/-- What the resolver gives for a run, with the project, the run and the inventory counts
that the runtime adds. -/
def resolveEvaluation (q : ReviewedRun) : Except Failure EvaluationInput := do
  createReviewedUnderstandingEvaluationResolver q
  requireBound dateParse q
  let derived ← deriveReviewedMeasurements q.truthSet q.measurements q.inventory q.candidateBundle
    q.semanticSurface
  return { projectId := q.job.projectId
           analysisRunId := q.job.id
           productionInputDigest := "production:" ++ q.inventory.inventoryDigest
           truthSetDigest := "reviewed:" ++ ((q.truthSet.get? "id").map Json.toText).getD "undefined"
           truthSet := q.truthSet
           policy := releaseGate
           reviewerId := some q.reviewerId
           implementationAuthorId := q.implementationAuthorId
           observedAnchorIds := derived.observedAnchorIds
           observedRelationships := derived.observedRelationships
           inventory := { total := q.inventory.totalCount, part := q.inventory.disposedCount }
           candidateSample := derived.candidateSample
           sourceAttribution := derived.sourceAttribution
           gaps := derived.gaps
           replay := equivalence q.equivalenceReport.replay
           incrementalComparison := equivalence q.equivalenceReport.full }

end Resolver

/-! ## What the release gate asks -/

theorem missingDenominator_none {values : List (String × Nat)} {dimension : String}
    {n minimum : Nat} (h : values.lookup dimension = some n) :
    missingDenominator values (dimension, minimum) = none ↔ meetsMinimum (some n) minimum = true := by
  simp only [missingDenominator, h]
  cases meetsMinimum (some n) minimum <;> simp

/-- A rate with nothing to divide by reaches every threshold. -/
theorem rate_reached {values : List (String × Option Ratio)} {dimension : String} {part total : Nat}
    (t : Ratio) (h : values.lookup dimension = some (ratio part total))
    (hd : dimension ≠ "forbiddenRelationshipViolations") :
    thresholdFailure values (dimension, t) = none ↔ t.part * total ≤ part * t.total := by
  unfold thresholdFailure
  by_cases hpos : 0 < total
  · simp only [h, ratio, hpos, dif_pos, hd, if_false, Ratio.below]
    by_cases hb : part * t.total < t.part * total
    · simp [hb]
    · simp [hb, Nat.not_lt.mp hb]
  · have hzero : total = 0 := by omega
    subst hzero
    simp [h, ratio]

theorem no_violations_seen {values : List (String × Option Ratio)} {part total : Nat}
    (h : values.lookup "forbiddenRelationshipViolations" = some (ratio part (max total 1))) :
    thresholdFailure values ("forbiddenRelationshipViolations", zero) = none ↔ part = 0 := by
  have hpos : 0 < max total 1 := by omega
  simp only [thresholdFailure, h, ratio, hpos, dif_pos, if_true, Ratio.below, zero]
  by_cases hb : part = 0
  · simp [hb]
  · simp [hb]

theorem statusOf_passed (missing : List MissingDenominator) (failures : List ThresholdFailure) :
    statusOf missing failures = .PASSED ↔ missing = [] ∧ failures = [] := by
  unfold statusOf
  cases missing <;> cases failures <;> simp

theorem no_missing_iff (input : EvaluationInput) :
    releaseGate.minimumDenominators.filterMap (missingDenominator (denominators input)) = [] ↔
      meetsMinimum (some input.inventory.total) 1 = true ∧
      meetsMinimum (some (itemsOf (input.truthSet.get? "anchors")).length) 30 = true ∧
      meetsMinimum (some input.candidateSample.total) 30 = true ∧
      meetsMinimum (some (requiredRelationships input.truthSet).length) 60 = true ∧
      meetsMinimum (some (forbiddenRelationships input.truthSet).length) 30 = true ∧
      meetsMinimum (some input.sourceAttribution.total) 30 = true ∧
      meetsMinimum (some input.gaps.total) 1 = true ∧
      meetsMinimum (some input.replay.total) 1 = true ∧
      meetsMinimum (some input.incrementalComparison.total) 1 = true := by
  simp only [List.filterMap_eq_nil_iff, releaseGate, List.forall_mem_cons, List.not_mem_nil,
    IsEmpty.forall_iff, implies_true, and_true]
  rw [missingDenominator_none rfl, missingDenominator_none rfl, missingDenominator_none rfl,
    missingDenominator_none rfl, missingDenominator_none rfl, missingDenominator_none rfl,
    missingDenominator_none rfl, missingDenominator_none rfl, missingDenominator_none rfl]

theorem no_failures_iff (input : EvaluationInput) :
    releaseGate.thresholds.filterMap (thresholdFailure (metrics input)) = [] ↔
      input.inventory.total ≤ input.inventory.part ∧
      9 * (itemsOf (input.truthSet.get? "anchors")).length ≤ 10 * (recalledAnchors input).length ∧
      9 * input.candidateSample.total ≤ 10 * input.candidateSample.part ∧
      (requiredRelationships input.truthSet).length ≤
        (seenAmong input.observedRelationships (requiredRelationships input.truthSet)).length ∧
      seenAmong input.observedRelationships (forbiddenRelationships input.truthSet) = [] ∧
      9 * input.sourceAttribution.total ≤ 10 * input.sourceAttribution.part ∧
      input.gaps.total ≤ input.gaps.part ∧
      input.replay.total ≤ input.replay.part ∧
      input.incrementalComparison.total ≤ input.incrementalComparison.part := by
  simp only [List.filterMap_eq_nil_iff, releaseGate, List.forall_mem_cons, List.not_mem_nil,
    IsEmpty.forall_iff, implies_true, and_true]
  rw [rate_reached one rfl (by decide), rate_reached nineTenths rfl (by decide),
    rate_reached nineTenths rfl (by decide), rate_reached one rfl (by decide),
    no_violations_seen rfl, rate_reached nineTenths rfl (by decide),
    rate_reached one rfl (by decide), rate_reached one rfl (by decide),
    rate_reached one rfl (by decide)]
  simp only [one, nineTenths, Nat.one_mul, Nat.mul_one, List.length_eq_zero_iff, Nat.mul_comm _ 10]

/-! ## What the reviews are read as -/

variable {review : Json}

theorem verdict_unique {a b : String} (ha : hasVerdict a review = true)
    (hb : hasVerdict b review = true) : a = b := by
  simp only [hasVerdict, decide_eq_true_eq] at ha hb
  have h := Option.some.inj (ha.symm.trans hb)
  injection h

theorem allDistinct_texts (keys : List String) :
    allDistinct (fun a b => decide (a = b)) keys = true ↔ keys.Nodup := by
  induction keys with
  | nil => simp [allDistinct]
  | cons k ks ih =>
    have hnew : (!ks.any fun b => decide (k = b)) = true ↔ k ∉ ks := by
      rw [Bool.not_eq_true', List.any_eq_false]
      exact ⟨fun h hk => h k hk (by simp), fun h x hx he => h (of_decide_eq_true he ▸ hx)⟩
    rw [allDistinct, Bool.and_eq_true, ih, List.nodup_cons, hnew]

theorem requireUniqueReviews_ok {κ : Type} {reviews : Option Json} {keyOf : Json → Except Failure κ}
    {same : κ → κ → Bool} {label : String} {items : List Json}
    (h : requireUniqueReviews reviews keyOf same label = .ok items) :
    itemsOf reviews = items ∧ ∃ keys, items.mapM keyOf = .ok keys ∧ allDistinct same keys = true := by
  unfold requireUniqueReviews at h
  split at h
  · obtain ⟨keys, hkeys, h⟩ := bind_ok h
    split at h
    · rename_i hdistinct
      cases h
      exact ⟨rfl, keys, hkeys, hdistinct⟩
    · cases h
  · cases h

/-- Reviews of one key are one review. -/
theorem eq_of_same_key {α : Type} {f : α → Except Failure String} {xs : List α} {keys : List String}
    (h : List.Forall₂ (fun x k => f x = .ok k) xs keys) (hkeys : keys.Nodup) {x y : α}
    (hx : x ∈ xs) (hy : y ∈ xs) {key : String} (hxk : f x = .ok key) (hyk : f y = .ok key) :
    x = y := by
  have hmem : ∀ {zs : List α} {ks : List String},
      List.Forall₂ (fun x k => f x = .ok k) zs ks → ∀ z ∈ zs, f z = .ok key → key ∈ ks := by
    intro zs ks hall
    induction hall with
    | nil => simp
    | cons hzk _ ih =>
      rintro z hz hk
      rcases List.mem_cons.mp hz with rfl | hz
      · rw [hzk] at hk
        cases hk
        exact List.mem_cons_self
      · exact List.mem_cons_of_mem _ (ih z hz hk)
  induction h with
  | nil => simp at hx
  | cons hk hall ih =>
    obtain ⟨hnew, hrest⟩ := List.nodup_cons.mp hkeys
    rcases List.mem_cons.mp hx with rfl | hxr <;> rcases List.mem_cons.mp hy with rfl | hyr
    · rfl
    · rw [hxk] at hk
      cases hk
      exact absurd (hmem hall y hyr hyk) hnew
    · rw [hyk] at hk
      cases hk
      exact absurd (hmem hall x hxr hxk) hnew
    · exact ih hrest hxr hyr

variable {observed : List ObservedAnchor}

theorem reviewAnchor_ok {inventory : Inventory} {anchors : List Json}
    (h : reviewAnchor inventory anchors review = .ok observed) :
    observed.map (·.anchorId) =
      if hasVerdict "OBSERVED" review then [review.get? "anchorId"] else [] := by
  unfold reviewAnchor at h
  simp only at h
  split at h
  · rename_i hmissing
    cases h
    have hne : hasVerdict "OBSERVED" review = false := by
      rw [Bool.eq_false_iff]
      intro hobserved
      have hword := verdict_unique hmissing hobserved
      simp at hword
    simp [hne]
  · split at h
    · rename_i hobserved
      split at h
      · split at h
        · cases h
          simp [hobserved]
        · cases h
      · cases h
    · cases h

theorem reviewCandidate_ok {bundle : CandidateBundle} {b : Bool}
    (h : reviewCandidate bundle review = .ok b) : b = hasVerdict "CORRECT" review := by
  unfold reviewCandidate at h
  simp only at h
  split at h
  · cases h
  · split at h
    · cases h
    · split at h
      · cases h
      · cases h
        rfl

theorem reviewGap_ok {bundle : CandidateBundle} {b : Bool}
    (h : reviewGap bundle review = .ok b) : b = hasVerdict "HONEST" review := by
  unfold reviewGap at h
  simp only at h
  split at h
  · cases h
  · split at h
    · cases h
    · cases h
      rfl

/-- A review that says the relationship is in the output. -/
def isObserved (review : Json) : Bool :=
  hasVerdict "OBSERVED" review || hasVerdict "VIOLATION" review

/-- How a review that is read goes by the kind of its relationship. -/
structure Reviewed (requiredKeys : List String) (review : Json) : Prop where
  key : ∃ key, truthRelationKey (review.get? "relationship") = .ok key
  required : ∀ key ∈ requiredKeys, truthRelationKey (review.get? "relationship") = .ok key →
    hasVerdict "VIOLATION" review = false
  forbidden : ∀ key, key ∉ requiredKeys →
    truthRelationKey (review.get? "relationship") = .ok key → hasVerdict "OBSERVED" review = false

theorem other_verdict {a b : String} (ha : hasVerdict a review = true)
    (hne : a ≠ b) : hasVerdict b review = false := by
  rw [Bool.eq_false_iff]
  intro hb
  exact hne (verdict_unique ha hb)

variable {relationships : List Json}

theorem reviewRelation_ok {surface : SemanticSurface} {requiredKeys : List String}
    (h : reviewRelation surface observed requiredKeys review = .ok relationships) :
    relationships = (if isObserved review then (review.get? "relationship").toList else []) ∧
      Reviewed requiredKeys review := by
  unfold reviewRelation at h
  obtain ⟨key, hkey, h⟩ := bind_ok h
  obtain ⟨parts, -, h⟩ := bind_ok h
  simp only at h
  have hone : ∀ k, truthRelationKey (review.get? "relationship") = .ok k → k = key := by
    intro k hk
    rw [hkey] at hk
    cases hk
    rfl
  split at h
  · -- a required relationship
    rename_i hreq
    have hreviewed : hasVerdict "VIOLATION" review = false → Reviewed requiredKeys review :=
      fun hv => ⟨⟨key, hkey⟩, fun _ _ _ => hv, fun k hk hk' => absurd (hone k hk' ▸ hreq) hk⟩
    split at h
    · rename_i hmissing
      cases h
      have hv := other_verdict (b := "VIOLATION") hmissing (by decide)
      have ho := other_verdict (b := "OBSERVED") hmissing (by decide)
      exact ⟨by simp [isObserved, hv, ho], hreviewed hv⟩
    · split at h
      · cases h
      · rename_i hobserved
        have ho : hasVerdict "OBSERVED" review = true := by simpa using hobserved
        have hv := other_verdict (b := "VIOLATION") ho (by decide)
        split at h
        · cases h
        · cases h
          exact ⟨by simp [isObserved, ho], hreviewed hv⟩
  · -- a forbidden relationship
    rename_i hreq
    have hreviewed : hasVerdict "OBSERVED" review = false → Reviewed requiredKeys review :=
      fun ho => ⟨⟨key, hkey⟩, fun k hk hk' => absurd (hone k hk' ▸ hk) hreq, fun _ _ _ => ho⟩
    split at h
    · rename_i habsent
      have hv := other_verdict (b := "VIOLATION") habsent (by decide)
      have ho := other_verdict (b := "OBSERVED") habsent (by decide)
      split at h
      · cases h
      · cases h
        exact ⟨by simp [isObserved, hv, ho], hreviewed ho⟩
    · split at h
      · cases h
      · rename_i hviolation
        have hv : hasVerdict "VIOLATION" review = true := by simpa using hviolation
        have ho := other_verdict (b := "OBSERVED") hv (by decide)
        split at h
        · cases h
        · cases h
          exact ⟨by simp [isObserved, hv], hreviewed ho⟩

/-! ## What the resolver gives -/

/-- Two relationships that `truthRelationKey` treats as equal. -/
def SameRelation (a b : Option Json) : Prop :=
  ∃ key, truthRelationKey a = .ok key ∧ truthRelationKey b = .ok key

def reviewsOf (q : ReviewedRun) (kind : String) : List Json := itemsOf (q.measurements.get? kind)

/-- The relationships that the reviews say are in the output, as the reviews write them. -/
def observedRelationships (q : ReviewedRun) : List Json :=
  (reviewsOf q "relationReviews").flatMap fun r =>
    if isObserved r then (r.get? "relationship").toList else []

/-- The ids of the anchors that the reviews say are in the output. -/
def observedAnchorIds (q : ReviewedRun) : List (Option Json) :=
  (reviewsOf q "anchorReviews").flatMap fun r =>
    if hasVerdict "OBSERVED" r then [r.get? "anchorId"] else []

/-- How many of the reviews have a verdict. -/
def verdictSample (q : ReviewedRun) (kind word : String) : Sample where
  total := (reviewsOf q kind).length
  part := ((reviewsOf q kind).map (hasVerdict word)).count true

/-- The reviews of the relationships fit the Truth Set. -/
structure RelationsReviewed (q : ReviewedRun) : Prop where
  unique : ∀ r ∈ reviewsOf q "relationReviews", ∀ s ∈ reviewsOf q "relationReviews",
    SameRelation (r.get? "relationship") (s.get? "relationship") → r = s
  required : ∀ r ∈ reviewsOf q "relationReviews", ∀ edge ∈ requiredRelationships q.truthSet,
    SameRelation (some edge) (r.get? "relationship") → hasVerdict "VIOLATION" r = false
  forbidden : ∀ r ∈ reviewsOf q "relationReviews", ∀ edge ∈ forbiddenRelationships q.truthSet,
    SameRelation (some edge) (r.get? "relationship") → hasVerdict "OBSERVED" r = false
  keyed : ∀ edge ∈ requiredRelationships q.truthSet ++ forbiddenRelationships q.truthSet,
    SameRelation (some edge) (some edge)

theorem collectKeys_ok {label : String} {assessed : List Json}
    {keys result : List String} (h : collectKeys label assessed relationships keys = .ok result) :
    ∃ added, result = keys ++ added ∧
      List.Forall₂ (fun r k => truthRelationKey (some r) = .ok k) relationships added := by
  induction relationships generalizing keys with
  | nil =>
    cases h
    exact ⟨[], by simp, .nil⟩
  | cons r rs ih =>
    unfold collectKeys at h
    obtain ⟨key, hkey, h⟩ := bind_ok h
    obtain ⟨parts, -, h⟩ := bind_ok h
    split at h
    · cases h
    · split at h
      · cases h
      · obtain ⟨added, hresult, hall⟩ := ih h
        exact ⟨key :: added, by simp [hresult], .cons hkey hall⟩

theorem relationshipKeys_ok {label : String} {assessed : List Json} {relationships : Option Json}
    {keys : List String} (h : relationshipKeys label assessed relationships = .ok keys) :
    List.Forall₂ (fun r k => truthRelationKey (some r) = .ok k) (itemsOf relationships) keys := by
  unfold relationshipKeys at h
  split at h
  · obtain ⟨added, hresult, hall⟩ := collectKeys_ok h
    rw [hresult]
    exact hall
  · cases h

/-- A Truth Set that was accepted requires and forbids different relationships. -/
theorem validateReviewedTruthSet_ok {truthSet : Json}
    (h : validateReviewedTruthSet truthSet = .ok ()) :
    truthSet.get? "status" = some (.str "SEALED") ∧
      ∃ requiredKeys forbiddenKeys,
        List.Forall₂ (fun r k => truthRelationKey (some r) = .ok k)
          (requiredRelationships truthSet) requiredKeys ∧
        List.Forall₂ (fun r k => truthRelationKey (some r) = .ok k)
          (forbiddenRelationships truthSet) forbiddenKeys ∧
        ∀ key ∈ forbiddenKeys, key ∉ requiredKeys := by
  unfold validateReviewedTruthSet at h
  obtain ⟨_, hsealed, h⟩ := bind_ok h
  obtain ⟨assessed, -, h⟩ := bind_ok h
  obtain ⟨requiredKeys, hrequired, h⟩ := bind_ok h
  obtain ⟨forbiddenKeys, hforbidden, h⟩ := bind_ok h
  split at h
  · cases h
  · rename_i hdisjoint
    refine ⟨?_, requiredKeys, forbiddenKeys, relationshipKeys_ok hrequired,
      relationshipKeys_ok hforbidden, ?_⟩
    · unfold requireSealed at hsealed
      split at hsealed
      · assumption
      · cases hsealed
    · simpa using hdisjoint

theorem forall₂_unique {f : Json → Except Failure String} {xs : List Json} {ks ls : List String}
    (hk : List.Forall₂ (fun r k => f r = .ok k) xs ks)
    (hl : List.Forall₂ (fun r k => f r = .ok k) xs ls) : ks = ls := by
  induction hk generalizing ls with
  | nil => cases hl; rfl
  | cons hr _ ih =>
    cases hl with
    | cons hr' hl =>
      rw [hr] at hr'
      cases hr'
      rw [ih hl]

theorem reviewKey_ok {key : String} (h : reviewKey review = .ok key) :
    truthRelationKey (review.get? "relationship") = .ok key := by
  unfold reviewKey at h
  split at h
  · cases h
  · exact h

theorem reviewRelations_ok {q : ReviewedRun} (hvalid : validateReviewedTruthSet q.truthSet = .ok ())
    (h : reviewRelations q.truthSet q.measurements q.semanticSurface observed =
      .ok relationships) :
    relationships = observedRelationships q ∧ RelationsReviewed q := by
  obtain ⟨-, requiredKeys, forbiddenKeys, hrequired, hforbidden, hdisjoint⟩ :=
    validateReviewedTruthSet_ok hvalid
  unfold reviewRelations at h
  obtain ⟨reviews, hreviews, h⟩ := bind_ok h
  obtain ⟨hitems, keys, hkeys, hdistinct⟩ := requireUniqueReviews_ok hreviews
  obtain ⟨readKeys, hread, h⟩ := bind_ok h
  obtain ⟨readForbidden, _, h⟩ := bind_ok h
  obtain ⟨readReviews, _, h⟩ := bind_ok h
  split at h
  · cases h
  · obtain ⟨parts, hparts, h⟩ := bind_ok h
    cases h
    have heq : readKeys = requiredKeys := forall₂_unique (mapM_ok hread) hrequired
    subst heq
    have hmap := mapM_ok_map (g := id) hparts fun r _ hr => (reviewRelation_ok hr).1
    have hkinds : ∀ r ∈ reviews, Reviewed readKeys r := by
      intro r hr
      obtain ⟨out, -, hout⟩ := exists_of_mem (mapM_ok hparts) hr
      exact (reviewRelation_ok hout).2
    have hnodup := (allDistinct_texts keys).mp hdistinct
    have hreviewKey : ∀ r ∈ reviews, ∀ key, truthRelationKey (r.get? "relationship") = .ok key →
        reviewKey r = .ok key := by
      intro r hr key hk
      obtain ⟨k, -, hrk⟩ := exists_of_mem (mapM_ok hkeys) hr
      rw [reviewKey_ok hrk] at hk
      cases hk
      exact hrk
    have hsame : reviewsOf q "relationReviews" = reviews := hitems
    constructor
    · rw [observedRelationships, hsame, List.flatMap_def, ← hmap, List.map_id]
    · refine ⟨?_, ?_, ?_, ?_⟩
      · rw [hsame]
        rintro r hr s hs ⟨key, hrk, hsk⟩
        exact eq_of_same_key (mapM_ok hkeys) hnodup hr hs (hreviewKey r hr key hrk)
          (hreviewKey s hs key hsk)
      · rw [hsame]
        rintro r hr edge he ⟨key, hek, hrk⟩
        obtain ⟨k, hk, hedge⟩ := exists_of_mem hrequired he
        rw [hek] at hedge
        cases hedge
        exact (hkinds r hr).required key hk hrk
      · rw [hsame]
        rintro r hr edge he ⟨key, hek, hrk⟩
        obtain ⟨k, hk, hedge⟩ := exists_of_mem hforbidden he
        rw [hek] at hedge
        cases hedge
        exact (hkinds r hr).forbidden key (hdisjoint key hk) hrk
      · intro edge he
        rcases List.mem_append.mp he with he | he
        · obtain ⟨key, -, hk⟩ := exists_of_mem hrequired he
          exact ⟨key, hk, hk⟩
        · obtain ⟨key, -, hk⟩ := exists_of_mem hforbidden he
          exact ⟨key, hk, hk⟩

theorem sampleOf_verdicts {reviews : Option Json} {keyOf : Json → Except Failure (Option Json)}
    {label word : String} {f : Json → Except Failure Bool} {items : List Json} {verdicts : List Bool}
    (hitems : requireUniqueReviews reviews keyOf strictEq label = .ok items)
    (hverdicts : items.mapM f = .ok verdicts)
    (hf : ∀ r b, f r = .ok b → b = hasVerdict word r) :
    verdicts = (itemsOf reviews).map (hasVerdict word) := by
  have hmap := mapM_ok_map (g := id) hverdicts hf
  rw [List.map_id] at hmap
  rw [hmap, (requireUniqueReviews_ok hitems).1]

theorem reviewAnchors_ok {q : ReviewedRun}
    (h : reviewAnchors q.truthSet q.measurements q.inventory = .ok observed) :
    observed.map (·.anchorId) = observedAnchorIds q := by
  unfold reviewAnchors at h
  obtain ⟨anchors, _, h⟩ := bind_ok h
  obtain ⟨reviews, hreviews, h⟩ := bind_ok h
  split at h
  · cases h
  · obtain ⟨parts, hparts, h⟩ := bind_ok h
    cases h
    have hmap := mapM_ok_map hparts fun r _ hr => reviewAnchor_ok hr
    have hsame : reviewsOf q "anchorReviews" = reviews := (requireUniqueReviews_ok hreviews).1
    rw [observedAnchorIds, hsame, List.flatMap_def, ← hmap, List.map_flatten]

/-- The input of the evaluation, in terms of the Truth Set, the reviews and the run. -/
structure Resolved (q : ReviewedRun) (input : EvaluationInput) : Prop where
  truthSet : input.truthSet = q.truthSet
  policy : input.policy = releaseGate
  anchors : input.observedAnchorIds = observedAnchorIds q
  relationships : input.observedRelationships = observedRelationships q
  inventory : input.inventory = { total := q.inventory.totalCount, part := q.inventory.disposedCount }
  candidates : input.candidateSample = verdictSample q "candidateReviews" "CORRECT"
  attributions : input.sourceAttribution =
    { total := (reviewsOf q "candidateReviews").length
      part := (reviewsOf q "candidateReviews").length }
  gaps : input.gaps = verdictSample q "gapReviews" "HONEST"
  replay : input.replay = equivalence q.equivalenceReport.replay
  full : input.incrementalComparison = equivalence q.equivalenceReport.full
  reviewed : RelationsReviewed q
  sealedSet : q.truthSet.get? "status" = some (.str "SEALED")
  independent : input.reviewerId = some q.reviewerId ∧
    input.implementationAuthorId = q.implementationAuthorId ∧
    q.reviewerId ≠ q.implementationAuthorId

section Resolver

variable {dateParse : String → Option Int} {q : ReviewedRun} {input : EvaluationInput}

theorem resolveEvaluation_ok (h : resolveEvaluation dateParse q = .ok input) : Resolved q input := by
  unfold resolveEvaluation at h
  obtain ⟨_, hcreate, h⟩ := bind_ok h
  obtain ⟨_, _, h⟩ := bind_ok h
  obtain ⟨derived, hderived, h⟩ := bind_ok h
  cases h
  unfold createReviewedUnderstandingEvaluationResolver at hcreate
  obtain ⟨_, hvalid, hcreate⟩ := bind_ok hcreate
  have hauthor : q.reviewerId ≠ q.implementationAuthorId := by
    split at hcreate
    · cases hcreate
    · split at hcreate
      · cases hcreate
      · assumption
  unfold deriveReviewedMeasurements at hderived
  split at hderived
  · cases hderived
  · obtain ⟨observed, hobserved, hderived⟩ := bind_ok hderived
    obtain ⟨candidates, hcandidates, hderived⟩ := bind_ok hderived
    obtain ⟨relationships, hrelationships, hderived⟩ := bind_ok hderived
    obtain ⟨gaps, hgaps, hderived⟩ := bind_ok hderived
    cases hderived
    obtain ⟨hseen, hreviewed⟩ := reviewRelations_ok hvalid hrelationships
    unfold reviewCandidates at hcandidates
    obtain ⟨candidateItems, hci, hcandidates⟩ := bind_ok hcandidates
    have hcandidates := sampleOf_verdicts hci hcandidates fun _ _ => reviewCandidate_ok
    unfold reviewGaps at hgaps
    obtain ⟨gapItems, hgi, hgaps⟩ := bind_ok hgaps
    have hgaps := sampleOf_verdicts hgi hgaps fun _ _ => reviewGap_ok
    exact
      { truthSet := rfl
        policy := rfl
        anchors := reviewAnchors_ok hobserved
        relationships := hseen
        inventory := rfl
        candidates := by simp [hcandidates, sampleOf, verdictSample, reviewsOf]
        attributions := by simp [hcandidates, reviewsOf]
        gaps := by simp [hgaps, sampleOf, verdictSample, reviewsOf]
        replay := rfl
        full := rfl
        reviewed := hreviewed
        sealedSet := (validateReviewedTruthSet_ok hvalid).1
        independent := ⟨rfl, rfl, hauthor⟩ }

end Resolver

/-! ## Reviewed relationships and the status -/

/-- The anchors of the Truth Set that the reviews say are in the output. -/
def anchorsFound (q : ReviewedRun) : List Json :=
  (itemsOf (q.truthSet.get? "anchors")).filter fun anchor =>
    (observedAnchorIds q).any fun id => strictEq id (anchor.get? "id")

/-- The counts meet the release gate, but for the relationships themselves. -/
structure CountGates (q : ReviewedRun) : Prop where
  inventory : meetsMinimum (some q.inventory.totalCount) 1 = true
  disposed : q.inventory.totalCount ≤ q.inventory.disposedCount
  anchors : meetsMinimum (some (itemsOf (q.truthSet.get? "anchors")).length) 30 = true
  recalled : 9 * (itemsOf (q.truthSet.get? "anchors")).length ≤ 10 * (anchorsFound q).length
  candidates : meetsMinimum (some (reviewsOf q "candidateReviews").length) 30 = true
  correct : 9 * (reviewsOf q "candidateReviews").length ≤
    10 * (verdictSample q "candidateReviews" "CORRECT").part
  required : meetsMinimum (some (requiredRelationships q.truthSet).length) 60 = true
  forbidden : meetsMinimum (some (forbiddenRelationships q.truthSet).length) 30 = true
  gaps : meetsMinimum (some (reviewsOf q "gapReviews").length) 1 = true
  honest : (reviewsOf q "gapReviews").length ≤ (verdictSample q "gapReviews" "HONEST").part
  replay : q.equivalenceReport.replay = true
  full : q.equivalenceReport.full = true

/-- The release gate is met, as far as it does not look at the forbidden relationships. -/
structure OtherGates (q : ReviewedRun) : Prop extends CountGates q where
  observed : ∀ edge ∈ requiredRelationships q.truthSet, ∃ r ∈ reviewsOf q "relationReviews",
    SameRelation (some edge) (r.get? "relationship") ∧ hasVerdict "OBSERVED" r = true

/-- The evaluation keeps to the reviews: a violation keeps it from passing, and a required
relationship that was observed counts. -/
structure KeepsReviews (q : ReviewedRun) (input : EvaluationInput) (e : Evaluation) : Prop where
  violations : (∃ r ∈ reviewsOf q "relationReviews", hasVerdict "VIOLATION" r = true) →
    e.status ≠ .PASSED
  observed : ∀ edge ∈ requiredRelationships q.truthSet, ∀ r ∈ reviewsOf q "relationReviews",
    SameRelation (some edge) (r.get? "relationship") → hasVerdict "OBSERVED" r = true →
    edge ∈ seenAmong input.observedRelationships (requiredRelationships input.truthSet)

/-- The reviews write the relationships that matter as the Truth Set writes them. -/
structure WrittenAlike (q : ReviewedRun) : Prop where
  observed : ∀ edge ∈ requiredRelationships q.truthSet, ∀ r ∈ reviewsOf q "relationReviews",
    SameRelation (some edge) (r.get? "relationship") → hasVerdict "OBSERVED" r = true →
    r.get? "relationship" = some edge
  violations : (∃ r ∈ reviewsOf q "relationReviews", hasVerdict "VIOLATION" r = true) →
    OtherGates q → ∃ r ∈ reviewsOf q "relationReviews", hasVerdict "VIOLATION" r = true ∧
      ∃ edge ∈ forbiddenRelationships q.truthSet, r.get? "relationship" = some edge

theorem mem_observedRelationships (q : ReviewedRun) (edge : Json) :
    edge ∈ observedRelationships q ↔ ∃ r ∈ reviewsOf q "relationReviews",
      isObserved r = true ∧ r.get? "relationship" = some edge := by
  simp only [observedRelationships, List.mem_flatMap]
  constructor
  · rintro ⟨r, hr, hmem⟩
    by_cases ho : isObserved r = true
    · simp only [ho, if_true, Option.mem_toList] at hmem
      exact ⟨r, hr, ho, hmem⟩
    · simp [ho] at hmem
  · rintro ⟨r, hr, ho, hrel⟩
    exact ⟨r, hr, by simp [ho, hrel]⟩

/-- The text of an edge is among the texts of the observed relationships only when the edge is. -/
theorem mem_seenAmong (observed relationships : List Json) (edge : Json) :
    edge ∈ seenAmong observed relationships ↔ edge ∈ relationships ∧ edge ∈ observed := by
  simp [seenAmong, Json.stringify_injective.eq_iff]

variable {e : Evaluation}

section Resolver

variable {q : ReviewedRun} {input : EvaluationInput}

/-- A required edge is counted when a review observes it in the same writing. -/
theorem required_seen_iff (h : Resolved q input) {edge : Json}
    (he : edge ∈ requiredRelationships q.truthSet) :
    edge ∈ seenAmong input.observedRelationships (requiredRelationships input.truthSet) ↔
      ∃ r ∈ reviewsOf q "relationReviews", hasVerdict "OBSERVED" r = true ∧
        r.get? "relationship" = some edge := by
  rw [mem_seenAmong, h.relationships, h.truthSet, mem_observedRelationships]
  obtain ⟨key, hkey, -⟩ := h.reviewed.keyed edge (List.mem_append.mpr (Or.inl he))
  constructor
  · rintro ⟨-, r, hr, ho, hrel⟩
    have hno := h.reviewed.required r hr edge he ⟨key, hkey, hrel ▸ hkey⟩
    simp only [isObserved, hno, Bool.or_false] at ho
    exact ⟨r, hr, ho, hrel⟩
  · rintro ⟨r, hr, ho, hrel⟩
    exact ⟨he, r, hr, by simp [isObserved, ho], hrel⟩

/-- A forbidden edge is counted when a review reports it as a violation in the same writing. -/
theorem forbidden_seen_iff (h : Resolved q input) :
    seenAmong input.observedRelationships (forbiddenRelationships input.truthSet) ≠ [] ↔
      ∃ r ∈ reviewsOf q "relationReviews", hasVerdict "VIOLATION" r = true ∧
        ∃ edge ∈ forbiddenRelationships q.truthSet, r.get? "relationship" = some edge := by
  constructor
  · intro hne
    obtain ⟨edge, hedge⟩ := List.exists_mem_of_ne_nil _ hne
    rw [mem_seenAmong, h.relationships, h.truthSet, mem_observedRelationships] at hedge
    obtain ⟨hf, r, hr, ho, hrel⟩ := hedge
    obtain ⟨key, hkey, -⟩ := h.reviewed.keyed edge (List.mem_append.mpr (Or.inr hf))
    have hno := h.reviewed.forbidden r hr edge hf ⟨key, hkey, hrel ▸ hkey⟩
    simp only [isObserved, hno, Bool.false_or] at ho
    exact ⟨r, hr, ho, edge, hf, hrel⟩
  · rintro ⟨r, hr, hv, edge, hf, hrel⟩
    apply List.ne_nil_of_mem (a := edge)
    rw [mem_seenAmong, h.relationships, h.truthSet, mem_observedRelationships]
    exact ⟨hf, r, hr, by simp [isObserved, hv], hrel⟩

theorem equivalence_reached (b : Bool) : (equivalence b).total ≤ (equivalence b).part ↔ b = true := by
  cases b <;> simp [equivalence]

theorem all_seen_iff (observed relationships : List Json) :
    relationships.length ≤ (seenAmong observed relationships).length ↔
      ∀ edge ∈ relationships, edge ∈ seenAmong observed relationships := by
  have hle : (seenAmong observed relationships).length ≤ relationships.length :=
    List.length_filter_le _ _
  have hall : (seenAmong observed relationships).length = relationships.length ↔
      ∀ edge ∈ relationships, decide (edge.stringify ∈ observed.map Json.stringify) = true :=
    List.length_filter_eq_length_iff
  constructor
  · intro h edge he
    exact List.mem_filter.mpr ⟨he, hall.mp (by omega) edge he⟩
  · intro h
    rw [hall.mpr fun edge he => (List.mem_filter.mp (h edge he)).2]

theorem evaluateUnderstanding_status {now : Instant} (h : evaluateUnderstanding now input = .ok e) :
    e.status = statusOf (input.policy.minimumDenominators.filterMap
        (missingDenominator (denominators input)))
      (input.policy.thresholds.filterMap (thresholdFailure (metrics input))) := by
  unfold evaluateUnderstanding at h
  split at h
  · cases h
  · split at h
    · cases h
    · split at h
      · cases h
      · cases h
        rfl

/-- The evaluation passes when the counts do, every required relationship is seen, and no
forbidden one is. -/
theorem passed_iff (h : Resolved q input) {now : Instant}
    (he : evaluateUnderstanding now input = .ok e) :
    e.status = .PASSED ↔ CountGates q ∧
      (∀ edge ∈ requiredRelationships q.truthSet,
        edge ∈ seenAmong input.observedRelationships (requiredRelationships input.truthSet)) ∧
      seenAmong input.observedRelationships (forbiddenRelationships input.truthSet) = [] := by
  have hfound : recalledAnchors input = anchorsFound q := by
    rw [recalledAnchors, anchorsFound, h.truthSet, h.anchors]
  rw [evaluateUnderstanding_status he, statusOf_passed, h.policy, no_missing_iff, no_failures_iff,
    all_seen_iff, hfound, h.inventory, h.candidates, h.attributions, h.gaps, h.replay, h.full]
  simp only [h.truthSet, equivalence_reached]
  constructor
  · rintro ⟨⟨m1, m2, m3, m4, m5, -, m6, -, -⟩, f1, f2, f3, f4, f5, -, f6, f7, f8⟩
    exact ⟨⟨m1, f1, m2, f2, m3, f3, m4, m5, m6, f6, f7, f8⟩, f4, f5⟩
  · rintro ⟨hc, hreq, hforb⟩
    exact ⟨⟨hc.inventory, hc.anchors, hc.candidates, hc.required, hc.forbidden, hc.candidates,
      hc.gaps, rfl, rfl⟩, hc.disposed, hc.recalled, hc.correct, hreq, hforb, by omega, hc.honest,
      hc.replay, hc.full⟩

/-- The evaluation keeps to the reviews exactly when they are written like the Truth Set. -/
theorem keeps_reviews_iff_written_alike_of_resolved (h : Resolved q input) {now : Instant}
    (he : evaluateUnderstanding now input = .ok e) :
    KeepsReviews q input e ↔ WrittenAlike q := by
  constructor
  · intro hk
    have hobserved : ∀ edge ∈ requiredRelationships q.truthSet,
        ∀ r ∈ reviewsOf q "relationReviews", SameRelation (some edge) (r.get? "relationship") →
        hasVerdict "OBSERVED" r = true → r.get? "relationship" = some edge := by
      intro edge hedge r hr hsame ho
      obtain ⟨s, hs, -, hrel⟩ := (required_seen_iff h hedge).mp (hk.observed edge hedge r hr hsame ho)
      obtain ⟨key, hkey, hrkey⟩ := hsame
      have heq : r = s := h.reviewed.unique r hr s hs ⟨key, hrkey, hrel ▸ hkey⟩
      exact heq ▸ hrel
    refine ⟨hobserved, ?_⟩
    intro hv hgates
    rw [← forbidden_seen_iff h]
    intro hnone
    refine hk.violations hv ((passed_iff h he).mpr ⟨hgates.toCountGates, ?_, hnone⟩)
    intro edge hedge
    obtain ⟨r, hr, hsame, ho⟩ := hgates.observed edge hedge
    exact (required_seen_iff h hedge).mpr ⟨r, hr, ho, hobserved edge hedge r hr hsame ho⟩
  · intro hw
    constructor
    · intro hv hpassed
      obtain ⟨hcounts, hseen, hnone⟩ := (passed_iff h he).mp hpassed
      refine (forbidden_seen_iff h).mpr (hw.violations hv ⟨hcounts, ?_⟩) hnone
      intro edge hedge
      obtain ⟨r, hr, ho, hrel⟩ := (required_seen_iff h hedge).mp (hseen edge hedge)
      obtain ⟨key, hkey, -⟩ := h.reviewed.keyed edge (List.mem_append.mpr (Or.inl hedge))
      exact ⟨r, hr, ⟨key, hkey, hrel ▸ hkey⟩, ho⟩
    · intro edge hedge r hr hsame ho
      exact (required_seen_iff h hedge).mpr ⟨r, hr, ho, hw.observed edge hedge r hr hsame ho⟩

/-- For every Truth Set and every reviewed measurement that the resolver accepts, the
evaluation keeps to the reviews exactly when they are written like the Truth Set. -/
theorem keeps_reviews_iff_written_alike {dateParse : String → Option Int} {now : Instant}
    {e : Evaluation} (h : resolveEvaluation dateParse q = .ok input)
    (he : evaluateUnderstanding now input = .ok e) : KeepsReviews q input e ↔ WrittenAlike q :=
  keeps_reviews_iff_written_alike_of_resolved (resolveEvaluation_ok h) he

end Resolver

/-! ## A violation in another form -/

def anchorName (i : Nat) : Json := .str (String.singleton (Char.ofNat (0x41 + i)))

def triple (predicate : String) (target source : Nat) : Json :=
  .arr [anchorName source, .str predicate, anchorName target]

/-- The same relationship as an object. -/
def tripleObject (predicate : String) (target source : Nat) : Json :=
  .obj [("subject", anchorName source), ("predicate", .str predicate),
    ("object", anchorName target)]

/-- A Truth Set of the size that the release gate asks for: thirty anchors in one file. -/
def smallTruthSet : Json :=
  .obj [("id", .str "T"), ("status", .str "SEALED"),
    ("assessedRelationPredicates", .arr [.str "USES", .str "OWNS", .str "HIDES"]),
    ("anchors", .arr ((List.range 30).map fun i =>
      .obj [("id", anchorName i), ("path", .str "index.js")])),
    ("requiredRelationships", .arr ((List.range 30).map (triple "USES" 0) ++
      (List.range 30).map (triple "USES" 1))),
    ("forbiddenRelationships", .arr (triple "HIDES" 0 0 ::
      (List.range 29).map (triple "OWNS" 0)))]

def relationReview (relationId verdict : String) (relationship : Json) : Json :=
  .obj [("relationship", relationship), ("relationId", .str relationId), ("verdict", .str verdict)]

/-- Everything is in the output, and one forbidden relationship too, which the review
reports as it is given. -/
def violationRun (violation : Json) : ReviewedRun where
  truthSet := smallTruthSet
  reviewerId := "R"
  implementationAuthorId := "TRAQEN-RUNTIME"
  measurements :=
    .obj [("truthSetVersionId", .str "T"), ("analysisRunId", .str "J"),
      ("snapshotManifestId", .str "S"), ("reviewerId", .str "R"), ("independent", .bool true),
      ("reviewedAt", .str "2026-08-03T00:00:00.000Z"), ("productionInputDigest", .str "production:D"),
      ("outputDigest", .str "O"),
      ("anchorReviews", .arr ((List.range 30).map fun i =>
        .obj [("anchorId", anchorName i), ("artifactId", .str "X"), ("verdict", .str "OBSERVED")])),
      ("candidateReviews", .arr ((List.range 30).map fun i =>
        .obj [("candidateId", .str (toString i)), ("verdict", .str "CORRECT"),
          ("evidenceRefIds", .arr [.str "F"])])),
      ("relationReviews", .arr (
        (List.range 30).map (fun i => relationReview "U" "OBSERVED" (triple "USES" 0 i)) ++
        (List.range 30).map (fun i => relationReview "U" "OBSERVED" (triple "USES" 1 i)) ++
        relationReview "H" "VIOLATION" violation ::
        (List.range 29).map (fun i => relationReview "" "ABSENT" (triple "OWNS" 0 i)))),
      ("gapReviews", .arr [.obj [("gapId", .str "G"), ("verdict", .str "HONEST")]])]
  job := { id := "J", projectId := "P", snapshotManifestId := "S" }
  inventory :=
    { inventoryDigest := "D", artifacts := [{ id := "X", relativePath := "index.js" }]
      totalCount := 1, disposedCount := 1 }
  candidateBundle :=
    { candidates := (List.range 30).map fun i =>
        { id := toString i, evidenceFactIds := ["F"], sourceSliceIds := [] }
      gapIds := ["G"] }
  semanticSurface :=
    { digest := "O"
      relations := [{ id := "U", sourceId := "X", predicate := "USES", targetId := "X" },
        { id := "H", sourceId := "X", predicate := "HIDES", targetId := "X" }] }
  equivalenceReport := { analysisRunId := "J", replay := true, full := true }

def readDate (_ : String) : Option Int := some 0

def noon : Instant := { time := 1767182400000, iso := "2025-12-31T12:00:00.000Z" }

def evaluateRun (q : ReviewedRun) : Except Failure Evaluation := do
  let input ← resolveEvaluation readDate q
  evaluateUnderstanding noon input

theorem evaluateRun_ok {q : ReviewedRun} (h : evaluateRun q = .ok e) :
    ∃ input, resolveEvaluation readDate q = .ok input ∧ evaluateUnderstanding noon input = .ok e :=
  bind_ok h

theorem evaluateRun_status (q : ReviewedRun) (status : EvaluationStatus)
    (h : (evaluateRun q).toOption.map (·.status) = some status) :
    ∃ e, evaluateRun q = .ok e ∧ e.status = status := by
  cases he : evaluateRun q with
  | error f => simp [he, Except.toOption] at h
  | ok e => exact ⟨e, rfl, by simpa [he, Except.toOption] using h⟩

/-- A violation that the review writes as an object, of a relationship that the Truth Set
writes as a triple, does not keep the evaluation from passing. -/
theorem violation_in_another_form_passes :
    ¬ ∀ (dateParse : String → Option Int) (now : Instant) (q : ReviewedRun)
      (input : EvaluationInput) (e : Evaluation), resolveEvaluation dateParse q = .ok input →
      evaluateUnderstanding now input = .ok e → KeepsReviews q input e := by
  intro h
  obtain ⟨e, he, hpassed⟩ := evaluateRun_status
    (violationRun (tripleObject "HIDES" 0 0)) .PASSED (by decide +kernel)
  obtain ⟨input, hresolved, hevaluated⟩ := evaluateRun_ok he
  refine (h readDate noon _ input e hresolved hevaluated).violations ?_ hpassed
  refine ⟨relationReview "H" "VIOLATION" (tripleObject "HIDES" 0 0), ?_, by decide⟩
  simp [reviewsOf, violationRun, itemsOf, Json.get?, List.lookup_cons]

/-- A Truth Set of one required relationship, which the review writes as the Truth Set does. -/
def smallRun : ReviewedRun where
  truthSet :=
    .obj [("id", .str "T"), ("status", .str "SEALED"),
      ("assessedRelationPredicates", .arr [.str "USES"]),
      ("anchors", .arr [.obj [("id", anchorName 0), ("path", .str "index.js")]]),
      ("requiredRelationships", .arr [triple "USES" 0 0]), ("forbiddenRelationships", .arr [])]
  reviewerId := "R"
  implementationAuthorId := "TRAQEN-RUNTIME"
  measurements :=
    .obj [("truthSetVersionId", .str "T"), ("analysisRunId", .str "J"),
      ("snapshotManifestId", .str "S"), ("reviewerId", .str "R"), ("independent", .bool true),
      ("reviewedAt", .str "2026-08-03T00:00:00.000Z"), ("productionInputDigest", .str "production:D"),
      ("outputDigest", .str "O"),
      ("anchorReviews", .arr [.obj [("anchorId", anchorName 0), ("artifactId", .str "X"),
        ("verdict", .str "OBSERVED")]]),
      ("candidateReviews", .arr []),
      ("relationReviews", .arr [relationReview "U" "OBSERVED" (triple "USES" 0 0)]),
      ("gapReviews", .arr [])]
  job := { id := "J", projectId := "P", snapshotManifestId := "S" }
  inventory :=
    { inventoryDigest := "D", artifacts := [{ id := "X", relativePath := "index.js" }]
      totalCount := 1, disposedCount := 1 }
  candidateBundle := { candidates := [], gapIds := [] }
  semanticSurface :=
    { digest := "O"
      relations := [{ id := "U", sourceId := "X", predicate := "USES", targetId := "X" }] }
  equivalenceReport := { analysisRunId := "J", replay := true, full := true }

theorem small_run_keeps_reviews :
    ∃ input e, resolveEvaluation readDate smallRun = .ok input ∧
      evaluateUnderstanding noon input = .ok e ∧ KeepsReviews smallRun input e := by
  obtain ⟨e, he, -⟩ := evaluateRun_status smallRun .NOT_EVALUATED (by decide +kernel)
  obtain ⟨input, hresolved, hevaluated⟩ := evaluateRun_ok he
  refine ⟨input, e, hresolved, hevaluated,
    (keeps_reviews_iff_written_alike hresolved hevaluated).mpr ⟨?_, ?_⟩⟩
  · intro edge hedge r hr _ _
    have hedge : edge = triple "USES" 0 0 := by
      simpa [requiredRelationships, smallRun, itemsOf, Json.get?, List.lookup_cons] using hedge
    have hr : r = relationReview "U" "OBSERVED" (triple "USES" 0 0) := by
      simpa [reviewsOf, smallRun, itemsOf, Json.get?, List.lookup_cons] using hr
    rw [hedge, hr]
    rfl
  · rintro ⟨r, hr, hv⟩
    have hr : r = relationReview "U" "OBSERVED" (triple "USES" 0 0) := by
      simpa [reviewsOf, smallRun, itemsOf, Json.get?, List.lookup_cons] using hr
    rw [hr] at hv
    exact absurd hv (by decide)

end Traqen.UnderstandingEvaluation
