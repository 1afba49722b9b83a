-- The record budget of a scope (`deterministic-facts/extraction/compile.js`): materials are taken
-- one by one, each behind its root; what an extractor wrote is taken back when the budget is spent.
-- The extractors and the relation phase are any sequences of the calls that they can make.
import Traqen.FactIdentity
import Traqen.Lib.Ledger
import Traqen.Lib.Throwing

open Js

namespace Traqen.CompileBudget

open FactIdentity Throwing Ledger
open OrderedMap (get?)

/-! ## Records -/

structure Object where
  objectId : String
  materialId : String
  kind : String
  name : String
  anchor : Anchor

structure Evidence where
  evidenceId : String
  materialId : String
  contentDigest : Option String
  anchor : Anchor
  evidenceKind : String

structure Fact where
  factId : String
  kind : String
  subjectId : String
  predicate : String
  targetId : Option String
  value : Option Anchor
  basis : String
  evidenceIds : List String
  ruleRef : Option RuleRef
  premiseFactIds : List String

structure Gap where
  gapId : String
  origin : String
  materialId : Option String
  capability : String
  code : String
  anchor : Option Anchor
  reason : Anchor

inductive MaterialKind where
  | JAVASCRIPT | TYPESCRIPT | SQL | JAVA | MARKDOWN | JSON | YAML | PROPERTIES | JUNIT_XML | IMAGE
  | UNSUPPORTED
  deriving Repr, DecidableEq

/-- `kind.toLowerCase()`. -/
def MaterialKind.lower : MaterialKind → String
  | JAVASCRIPT => "javascript"
  | TYPESCRIPT => "typescript"
  | SQL => "sql"
  | JAVA => "java"
  | MARKDOWN => "markdown"
  | JSON => "json"
  | YAML => "yaml"
  | PROPERTIES => "properties"
  | JUNIT_XML => "junit_xml"
  | IMAGE => "image"
  | UNSUPPORTED => "unsupported"

/-- The kinds whose text has to be decoded. -/
def MaterialKind.isText : MaterialKind → Bool
  | IMAGE | UNSUPPORTED => false
  | _ => true

/-- The kinds that need a rule. -/
def MaterialKind.isRuled : MaterialKind → Bool
  | UNSUPPORTED => false
  | _ => true

/-- A material as it comes, with what the decoders answer of it. -/
structure MaterialInput where
  componentId : String
  pathBytes : String
  /-- `decodePathBytes(pathBytes)`. -/
  rawPath : List Nat
  displayPath : Option String
  /-- `digest(bytes)`. -/
  bytesDigest : String
  /-- `utf8Text(bytes) !== null`. -/
  isUtf8 : Bool
  /-- `containsPrivateKey(text)`. -/
  privateKey : Bool
  contentAvailable : Bool
  contentDigest : Option String
  unavailableCode : Option String
  /-- `mediaKind(..)`, and the rule of the profile for it. -/
  kind : MaterialKind
  ruleRef : Option RuleRef

structure Material where
  input : MaterialInput
  materialId : String
  contentDigest : Option String
  /-- The id of `material.root`, once it is there. -/
  root : Option String

def Material.isStructured (m : Material) : Bool := m.input.ruleRef.any fun r => r.version = "2"

/-! ## State -/

structure State where
  objects : List Object
  evidence : List Evidence
  facts : List Fact
  gaps : List Gap
  /-- `linkCandidates`, `jsExports`, `jsImportedCalls`, `documentLinks`, `documentSections`,
  `javascriptModules`, `testReferences`, `sqlReferences`, `configReferences`, `technicalModules`. -/
  pending : Fin 10 → List Json
  objectById : List (String × Object)
  /-- `object.parentId`, by the id of the object. -/
  parentIds : List (String × String)
  structuredObjects : List (String × List Object)
  evidenceIdsSeen : List String
  factIdsSeen : List String
  gapIdsSeen : List String
  gapCounts : List (Option String × Int)
  extraRecords : Nat

def initial : State :=
  { objects := [], evidence := [], facts := [], gaps := [], pending := fun _ => []
    objectById := [], parentIds := [], structuredObjects := [], evidenceIdsSeen := []
    factIdsSeen := [], gapIdsSeen := [], gapCounts := [], extraRecords := 0 }

inductive Thrown where
  | ScopeRecordLimit
  | Failed (failure : Failure)
  | F002Error (code message : String) (status : Nat)
  deriving DecidableEq

abbrev Run (α : Type) : Type := Proc State Thrown α

/-- An identity that is refused ends the compilation. -/
def identified {α : Type} (x : Except Failure α) : Except Thrown α :=
  match x with
  | .ok a => .ok a
  | .error e => .error (.Failed e)

structure Budget where
  /-- `scopeRecordBudget === "atomic-material-v1"`. -/
  bounded : Bool
  recordLimit : Int
  reserved : Int

/-- `charge()`. -/
def charge (b : Budget) (s : State) : Except Thrown State :=
  if b.bounded = true ∧ b.recordLimit - b.reserved ≤ s.extraRecords then .error .ScopeRecordLimit
  else .ok { s with extraRecords := s.extraRecords + 1 }

/-! ## Snapshots -/

/-- `snapshot()`: the lengths of the arrays and the number of records that were charged. -/
structure Snapshot where
  objects : Nat
  evidence : Nat
  facts : Nat
  gaps : Nat
  pending : Fin 10 → Nat
  extraRecords : Nat

def snapshot (s : State) : Snapshot :=
  { objects := s.objects.length, evidence := s.evidence.length, facts := s.facts.length
    gaps := s.gaps.length, pending := fun i => (s.pending i).length
    extraRecords := s.extraRecords }

/-- `group.pop()` when the object is the last of its group. -/
def popGroup (groups : List (String × List Object)) (o : Object) : List (String × List Object) :=
  match get? groups o.materialId with
  | none => groups
  | some group =>
    if group.getLast?.any fun last => last.objectId = o.objectId then
      OrderedMap.set groups o.materialId group.dropLast
    else groups

/-- `rollback(before)`. -/
def rollback (before : Snapshot) (s : State) : State :=
  let objects := (s.objects.drop before.objects).reverse
  { objects := s.objects.take before.objects
    evidence := s.evidence.take before.evidence
    facts := s.facts.take before.facts
    gaps := s.gaps.take before.gaps
    pending := fun i => (s.pending i).take (before.pending i)
    objectById := (objects.map (·.objectId)).foldl OrderedMap.delete s.objectById
    parentIds := s.parentIds
    structuredObjects := objects.foldl popGroup s.structuredObjects
    evidenceIdsSeen := s.evidenceIdsSeen.filter fun id =>
      id ∉ (s.evidence.drop before.evidence).map (·.evidenceId)
    factIdsSeen := s.factIdsSeen.filter fun id => id ∉ (s.facts.drop before.facts).map (·.factId)
    gapIdsSeen := s.gapIdsSeen.filter fun id => id ∉ (s.gaps.drop before.gaps).map (·.gapId)
    gapCounts := (s.gaps.drop before.gaps).foldl
      (fun counts g => tally counts g.materialId (-1)) s.gapCounts
    extraRecords := before.extraRecords }

/-! ## Records that are added -/

section Add

variable (sha256 : String → String) (b : Budget)

/-- A new object is the last of its array and of its group, under the root of its material. -/
def pushObject (m : Material) (o : Object) (s : State) : State :=
  { s with
    objects := s.objects ++ [o]
    objectById := OrderedMap.set s.objectById o.objectId o
    parentIds :=
      match m.root.filter fun _ => m.isStructured with
      | some root => OrderedMap.set s.parentIds o.objectId root
      | none => OrderedMap.delete s.parentIds o.objectId
    structuredObjects :=
      if m.isStructured then
        OrderedMap.set s.structuredObjects m.materialId
          ((get? s.structuredObjects m.materialId).getD [] ++ [o])
      else s.structuredObjects }

/-- `addObject(material, kind, name, anchor)`, with the id of the object. -/
def addObject (m : Material) (kind name : String) (anchor : Anchor) : Run String := fun s =>
  match identified (createObjectId sha256 m.materialId kind anchor) with
  | .error e => (.error e, s)
  | .ok objectId =>
    if (get? s.objectById objectId).isSome then (.ok objectId, s)
    else
      match if kind = "MATERIAL" then .ok s else charge b s with
      | .error e => (.error e, s)
      | .ok u => (.ok objectId,
          pushObject m { objectId, materialId := m.materialId, kind, name, anchor } u)

/-- `addEvidence(material, anchor, evidenceKind)`. -/
def addEvidence (m : Material) (anchor : Anchor) (evidenceKind : String) : Run String := fun s =>
  match identified (createEvidenceId sha256 m.materialId m.contentDigest anchor evidenceKind) with
  | .error e => (.error e, s)
  | .ok evidenceId =>
    if evidenceId ∈ s.evidenceIdsSeen then (.ok evidenceId, s)
    else
      match charge b s with
      | .error e => (.error e, s)
      | .ok u => (.ok evidenceId,
          { u with
            evidenceIdsSeen := u.evidenceIdsSeen ++ [evidenceId]
            evidence := u.evidence ++
              [{ evidenceId, materialId := m.materialId, contentDigest := m.contentDigest, anchor
                 evidenceKind }] })

structure FactInput where
  subjectId : String
  predicate : String
  targetId : Option String
  value : Option Anchor
  basis : String
  anchor : Anchor
  evidenceKind : String
  premiseFactIds : List String

/-- The fact itself, once its evidence is there. -/
def recordFact (m : Material) (input : FactInput) (evidenceId : String) : Run Unit := fun s =>
  let value := if input.targetId.isSome then none else input.value
  match identified (createFactId sha256 input.subjectId input.predicate value input.targetId
      input.basis [evidenceId] m.input.ruleRef input.premiseFactIds) with
  | .error e => (.error e, s)
  | .ok factId =>
    if factId ∈ s.factIdsSeen then (.ok (), s)
    else
      match charge b s with
      | .error e => (.error e, s)
      | .ok u => (.ok (),
          { u with
            factIdsSeen := u.factIdsSeen ++ [factId]
            facts := u.facts ++
              [{ factId, kind := if input.targetId.isSome then "RELATION" else "PROPERTY"
                 subjectId := input.subjectId, predicate := input.predicate
                 targetId := input.targetId, value, basis := input.basis
                 evidenceIds := [evidenceId], ruleRef := m.input.ruleRef
                 premiseFactIds := input.premiseFactIds }] })

/-- `addFact({ .. })`. -/
def addFact (m : Material) (input : FactInput) : Run Unit :=
  andThen (addEvidence sha256 b m input.anchor input.evidenceKind) (recordFact sha256 b m input)

/-- `if (gapCounts.get(material.materialId)) charge()`. -/
def chargeGap (m : Material) (s : State) : Except Thrown State :=
  if countOf s.gapCounts (some m.materialId) ≠ 0 then charge b s else .ok s

/-- `addGap(material, capability, code, anchor, extraReason)`. -/
def addGap (m : Material) (capability code : String) (anchor : Option Anchor)
    (extraReason : Anchor) : Run Unit := fun s =>
  let reason := ("category", .str code) :: extraReason
  match identified (createGapId sha256 "F002" (some m.materialId) none capability code anchor
      reason) with
  | .error e => (.error e, s)
  | .ok gapId =>
    if gapId ∈ s.gapIdsSeen then (.ok (), s)
    else
      match chargeGap b m s with
      | .error e => (.error e, s)
      | .ok u => (.ok (),
          { u with
            gapCounts := tally u.gapCounts (some m.materialId) 1
            gapIdsSeen := u.gapIdsSeen ++ [gapId]
            gaps := u.gaps ++ [{ gapId, origin := "F002", materialId := some m.materialId
                                 capability, code, anchor, reason }] })

/-! ## Extractors -/

/-- What an extractor can call. -/
inductive Call where
  | object (kind name : String) (anchor : Anchor)
  | parent (objectId parentId : String)
  | evidence (anchor : Anchor) (evidenceKind : String)
  | fact (input : FactInput)
  | gap (capability code : String) (anchor : Option Anchor) (extraReason : Anchor)
  | push (array : Fin 10) (item : Json)
  | throw (failure : Failure)

/-- The call adds no object of the kind of a root. -/
def Call.isLeaf : Call → Bool
  | .object kind _ _ => kind ≠ "MATERIAL"
  | _ => true

def exec (m : Material) : Call → Run Unit
  | .object kind name anchor => andThen (addObject sha256 b m kind name anchor) fun _ => ret ()
  | .parent objectId parentId => modify fun s =>
      { s with parentIds := OrderedMap.set s.parentIds objectId parentId }
  | .evidence anchor evidenceKind =>
    andThen (addEvidence sha256 b m anchor evidenceKind) fun _ => ret ()
  | .fact input => addFact sha256 b m input
  | .gap capability code anchor extraReason => addGap sha256 b m capability code anchor extraReason
  | .push array item => modify fun s =>
      { s with pending := fun i => if i = array then s.pending i ++ [item] else s.pending i }
  | .throw failure => lift (.error (.Failed failure))

/-- `addFact({ subject, predicate: "contains", target: child, .. })` of one object. -/
def containChild (m : Material) (child : Object) : Run Unit := fun s =>
  match get? s.parentIds child.objectId with
  | none => (.ok (), s)
  | some parentId =>
    match get? s.objectById parentId with
    | none => (.error (.Failed { name := .TypeError, message := "" }), s)
    | some subject => addFact sha256 b m
        { subjectId := subject.objectId, predicate := "contains", targetId := some child.objectId
          value := none, basis := "DECLARED", anchor := child.anchor
          evidenceKind := "SOURCE_TEXT", premiseFactIds := [] } s

def containChildren (m : Material) : Run Unit := fun s =>
  if m.isStructured then
    forEach (containChild sha256 b m) ((get? s.structuredObjects m.materialId).getD []) s
  else (.ok (), s)

/-- The gap of a material that is not extracted. -/
def refusal (m : Material) : Option (String × String) :=
  if m.input.contentAvailable = false then
    some ("source", m.input.unavailableCode.getD "SOURCE_CONTENT_UNAVAILABLE")
  else if m.contentDigest ≠ some (m.input.contentDigest.getD m.input.bytesDigest) then
    some ("inventory", "CONTENT_DIGEST_MISMATCH")
  else if m.input.privateKey = true then
    some (m.input.kind.lower, "PRIVATE_KEY_MATERIAL_RESTRICTED")
  else if m.input.kind.isText = true ∧ m.input.isUtf8 = false then
    some (m.input.kind.lower, "TEXT_ENCODING_UNSUPPORTED")
  else if m.input.kind.isRuled = true ∧ m.input.ruleRef = none then
    some (m.input.kind.lower, "RULE_CAPABILITY_UNAVAILABLE")
  else none

/-- What the extractors call for a material, in the state where it is taken up. -/
abbrev Extractor := State → Material → List Call

/-- The `try` of one material. -/
def extractMaterial (extract : Extractor) (m : Material) : Run Unit := fun s =>
  match refusal m with
  | some (capability, code) => addGap sha256 b m capability code none [] s
  | none =>
    andThen (forEach (exec sha256 b m) (extract s m)) (fun _ => containChildren sha256 b m) s

/-- `{ limit: recordLimit, policy: "atomic-material-v1" }`. -/
def limitReason : Anchor :=
  [("limit", .num (Number.ofInt b.recordLimit)), ("policy", .str "atomic-material-v1")]

def rootAnchor (m : Material) : Anchor :=
  [("kind", .str "BINARY"), ("digest", FactIdentity.orNull m.contentDigest)]

/-- The root of the material. -/
def addRoot (m : Material) : Run Material :=
  andThen (addObject sha256 b m "MATERIAL" (m.input.displayPath.getD "[non-utf8-path]")
    (rootAnchor m)) fun root => ret { m with root := some root }

/-- The rest of a material, behind its root: all that its extractors say, or one gap. -/
def boundMaterial (extract : Extractor) (m : Material) : Run Unit := fun s =>
  match extractMaterial sha256 b extract m s with
  | (.error .ScopeRecordLimit, t) =>
    addGap sha256 b m "records" "SCOPE_RECORD_LIMIT" none (limitReason b) (rollback (snapshot s) t)
  | ended => ended

/-- One material. -/
def compileMaterial (extract : Extractor) (m : Material) : Run Material :=
  andThen (addRoot sha256 b m) fun m => andThen (boundMaterial sha256 b extract m) fun _ => ret m

/-- The materials in turn. -/
def compileMaterials (extract : Extractor) : List Material → Run (List Material)
  | [] => ret []
  | m :: ms => andThen (compileMaterial sha256 b extract m) fun m =>
      andThen (compileMaterials extract ms) fun ms => ret (m :: ms)

/-! ## Relations -/

/-- What the relation phase calls, each for the material at a place of the list. -/
abbrev Relations := State → List Material → List (Nat × Call)

def execRelation (materials : List Material) (call : Nat × Call) : Run Unit :=
  match materials[call.1]? with
  | none => lift (.error (.Failed { name := .TypeError, message := "" }))
  | some m => exec sha256 b m call.2

def limitRelations : Run Unit := fun s =>
  let reason : Anchor := [("category", .str "SCOPE_RECORD_LIMIT"),
    ("limit", .num (Number.ofInt b.recordLimit)), ("policy", .str "atomic-material-v1"),
    ("stage", .str "CROSS_MATERIAL_RELATIONS")]
  match identified (createGapId sha256 "F002" none none "records" "SCOPE_RECORD_LIMIT" none
      reason) with
  | .error e => (.error e, s)
  | .ok gapId => (.ok (),
      { s with gaps := s.gaps ++ [{ gapId, origin := "F002", materialId := none
                                    capability := "records", code := "SCOPE_RECORD_LIMIT"
                                    anchor := none, reason }] })

def relate (relations : Relations) (materials : List Material) : Run Unit := fun s =>
  match forEach (execRelation sha256 b materials) (relations s materials) s with
  | (.error .ScopeRecordLimit, t) => limitRelations sha256 b (rollback (snapshot s) t)
  | ended => ended

end Add

/-! ## The compilation -/

structure Input where
  workspaceId : String
  bundleId : String
  /-- `profile.extractionLimits`: the budget that is asked for, and its `maxRecords`. -/
  bounded : Bool
  maxRecords : Int
  materials : List MaterialInput

structure Result where
  materials : List Material
  objects : List Object
  evidence : List Evidence
  facts : List Fact
  gaps : List Gap

/-- The order of the materials: by component, then by the bytes of the path. -/
def precedes (a b : Material) : Prop :=
  a.input.componentId < b.input.componentId ∨
    a.input.componentId = b.input.componentId ∧ a.input.rawPath ≤ b.input.rawPath

instance (a b : Material) : Decidable (precedes a b) := by unfold precedes; exact inferInstance

section Compile

variable (sha256 : String → String)

def materialOf (workspaceId bundleId : String) (input : MaterialInput) :
    Except Failure Material := do
  let materialId ← createMaterialId sha256 workspaceId bundleId input.componentId input.pathBytes
  return { input, materialId, root := none
           contentDigest := if input.contentAvailable then some input.bytesDigest
             else input.contentDigest }

def normalized (input : Input) : Except Failure (List Material) := do
  let materials ← input.materials.mapM (materialOf sha256 input.workspaceId input.bundleId)
  return materials.insertionSort precedes

def budgetOf (input : Input) : Budget :=
  { bounded := input.bounded, recordLimit := input.maxRecords
    reserved := input.materials.length * 3 + 1 }

/-- What the budget itself has to be. -/
def checkBudget (input : Input) : Except Thrown Unit :=
  if input.bounded = true ∧ ¬ (1 ≤ input.maxRecords ∧ input.maxRecords ≤ 500000) then
    .error (.Failed { name := .TypeError, message := "invalid scope record budget" })
  else if input.bounded = true ∧ input.maxRecords < (budgetOf input).reserved then
    .error (.F002Error "F002_SCOPE_RECORD_BUDGET_TOO_SMALL"
      "当前记录预算不足以保留完整材料目录与限制；请按范围提取" 422)
  else .ok ()

def resultOf (materials : List Material) (s : State) : Result :=
  { materials
    objects := s.objects.insertionSort fun a b => a.objectId ≤ b.objectId
    evidence := s.evidence.insertionSort fun a b => a.evidenceId ≤ b.evidenceId
    facts := s.facts.insertionSort fun a b => a.factId ≤ b.factId
    gaps := s.gaps.insertionSort fun a b => a.gapId ≤ b.gapId }

/-- `compileDeterministicFacts`, with what its extractors and its relation phase call. -/
def compile (input : Input) (extract : Extractor) (relations : Relations) :
    Except Thrown Result := do
  checkBudget input
  let materials ← identified (normalized sha256 input)
  let b := budgetOf input
  match compileMaterials sha256 b extract materials initial with
  | (.error e, _) => .error e
  | (.ok materials, s) =>
    match relate sha256 b relations materials s with
    | (.error e, _) => .error e
    | (.ok (), t) => .ok (resultOf materials t)

end Compile

end Traqen.CompileBudget
