-- The inventory of a snapshot's artifacts (`domain/artifact-inventory.js`) and the plan of the
-- work units that read them (`analysis/understanding-planner.js`): the artifacts of one lane and
-- module, in the order of the inventory, are cut into shards by their position.
import Traqen.CanonicalText
import Traqen.Facts
import Traqen.Lib.CodeUnits
import Traqen.Lib.Grouping

open Js

namespace Traqen.UnderstandingPlanner

open ExecutionEvidence (isSha256Digest)
open Facts (textOrNull)

/-! ## The artifact inventory -/

def artifactDispositions : List String :=
  ["INCLUDED", "EXCLUDED_BY_POLICY", "UNSUPPORTED", "GENERATED", "BINARY", "OVERSIZED",
    "SECRET_REDACTED", "READ_FAILED"]

/-- `text.split("/")`. -/
def pathParts (text : String) : List String := (text.toList.splitOn '/').map String.ofList

/-- The path neither starts at the root nor goes up. -/
def staysInside (relativePath : String) : Bool :=
  relativePath.toList.head? ≠ some '/' && ".." ∉ pathParts relativePath

structure Artifact where
  id : String
  relativePath : String
  artifactKinds : List String
  mediaType : String
  language : Json
  sizeBytes : Number
  contentDigest : String
  disposition : String
  reasonCode : Option String
  inside : staysInside relativePath = true
deriving DecidableEq

def Artifact.toJson (a : Artifact) : Json :=
  .obj [("id", .str a.id), ("relativePath", .str a.relativePath),
    ("artifactKinds", .arr (a.artifactKinds.map .str)), ("mediaType", .str a.mediaType),
    ("language", a.language), ("sizeBytes", .num a.sizeBytes),
    ("contentDigest", .str a.contentDigest), ("disposition", .str a.disposition),
    ("reasonCode", textOrNull a.reasonCode)]

/-- No two artifacts have one id, or one path. -/
structure Inventory where
  id : String
  projectId : String
  snapshotManifestId : String
  sourceDigest : String
  scannerVersion : String
  isSealed : Bool
  artifacts : List Artifact
  createdAt : String
  uniqueIds : (artifacts.map (·.id)).Nodup
  uniquePaths : (artifacts.map (·.relativePath)).Nodup

/-- `first ?? second`. -/
def firstGiven (first second : Option Json) : Option Json :=
  match first with
  | none | some .null => second
  | _ => first

def requireDigest (value : Option Json) (fieldName : String) : Except Failure String := do
  let digest ← requireNonEmptyString value fieldName
  if isSha256Digest digest then return digest
  else typeError (fieldName ++ " must be a SHA-256 digest")

/-- `s.replaceAll("\\", "/")`. -/
def forwardSlashes (s : String) : String :=
  String.ofList (s.toList.map fun c => if c = '\\' then '/' else c)

/-- The reason why an artifact is not included. -/
def reasonCodeOf (artifact : List (String × Json)) (disposition fieldName : String) :
    Except Failure (Option String) :=
  if disposition = "INCLUDED" then .ok none
  else do
    let reason ← requireNonEmptyString
      (firstGiven (artifact.lookup "reasonCode") (artifact.lookup "reason"))
      (fieldName ++ ".reasonCode")
    return some reason

/-- `artifact.artifactKinds ?? (artifact.kind ? [artifact.kind] : [])`. -/
def givenKinds (artifact : List (String × Json)) : Json :=
  nullish (artifact.lookup "artifactKinds")
    (if truthy (artifact.lookup "kind") then .arr (artifact.lookup "kind").toList else .arr [])

def artifactKindsOf (artifact : List (String × Json)) (fieldName : String) :
    Except Failure (List String) :=
  match givenKinds artifact with
  | .arr (kind :: kinds) =>
    if (kind :: kinds).all fun k => isText (some k) && decide (k ≠ .str "") then
      .ok (sortTexts (((kind :: kinds).map Json.toText).eraseDups))
    else typeError (fieldName ++ ".artifactKinds must contain at least one kind")
  | _ => typeError (fieldName ++ ".artifactKinds must contain at least one kind")

/-- `Number.isSafeInteger(v) && v >= 0`. -/
def safeSize? : Option Json → Option Number
  | some (.num n) =>
    if n.isInteger && decide (0 ≤ n.toInt) && decide (n.toInt < 2 ^ 53) then some n else none
  | _ => none

def sizeBytesOf (artifact : List (String × Json)) (fieldName : String) : Except Failure Number :=
  match safeSize? (firstGiven (artifact.lookup "sizeBytes") (artifact.lookup "byteSize")) with
  | some n => .ok n
  | none => typeError (fieldName ++ ".sizeBytes must be a non-negative integer")

def normalizeArtifact (index : Nat) (value : Json) : Except Failure Artifact :=
  let fieldName := "artifacts[" ++ toString index ++ "]"
  match value with
  | .obj artifact => do
    let disposition ← requireNonEmptyString (artifact.lookup "disposition")
      (fieldName ++ ".disposition")
    if disposition ∉ artifactDispositions then
      typeError (fieldName ++ ".disposition is unsupported")
    else
      let reasonCode ← reasonCodeOf artifact disposition fieldName
      let givenPath ← requireNonEmptyString
        (firstGiven (artifact.lookup "relativePath") (artifact.lookup "path"))
        (fieldName ++ ".relativePath")
      if inside : staysInside (forwardSlashes givenPath) = true then
        let artifactKinds ← artifactKindsOf artifact fieldName
        let id ← requireNonEmptyString (artifact.lookup "id") (fieldName ++ ".id")
        let mediaType ← requireNonEmptyString
          (some (nullish (artifact.lookup "mediaType") (.str "application/octet-stream")))
          (fieldName ++ ".mediaType")
        let sizeBytes ← sizeBytesOf artifact fieldName
        let contentDigest ← requireDigest (artifact.lookup "contentDigest")
          (fieldName ++ ".contentDigest")
        return {
          id
          relativePath := forwardSlashes givenPath
          artifactKinds, mediaType
          language := nullish (artifact.lookup "language") .null
          sizeBytes, contentDigest, disposition, reasonCode, inside }
      else typeError (fieldName ++ ".relativePath must stay within the Snapshot")
  | _ => typeError (fieldName ++ " must be an object")

/-- By path, then by id. -/
def artifactLe (localeCompare : String → String → Ordering) (a b : Artifact) : Prop :=
  (localeCompare a.relativePath b.relativePath).then (localeCompare a.id b.id) ≠ .gt

instance (localeCompare : String → String → Ordering) : DecidableRel (artifactLe localeCompare) :=
  fun a b => inferInstanceAs
    (Decidable ((localeCompare a.relativePath b.relativePath).then (localeCompare a.id b.id) ≠ .gt))

/-- `(input.artifacts ?? []).map(...)`. -/
def artifactItems (input : List (String × Json)) : Except Failure (List Json) :=
  match nullish (input.lookup "artifacts") (.arr []) with
  | .arr items => .ok items
  | _ => typeError "(input.artifacts ?? []).map is not a function"

def createArtifactInventory (sha256 : String → String)
    (localeCompare : String → String → Ordering) (clock : Instant) (input : Option Json) :
    Except Failure Inventory :=
  match input with
  | some (.obj fields) => do
    let items ← artifactItems fields
    let normalized ← items.zipIdx.mapM fun (item, index) => normalizeArtifact index item
    let artifacts := normalized.insertionSort (artifactLe localeCompare)
    if uniqueIds : (artifacts.map (·.id)).Nodup then
      if uniquePaths : (artifacts.map (·.relativePath)).Nodup then
        let projectId ← requireNonEmptyString (fields.lookup "projectId") "projectId"
        let snapshotManifestId ←
          requireNonEmptyString (fields.lookup "snapshotManifestId") "snapshotManifestId"
        let sourceDigest ← requireDigest (fields.lookup "sourceDigest") "sourceDigest"
        let scannerVersion ← requireNonEmptyString (fields.lookup "scannerVersion") "scannerVersion"
        let isSealed := strictEq (fields.lookup "sealed") (some (.bool true))
        if isSealed && artifacts.isEmpty then typeError "sealed inventory must contain artifacts"
        else
          return {
            id := contentId sha256 "ARTIFACT-INVENTORY" (.obj [("projectId", .str projectId),
              ("snapshotManifestId", .str snapshotManifestId), ("sourceDigest", .str sourceDigest),
              ("scannerVersion", .str scannerVersion), ("sealed", .bool isSealed),
              ("artifacts", .arr (artifacts.map (·.toJson)))])
            projectId, snapshotManifestId, sourceDigest, scannerVersion, isSealed, artifacts
            createdAt := clock.iso
            uniqueIds, uniquePaths }
      else typeError "artifacts must have unique relative paths"
    else typeError "artifacts must have unique ids"
  | _ => typeError "artifact inventory input must be an object"

/-! ## Lanes and modules -/

/-- The functions that every object inherits, so that a kind of this name finds one. -/
def inheritedFunctions : List String :=
  ["toString", "toLocaleString", "valueOf", "hasOwnProperty", "isPrototypeOf",
    "propertyIsEnumerable", "__defineGetter__", "__defineSetter__", "__lookupGetter__",
    "__lookupSetter__"]

def functionText (name : String) : String := "function " ++ name ++ "() \x7b [native code] \x7d"

/-- `laneByKind[kind]`, as the text it has in the key of a group. -/
def laneByKind (kind : String) : Option String :=
  if kind = "DOCUMENT" || kind = "CONTRACT" then some "DOCUMENT_CONTRACT"
  else if kind = "TEST" || kind = "CONFIG" || kind = "RESULT" then some "TEST_CONFIG_RESULT"
  else if kind = "constructor" then some (functionText "Object")
  else if kind = "__proto__" then some "[object Object]"
  else if kind ∈ inheritedFunctions then some (functionText kind)
  else none

def laneFor (artifact : Artifact) : String :=
  if artifact.disposition ≠ "INCLUDED" then "GAP"
  else (artifact.artifactKinds.findSome? laneByKind).getD "DIRECT_SOURCE"

def moduleFor (path : String) : String :=
  match pathParts path with
  | [] | [_] => "."
  | first :: second :: rest =>
    if first ∈ ["src", "test", "tests", "docs", "contracts", "web"] then
      if rest.isEmpty then first else first ++ "/" ++ second
    else first

/-- The key of a group, with a NUL between lane and module. -/
def groupKeyOf (artifact : Artifact) : String :=
  laneFor artifact ++ "\x00" ++ moduleFor artifact.relativePath

/-- `groupKey.split("\u0000")`. -/
def keyParts (groupKey : String) : List String :=
  (groupKey.toList.splitOn '\x00').map String.ofList

/-! ## Shards -/

structure ArtifactRange where
  artifactId : String
  contentDigest : String
  endByte : Number
deriving DecidableEq

def ArtifactRange.toJson (r : ArtifactRange) : Json :=
  .obj [("artifactId", .str r.artifactId), ("contentDigest", .str r.contentDigest),
    ("startByte", .num (Number.ofNat 0)), ("endByte", .num r.endByte)]

def rangeOf (artifact : Artifact) : ArtifactRange :=
  ⟨artifact.id, artifact.contentDigest, artifact.sizeBytes⟩

/-- What a partition is made from. -/
structure Shard where
  lane : String
  locality : String
  shard : Nat
  artifactRanges : List ArtifactRange
deriving DecidableEq

def Shard.artifactIds (s : Shard) : List String := s.artifactRanges.map (·.artifactId)

/-- A gap is read by no leaf unit. -/
def Shard.isLeaf (s : Shard) : Bool := s.lane ≠ "GAP"

/-- The records of a group, `maxArtifacts` at a time. -/
def shardsOfGroup (maxArtifacts : Nat) (group : String × List Artifact) : List Shard :=
  (List.range ((group.2.length + maxArtifacts - 1) / maxArtifacts)).map fun k =>
    { lane := (keyParts group.1).getD 0 ""
      locality := (keyParts group.1).getD 1 ""
      shard := k
      artifactRanges := ((group.2.drop (k * maxArtifacts)).take maxArtifacts).map rangeOf }

def groupLe (localeCompare : String → String → Ordering) (a b : String × List Artifact) : Prop :=
  localeCompare a.1 b.1 ≠ .gt

instance (localeCompare : String → String → Ordering) : DecidableRel (groupLe localeCompare) :=
  fun a b => inferInstanceAs (Decidable (localeCompare a.1 b.1 ≠ .gt))

def shardsOf (localeCompare : String → String → Ordering) (maxArtifacts : Nat)
    (artifacts : List Artifact) : List Shard :=
  ((Grouping.groupsOf groupKeyOf artifacts).insertionSort (groupLe localeCompare)).flatMap
    (shardsOfGroup maxArtifacts)

/-! ## The plan -/

structure Versions where
  plannerVersion : String
  conventionVersion : String
  executionPolicyDigest : String
deriving DecidableEq

def Versions.fields (v : Versions) : List (String × Json) :=
  [("plannerVersion", .str v.plannerVersion), ("conventionVersion", .str v.conventionVersion),
    ("executionPolicyDigest", .str v.executionPolicyDigest)]

structure Partition where
  id : String
  lane : String
  locality : String
  artifactIds : List String
  disposition : String
  inputDigest : String
deriving DecidableEq

def Partition.toJson (p : Partition) : Json :=
  .obj [("id", .str p.id), ("lane", .str p.lane), ("locality", .str p.locality),
    ("artifactIds", .arr (p.artifactIds.map .str)), ("disposition", .str p.disposition),
    ("inputDigest", .str p.inputDigest)]

inductive UnitKind where
  | GAP
  | LEAF
  | MODULE_SYNTHESIS
  | PROJECT_SYNTHESIS
deriving DecidableEq, Repr

def UnitKind.text : UnitKind → String
  | .GAP => "GAP"
  | .LEAF => "LEAF"
  | .MODULE_SYNTHESIS => "MODULE_SYNTHESIS"
  | .PROJECT_SYNTHESIS => "PROJECT_SYNTHESIS"

structure WorkUnit where
  id : String
  partitionId : Option String
  kind : UnitKind
  dependencies : List String
  artifactIds : List String
  inputDigest : String
deriving DecidableEq

def WorkUnit.toJson (u : WorkUnit) : Json :=
  .obj [("id", .str u.id), ("partitionId", textOrNull u.partitionId), ("kind", .str u.kind.text),
    ("dependencies", .arr (u.dependencies.map .str)), ("artifactIds", .arr (u.artifactIds.map .str)),
    ("inputDigest", .str u.inputDigest)]

structure UnderstandingPlan where
  id : String
  projectId : String
  snapshotManifestId : String
  inventoryId : String
  versions : Versions
  partitions : List Partition
  workUnits : List WorkUnit
  artifactCount : Nat
  assignedCount : Nat
  unassignedCount : Int
  planDigest : String
  createdAt : String

section Units

variable (sha256 : String → String) (versions : Versions)

def partitionIdentity (s : Shard) : Json :=
  .obj ([("lane", .str s.lane), ("locality", .str s.locality),
    ("shard", .num (Number.ofNat s.shard)),
    ("artifactRanges", .arr (s.artifactRanges.map (·.toJson)))] ++ versions.fields)

def partitionId (s : Shard) : String :=
  contentId sha256 "UNDERSTANDING-PARTITION" (partitionIdentity versions s)

def partitionOf (s : Shard) : Partition where
  id := partitionId sha256 versions s
  lane := s.lane
  locality := s.locality
  artifactIds := s.artifactIds
  disposition :=
    if s.lane = "GAP" then "EXPLICIT_GAP"
    else if s.lane = "DIRECT_SOURCE" then "DIRECT_SOURCE"
    else "SPECIALIST"
  inputDigest := contentId sha256 "INPUT" (partitionIdentity versions s)

def leafIdentity (partitionId : String) : Json :=
  .obj [("partitionId", .str partitionId), ("kind", .str "LEAF")]

def leafUnit (p : Partition) : WorkUnit where
  id := contentId sha256 "UNDERSTANDING-WORK-UNIT" (leafIdentity p.id)
  partitionId := some p.id
  kind := if p.lane = "GAP" then .GAP else .LEAF
  dependencies := []
  artifactIds := p.artifactIds
  inputDigest := p.inputDigest

/-- `partitions.find(({ id }) => id === unit.partitionId)?.locality`. -/
def localityOf (partitions : List Partition) (u : WorkUnit) : Option String :=
  (partitions.find? fun p => some p.id = u.partitionId).map (·.locality)

def moduleDependencies (partitions : List Partition) (units : List WorkUnit) (locality : String) :
    List String :=
  sortTexts ((units.filter fun u => localityOf partitions u = some locality && u.kind = .LEAF).map
    (·.id))

def moduleIdentity (locality : String) (dependencies : List String) : Json :=
  .obj [("locality", .str locality), ("dependencies", .arr (dependencies.map .str)),
    ("kind", .str "MODULE_SYNTHESIS")]

def moduleUnit (locality : String) (dependencies : List String) : WorkUnit where
  id := contentId sha256 "UNDERSTANDING-WORK-UNIT" (moduleIdentity locality dependencies)
  partitionId := none
  kind := .MODULE_SYNTHESIS
  dependencies := dependencies
  artifactIds := []
  inputDigest := contentId sha256 "INPUT" (.obj ([("locality", .str locality),
    ("dependencies", .arr (dependencies.map .str))] ++ versions.fields))

/-- The modules that have a leaf unit, in the order of their names. -/
def moduleUnits (partitions : List Partition) (units : List WorkUnit) : List WorkUnit :=
  (sortTexts ((partitions.map (·.locality)).eraseDups)).filterMap fun locality =>
    let dependencies := moduleDependencies partitions units locality
    if dependencies.isEmpty then none else some (moduleUnit sha256 versions locality dependencies)

def projectIdentity (dependencies : List String) : Json :=
  .obj [("dependencies", .arr (dependencies.map .str)), ("kind", .str "PROJECT_SYNTHESIS")]

def projectUnit (dependencies : List String) : WorkUnit where
  id := contentId sha256 "UNDERSTANDING-WORK-UNIT" (projectIdentity dependencies)
  partitionId := none
  kind := .PROJECT_SYNTHESIS
  dependencies := dependencies
  artifactIds := []
  inputDigest := contentId sha256 "INPUT" (.obj ([("dependencies",
    .arr (dependencies.map .str))] ++ versions.fields))

def projectUnits (modules : List WorkUnit) : List WorkUnit :=
  let dependencies := sortTexts (modules.map (·.id))
  if dependencies.isEmpty then [] else [projectUnit sha256 versions dependencies]

def workUnitsOf (partitions : List Partition) : List WorkUnit :=
  let leaves := partitions.map (leafUnit sha256)
  let modules := moduleUnits sha256 versions partitions leaves
  leaves ++ modules ++ projectUnits sha256 versions modules

end Units

structure PlanInput where
  inventory : Option Inventory
  plannerVersion : Option Json
  conventionVersion : Option Json
  executionPolicyDigest : Option Json
  truthSetDigest : Option Json
  truthSet : Option Json
  truthSetAnswers : Option Json
  maxArtifactsPerPartition : Option Json

def requireVersion (name : String) : Option Json → Except Failure String
  | some (.str s) => if isBlank s then typeError (name ++ " is required") else .ok s
  | _ => typeError (name ++ " is required")

def requireVersions (input : PlanInput) : Except Failure Versions := do
  let plannerVersion ← requireVersion "plannerVersion" input.plannerVersion
  let conventionVersion ← requireVersion "conventionVersion" input.conventionVersion
  let executionPolicyDigest ← requireVersion "executionPolicyDigest" input.executionPolicyDigest
  return { plannerVersion, conventionVersion, executionPolicyDigest }

/-- Between 1 and 1000. -/
def maxArtifactsOf (value : Option Json) : Except Failure Nat :=
  match safeSize? (some (nullish value (.num (Number.ofNat 32)))) with
  | some n =>
    if 1 ≤ n.toInt && n.toInt ≤ 1000 then .ok n.toInt.toNat
    else rangeError "maxArtifactsPerPartition must be between 1 and 1000"
  | none => rangeError "maxArtifactsPerPartition must be between 1 and 1000"

/-- The plan of these partitions. -/
def planOf (sha256 : String → String) (clock : Instant) (inventory : Inventory)
    (versions : Versions) (partitions : List Partition) (assigned : List String) :
    UnderstandingPlan :=
  let workUnits := workUnitsOf sha256 versions partitions
  let identity : Json := .obj ([("projectId", .str inventory.projectId),
    ("snapshotManifestId", .str inventory.snapshotManifestId),
    ("inventoryId", .str inventory.id)] ++ versions.fields ++
    [("partitions", .arr (partitions.map (·.toJson))),
      ("workUnits", .arr (workUnits.map (·.toJson)))])
  { id := contentId sha256 "UNDERSTANDING-PLAN" identity
    projectId := inventory.projectId
    snapshotManifestId := inventory.snapshotManifestId
    inventoryId := inventory.id
    versions, partitions, workUnits
    artifactCount := inventory.artifacts.length
    assignedCount := assigned.length
    unassignedCount := inventory.artifacts.length - assigned.eraseDups.length
    planDigest := contentId sha256 "PLAN" (.str (canonicalJson identity))
    createdAt := clock.iso }

def createUnderstandingPlan (sha256 : String → String)
    (localeCompare : String → String → Ordering) (clock : Instant) (input : PlanInput) :
    Except Failure UnderstandingPlan :=
  match input.inventory.filter (·.isSealed) with
  | none => typeError "a sealed ArtifactInventory is required"
  | some inventory => do
    let versions ← requireVersions input
    if truthy input.truthSetDigest || truthy input.truthSet || truthy input.truthSetAnswers then
      typeError "production UnderstandingPlan cannot contain Truth Set material"
    else
      let maxArtifacts ← maxArtifactsOf input.maxArtifactsPerPartition
      let partitions := (shardsOf localeCompare maxArtifacts inventory.artifacts).map
        (partitionOf sha256 versions)
      let assigned := partitions.flatMap (·.artifactIds)
      if assigned.eraseDups.length ≠ inventory.artifacts.length ||
          assigned.length ≠ inventory.artifacts.length then
        typeError "UnderstandingPlan must assign every ArtifactInventory record exactly once"
      else return planOf sha256 clock inventory versions partitions assigned

end Traqen.UnderstandingPlanner
