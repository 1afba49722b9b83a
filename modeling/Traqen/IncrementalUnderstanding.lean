-- What an incremental run does again (`application/incremental-understanding.js`): the files
-- that changed, the work units that read them, and every unit that depends on one of these. All
-- other units are reused.
import Traqen.UnderstandingPlanner
import Traqen.Lib.Worklist

open Js

namespace Traqen.IncrementalUnderstanding

open UnderstandingPlanner (Artifact Inventory UnderstandingPlan WorkUnit Partition UnitKind)

/-! ## Changes -/

inductive ChangeType where
  | ADDED
  | REMOVED
  | MODIFIED
deriving DecidableEq, Repr

def ChangeType.text : ChangeType → String
  | .ADDED => "ADDED"
  | .REMOVED => "REMOVED"
  | .MODIFIED => "MODIFIED"

structure Change where
  path : String
  type : ChangeType
  beforeArtifactId : Option String
  afterArtifactId : Option String
deriving DecidableEq

def Change.toJson (c : Change) : Json :=
  .obj [("path", .str c.path), ("type", .str c.type.text),
    ("beforeArtifactId", Facts.textOrNull c.beforeArtifactId),
    ("afterArtifactId", Facts.textOrNull c.afterArtifactId)]

/-- An inventory with its plan. -/
structure Snapshot where
  inventory : Inventory
  plan : UnderstandingPlan

def artifactsByPath (artifacts : List Artifact) : List (String × Artifact) :=
  OrderedMap.ofList (artifacts.map fun a => (a.relativePath, a))

/-- What became of the artifact of a path. -/
def changeAt (path : String) : Option Artifact → Option Artifact → Option Change
  | none, some after => some ⟨path, .ADDED, none, some after.id⟩
  | some before, none => some ⟨path, .REMOVED, some before.id, none⟩
  | some before, some after =>
    if before.contentDigest ≠ after.contentDigest then
      some ⟨path, .MODIFIED, some before.id, some after.id⟩
    else none
  | none, none => none

def compareUnderstandingSnapshots (previous current : List Artifact) : List Change :=
  let oldArtifacts := artifactsByPath previous
  let newArtifacts := artifactsByPath current
  (sortTexts ((oldArtifacts.map (·.1) ++ newArtifacts.map (·.1)).eraseDups)).filterMap fun path =>
    changeAt path (OrderedMap.get? oldArtifacts path) (OrderedMap.get? newArtifacts path)

/-- `[beforeArtifactId, afterArtifactId].filter(Boolean)`. -/
def Change.artifactIds (c : Change) : List String :=
  (c.beforeArtifactId.toList ++ c.afterArtifactId.toList).filter (· ≠ "")

/-! ## The decision -/

inductive Mode where
  | FULL
  | INCREMENTAL
deriving DecidableEq, Repr

structure IncrementalInput where
  requestedMode : Option Json
  currentGraphHead : Option Json
  previous : Option Snapshot
  current : Snapshot
  reuseCompatibility : Option Json
  revalidationWorkUnitIds : Option Json

structure RevalidationPlan where
  required : Bool
  affectedArtifactIds : List String
  affectedWorkUnitIds : List String

structure IncrementalPlan where
  mode : Mode
  baseRevisionId : Option Json
  changes : List Change
  affectedWorkUnitIds : List String
  reusedWorkUnitIds : List String
  retiredWorkUnitIds : List String
  changeSetId : String
  revalidationPlan : RevalidationPlan

def resolveUnderstandingMode (requestedMode : Json) (currentGraphHead : Option Json) :
    Except Failure Mode :=
  if requestedMode = .str "AUTO" then
    .ok (if truthy currentGraphHead then .INCREMENTAL else .FULL)
  else if requestedMode = .str "FULL" then .ok .FULL
  else if requestedMode = .str "INCREMENTAL" then
    if truthy currentGraphHead then .ok .INCREMENTAL
    else rangeError "INCREMENTAL requires an existing CurrentGraphHead"
  else typeError "mode must be AUTO, FULL, or INCREMENTAL"

/-- The texts of a list. -/
def textsOf (items : List Json) : List String :=
  items.filterMap fun item => match item with
    | .str s => some s
    | _ => none

/-- Ids of current work units, none of them twice. -/
def revalidationIds (current : List WorkUnit) (value : Option Json) :
    Except Failure (List String) :=
  match nullish value (.arr []) with
  | .arr items =>
    let ids := textsOf items
    if ids.length = items.length && ids.all (fun id => id ∈ current.map (·.id)) &&
        decide ids.Nodup then
      .ok ids
    else typeError "revalidationWorkUnitIds must contain current UnderstandingPlan WorkUnit IDs"
  | _ => typeError "revalidationWorkUnitIds must contain current UnderstandingPlan WorkUnit IDs"

/-- In a full run every artifact counts as added. -/
def changesOf (mode : Mode) (previous : Option Snapshot) (current : Snapshot) : List Change :=
  match mode with
  | .FULL => current.inventory.artifacts.map fun a => ⟨a.relativePath, .ADDED, none, some a.id⟩
  | .INCREMENTAL => compareUnderstandingSnapshots
      ((previous.map (·.inventory.artifacts)).getD []) current.inventory.artifacts

section Removals

variable (previousUnits : List WorkUnit) (previousPartitions : List Partition)
  (currentUnits : List WorkUnit) (currentPartitions : List Partition)

/-- `new Map(partitions.map((partition) => [partition.id, partition])).get(id)?.locality`. -/
def localityById (partitions : List Partition) (partitionId : Option String) : Option String :=
  (partitionId.bind fun id =>
    OrderedMap.get? (OrderedMap.ofList (partitions.map fun p => (p.id, p))) id).map (·.locality)

/-- The unit that read the removed artifact. -/
def previousUnitOf (change : Change) : Option WorkUnit :=
  previousUnits.find? fun u => u.artifactIds.any fun id => some id = change.beforeArtifactId

/-- Its module, and none where the name is empty. -/
def removedLocality (change : Change) : Option String :=
  (localityById previousPartitions ((previousUnitOf previousUnits change).bind (·.partitionId))).filter
    (· ≠ "")

def dependencyLocality (dependencyId : String) : Option String :=
  localityById currentPartitions
    ((currentUnits.find? fun u => u.id = dependencyId).bind (·.partitionId))

def matchingModules (locality : String) : List WorkUnit :=
  currentUnits.filter fun u => u.kind = .MODULE_SYNTHESIS && u.dependencies.any fun dependencyId =>
    dependencyLocality currentUnits currentPartitions dependencyId = some locality

/-- The units that lose something by the removal: the module, or the project where the module
has none any more. -/
def affectedByRemoval (change : Change) : List String :=
  match removedLocality previousUnits previousPartitions change with
  | none => []
  | some locality =>
    let modules := matchingModules currentUnits currentPartitions locality
    if modules.isEmpty then
      (currentUnits.filter fun u => u.kind = .PROJECT_SYNTHESIS).map (·.id)
    else modules.map (·.id)

/-- The unit of the removed artifact, and the modules that depended on it. -/
def retiredByRemoval (change : Change) : List String :=
  match previousUnitOf previousUnits change with
  | none => []
  | some unit =>
    unit.id :: match removedLocality previousUnits previousPartitions change with
      | none => []
      | some _ => (previousUnits.filter fun u =>
          u.kind = .MODULE_SYNTHESIS && u.dependencies.any (· = unit.id)).map (·.id)

end Removals

/-- `reverseDependencies.get(dependency) ?? []`. -/
def dependents (units : List WorkUnit) (dependency : String) : List String :=
  units.flatMap fun u => (u.dependencies.filter (· = dependency)).map fun _ => u.id

/-- The closure of the affected units under their dependents. -/
def affectedClosure (units : List WorkUnit) (directlyAffected : List String) : List String :=
  (Worklist.collect (dependents units) (directlyAffected.length + units.length)
    (directlyAffected, directlyAffected)).getD []

section Plan

variable (input : IncrementalInput) (mode : Mode) (revalidation : List String)

/-- The units that read a changed artifact. -/
def readersOf (units : List WorkUnit) (changedArtifactIds : List String) : List String :=
  (units.filter fun u => u.artifactIds.any fun id => id ∈ changedArtifactIds).map (·.id)

def incompatible : Bool :=
  mode = .INCREMENTAL && strictEq (field input.reuseCompatibility "compatible") (some (.bool false))

def previousUnits : List WorkUnit := (input.previous.map (·.plan.workUnits)).getD []

def previousPartitions : List Partition := (input.previous.map (·.plan.partitions)).getD []

def removals (changes : List Change) : List Change := changes.filter fun c => c.type = .REMOVED

/-- In the order in which the ids go into the set. -/
def directlyAffected (changes : List Change) : List String :=
  let units := input.current.plan.workUnits
  (readersOf units (changes.flatMap (·.artifactIds)) ++ revalidation ++
    (if incompatible input mode then units.map (·.id) else []) ++
    (removals changes).flatMap (affectedByRemoval (previousUnits input) (previousPartitions input)
      units input.current.plan.partitions)).eraseDups

def changeSetIdentity (changes : List Change) : Json :=
  .obj [("from", Facts.textOrNull (input.previous.map (·.inventory.snapshotManifestId))),
    ("to", .str input.current.inventory.snapshotManifestId),
    ("changes", .arr (changes.map (·.toJson)))]

def decideReuse (sha256 : String → String) : IncrementalPlan :=
  let units := input.current.plan.workUnits
  let changes := changesOf mode input.previous input.current
  let affected := affectedClosure units (directlyAffected input mode revalidation changes)
  let affectedWorkUnitIds := (units.map (·.id)).filter (· ∈ affected)
  let revalidated := (units.filter fun u => u.id ∈ revalidation).flatMap (·.artifactIds)
  { mode
    baseRevisionId :=
      match mode with
      | .FULL => some .null
      | .INCREMENTAL => field input.currentGraphHead "graphRevisionId"
    changes, affectedWorkUnitIds
    reusedWorkUnitIds := (units.map (·.id)).filter (· ∉ affectedWorkUnitIds)
    retiredWorkUnitIds := sortTexts (((removals changes).flatMap
      (retiredByRemoval (previousUnits input) (previousPartitions input))).eraseDups)
    changeSetId := contentId sha256 "UNDERSTANDING-CHANGE-SET" (changeSetIdentity input changes)
    revalidationPlan := {
      required := !affectedWorkUnitIds.isEmpty
      affectedArtifactIds :=
        sortTexts ((changes.flatMap (·.artifactIds) ++ revalidated).eraseDups)
      affectedWorkUnitIds := sortTexts affectedWorkUnitIds } }

end Plan

def planIncrementalUnderstanding (sha256 : String → String) (input : IncrementalInput) :
    Except Failure IncrementalPlan := do
  let mode ← resolveUnderstandingMode (nullish input.requestedMode (.str "AUTO"))
    input.currentGraphHead
  let revalidation ← revalidationIds input.current.plan.workUnits input.revalidationWorkUnitIds
  return decideReuse input mode revalidation sha256

end Traqen.IncrementalUnderstanding
