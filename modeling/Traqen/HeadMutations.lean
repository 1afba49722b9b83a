-- The operations of the memory store that move understanding heads, and how each undoes its
-- writes when it fails (`appendUnderstandingRecordWithCas`, `appendWorkspaceCapabilityBundle`,
-- `applyWorkspaceModelReplacement`, `applyModelReplacementPlan`). They are serialized, so a
-- call is one step. Each gives the state after it with its result or its error.
import Traqen.UnderstandingRecords
import Traqen.Lib.Machine

open Js

namespace Traqen.HeadMutations

open OrderedMap (get? setAll get?_of_set get?_of_restore get?_of_delete get?_of_put)

/-! ## The store -/

/-- A head that is stored; a `recordId` that is none is undefined. -/
structure Head where
  version : Nat
  recordId : Option Json
deriving DecidableEq

abbrev HeadKey := String × String

structure Store where
  heads : List (HeadKey × Head)
  records : Records
  lifecycles : List (String × Json)
  plans : List (String × Json)
  profileRevisions : List (String × Json)
  revisionRecords : List (String × Json)

def Store.empty : Store where
  heads := []
  records := []
  lifecycles := []
  plans := []
  profileRevisions := []
  revisionRecords := []

def Store.head? (s : Store) (k : HeadKey) : Option Head := get? s.heads k

/-- `heads.get(k) ?? { version: 0, recordId: null }`. -/
def Store.headAt (s : Store) (k : HeadKey) : Head :=
  (s.head? k).getD { version := 0, recordId := some .null }

def Store.setHead (s : Store) (k : HeadKey) (head : Head) : Store :=
  { s with heads := OrderedMap.set s.heads k head }

@[simp] theorem setHead_records (s : Store) (k : HeadKey) (head : Head) :
    (s.setHead k head).records = s.records := rfl

/-- What the undoing does to a head: one of version 0 was none. -/
def Store.restoreHead (s : Store) (k : HeadKey) (head : Head) : Store :=
  if head.version = 0 then { s with heads := OrderedMap.delete s.heads k }
  else { s with heads := OrderedMap.set s.heads k head }

abbrev Outcome := Store × Except Failure Json

/-- The error of the engine for a field of null or undefined, or for a text of an object. -/
def engineError {α : Type} : Except Failure α := typeError "Cannot read or convert the value"

/-- A field of a value that is read without `?.`. -/
def fieldOf (v : Option Json) (name : String) : Except Failure (Option Json) :=
  match v with
  | none | some .null => engineError
  | _ => .ok (field v name)

/-- A value in a template string, as a part of a key. -/
def interpolate (v : Option Json) : Except Failure String :=
  match v with
  | none => .ok "undefined"
  | some w => idText w

/-- `version === expected`. -/
def sameVersion (version : Nat) (expected : Option Json) : Bool :=
  strictEq (some (.num (Number.ofNat version))) expected

/-- `v + 1`, on integers and on what is no number; none is NaN. -/
def plusOne : Option Json → Option Json
  | none => none
  | some .null => some (.num (Number.ofNat 1))
  | some (.bool b) => some (.num (Number.ofNat (b.toNat + 1)))
  | some (.num n) => some (.num (Number.ofInt (n.toInt + 1)))
  | some v => some (.str (v.toText ++ "1"))

/-- `version === expected + 1`. -/
def followsVersion (version expected : Option Json) : Bool :=
  match plusOne expected with
  | none => false
  | some next => strictEq version (some next)

def versionConflict {α : Type} (headKey : String) (expected : Option Json) (current : Nat) :
    Except Failure α :=
  conflictError (headKey ++ " version conflict: expected " ++ templateText expected ++
    ", current " ++ toString current)

/-! ## One head -/

/-- `Number.isInteger(v) && v >= 0`. -/
def isVersion : Option Json → Bool
  | some (.num n) => n.isInteger && decide (0 ≤ n.mantissa)
  | _ => false

def appendUnderstandingRecordWithCas (s : Store) (projectId recordType : String)
    (record : Option Json) (headKey : Option String) (expectedVersion : Option Json) : Outcome :=
  let storageKey := (projectId, headKey.getD recordType)
  let currentVersion := ((s.head? storageKey).map (·.version)).getD 0
  if !isVersion expectedVersion then
    (s, typeError "expectedVersion must be a non-negative integer")
  else if !sameVersion currentVersion expectedVersion then
    (s, versionConflict (headKey.getD recordType) expectedVersion currentVersion)
  else
    match fieldOf record "id" with
    | .error e => (s, .error e)
    | .ok id =>
      let written := s.setHead storageKey { version := currentVersion + 1, recordId := id }
      match appendUnderstandingRecord written.records projectId recordType record with
      | .ok records => ({ written with records }, .ok (record.getD .null))
      | .error e =>
        (written.restoreHead storageKey { version := currentVersion, recordId := some .null },
          .error e)

/-! ## Several heads -/

structure Item where
  projectId : String
  recordType : String
  headKey : String
  expectedVersion : Option Json
  record : Option Json

def Item.storageKey (item : Item) : HeadKey := (item.projectId, item.headKey)

def Item.recordKey (item : Item) : RecordKey :=
  (item.projectId, item.recordType, templateText (field item.record "id"))

/-- An item with the head that was found before the call. -/
structure Snapshot where
  item : Item
  head : Head

/-- The loop that moves the heads, in front of the `try`. -/
def writeHeads (s : Store) : List Snapshot → Store × Except Failure Unit
  | [] => (s, .ok ())
  | x :: xs =>
    match fieldOf x.item.record "id" with
    | .error e => (s, .error e)
    | .ok id =>
      writeHeads (s.setHead x.item.storageKey { version := x.head.version + 1, recordId := id }) xs

/-- The loop that appends the records, with the keys of those that went through. -/
def appendItems (records : Records) (inserted : List RecordKey) :
    List Snapshot → Records × List RecordKey × Except Failure Unit
  | [] => (records, inserted, .ok ())
  | x :: xs =>
    match appendUnderstandingRecord records x.item.projectId x.item.recordType x.item.record with
    | .error e => (records, inserted, .error e)
    | .ok records' => appendItems records' (inserted ++ [x.item.recordKey]) xs

/-- The `catch`: the records that went through are deleted, and the heads go back. -/
def undo (s : Store) (inserted : List RecordKey) (snapshots : List Snapshot) : Store :=
  snapshots.foldl (fun s x => s.restoreHead x.item.storageKey x.head)
    { s with records := inserted.foldl OrderedMap.delete s.records }

def mutate (s : Store) (snapshots : List Snapshot) (result : Json) : Outcome :=
  match writeHeads s snapshots with
  | (written, .error e) => (written, .error e)
  | (written, .ok ()) =>
    match appendItems written.records [] snapshots with
    | (records, _, .ok ()) => ({ written with records }, .ok result)
    | (records, inserted, .error e) =>
      (undo { written with records } inserted snapshots, .error e)

/-! ## The capability bundle -/

def policyItem (projectId : String) (policy : Json) : Except Failure Item := do
  let record ← fieldOf (some policy) "record"
  let kind ← fieldOf record "kind"
  let text ← interpolate kind
  return { projectId, record
           recordType := "WORKSPACE_POLICY_REVISION"
           headKey := "WORKSPACE_POLICY_REVISION:" ++ text
           expectedVersion := field (some policy) "expectedVersion" }

def policyItems (projectId : String) (policies : Option Json) : Except Failure (List Item) :=
  match policies with
  | none => .ok []
  | some (.arr items) => items.mapM (policyItem projectId)
  | _ => engineError

def checkHead (s : Store) (item : Item) : Except Failure Snapshot :=
  let head := s.headAt item.storageKey
  if !sameVersion head.version item.expectedVersion then
    versionConflict item.headKey item.expectedVersion head.version
  else .ok { item, head }

/-- All that is checked before the first head moves. -/
def bundleSnapshots (s : Store) (projectId : String)
    (draft expectedDraftVersion policies : Option Json) : Except Failure (List Snapshot) := do
  let items ← policyItems projectId policies
  let draftItem : Item :=
    { projectId
      recordType := "WORKSPACE_CAPABILITY_DRAFT"
      headKey := "WORKSPACE_CAPABILITY_DRAFT"
      expectedVersion := expectedDraftVersion
      record := draft }
  (draftItem :: items).mapM (checkHead s)

def appendWorkspaceCapabilityBundle (s : Store) (projectId : String)
    (draft expectedDraftVersion policies : Option Json) : Outcome :=
  match bundleSnapshots s projectId draft expectedDraftVersion policies with
  | .error e => (s, .error e)
  | .ok snapshots => mutate s snapshots (draft.getD .null)

/-! ## The model replacement -/

/-- One of the two targets of a change, where it is given. -/
def replacementItem (change : Json) (recordType name expectedName : String) :
    Except Failure (List Item) :=
  let record := field (some change) name
  if truthy record then do
    let projectId ← interpolate (field (some change) "workspaceId")
    return [{ projectId, recordType, record
              headKey := recordType
              expectedVersion := field (some change) expectedName }]
  else .ok []

def replacementItems (change : Json) : Except Failure (List Item) := do
  let _ ← fieldOf (some change) "draft"
  let drafts ← replacementItem change "WORKSPACE_CAPABILITY_DRAFT" "draft" "expectedDraftVersion"
  let profiles ←
    replacementItem change "WORKSPACE_EXECUTION_PROFILE" "profile" "expectedProfileVersion"
  if (drafts ++ profiles).isEmpty then
    conflictError ("Workspace " ++ templateText (field (some change) "workspaceId") ++
      " replacement has no mutable head")
  else .ok (drafts ++ profiles)

/-- A head that already stands where the item would move it. -/
def isApplied (item : Item) (head : Head) : Bool :=
  followsVersion (some (.num (Number.ofNat head.version))) item.expectedVersion &&
    strictEq head.recordId (field item.record "id")

def checkTarget (s : Store) (item : Item) : Except Failure Snapshot :=
  let head := s.headAt item.storageKey
  if !isApplied item head && !sameVersion head.version item.expectedVersion then
    versionConflict item.headKey item.expectedVersion head.version
  else .ok { item, head }

def Snapshot.applied (x : Snapshot) : Bool := isApplied x.item x.head

def checkChange (s : Store) (change : Json) : Except Failure (List Snapshot) := do
  let items ← replacementItems change
  let snapshots ← items.mapM (checkTarget s)
  if snapshots.all Snapshot.applied then return snapshots
  else if snapshots.any Snapshot.applied then
    conflictError "model replacement is only partially applied"
  else return snapshots

/-- The snapshots of all changes, or none where all of them are applied already. -/
def replacementSnapshots (s : Store) (changes : List Json) :
    Except Failure (Option (List Snapshot)) := do
  let snapshots ← changes.mapM (checkChange s)
  let appliedCount := (snapshots.filter fun xs => xs.all Snapshot.applied).length
  if appliedCount = changes.length then return none
  else if appliedCount > 0 then conflictError "model replacement is only partially applied"
  else return some snapshots.flatten

/-- `({ workspaceId, draft, profile })`. -/
def changeResult (change : Json) : Json :=
  .obj (["workspaceId", "draft", "profile"].filterMap fun name =>
    (field (some change) name).map fun v => (name, v))

def applyWorkspaceModelReplacement (s : Store) (changes : Option Json) : Outcome :=
  match changes with
  | some (.arr changes) =>
    match replacementSnapshots s changes with
    | .error e => (s, .error e)
    | .ok none => (s, .ok (.arr (changes.map changeResult)))
    | .ok (some snapshots) => mutate s snapshots (.arr (changes.map changeResult))
  | _ => (s, typeError "model replacement changes must be an array")

/-! ## The replacement plan -/

/-- The items of an array that is read without a check. -/
def itemsIn (v : Option Json) : Except Failure (List Json) :=
  match v with
  | some (.arr items) => .ok items
  | _ => engineError

/-- `...(record?.childAgentSlots ?? [])`. -/
def childSlots (record : Option Json) : Except Failure (List Json) :=
  match field record "childAgentSlots" with
  | none | some .null => .ok []
  | some (.str s) => .ok (s.toList.map fun c => .str (String.singleton c))
  | v => itemsIn v

def recordReferencesModel (record profileId : Option Json) : Except Failure Bool := do
  let children ← childSlots record
  let slots := (field record "mainAgentSlot").toList ++ children
  return (slots.filter fun slot => truthy (some slot)).any fun slot =>
    strictEq (field (some slot) "modelProfileId") profileId

structure Reference where
  workspaceId : Option Json
  headKey : String
  version : Option Json
  recordId : Json

def Reference.toJson (r : Reference) : Json :=
  .obj ((r.workspaceId.map fun v => ("workspaceId", v)).toList ++ [("headKey", .str r.headKey)] ++
    (r.version.map fun v => ("version", v)).toList ++ [("recordId", r.recordId)])

section Plans

variable (localeCompare : String → String → Ordering)

/-- The sort by workspace and head; it calls a method of the workspace ids. -/
def sortReferences (references : List Reference) : Except Failure (List Reference) :=
  if references.length > 1 && references.any fun r => !isText r.workspaceId then engineError
  else
    .ok (references.mergeSort fun left right =>
      ((localeCompare (templateText left.workspaceId) (templateText right.workspaceId)).then
        (localeCompare left.headKey right.headKey)) != .gt)

/-- The reference of one head to the model, if it has one. -/
def headReference (s : Store) (profileId : Option Json) (k : HeadKey) (head : Head) :
    Except Failure (List Reference) :=
  if (k.2 = "WORKSPACE_CAPABILITY_DRAFT" ∨ k.2 = "WORKSPACE_EXECUTION_PROFILE") ∧
      truthy head.recordId then do
    let text ← interpolate head.recordId
    let refers ← recordReferencesModel (get? s.records (k.1, k.2, text)) profileId
    return if refers then
      [{ workspaceId := some (.str k.1)
         headKey := k.2
         version := some (.num (Number.ofNat head.version))
         recordId := head.recordId.getD .null }]
    else []
  else .ok []

def currentModelReplacementReferences (s : Store) (profileId : Option Json) :
    Except Failure (List Reference) := do
  let references ← s.heads.mapM fun e => headReference s profileId e.1 e.2
  sortReferences localeCompare references.flatten

def plannedReference (change : Json) (headKey name expectedName priorName : String) :
    List Reference :=
  if truthy (field (some change) name) then
    [{ workspaceId := field (some change) "workspaceId"
       headKey
       version := field (some change) expectedName
       recordId := nullish (field (some change) priorName) .null }]
  else []

def plannedReferences (change : Json) : Except Failure (List Reference) := do
  let _ ← fieldOf (some change) "draft"
  return plannedReference change "WORKSPACE_CAPABILITY_DRAFT" "draft" "expectedDraftVersion"
      "priorDraftId" ++
    plannedReference change "WORKSPACE_EXECUTION_PROFILE" "profile" "expectedProfileVersion"
      "priorProfileId"

def plannedModelReplacementReferences (plan : Json) : Except Failure (List Reference) := do
  let changes ← itemsIn (some (nullish (field (some plan) "changes") (.arr [])))
  let references ← changes.mapM plannedReferences
  sortReferences localeCompare references.flatten

def planText (plan : Json) : String :=
  "ModelReplacementPlan " ++ templateText (field (some plan) "id")

def assertCurrentModelReplacementReferenceSet (s : Store) (plan : Json) : Except Failure Unit := do
  let expected ← plannedModelReplacementReferences localeCompare plan
  let current ←
    currentModelReplacementReferences localeCompare s (field (some plan) "sourceProfileId")
  if canonicalJson (.arr (current.map Reference.toJson)) ≠
      canonicalJson (.arr (expected.map Reference.toJson)) then
    conflictError (planText plan ++
      " current source reference set changed; refresh the Workspace usage preview")
  else return ()

def assertCurrentRevision (s : Store) (plan : Json) (profileName revisionName : String) :
    Except Failure Unit :=
  let profileId := templateText (field (some plan) profileName)
  let expectedRevisionId := field (some plan) revisionName
  if !truthy expectedRevisionId then .ok ()
  else if !strictEq (field (get? s.profileRevisions profileId) "currentRevisionId")
      expectedRevisionId then
    conflictError (planText plan ++ " " ++ profileId ++
      " revision changed; refresh the Workspace usage preview")
  else
    let durable := get? s.revisionRecords (templateText expectedRevisionId)
    let lifecycle := get? s.lifecycles profileId
    if !truthy (field durable "ready") ||
        !strictEq (field lifecycle "lifecycle") (some (.str "ACTIVE")) then
      conflictError (planText plan ++ " " ++ profileId ++ " must remain READY and ACTIVE")
    else .ok ()

def assertCurrentModelReplacementRevisions (s : Store) (plan : Json) : Except Failure Unit := do
  assertCurrentRevision s plan "sourceProfileId" "sourceRevisionId"
  assertCurrentRevision s plan "replacementProfileId" "replacementRevisionId"

/-- The keys of the head and the record that a change of a plan moves. -/
def plannedTarget (change : Json) (recordType name : String) :
    Except Failure (List (HeadKey × RecordKey)) :=
  let record := field (some change) name
  if truthy record then do
    let projectId ← interpolate (field (some change) "workspaceId")
    let id ← interpolate (field record "id")
    return [((projectId, recordType), (projectId, recordType, id))]
  else .ok []

def plannedTargets (change : Json) : Except Failure (List (HeadKey × RecordKey)) := do
  let _ ← fieldOf (some change) "draft"
  let drafts ← plannedTarget change "WORKSPACE_CAPABILITY_DRAFT" "draft"
  let profiles ← plannedTarget change "WORKSPACE_EXECUTION_PROFILE" "profile"
  return drafts ++ profiles

/-- The `catch` of the plan: every head and record that it names goes back to what it was in
the store before, and so do the lifecycle and the plan. -/
def restoreTargets (before s : Store) (targets : List (HeadKey × RecordKey))
    (sourceProfileId planId : String) : Store :=
  { s with
    heads := (targets.map (·.1)).foldl
      (fun m k => OrderedMap.put m k (get? before.heads k)) s.heads
    records := (targets.map (·.2)).foldl
      (fun m k => OrderedMap.put m k (get? before.records k)) s.records
    lifecycles := OrderedMap.put s.lifecycles sourceProfileId
      (get? before.lifecycles sourceProfileId)
    plans := OrderedMap.put s.plans planId (get? before.plans planId) }

/-- The body of the `try`. -/
def applyPlanned (s : Store) (planId : String) (plan : Json) (now : String) : Outcome :=
  let sourceProfileId := templateText (field (some plan) "sourceProfileId")
  match applyWorkspaceModelReplacement s (field (some plan) "changes") with
  | (t, .error e) => (t, .error e)
  | (t, .ok workspaces) =>
    match currentModelReplacementReferences localeCompare t
        (field (some plan) "sourceProfileId") with
    | .error e => (t, .error e)
    | .ok (_ :: _) =>
      (t, conflictError (planText plan ++ " current source reference remained after apply"))
    | .ok [] =>
      let prior := field (get? t.lifecycles sourceProfileId) "version"
      let version := plusOne (some (nullish prior (.num (Number.ofNat 0))))
      let lifecycle : Json :=
        .obj (((field (some plan) "sourceProfileId").map fun v => ("profileId", v)).toList ++
          [("lifecycle", .str "RETIRING")] ++ (version.map fun v => ("version", v)).toList ++
          [("updatedAt", .str now)])
      let fields := match plan with
        | .obj fields => fields
        | _ => []
      let applied : Json := .obj (setAll fields ([("status", .str "APPLIED")] ++
        ((plusOne (field (some plan) "version")).map fun v => ("version", v)).toList ++
        [("appliedAt", .str now)]))
      ({ t with
          lifecycles := OrderedMap.set t.lifecycles sourceProfileId lifecycle
          plans := OrderedMap.set t.plans planId applied },
        .ok (.obj [("plan", applied), ("workspaces", workspaces)]))

/-- The plan, checked as far as the `try`, with the targets that it would put back. -/
def readyPlan (s : Store) (planId : String) (plan : Json) (expectedVersion : Option Json) :
    Except Failure (List (HeadKey × RecordKey)) :=
  if !strictEq (field (some plan) "status") (some (.str "READY")) ||
      !strictEq (field (some plan) "version") expectedVersion then
    conflictError ("ModelReplacementPlan " ++ planId ++ " version conflict")
  else do
    assertCurrentModelReplacementReferenceSet localeCompare s plan
    assertCurrentModelReplacementRevisions s plan
    let changes ← itemsIn (field (some plan) "changes")
    let targets ← changes.mapM plannedTargets
    return targets.flatten

/-- `now` is `new Date().toISOString()`. -/
def applyModelReplacementPlan (s : Store) (planId : String) (expectedVersion : Option Json)
    (now : String) : Outcome :=
  match get? s.plans planId with
  | none => (s, conflictError ("ModelReplacementPlan " ++ planId ++ " does not exist"))
  | some plan =>
    if strictEq (field (some plan) "status") (some (.str "APPLIED")) &&
        followsVersion (field (some plan) "version") expectedVersion then
      match itemsIn (field (some plan) "changes") with
      | .error e => (s, .error e)
      | .ok changes =>
        (s, .ok (.obj [("plan", plan), ("workspaces", .arr (changes.map changeResult))]))
    else
      match readyPlan localeCompare s planId plan expectedVersion with
      | .error e => (s, .error e)
      | .ok targets =>
        match applyPlanned localeCompare s planId plan now with
        | (t, .ok v) => (t, .ok v)
        | (t, .error e) =>
          (restoreTargets s t targets (templateText (field (some plan) "sourceProfileId")) planId,
            .error e)

end Plans

/-! ## Calls -/

/-- The calls of a run. Any other operation of the store may change everything but the heads. -/
inductive Call where
  | withCas (projectId recordType : String) (record : Option Json) (headKey : Option String)
      (expectedVersion : Option Json)
  | bundle (projectId : String) (draft expectedDraftVersion policies : Option Json)
  | replacement (changes : Option Json)
  | applyPlan (planId : String) (expectedVersion : Option Json) (now : String)
  | elsewhere (records : Records)
      (lifecycles plans profileRevisions revisionRecords : List (String × Json))

section Calls

variable (localeCompare : String → String → Ordering)

def call (s : Store) : Call → Outcome
  | .withCas projectId recordType record headKey expectedVersion =>
    appendUnderstandingRecordWithCas s projectId recordType record headKey expectedVersion
  | .bundle projectId draft expectedDraftVersion policies =>
    appendWorkspaceCapabilityBundle s projectId draft expectedDraftVersion policies
  | .replacement changes => applyWorkspaceModelReplacement s changes
  | .applyPlan planId expectedVersion now =>
    applyModelReplacementPlan localeCompare s planId expectedVersion now
  | .elsewhere records lifecycles plans profileRevisions revisionRecords =>
    ({ s with records, lifecycles, plans, profileRevisions, revisionRecords }, .ok .null)

def step (s : Store) (c : Call) : Option Store := some (call localeCompare s c).1

/-- The same heads, records, lifecycles and plans. -/
structure Same (s t : Store) : Prop where
  heads : ∀ k, s.head? k = t.head? k
  records : ∀ k, get? s.records k = get? t.records k
  lifecycles : ∀ k, get? s.lifecycles k = get? t.lifecycles k
  plans : ∀ k, get? s.plans k = get? t.plans k

/-- If the call fails, everything is as it was. -/
def LeavesNoTrace (s : Store) (c : Call) : Prop :=
  (∃ e, (call localeCompare s c).2 = .error e) → Same (call localeCompare s c).1 s

end Calls

/-! ## The calls that leave no trace -/

/-- Neither null nor undefined. -/
def isPresent : Option Json → Bool
  | none | some .null => false
  | _ => true

/-- The record may be appended: its type is known, it has an id, and what is stored under the
id is the same record. -/
def admits (records : Records) (item : Item) : Bool :=
  decide (item.recordType ∈ supportedRecordTypes) && truthy (field item.record "id") &&
    !(field item.record "id").any Json.hidesToString &&
    (get? records item.recordKey).all fun existing =>
      canonicalJson (recordIdentity existing) = canonicalJson (recordIdentity
        (item.record.getD .null))

/-- The records with a new one. -/
def storeItem (records : Records) (item : Item) : Records :=
  if (get? records item.recordKey).isSome then records
  else OrderedMap.set records item.recordKey (item.record.getD .null)

/-- The items in front of the first one that may not be appended after them. -/
def beforeRefusal (records : Records) : List Snapshot → Option (List Snapshot)
  | [] => none
  | x :: xs =>
    if admits records x.item then
      (beforeRefusal (storeItem records x.item) xs).map fun rest => x :: rest
    else some []

/-- No record in front of a refused one was stored before. -/
def NothingOld (s : Store) (snapshots : List Snapshot) : Prop :=
  ∀ before, beforeRefusal s.records snapshots = some before →
    ∀ x ∈ before, get? s.records x.item.recordKey = none

/-- The one item of `appendUnderstandingRecordWithCas`. -/
def casItem (projectId recordType : String) (record : Option Json) (headKey : Option String)
    (expectedVersion : Option Json) : Item where
  projectId := projectId
  recordType := recordType
  headKey := headKey.getD recordType
  expectedVersion := expectedVersion
  record := record

/-- A head that names a record stays as long as the record that would follow is admitted. -/
def CleanCas (s : Store) (item : Item) : Prop :=
  ∀ head, s.head? item.storageKey = some head → head.recordId ≠ some .null →
    isVersion item.expectedVersion = true → sameVersion head.version item.expectedVersion = true →
    isPresent item.record = true → admits s.records item = true

/-- The condition on the call and the state before it. -/
def Clean (s : Store) : Call → Prop
  | .withCas projectId recordType record headKey expectedVersion =>
    CleanCas s (casItem projectId recordType record headKey expectedVersion)
  | .bundle projectId draft expectedDraftVersion policies =>
    ∀ snapshots, bundleSnapshots s projectId draft expectedDraftVersion policies = .ok snapshots →
      NothingOld s snapshots
  | .replacement (some (.arr changes)) =>
    ∀ snapshots, replacementSnapshots s changes = .ok (some snapshots) → NothingOld s snapshots
  | _ => True

/-! ## Records -/

theorem templateText_some (v : Json) : templateText (some v) = v.toText := rfl

variable {item : Item} {records : Records}

theorem append_of_admits (h : admits records item = true) :
    appendUnderstandingRecord records item.projectId item.recordType item.record =
      .ok (storeItem records item) := by
  unfold admits at h
  simp only [Bool.and_eq_true, decide_eq_true_eq, Bool.not_eq_true'] at h
  obtain ⟨⟨⟨htype, hid⟩, hhides⟩, hsame⟩ := h
  unfold appendUnderstandingRecord
  rw [if_neg (not_not.mpr htype)]
  cases hrecord : item.record with
  | none => rw [hrecord] at hid; cases hid
  | some value =>
    rw [hrecord] at hid hhides
    cases hfield : field (some value) "id" with
    | none => rw [hfield] at hid; cases hid
    | some id =>
      rw [hfield] at hid hhides
      have hkey : item.recordKey = (item.projectId, item.recordType, id.toText) := by
        unfold Item.recordKey
        rw [hrecord, hfield, templateText_some]
      dsimp only
      rw [if_pos hid]
      unfold idText
      rw [if_neg (by simpa using hhides)]
      unfold appendVersion storeItem
      rw [hkey] at hsame ⊢
      cases hexisting : get? records (item.projectId, item.recordType, id.toText) with
      | none => simp [bind, Except.bind, hexisting, hrecord]
      | some existing =>
        rw [hexisting, hrecord] at hsame
        have hsame : canonicalJson (recordIdentity existing) =
            canonicalJson (recordIdentity value) := by simpa using hsame
        simp [bind, Except.bind, hexisting, hsame]

theorem append_of_refused (h : admits records item = false) :
    ∃ e, appendUnderstandingRecord records item.projectId item.recordType item.record =
      .error e := by
  cases happend : appendUnderstandingRecord records item.projectId item.recordType item.record with
  | error e => exact ⟨e, rfl⟩
  | ok records' =>
    exfalso
    unfold appendUnderstandingRecord typeError at happend
    split at happend
    · cases happend
    · rename_i htype
      cases hrecord : item.record with
      | none => rw [hrecord] at happend; cases happend
      | some value =>
        cases hid : field (some value) "id" with
        | none => rw [hrecord, hid] at happend; cases happend
        | some id =>
          rw [hrecord, hid] at happend
          dsimp only at happend
          split at happend
          · rename_i htruthy
            obtain ⟨text, htext, happend⟩ := bind_ok happend
            unfold idText typeError at htext
            split at htext
            · cases htext
            · rename_i hhides
              cases htext
              unfold admits Item.recordKey at h
              rw [hrecord, hid, templateText_some] at h
              unfold appendVersion conflictError at happend
              split at happend
              · rename_i existing hexisting
                split at happend
                · cases happend
                · rename_i hsame
                  simp [hexisting, not_not.mp htype, htruthy, hhides, not_not.mp hsame] at h
              · rename_i hnone
                simp [hnone, not_not.mp htype, htruthy, hhides] at h
          · cases happend

theorem get?_storeItem {k : RecordKey} (h : k ≠ item.recordKey) :
    get? (storeItem records item) k = get? records k := by
  unfold storeItem
  split
  · rfl
  · rw [get?_of_set, if_neg h]

/-- The loop that appends the records, told by the items in front of a refusal. -/
theorem appendItems_eq (xs : List Snapshot) (records : Records) (inserted : List RecordKey) :
    (beforeRefusal records xs = none ∧
      appendItems records inserted xs = (xs.foldl (fun r x => storeItem r x.item) records,
        inserted ++ xs.map (·.item.recordKey), .ok ())) ∨
    ∃ before e, beforeRefusal records xs = some before ∧
      appendItems records inserted xs = (before.foldl (fun r x => storeItem r x.item) records,
        inserted ++ before.map (·.item.recordKey), .error e) := by
  induction xs generalizing records inserted with
  | nil => exact Or.inl ⟨rfl, by simp [appendItems]⟩
  | cons x xs ih =>
    cases hadmits : admits records x.item with
    | false =>
      obtain ⟨e, he⟩ := append_of_refused hadmits
      refine Or.inr ⟨[], e, ?_, ?_⟩
      · simp [beforeRefusal, hadmits]
      · unfold appendItems
        rw [he]
        simp
    | true =>
      unfold beforeRefusal appendItems
      rw [append_of_admits hadmits, if_pos hadmits]
      rcases ih (storeItem records x.item) (inserted ++ [x.item.recordKey]) with
        ⟨hnone, heq⟩ | ⟨before, e, hsome, heq⟩
      · refine Or.inl ⟨by rw [hnone]; rfl, ?_⟩
        dsimp only
        rw [heq]
        simp
      · refine Or.inr ⟨x :: before, e, by rw [hsome]; rfl, ?_⟩
        dsimp only
        rw [heq]
        simp

variable {xs : List Snapshot}

theorem get?_storeItems {k : RecordKey}
    (h : k ∉ xs.map (·.item.recordKey)) :
    get? (xs.foldl (fun r x => storeItem r x.item) records) k =
      get? records k := by
  induction xs generalizing records with
  | nil => rfl
  | cons x xs ih =>
    rw [List.map_cons, List.mem_cons, not_or] at h
    rw [List.foldl_cons, ih h.2, get?_storeItem h.1]

theorem get?_deletes (keys : List RecordKey) (records : Records) (k : RecordKey) :
    get? (keys.foldl OrderedMap.delete records) k =
      if k ∈ keys then none else get? records k := by
  have h := get?_of_restore (fun _ => none) keys records k
  by_cases hk : k ∈ keys
  · rw [if_pos hk] at h ⊢
    exact h
  · rw [if_neg hk] at h ⊢
    exact h

/-- The undoing takes every record away that went through, also one that was there before. -/
theorem records_undone (before : List Snapshot) (records : Records) (k : RecordKey) :
    get? ((before.map (·.item.recordKey)).foldl OrderedMap.delete
        (before.foldl (fun r x => storeItem r x.item) records)) k =
      if k ∈ before.map (·.item.recordKey) then none else get? records k := by
  rw [get?_deletes]
  split
  · rfl
  · rw [get?_storeItems ‹_›]

/-! ## Heads -/

/-- A head that is stored has been moved at least once. -/
def Moved (s : Store) : Prop := ∀ k head, s.head? k = some head → 1 ≤ head.version

/-- The snapshots show the heads of the store. -/
def ShowHeads (s : Store) (xs : List Snapshot) : Prop :=
  ∀ x ∈ xs, x.head = s.headAt x.item.storageKey

theorem fieldOf_present {record : Option Json} (h : isPresent record = true) (name : String) :
    fieldOf record name = .ok (field record name) := by
  rcases record with _ | v
  · cases h
  · cases v with
    | null => cases h
    | _ => rfl

theorem fieldOf_absent {record : Option Json} (h : isPresent record = false) (name : String) :
    ∃ e, fieldOf record name = .error e := by
  rcases record with _ | v
  · exact ⟨_, rfl⟩
  · cases v with
    | null => exact ⟨_, rfl⟩
    | _ => cases h

/-- Only the heads of the snapshots move, and nothing else does. -/
theorem writeHeads_frame (xs : List Snapshot) (s : Store) :
    (writeHeads s xs).1 = { s with heads := (writeHeads s xs).1.heads } ∧
    ∀ k, k ∉ xs.map (·.item.storageKey) → (writeHeads s xs).1.head? k = s.head? k := by
  induction xs generalizing s with
  | nil => exact ⟨rfl, fun _ _ => rfl⟩
  | cons x xs ih =>
    unfold writeHeads
    split
    · exact ⟨rfl, fun _ _ => rfl⟩
    · rename_i id _
      obtain ⟨hrest, hheads⟩ := ih (s.setHead x.item.storageKey
        { version := x.head.version + 1, recordId := id })
      refine ⟨hrest, ?_⟩
      intro k hk
      rw [List.map_cons, List.mem_cons, not_or] at hk
      rw [hheads k hk.2]
      unfold Store.head? Store.setHead
      rw [get?_of_set, if_neg hk.1]

variable {s t : Store}

theorem writeHeads_moved (xs : List Snapshot) (h : Moved s) : Moved (writeHeads s xs).1 := by
  induction xs generalizing s with
  | nil => exact h
  | cons x xs ih =>
    unfold writeHeads
    split
    · exact h
    · apply ih
      intro k head hhead
      unfold Store.head? Store.setHead at hhead
      rw [get?_of_set] at hhead
      split at hhead
      · cases hhead
        simp
      · exact h k head hhead

theorem writeHeads_ok (h : ∀ x ∈ xs, isPresent x.item.record = true)
    (s : Store) : (writeHeads s xs).2 = .ok () := by
  induction xs generalizing s with
  | nil => rfl
  | cons x xs ih =>
    unfold writeHeads
    rw [fieldOf_present (h x List.mem_cons_self)]
    exact ih (fun y hy => h y (List.mem_cons_of_mem _ hy)) _

/-- Putting a snapshot back puts the head back that the store had, and none for none. -/
theorem restoreHead_heads (hs : Moved s) (k : HeadKey) :
    (t.restoreHead k (s.headAt k)).heads = OrderedMap.put t.heads k (s.head? k) := by
  unfold Store.restoreHead Store.headAt
  cases h : s.head? k with
  | none => simp [OrderedMap.put]
  | some head =>
    have := hs k head h
    rw [Option.getD_some, if_neg (by omega)]
    rfl

theorem restoreHead_frame (t : Store) (k : HeadKey) (head : Head) :
    t.restoreHead k head = { t with heads := (t.restoreHead k head).heads } := by
  unfold Store.restoreHead
  split
  · rfl
  · rfl

/-- Putting a list of snapshots back touches the heads alone. -/
theorem restoreHeads_frame (xs : List Snapshot) (t : Store) :
    xs.foldl (fun t x => t.restoreHead x.item.storageKey x.head) t = { t with
      heads := (xs.foldl (fun t x => t.restoreHead x.item.storageKey x.head) t).heads } := by
  induction xs generalizing t with
  | nil => rfl
  | cons x xs ih =>
    rw [List.foldl_cons, ih, restoreHead_frame]

theorem restoreHeads_heads (hs : Moved s) (hxs : ShowHeads s xs) (t : Store) :
    (xs.foldl (fun t x => t.restoreHead x.item.storageKey x.head) t).heads =
      (xs.map (·.item.storageKey)).foldl (fun m k => OrderedMap.put m k (s.head? k)) t.heads := by
  induction xs generalizing t with
  | nil => rfl
  | cons x xs ih =>
    rw [List.foldl_cons, ih (fun y hy => hxs y (List.mem_cons_of_mem _ hy)),
      hxs x List.mem_cons_self, restoreHead_heads hs]
    rfl

/-! ## The writes of several heads -/

/-- Two stores that agree but for the records of some keys, which are gone in the first. -/
structure SameBut (gone : List RecordKey) (s t : Store) : Prop where
  heads : ∀ k, s.head? k = t.head? k
  records : ∀ k, get? s.records k =
    if k ∈ gone then none else get? t.records k
  lifecycles : s.lifecycles = t.lifecycles
  plans : s.plans = t.plans

theorem same_iff_of_sameBut {gone : List RecordKey} (h : SameBut gone s t) :
    Same s t ↔ ∀ k ∈ gone, get? t.records k = none := by
  constructor
  · intro hsame k hk
    rw [← hsame.records k, h.records k, if_pos hk]
  · intro hnone
    refine ⟨h.heads, ?_, fun k => by rw [h.lifecycles], fun k => by rw [h.plans]⟩
    intro k
    rw [h.records k]
    split
    · rw [hnone k ‹_›]
    · rfl

/-- All that a failing call can leave behind: the items in front of the refused record are
gone. -/
theorem mutate_cases (hs : Moved s) (hxs : ShowHeads s xs)
    (hpresent : ∀ x ∈ xs, isPresent x.item.record = true) (result : Json) :
    (beforeRefusal s.records xs = none ∧ (mutate s xs result).2 = .ok result) ∨
    ∃ before e, beforeRefusal s.records xs = some before ∧
      (mutate s xs result).2 = .error e ∧
      SameBut (before.map (·.item.recordKey)) (mutate s xs result).1 s := by
  have hframe := writeHeads_frame xs s
  have hok := writeHeads_ok hpresent s
  unfold mutate
  cases hwritten : writeHeads s xs with
  | mk written r =>
    rw [hwritten] at hframe hok
    dsimp only at hframe hok
    subst hok
    obtain ⟨hrest, hheads⟩ := hframe
    have hrecords : written.records = s.records := by rw [hrest]
    dsimp only
    rw [hrecords]
    rcases appendItems_eq xs s.records [] with ⟨hnone, heq⟩ | ⟨before, e, hsome, heq⟩
    · exact Or.inl ⟨hnone, by rw [heq]⟩
    · refine Or.inr ⟨before, e, hsome, by rw [heq], ?_⟩
      rw [heq, List.nil_append]
      dsimp only
      unfold undo
      rw [restoreHeads_frame]
      constructor
      · intro k
        unfold Store.head?
        dsimp only
        rw [restoreHeads_heads hs hxs, get?_of_restore (fun k => s.head? k)]
        split
        · rfl
        · exact hheads k ‹_›
      · intro k
        exact records_undone before s.records k
      · rw [hrest]
      · rw [hrest]

theorem restoreHead_other (t : Store) {j k : HeadKey} (head : Head) (h : j ≠ k) :
    (t.restoreHead k head).head? j = t.head? j := by
  unfold Store.restoreHead Store.head?
  split
  · rw [get?_of_delete, if_neg h]
  · rw [get?_of_set, if_neg h]

theorem restoreHead_moved (ht : Moved t) (k : HeadKey) (head : Head) :
    Moved (t.restoreHead k head) := by
  intro j h hj
  by_cases hjk : j = k
  · subst hjk
    unfold Store.restoreHead Store.head? at hj
    split at hj
    · rw [get?_of_delete, if_pos rfl] at hj
      cases hj
    · rw [get?_of_set, if_pos rfl] at hj
      cases hj
      omega
  · rw [restoreHead_other t head hjk] at hj
    exact ht j h hj

theorem restoreHeads_other (xs : List Snapshot) (t : Store) {j : HeadKey}
    (h : j ∉ xs.map (·.item.storageKey)) :
    (xs.foldl (fun t x => t.restoreHead x.item.storageKey x.head) t).head? j = t.head? j := by
  induction xs generalizing t with
  | nil => rfl
  | cons x xs ih =>
    rw [List.map_cons, List.mem_cons, not_or] at h
    rw [List.foldl_cons, ih _ h.2, restoreHead_other t x.head h.1]

theorem restoreHeads_moved (xs : List Snapshot) (ht : Moved t) :
    Moved (xs.foldl (fun t x => t.restoreHead x.item.storageKey x.head) t) := by
  induction xs generalizing t with
  | nil => exact ht
  | cons x xs ih => exact ih (restoreHead_moved ht _ _)

/-- What two stores share outside of some heads and records. -/
structure Frame (heads : List HeadKey) (records : List RecordKey) (s t : Store) : Prop where
  heads : ∀ k, k ∉ heads → t.head? k = s.head? k
  records : ∀ k, k ∉ records → get? t.records k = get? s.records k
  lifecycles : t.lifecycles = s.lifecycles
  plans : t.plans = s.plans

theorem mem_of_beforeRefusal {before : List Snapshot}
    (h : beforeRefusal records xs = some before) : ∀ x ∈ before, x ∈ xs := by
  induction xs generalizing records before with
  | nil => cases h
  | cons y xs ih =>
    unfold beforeRefusal at h
    split at h
    · obtain ⟨rest, hrest, rfl⟩ := Option.map_eq_some_iff.mp h
      intro x hx
      rcases List.mem_cons.mp hx with rfl | hx
      · exact List.mem_cons_self
      · exact List.mem_cons_of_mem _ (ih hrest x hx)
    · cases h
      simp

/-- Whatever comes of it, the writes stay within the keys of the snapshots. -/
theorem mutate_frame (s : Store) (xs : List Snapshot) (result : Json) :
    Frame (xs.map (·.item.storageKey)) (xs.map (·.item.recordKey)) s (mutate s xs result).1 := by
  obtain ⟨hrest, hheads⟩ := writeHeads_frame xs s
  unfold mutate
  cases hwritten : writeHeads s xs with
  | mk written r =>
    rw [hwritten] at hrest hheads
    dsimp only at hrest hheads
    have hlifecycles : written.lifecycles = s.lifecycles := by rw [hrest]
    have hplans : written.plans = s.plans := by rw [hrest]
    have hrecords : written.records = s.records := by rw [hrest]
    cases r with
    | error e => exact ⟨hheads, fun k _ => by rw [hrecords], hlifecycles, hplans⟩
    | ok u =>
      dsimp only
      rw [hrecords]
      rcases appendItems_eq xs s.records [] with ⟨_, heq⟩ | ⟨before, e, hsome, heq⟩
      · rw [heq]
        exact ⟨hheads, fun k hk => get?_storeItems hk, hlifecycles, hplans⟩
      · rw [heq, List.nil_append]
        dsimp only
        unfold undo
        refine ⟨?_, ?_, ?_, ?_⟩
        · intro k hk
          rw [restoreHeads_other xs _ hk]
          exact hheads k hk
        · intro k hk
          rw [restoreHeads_frame]
          dsimp only
          rw [records_undone, if_neg]
          intro hmem
          obtain ⟨x, hx, rfl⟩ := List.mem_map.mp hmem
          exact hk (List.mem_map_of_mem (mem_of_beforeRefusal hsome x hx))
        · rw [restoreHeads_frame]
          exact hlifecycles
        · rw [restoreHeads_frame]
          exact hplans

theorem mutate_moved (hs : Moved s) (xs : List Snapshot) (result : Json) :
    Moved (mutate s xs result).1 := by
  have hmoved := writeHeads_moved xs hs
  unfold mutate
  cases hwritten : writeHeads s xs with
  | mk written r =>
    rw [hwritten] at hmoved
    cases r with
    | error e => exact hmoved
    | ok u =>
      dsimp only
      split
      · exact hmoved
      · exact restoreHeads_moved xs hmoved

/-- With records that are all there, the call fails without a trace exactly when the records
in front of the refused one are new. -/
theorem mutate_traceless {result : Json} (hs : Moved s)
    (hxs : ShowHeads s xs) (hpresent : ∀ x ∈ xs, isPresent x.item.record = true) :
    ((∃ e, (mutate s xs result).2 = .error e) → Same (mutate s xs result).1 s) ↔
      NothingOld s xs := by
  unfold NothingOld
  rcases mutate_cases hs hxs hpresent result with
    ⟨hnone, hok⟩ | ⟨before, e, hsome, herror, hbut⟩
  · rw [hnone, hok]
    simp
  · rw [herror, hsome]
    have hiff := same_iff_of_sameBut hbut
    constructor
    · intro h before' hbefore x hx
      cases hbefore
      exact hiff.mp (h ⟨e, rfl⟩) _ (List.mem_map_of_mem hx)
    · intro h _
      refine hiff.mpr ?_
      intro k hk
      obtain ⟨x, hx, rfl⟩ := List.mem_map.mp hk
      exact h before rfl x hx

/-! ## What the checks read -/

theorem same_refl (s : Store) : Same s s :=
  ⟨fun _ => rfl, fun _ => rfl, fun _ => rfl, fun _ => rfl⟩

theorem checkHead_ok {x : Snapshot} (h : checkHead s item = .ok x) :
    x = { item, head := s.headAt item.storageKey } := by
  unfold checkHead versionConflict conflictError at h
  dsimp only at h
  split at h
  · cases h
  · cases h
    rfl

theorem checkTarget_ok {x : Snapshot} (h : checkTarget s item = .ok x) :
    x = { item, head := s.headAt item.storageKey } := by
  unfold checkTarget versionConflict conflictError at h
  dsimp only at h
  split at h
  · cases h
  · cases h
    rfl

theorem present_of_truthy {v : Option Json} (h : truthy v = true) : isPresent v = true := by
  rcases v with _ | v
  · cases h
  · cases v with
    | null => cases h
    | _ => rfl

theorem present_of_fieldOf {v w : Option Json} {name : String} (h : fieldOf v name = .ok w) :
    isPresent v = true := by
  rcases v with _ | v
  · cases h
  · cases v with
    | null => cases h
    | _ => rfl

theorem policyItem_present {projectId : String} {policy : Json}
    (h : policyItem projectId policy = .ok item) : isPresent item.record = true := by
  unfold policyItem at h
  obtain ⟨record, _, h⟩ := bind_ok h
  obtain ⟨kind, hkind, h⟩ := bind_ok h
  obtain ⟨text, _, h⟩ := bind_ok h
  cases h
  exact present_of_fieldOf hkind

theorem bundleSnapshots_ok {projectId : String} {draft expectedDraftVersion policies : Option Json}
    (h : bundleSnapshots s projectId draft expectedDraftVersion policies = .ok xs) :
    ShowHeads s xs ∧ ∃ x rest, xs = x :: rest ∧ x.item.record = draft ∧
      ∀ y ∈ rest, isPresent y.item.record = true := by
  unfold bundleSnapshots at h
  obtain ⟨items, hitems, h⟩ := bind_ok h
  have hall := mapM_ok h
  have hpresent : ∀ item ∈ items, isPresent item.record = true := by
    intro item hitem
    unfold policyItems engineError typeError at hitems
    split at hitems
    · cases hitems
      simp at hitem
    · obtain ⟨policy, _, hpolicy⟩ := exists_source (mapM_ok hitems) hitem
      exact policyItem_present hpolicy
    · cases hitems
  constructor
  · intro x hx
    obtain ⟨item, _, hitem⟩ := exists_source hall hx
    rw [checkHead_ok hitem]
  · cases hall with
    | cons hx hrest =>
      refine ⟨_, _, rfl, ?_, ?_⟩
      · rw [checkHead_ok hx]
      · intro y hy
        obtain ⟨item, hitem, hy⟩ := exists_source hrest hy
        rw [checkHead_ok hy]
        exact hpresent item hitem

/-- The target of a change, told by the change. -/
structure IsTarget (change : Json) (recordType name : String) (item : Item) : Prop where
  given : truthy item.record = true
  source : item.record = field (some change) name
  typed : item.recordType = recordType
  keyed : item.headKey = recordType
  project : interpolate (field (some change) "workspaceId") = .ok item.projectId

variable {change : Json}

theorem replacementItem_ok {recordType name expectedName : String}
    {items : List Item} (h : replacementItem change recordType name expectedName = .ok items) :
    ∀ item ∈ items, IsTarget change recordType name item := by
  unfold replacementItem at h
  dsimp only at h
  split at h
  · rename_i htruthy
    obtain ⟨projectId, hproject, h⟩ := bind_ok h
    cases h
    intro item hitem
    rw [List.mem_singleton] at hitem
    subst hitem
    exact ⟨htruthy, rfl, rfl, rfl, hproject⟩
  · cases h
    simp

theorem replacementItems_ok {items : List Item}
    (h : replacementItems change = .ok items) :
    ∀ item ∈ items, IsTarget change "WORKSPACE_CAPABILITY_DRAFT" "draft" item ∨
      IsTarget change "WORKSPACE_EXECUTION_PROFILE" "profile" item := by
  unfold replacementItems conflictError at h
  obtain ⟨_, _, h⟩ := bind_ok h
  obtain ⟨drafts, hdrafts, h⟩ := bind_ok h
  obtain ⟨profiles, hprofiles, h⟩ := bind_ok h
  split at h
  · cases h
  · cases h
    intro item hitem
    rcases List.mem_append.mp hitem with hitem | hitem
    · exact Or.inl (replacementItem_ok hdrafts item hitem)
    · exact Or.inr (replacementItem_ok hprofiles item hitem)

theorem checkChange_ok (h : checkChange s change = .ok xs) : ShowHeads s xs ∧ ∀ x ∈ xs,
      IsTarget change "WORKSPACE_CAPABILITY_DRAFT" "draft" x.item ∨
        IsTarget change "WORKSPACE_EXECUTION_PROFILE" "profile" x.item := by
  unfold checkChange conflictError at h
  obtain ⟨items, hitems, h⟩ := bind_ok h
  obtain ⟨snapshots, hsnapshots, h⟩ := bind_ok h
  have hxs : snapshots = xs := by
    split at h
    · cases h
      rfl
    · split at h
      · cases h
      · cases h
        rfl
  subst hxs
  constructor
  · intro x hx
    obtain ⟨item, _, hitem⟩ := exists_source (mapM_ok hsnapshots) hx
    rw [checkTarget_ok hitem]
  · intro x hx
    obtain ⟨item, hmem, hitem⟩ := exists_source (mapM_ok hsnapshots) hx
    rw [checkTarget_ok hitem]
    exact replacementItems_ok hitems item hmem

/-- Every snapshot belongs to a change. -/
theorem replacementSnapshots_ok {changes : List Json}
    (h : replacementSnapshots s changes = .ok (some xs)) :
    ∀ x ∈ xs, ∃ change ∈ changes, ∃ ys, checkChange s change = .ok ys ∧ x ∈ ys := by
  unfold replacementSnapshots conflictError at h
  obtain ⟨snapshots, hsnapshots, h⟩ := bind_ok h
  dsimp only at h
  split at h
  · cases h
  · split at h
    · cases h
    · cases h
      intro x hx
      obtain ⟨ys, hys, hx⟩ := List.mem_flatten.mp hx
      obtain ⟨change, hchange, hcheck⟩ := exists_source (mapM_ok hsnapshots) hys
      exact ⟨change, hchange, ys, hcheck, hx⟩

variable {targets : List (HeadKey × RecordKey)}

theorem plannedTarget_mem {recordType name : String}
    (h : plannedTarget change recordType name = .ok targets)
    (hitem : IsTarget change recordType name item) :
    (item.storageKey, item.recordKey) ∈ targets := by
  unfold plannedTarget at h
  dsimp only at h
  rw [if_pos (hitem.source ▸ hitem.given)] at h
  obtain ⟨projectId, hproject, h⟩ := bind_ok h
  obtain ⟨id, hid, h⟩ := bind_ok h
  cases h
  have hp : projectId = item.projectId := by
    rw [hitem.project] at hproject
    exact (Except.ok.inj hproject).symm
  have htext : templateText (field item.record "id") = id := by
    rw [hitem.source]
    unfold interpolate idText typeError at hid
    split at hid
    · rename_i hnone
      rw [hnone]
      cases hid
      rfl
    · rename_i w hsome
      rw [hsome]
      split at hid
      · cases hid
      · cases hid
        rfl
  unfold Item.storageKey Item.recordKey
  rw [htext, hitem.typed, hitem.keyed, hp]
  exact List.mem_singleton_self _

/-- The targets that a plan puts back are those that its changes write. -/
theorem plannedTargets_mem (hx : checkChange s change = .ok xs)
    (ht : plannedTargets change = .ok targets) :
    ∀ x ∈ xs, (x.item.storageKey, x.item.recordKey) ∈ targets := by
  intro x hmem
  unfold plannedTargets at ht
  obtain ⟨_, _, ht⟩ := bind_ok ht
  obtain ⟨drafts, hdrafts, ht⟩ := bind_ok ht
  obtain ⟨profiles, hprofiles, ht⟩ := bind_ok ht
  cases ht
  rcases (checkChange_ok hx).2 x hmem with h | h
  · exact List.mem_append_left _ (plannedTarget_mem hdrafts h)
  · exact List.mem_append_right _ (plannedTarget_mem hprofiles h)

/-! ## Each operation -/

/-- A head that moves and goes back is what it was when it goes back to just that. -/
theorem same_setBack (s : Store) (k : HeadKey) (moved back : Head) :
    Same ((s.setHead k moved).restoreHead k back) s ↔
      (if back.version = 0 then none else some back) = s.head? k := by
  have hheads : ∀ j, ((s.setHead k moved).restoreHead k back).head? j =
      if j = k then (if back.version = 0 then none else some back) else s.head? j := by
    intro j
    unfold Store.restoreHead Store.setHead Store.head?
    split
    · rw [get?_of_delete]
      split
      · rfl
      · rw [get?_of_set, if_neg ‹_›]
    · rw [get?_of_set]
      split
      · rfl
      · rw [get?_of_set, if_neg ‹_›]
  constructor
  · intro h
    have hk := h.heads k
    rw [hheads, if_pos rfl] at hk
    exact hk
  · intro h
    rw [restoreHead_frame]
    refine ⟨?_, fun _ => rfl, fun _ => rfl, fun _ => rfl⟩
    intro j
    have hj := hheads j
    rw [h] at hj
    by_cases hjk : j = k
    · subst hjk
      rw [if_pos rfl] at hj
      exact hj
    · rw [if_neg hjk] at hj
      exact hj

section Operations

variable {s : Store} (hs : Moved s)

include hs

/-- A head goes back to its version without the record that it named. -/
theorem withCas_traceless (projectId recordType : String) (record : Option Json)
    (headKey : Option String) (expectedVersion : Option Json) :
    ((∃ e, (appendUnderstandingRecordWithCas s projectId recordType record headKey
        expectedVersion).2 = .error e) →
      Same (appendUnderstandingRecordWithCas s projectId recordType record headKey
        expectedVersion).1 s) ↔
      Clean s (.withCas projectId recordType record headKey expectedVersion) := by
  unfold appendUnderstandingRecordWithCas
  dsimp only [Clean, CleanCas]
  generalize hitem : casItem projectId recordType record headKey expectedVersion = item
  have hproject : item.projectId = projectId := by rw [← hitem]; rfl
  have htype : item.recordType = recordType := by rw [← hitem]; rfl
  have hrecord : item.record = record := by rw [← hitem]; rfl
  have hexpected : item.expectedVersion = expectedVersion := by rw [← hitem]; rfl
  have hkey : item.storageKey = (projectId, headKey.getD recordType) := by rw [← hitem]; rfl
  rw [hexpected, hrecord, hkey]
  generalize (projectId, headKey.getD recordType) = k
  by_cases hvalid : isVersion expectedVersion = true
  swap
  · simp [hvalid, same_refl]
  rw [if_neg (by simp [hvalid])]
  by_cases hversion : sameVersion (((s.head? k).map (·.version)).getD 0) expectedVersion = true
  swap
  · rw [if_pos (by simp [hversion])]
    simp only [same_refl, implies_true, true_iff]
    intro head hhead _ _ hsame
    rw [hhead] at hversion
    exact absurd hsame hversion
  rw [if_neg (by simp [hversion])]
  cases hpresent : isPresent record with
  | false =>
    obtain ⟨e, he⟩ := fieldOf_absent hpresent "id"
    rw [he]
    simp [same_refl]
  | true =>
    rw [fieldOf_present hpresent]
    cases hadmits : admits s.records item with
    | true =>
      have happend := append_of_admits hadmits
      rw [hproject, htype, hrecord] at happend
      dsimp only
      rw [setHead_records, happend]
      simp
    | false =>
      obtain ⟨e, happend⟩ := append_of_refused hadmits
      rw [hproject, htype, hrecord] at happend
      dsimp only
      rw [setHead_records, happend]
      have hsame := same_setBack s k
        { version := ((s.head? k).map (·.version)).getD 0 + 1, recordId := field record "id" }
        { version := ((s.head? k).map (·.version)).getD 0, recordId := some .null }
      constructor
      · intro h head hhead hnull _ _ _
        have hback := hsame.mp (h ⟨e, rfl⟩)
        have hmoved := hs k head hhead
        simp only [hhead, Option.map_some, Option.getD_some] at hback
        rw [if_neg (by omega), Option.some.injEq] at hback
        rw [← hback] at hnull
        exact absurd rfl hnull
      · intro h _
        refine hsame.mpr ?_
        cases hhead : s.head? k with
        | none => rfl
        | some head =>
          have hmoved := hs k head hhead
          rw [hhead] at hversion
          have hnull : head.recordId = some .null := by
            by_contra hne
            have := h head hhead hne hvalid hversion rfl
            cases this
          simp only [Option.map_some, Option.getD_some]
          rw [if_neg (by omega), ← hnull]

theorem bundle_traceless (projectId : String) (draft expectedDraftVersion policies : Option Json) :
    ((∃ e, (appendWorkspaceCapabilityBundle s projectId draft expectedDraftVersion policies).2 =
        .error e) →
      Same (appendWorkspaceCapabilityBundle s projectId draft expectedDraftVersion policies).1 s) ↔
      Clean s (.bundle projectId draft expectedDraftVersion policies) := by
  unfold appendWorkspaceCapabilityBundle
  dsimp only [Clean]
  cases hread : bundleSnapshots s projectId draft expectedDraftVersion policies with
  | error e => simp [same_refl]
  | ok xs =>
    obtain ⟨hshow, x, rest, rfl, hdraft, hrest⟩ := bundleSnapshots_ok hread
    simp only [Except.ok.injEq, forall_eq']
    cases hpresent : isPresent draft with
    | true =>
      refine mutate_traceless hs hshow ?_
      intro y hy
      rcases List.mem_cons.mp hy with rfl | hy
      · rw [hdraft]
        exact hpresent
      · exact hrest y hy
    | false =>
      -- the id of the draft is read before any head moves
      obtain ⟨e, he⟩ := fieldOf_absent hpresent "id"
      have hstart : mutate s (x :: rest) (draft.getD .null) = (s, .error e) := by
        unfold mutate writeHeads
        rw [hdraft, he]
      have hrefused : admits s.records x.item = false := by
        unfold admits
        rw [hdraft]
        rcases draft with _ | v
        · simp [field, truthy]
        · cases v with
          | null => simp [field, truthy, Json.get?]
          | _ => cases hpresent
      rw [hstart]
      unfold NothingOld beforeRefusal
      simp [hrefused, same_refl]

theorem replacement_traceless (changes : Option Json) :
    ((∃ e, (applyWorkspaceModelReplacement s changes).2 = .error e) →
      Same (applyWorkspaceModelReplacement s changes).1 s) ↔ Clean s (.replacement changes) := by
  unfold applyWorkspaceModelReplacement
  split
  · rename_i items
    dsimp only [Clean]
    cases hread : replacementSnapshots s items with
    | error e => simp [same_refl]
    | ok o =>
      cases o with
      | none => simp
      | some xs =>
        simp only [Except.ok.injEq, Option.some.injEq, forall_eq']
        have hall := replacementSnapshots_ok hread
        refine mutate_traceless hs ?_ ?_
        · intro x hx
          obtain ⟨change, _, ys, hys, hmem⟩ := hall x hx
          exact (checkChange_ok hys).1 x hmem
        · intro x hx
          obtain ⟨change, _, ys, hys, hmem⟩ := hall x hx
          rcases (checkChange_ok hys).2 x hmem with h | h
          · exact present_of_truthy h.given
          · exact present_of_truthy h.given
  · rename_i hnot
    have hclean : Clean s (.replacement changes) := by
      unfold Clean
      split
      · trivial
      · trivial
      · rename_i heq
        cases heq
        exact (hnot _ rfl).elim
      · trivial
    simp [same_refl, hclean]

theorem replacement_moved (changes : Option Json) :
    Moved (applyWorkspaceModelReplacement s changes).1 := by
  unfold applyWorkspaceModelReplacement
  split
  · split
    · exact hs
    · exact hs
    · exact mutate_moved hs _ _
  · exact hs

theorem withCas_moved (projectId recordType : String) (record : Option Json)
    (headKey : Option String) (expectedVersion : Option Json) :
    Moved (appendUnderstandingRecordWithCas s projectId recordType record headKey
      expectedVersion).1 := by
  have hset : ∀ k head, 1 ≤ head.version → Moved (s.setHead k head) := by
    intro k head hversion j h hj
    unfold Store.setHead Store.head? at hj
    rw [get?_of_set] at hj
    split at hj
    · cases hj
      exact hversion
    · exact hs j h hj
  unfold appendUnderstandingRecordWithCas
  dsimp only
  split
  · exact hs
  · split
    · exact hs
    · split
      · exact hs
      · split
        · exact hset _ _ (by simp)
        · exact restoreHead_moved (hset _ _ (by simp)) _ _

theorem bundle_moved (projectId : String) (draft expectedDraftVersion policies : Option Json) :
    Moved (appendWorkspaceCapabilityBundle s projectId draft expectedDraftVersion policies).1 := by
  unfold appendWorkspaceCapabilityBundle
  split
  · exact hs
  · exact mutate_moved hs _ _

end Operations

/-! ## The plan puts everything back -/

section Plan

variable (localeCompare : String → String → Ordering) {s : Store}

theorem frame_refl (heads : List HeadKey) (records : List RecordKey) :
    Frame heads records s s :=
  ⟨fun _ _ => rfl, fun _ _ => rfl, rfl, rfl⟩

/-- The replacement stays within the targets that the plan read before. -/
theorem replacement_frame {changes : Option Json} {items : List Json}
    {targets : List (List (HeadKey × RecordKey))} (hitems : itemsIn changes = .ok items)
    (htargets : items.mapM plannedTargets = .ok targets) :
    Frame (targets.flatten.map (·.1)) (targets.flatten.map (·.2)) s
      (applyWorkspaceModelReplacement s changes).1 := by
  unfold itemsIn engineError typeError at hitems
  split at hitems
  · cases hitems
    unfold applyWorkspaceModelReplacement
    dsimp only
    cases hread : replacementSnapshots s items with
    | error e => exact frame_refl _ _
    | ok o =>
      cases o with
      | none => exact frame_refl _ _
      | some xs =>
        have hmem : ∀ x ∈ xs, (x.item.storageKey, x.item.recordKey) ∈ targets.flatten := by
          intro x hx
          obtain ⟨change, hchange, ys, hys, hx⟩ := replacementSnapshots_ok hread x hx
          obtain ⟨ts, hts, hplanned⟩ := exists_of_mem (mapM_ok htargets) hchange
          exact List.mem_flatten.mpr ⟨ts, hts, plannedTargets_mem hys hplanned x hx⟩
        have hframe := mutate_frame s xs (.arr (items.map changeResult))
        refine ⟨?_, ?_, hframe.lifecycles, hframe.plans⟩
        · intro k hk
          refine hframe.heads k ?_
          intro hmap
          obtain ⟨x, hx, rfl⟩ := List.mem_map.mp hmap
          exact hk (List.mem_map.mpr ⟨_, hmem x hx, rfl⟩)
        · intro k hk
          refine hframe.records k ?_
          intro hmap
          obtain ⟨x, hx, rfl⟩ := List.mem_map.mp hmap
          exact hk (List.mem_map.mpr ⟨_, hmem x hx, rfl⟩)
  · cases hitems

/-- A failure inside of the `try` comes from the replacement or right after it. -/
theorem applyPlanned_error {planId now : String} {plan : Json} {e : Failure}
    (h : applyPlanned localeCompare s planId plan now = (t, .error e)) :
    t = (applyWorkspaceModelReplacement s (field (some plan) "changes")).1 := by
  unfold applyPlanned conflictError at h
  cases happly : applyWorkspaceModelReplacement s (field (some plan) "changes") with
  | mk u r =>
    rw [happly] at h
    cases r with
    | error e' =>
      cases h
      rfl
    | ok v =>
      dsimp only at h
      split at h
      · cases h
        rfl
      · cases h
        rfl
      · cases h

theorem restoreTargets_same
    (hframe : Frame (targets.map (·.1)) (targets.map (·.2)) s t) (sourceProfileId planId : String) :
    Same (restoreTargets s t targets sourceProfileId planId) s := by
  unfold restoreTargets
  refine ⟨?_, ?_, ?_, ?_⟩
  · intro k
    unfold Store.head?
    dsimp only
    rw [get?_of_restore (fun k => get? s.heads k)]
    split
    · rfl
    · exact hframe.heads k ‹_›
  · intro k
    dsimp only
    rw [get?_of_restore (fun k => get? s.records k)]
    split
    · rfl
    · exact hframe.records k ‹_›
  · intro k
    dsimp only
    rw [get?_of_put, hframe.lifecycles]
    split
    · rw [‹k = _›]
    · rfl
  · intro k
    dsimp only
    rw [get?_of_put, hframe.plans]
    split
    · rw [‹k = _›]
    · rfl

theorem applyPlan_traceless (planId : String) (expectedVersion : Option Json) (now : String)
    (h : ∃ e, (applyModelReplacementPlan localeCompare s planId expectedVersion now).2 =
      .error e) :
    Same (applyModelReplacementPlan localeCompare s planId expectedVersion now).1 s := by
  obtain ⟨e, h⟩ := h
  unfold applyModelReplacementPlan at h ⊢
  split
  · exact same_refl s
  · rename_i plan hplan
    rw [hplan] at h
    dsimp only at h
    split
    · split
      · exact same_refl s
      · exact same_refl s
    · rename_i hnew
      rw [if_neg hnew] at h
      cases hready : readyPlan localeCompare s planId plan expectedVersion with
      | error e' => exact same_refl s
      | ok targets =>
        rw [hready] at h
        dsimp only at h ⊢
        cases happly : applyPlanned localeCompare s planId plan now with
        | mk t r =>
          rw [happly] at h
          cases r with
          | ok v => cases h
          | error e' =>
            dsimp only
            unfold readyPlan conflictError at hready
            split at hready
            · cases hready
            · obtain ⟨_, _, hready⟩ := bind_ok hready
              obtain ⟨_, _, hready⟩ := bind_ok hready
              obtain ⟨items, hitems, hready⟩ := bind_ok hready
              obtain ⟨targets', htargets, hready⟩ := bind_ok hready
              cases hready
              refine restoreTargets_same ?_ _ _
              rw [applyPlanned_error localeCompare happly]
              exact replacement_frame hitems htargets

theorem applyPlan_moved (hs : Moved s) (planId : String) (expectedVersion : Option Json)
    (now : String) :
    Moved (applyModelReplacementPlan localeCompare s planId expectedVersion now).1 := by
  cases h : (applyModelReplacementPlan localeCompare s planId expectedVersion now).2 with
  | error e =>
    have hsame := applyPlan_traceless localeCompare planId expectedVersion now ⟨e, h⟩
    intro k head hhead
    rw [hsame.heads k] at hhead
    exact hs k head hhead
  | ok v =>
    unfold applyModelReplacementPlan at h ⊢
    split
    · exact hs
    · rename_i plan hplan
      rw [hplan] at h
      dsimp only at h
      split
      · split
        · exact hs
        · exact hs
      · rename_i hnew
        rw [if_neg hnew] at h
        split
        · exact hs
        · rename_i targets hready
          rw [hready] at h
          dsimp only at h
          have hmoved := replacement_moved hs (field (some plan) "changes")
          cases happly : applyPlanned localeCompare s planId plan now with
          | mk t r =>
            rw [happly] at h
            cases r with
            | error e' => cases h
            | ok w =>
              dsimp only
              unfold applyPlanned at happly
              cases hreplace : applyWorkspaceModelReplacement s (field (some plan) "changes") with
              | mk u r' =>
                rw [hreplace] at happly hmoved
                cases r' with
                | error e' => cases happly
                | ok v' =>
                  dsimp only at happly
                  split at happly
                  · cases happly
                  · cases happly
                  · cases happly
                    exact hmoved

end Plan

/-! ## Runs -/

section Runs

variable (localeCompare : String → String → Ordering)

theorem call_moved (hs : Moved s) (c : Call) : Moved (call localeCompare s c).1 := by
  cases c with
  | withCas projectId recordType record headKey expectedVersion =>
    exact withCas_moved hs projectId recordType record headKey expectedVersion
  | bundle projectId draft expectedDraftVersion policies =>
    exact bundle_moved hs projectId draft expectedDraftVersion policies
  | replacement changes => exact replacement_moved hs changes
  | applyPlan planId expectedVersion now =>
    exact applyPlan_moved localeCompare hs planId expectedVersion now
  | elsewhere records lifecycles plans profileRevisions revisionRecords => exact hs

theorem leavesNoTrace_iff_clean (hs : Moved s) (c : Call) :
    LeavesNoTrace localeCompare s c ↔ Clean s c := by
  cases c with
  | withCas projectId recordType record headKey expectedVersion =>
    exact withCas_traceless hs projectId recordType record headKey expectedVersion
  | bundle projectId draft expectedDraftVersion policies =>
    exact bundle_traceless hs projectId draft expectedDraftVersion policies
  | replacement changes => exact replacement_traceless hs changes
  | applyPlan planId expectedVersion now =>
    constructor
    · intro _
      trivial
    · intro _ h
      exact applyPlan_traceless localeCompare planId expectedVersion now h
  | elsewhere records lifecycles plans profileRevisions revisionRecords =>
    constructor
    · intro _
      trivial
    · rintro _ ⟨e, h⟩
      cases h

/-- In every run, the failing calls leave no trace exactly when every call is clean where it
is made. -/
theorem failures_leave_no_trace_iff_clean (calls : List Call) :
    Machine.Along (step localeCompare) (LeavesNoTrace localeCompare) Store.empty calls ↔
      Machine.Along (step localeCompare) Clean Store.empty calls := by
  have hmoved : ∀ (s : Store) (c : Call) (t : Store), Moved s →
      step localeCompare s c = some t → Moved t := by
    intro s c t hs h
    cases h
    exact call_moved localeCompare hs c
  have hstart : Moved Store.empty := by
    intro k head hhead
    cases hhead
  exact Machine.along_congr hmoved (fun s c hs => leavesNoTrace_iff_clean localeCompare hs c)
    calls hstart

end Runs

/-! ## A head that forgets its record -/

def stateRecord (text : String) : Option Json :=
  some (.obj [("id", .str "W"), ("text", .str text)])

/-- The second record has the id of the first one, and another text. -/
def secondRecordConflicts : List Call :=
  [.withCas "P" "WORKSPACE_STATE" (stateRecord "first") none (some (.num (Number.ofNat 0))),
    .withCas "P" "WORKSPACE_STATE" (stateRecord "second") none (some (.num (Number.ofNat 1)))]

theorem failed_cas_forgets_the_record :
    ¬ ∀ (localeCompare : String → String → Ordering) (calls : List Call),
      Machine.Along (step localeCompare) (LeavesNoTrace localeCompare) Store.empty calls := by
  intro h
  have hrun := (h (fun _ _ => .eq) secondRecordConflicts).2.1
  unfold LeavesNoTrace at hrun
  have hfail : ((call (fun _ _ => .eq) (call (fun _ _ => .eq) Store.empty
      (.withCas "P" "WORKSPACE_STATE" (stateRecord "first") none
        (some (.num (Number.ofNat 0))))).1
      (.withCas "P" "WORKSPACE_STATE" (stateRecord "second") none
        (some (.num (Number.ofNat 1))))).2).toOption.isNone = true := by
    decide +kernel
  have hheads := (hrun (by
    revert hfail
    cases (call _ _ _).2 with
    | error e => exact fun _ => ⟨e, rfl⟩
    | ok v => intro hfail; cases hfail)).heads ("P", "WORKSPACE_STATE")
  revert hheads
  decide +kernel

end Traqen.HeadMutations
