-- Evidence retention (`domain/evidence-lifecycle.js`, and
-- `appendEvidenceRetentionPolicy` and `appendEvidenceLifecycleEvent` of the
-- application and of the memory store). One log holds the events of an Evidence item,
-- and a request replays only the events of the policy version that it names.
import Mathlib
import Traqen.CanonicalJson
import Traqen.Model
import Traqen.Lib.Machine

open Js

namespace Traqen.EvidenceLifecycle

/-! ## Policies -/

structure RetentionPolicy where
  id : String
  version : Number
  dataClassification : String
  evidenceTypes : List String
  retentionDays : Number
  archiveAfterDays : Number
  legalHoldDefault : Bool
  allowedAccessRoles : List String
  actorId : String
  actorRole : String
  createdAt : String
deriving DecidableEq

def RetentionPolicy.recordIdentity (p : RetentionPolicy) : Json :=
  .obj [("id", .str p.id), ("version", .num p.version),
    ("dataClassification", .str p.dataClassification),
    ("evidenceTypes", .arr (p.evidenceTypes.map .str)), ("retentionDays", .num p.retentionDays),
    ("archiveAfterDays", .num p.archiveAfterDays), ("legalHoldDefault", .bool p.legalHoldDefault),
    ("allowedAccessRoles", .arr (p.allowedAccessRoles.map .str)), ("actorId", .str p.actorId),
    ("actorRole", .str p.actorRole)]

/-- The reviewer, and the roles that `allowedEvidenceLifecycleRoles` gives for the request. -/
structure Reviewer where
  actorId : String
  actorRole : String
  lifecycleRoles : List String

/-- The check of the array that `strings` makes with `nonEmpty`. -/
def strings (value : Option Json) (fieldName : String) : Except Failure (List String) :=
  match value with
  | some (.arr (item :: items)) => do
    let result ← (item :: items).zipIdx.mapM fun (item, index) =>
      requireNonEmptyString (some item) (fieldName ++ "[" ++ toString index ++ "]")
    if result.eraseDups.length ≠ result.length then
      typeError (fieldName ++ " must not contain duplicates")
    else .ok result
  | _ => typeError (fieldName ++ " must be a non-empty array")

def createEvidenceRetentionPolicy (input : Json) (reviewer : Reviewer) (now : Instant) :
    Except Failure RetentionPolicy := do
  let retentionDays ←
    requirePositiveInteger (field input "retentionDays") "evidenceRetentionPolicy.retentionDays"
  let archiveAfterDays ← requirePositiveInteger (field input "archiveAfterDays")
    "evidenceRetentionPolicy.archiveAfterDays"
  if archiveAfterDays.toInt > retentionDays.toInt then
    rangeError "evidenceRetentionPolicy.archiveAfterDays must not exceed retentionDays"
  else
    let id ← requireNonEmptyString (field input "id") "evidenceRetentionPolicy.id"
    let version ← requirePositiveInteger (field input "version") "evidenceRetentionPolicy.version"
    let dataClassification ← requireNonEmptyString (field input "dataClassification")
      "evidenceRetentionPolicy.dataClassification"
    let evidenceTypes ← strings (field input "evidenceTypes") "evidenceRetentionPolicy.evidenceTypes"
    let _ ← evidenceTypes.mapM fun type =>
      assertEnum EvidenceType (some (.str type)) "evidenceRetentionPolicy.evidenceType"
    let allowedAccessRoles ←
      strings (field input "allowedAccessRoles") "evidenceRetentionPolicy.allowedAccessRoles"
    let actorId ←
      requireNonEmptyString (some (.str reviewer.actorId)) "evidenceRetentionPolicy.actorId"
    let actorRole ←
      requireNonEmptyString (some (.str reviewer.actorRole)) "evidenceRetentionPolicy.actorRole"
    return { id, version, dataClassification, evidenceTypes, retentionDays, archiveAfterDays,
             legalHoldDefault := decide (field input "legalHoldDefault" = some (.bool true))
             allowedAccessRoles, actorId, actorRole, createdAt := now.iso }

/-! ## Events -/

inductive LifecycleAction where
  | ARCHIVED
  | LEGAL_HOLD_PLACED
  | LEGAL_HOLD_RELEASED
  | DELETION_REQUESTED
  | DELETED
  | ACCESSED
  | EXPORTED
deriving DecidableEq, Repr

instance : EnumValues LifecycleAction where
  names := ["ARCHIVED", "LEGAL_HOLD_PLACED", "LEGAL_HOLD_RELEASED", "DELETION_REQUESTED",
    "DELETED", "ACCESSED", "EXPORTED"]
  name
    | .ARCHIVED => "ARCHIVED"
    | .LEGAL_HOLD_PLACED => "LEGAL_HOLD_PLACED"
    | .LEGAL_HOLD_RELEASED => "LEGAL_HOLD_RELEASED"
    | .DELETION_REQUESTED => "DELETION_REQUESTED"
    | .DELETED => "DELETED"
    | .ACCESSED => "ACCESSED"
    | .EXPORTED => "EXPORTED"

def lifecycleActions : List LifecycleAction :=
  [.ARCHIVED, .LEGAL_HOLD_PLACED, .LEGAL_HOLD_RELEASED, .DELETION_REQUESTED, .DELETED, .ACCESSED,
    .EXPORTED]

structure LifecycleEvent where
  id : String
  evidenceId : String
  policyId : String
  policyVersion : Number
  action : LifecycleAction
  reason : String
  actorId : String
  actorRole : String
  deletionProof : Json
  occurredAt : String
deriving DecidableEq

def LifecycleEvent.toJson (e : LifecycleEvent) : Json :=
  .obj [("id", .str e.id), ("evidenceId", .str e.evidenceId), ("policyId", .str e.policyId),
    ("policyVersion", .num e.policyVersion), ("action", enumJson e.action),
    ("reason", .str e.reason), ("actorId", .str e.actorId), ("actorRole", .str e.actorRole),
    ("deletionProof", e.deletionProof), ("occurredAt", .str e.occurredAt)]

/-- `/^sha256:[a-f0-9]{64}$/`, on the text of the value. -/
def isProofHash (text : String) : Bool :=
  text.toList.take 7 = "sha256:".toList && (text.toList.drop 7).length = 64 &&
    (text.toList.drop 7).all fun c => ('a' ≤ c && c ≤ 'f') || ('0' ≤ c && c ≤ '9')

/-- A proof of a deletion is an object with a hash and the name of the storage. -/
def isDeletionProof (proof : Json) : Bool :=
  proof.isObject && isProofHash (nullish (field proof "proofHash") (.str "")).toText &&
    match field proof "storageProvider" with
    | some (.str s) => !isBlank s
    | _ => false

def checkDeletionProof (action : LifecycleAction) (proof : Json) : Except Failure Unit :=
  if action = .DELETED then
    if isDeletionProof proof then .ok ()
    else typeError "DELETED requires deletionProof.proofHash and storageProvider"
  else if proof ≠ .null then typeError "deletionProof is only valid for DELETED"
  else .ok ()

section Events

variable (dateParse : String → Option Int)

def createEvidenceLifecycleEvent (input : Json) (evidenceId : String) (reviewer : Reviewer)
    (now : Instant) : Except Failure LifecycleEvent := do
  let action ← requireNonEmptyString (field input "action") "evidenceLifecycleEvent.action"
  match lifecycleActions.find? fun a => EnumValues.name a = action with
  | none => typeError ("Unsupported Evidence lifecycle action: " ++ action)
  | some action =>
    let deletionProof := nullish (field input "deletionProof") .null
    checkDeletionProof action deletionProof
    let _ ← requireIsoTimestamp dateParse (some (.str now.iso)) "evidenceLifecycleEvent.occurredAt"
    let id ← requireNonEmptyString (field input "id") "evidenceLifecycleEvent.id"
    let evidenceId ←
      requireNonEmptyString (some (.str evidenceId)) "evidenceLifecycleEvent.evidenceId"
    let policyId ← requireNonEmptyString (field input "policyId") "evidenceLifecycleEvent.policyId"
    let policyVersion ←
      requirePositiveInteger (field input "policyVersion") "evidenceLifecycleEvent.policyVersion"
    let reason ← requireNonEmptyString (field input "reason") "evidenceLifecycleEvent.reason"
    let actorId ←
      requireNonEmptyString (some (.str reviewer.actorId)) "evidenceLifecycleEvent.actorId"
    let actorRole ←
      requireNonEmptyString (some (.str reviewer.actorRole)) "evidenceLifecycleEvent.actorRole"
    return { id, evidenceId, policyId, policyVersion, action, reason, actorId, actorRole,
             deletionProof, occurredAt := now.iso }

end Events

/-! ## Evaluation -/

structure Evidence where
  id : String
  type : String
  createdAt : String

structure Replay where
  legalHold : Bool
  archived : Bool
  deletionRequested : Bool
  deleted : Bool
deriving DecidableEq, Repr

def replayEvent (r : Replay) (e : LifecycleEvent) : Replay :=
  match e.action with
  | .LEGAL_HOLD_PLACED => { r with legalHold := true }
  | .LEGAL_HOLD_RELEASED => { r with legalHold := false }
  | .ARCHIVED => { r with archived := true }
  | .DELETION_REQUESTED => { r with deletionRequested := true }
  | .DELETED => { r with deleted := true }
  | .ACCESSED | .EXPORTED => r

def replay (legalHoldDefault : Bool) (events : List LifecycleEvent) : Replay :=
  events.foldl replayEvent
    { legalHold := legalHoldDefault, archived := false, deletionRequested := false,
      deleted := false }

inductive LifecycleStatus where
  | ACTIVE
  | DELETED
  | DELETION_BLOCKED_LEGAL_HOLD
  | DELETION_DUE
  | ARCHIVED
  | ARCHIVE_DUE
deriving DecidableEq, Repr

structure Lifecycle where
  evidenceId : String
  policyId : String
  policyVersion : Number
  status : LifecycleStatus
  replayed : Replay
  archiveDueAt : String
  retentionEndsAt : String
  deletionProof : Json
  accessEventCount : Nat
  events : List LifecycleEvent

section Evaluate

variable (dateParse : String → Option Int) (toISOString : Int → Option String)

/-- `new Date(Date.parse(createdAt) + days * 86_400_000).toISOString()`. -/
def dueAt (createdAt : String) (days : Number) : Except Failure String :=
  match (dateParse createdAt).bind fun t => toISOString (t + days.toInt * 86400000) with
  | some iso => .ok iso
  | none => rangeError "Invalid time value"

/-- `now >= Date.parse(text)`. -/
def isReached (now : Instant) (text : String) : Bool :=
  match dateParse text with
  | some t => decide (t ≤ now.time)
  | none => false

def evaluateEvidenceLifecycle (evidence : Evidence) (policy : RetentionPolicy)
    (events : List LifecycleEvent) (now : Instant) : Except Failure Lifecycle :=
  if evidence.type ∉ policy.evidenceTypes then
    typeError "Retention policy does not cover this Evidence type"
  else do
    let r := replay policy.legalHoldDefault events
    let archiveDueAt ← dueAt dateParse toISOString evidence.createdAt policy.archiveAfterDays
    let retentionEndsAt ← dueAt dateParse toISOString evidence.createdAt policy.retentionDays
    let status : LifecycleStatus :=
      if r.deleted then .DELETED
      else if r.legalHold && r.deletionRequested then .DELETION_BLOCKED_LEGAL_HOLD
      else if r.deletionRequested || isReached dateParse now retentionEndsAt then .DELETION_DUE
      else if r.archived then .ARCHIVED
      else if isReached dateParse now archiveDueAt then .ARCHIVE_DUE
      else .ACTIVE
    return { evidenceId := evidence.id, policyId := policy.id, policyVersion := policy.version
             status, replayed := r, archiveDueAt, retentionEndsAt
             deletionProof := ((events.reverse.find? fun e => e.action = .DELETED).map
               (·.deletionProof)).getD .null
             accessEventCount :=
               (events.filter fun e => e.action = .ACCESSED || e.action = .EXPORTED).length
             events }

end Evaluate

/-! ## Requests on one Evidence item -/

/-- The store, as far as one Evidence item is concerned. -/
structure Store where
  policies : List RetentionPolicy
  events : List LifecycleEvent

def policyKey (id version : String) : String := id ++ "\u0000" ++ version

/-- The text of a value in a template literal. -/
def keyText (value : Option Json) : String := (value.map Json.toText).getD "undefined"

/-- With no version in the request, the newest version of the policy. -/
def getEvidenceRetentionPolicy (policies : List RetentionPolicy) (policyId version : Option Json) :
    Option RetentionPolicy :=
  match version with
  | none | some .null =>
    ((policies.filter fun p => some (.str p.id) = policyId).insertionSort
      fun a b => b.version.toInt ≤ a.version.toInt).head?
  | some v => policies.find? fun p => policyKey p.id p.version.toText = policyKey (keyText policyId) v.toText

/-- The events that a request replays. -/
def relevantEvents (policy : RetentionPolicy) (events : List LifecycleEvent) : List LifecycleEvent :=
  events.filter fun e => e.policyId = policy.id ∧ e.policyVersion = policy.version

def checkServerFields (input : Json) (what fieldName : String) (serverFields : List String) :
    Except Failure Unit :=
  if !input.isObject then typeError (what ++ " input must be an object")
  else
    match serverFields.find? fun key => (input.get? key).isSome with
    | some key => typeError (fieldName ++ "." ++ key ++ " is assigned by the server")
    | none => .ok ()

def appendEvidenceRetentionPolicy (s : Store) (input : Json) (reviewer : Reviewer) (now : Instant) :
    Except Failure Store := do
  checkServerFields input "Evidence retention policy" "evidenceRetentionPolicy"
    ["actorId", "actorRole", "createdAt"]
  if reviewer.actorRole ∉ reviewer.lifecycleRoles then
    authorizationError ("Role " ++ reviewer.actorRole ++ " cannot govern Evidence lifecycle")
  else
    let policy ← createEvidenceRetentionPolicy input reviewer now
    match s.policies.find? fun p => policyKey p.id p.version.toText =
        policyKey policy.id policy.version.toText with
    | some existing =>
      if canonicalJson existing.recordIdentity ≠ canonicalJson policy.recordIdentity then
        conflictError ("EvidenceRetentionPolicy " ++ policy.id ++ " version " ++
          policy.version.toText ++ " conflicts with an existing immutable record")
      else .ok s
    | none => .ok { s with policies := s.policies ++ [policy] }

def allowedRoles (policy : RetentionPolicy) (reviewer : Reviewer) (action : Option Json) :
    List String :=
  if action = some (enumJson LifecycleAction.ACCESSED) ||
      action = some (enumJson LifecycleAction.EXPORTED) then policy.allowedAccessRoles
  else reviewer.lifecycleRoles

/-- The check of the current state, as the policy of the request shows it. -/
def checkCurrent (r : Replay) (action : Option Json) : Except Failure Unit :=
  if r.deleted then
    conflictError "Deleted Evidence content cannot receive further lifecycle events"
  else if action = some (enumJson LifecycleAction.DELETED) && r.legalHold then
    conflictError "Evidence under Legal Hold cannot be deleted"
  else if action = some (enumJson LifecycleAction.DELETED) && !r.deletionRequested then
    conflictError "Evidence deletion requires a prior DELETION_REQUESTED event"
  else .ok ()

/-- The insertion of the store: an event that is there already is accepted, and not inserted. -/
def storeEvent (s : Store) (event : LifecycleEvent) : Except Failure Store :=
  if s.policies.all fun p => policyKey p.id p.version.toText ≠
      policyKey event.policyId event.policyVersion.toText then
    conflictError ("Evidence retention policy " ++ event.policyId ++ "@" ++
      event.policyVersion.toText ++ " does not exist")
  else
    match s.events.find? fun x => x.id = event.id with
    | some existing =>
      if canonicalJson existing.toJson ≠ canonicalJson event.toJson then
        conflictError
          ("EvidenceLifecycleEvent " ++ event.id ++ " conflicts with an existing record")
      else .ok s
    | none => .ok { s with events := s.events ++ [event] }

section Requests

variable (dateParse : String → Option Int) (toISOString : Int → Option String)
  (evidence : Evidence)

def appendEvidenceLifecycleEvent (s : Store) (input : Json) (reviewer : Reviewer)
    (clock : Nat → Instant) : Except Failure (Store × LifecycleEvent) := do
  checkServerFields input "Evidence lifecycle event" "evidenceLifecycleEvent"
    ["evidenceId", "actorId", "actorRole", "occurredAt"]
  match getEvidenceRetentionPolicy s.policies (field input "policyId")
      (field input "policyVersion") with
  | none =>
    conflictError ("Evidence retention policy " ++ keyText (field input "policyId") ++ "@" ++
      keyText (field input "policyVersion") ++ " does not exist")
  | some policy =>
    let action := field input "action"
    if reviewer.actorRole ∉ allowedRoles policy reviewer action then
      authorizationError ("Role " ++ reviewer.actorRole ++
        " cannot perform Evidence lifecycle action " ++ keyText action)
    else
      let current ← evaluateEvidenceLifecycle dateParse toISOString evidence policy
        (relevantEvents policy s.events) (clock 0)
      checkCurrent current.replayed action
      let event ← createEvidenceLifecycleEvent dateParse input evidence.id reviewer (clock 1)
      let stored ← storeEvent s event
      return (stored, event)

inductive Request where
  | policy (input : Json) (reviewer : Reviewer) (now : Instant)
  | event (input : Json) (reviewer : Reviewer) (clock : Nat → Instant)

/-- A request that is not accepted leaves the store as it is. -/
def step (s : Store) : Request → Option Store
  | .policy input reviewer now =>
    match appendEvidenceRetentionPolicy s input reviewer now with
    | .ok s' => some s'
    | .error _ => some s
  | .event input reviewer clock =>
    match appendEvidenceLifecycleEvent dateParse toISOString evidence s input reviewer clock with
    | .ok (s', _) => some s'
    | .error _ => some s

/-- The event that a request has accepted. -/
def accepted (s : Store) (request : Request) (_ : Store) : List LifecycleEvent :=
  match request with
  | .policy .. => []
  | .event input reviewer clock =>
    match appendEvidenceLifecycleEvent dateParse toISOString evidence s input reviewer clock with
    | .ok (_, event) => [event]
    | .error _ => []

end Requests

def start : Store := { policies := [], events := [] }

/-! ## The law of the hold -/

/-- A hold was placed, and no release came after it. -/
def UnderHold (events : List LifecycleEvent) : Prop :=
  ∃ before placed after, events = before ++ placed :: after ∧
    placed.action = .LEGAL_HOLD_PLACED ∧ ∀ x ∈ after, x.action ≠ .LEGAL_HOLD_RELEASED

structure Lawful (events : List LifecycleEvent) : Prop where
  hold : ∀ before e after, events = before ++ e :: after → e.action = .DELETED → ¬ UnderHold before
  final : ∀ before e after, events = before ++ e :: after → e.action = .DELETED → after = []

theorem replay_append (legalHoldDefault : Bool) (events : List LifecycleEvent) (e : LifecycleEvent) :
    replay legalHoldDefault (events ++ [e]) = replayEvent (replay legalHoldDefault events) e := by
  simp [replay, List.foldl_append]

/-- The replay finds a deletion exactly when the list has one. -/
theorem replay_deleted (legalHoldDefault : Bool) (events : List LifecycleEvent) :
    (replay legalHoldDefault events).deleted = true ↔ ∃ e ∈ events, e.action = .DELETED := by
  induction events using List.reverseRecOn with
  | nil => simp [replay]
  | append_singleton events e ih =>
    rw [replay_append]
    unfold replayEvent
    split <;> rename_i ha <;> simp [ih, ha]

variable {events : List LifecycleEvent}

/-- A hold in the list is a hold in the replay, whatever the default of the policy. -/
theorem replay_hold_of_underHold (legalHoldDefault : Bool)
    (h : UnderHold events) : (replay legalHoldDefault events).legalHold = true := by
  obtain ⟨before, placed, after, rfl, hplaced, hafter⟩ := h
  induction after using List.reverseRecOn with
  | nil =>
    rw [replay_append]
    simp [replayEvent, hplaced]
  | append_singleton after e ih =>
    have hih := ih fun x hx => hafter x (by simp [hx])
    have he := hafter e (by simp)
    rw [← List.cons_append, ← List.append_assoc, replay_append]
    unfold replayEvent
    split <;> rename_i ha <;> first | rfl | exact hih | exact absurd ha he

/-- With no hold by default, the replay holds exactly when the list does. -/
theorem underHold_iff_replay (events : List LifecycleEvent) :
    UnderHold events ↔ (replay false events).legalHold = true := by
  constructor
  · exact replay_hold_of_underHold false
  · intro h
    induction events using List.reverseRecOn with
    | nil => simp [replay] at h
    | append_singleton events e ih =>
      rw [replay_append] at h
      by_cases hplaced : e.action = .LEGAL_HOLD_PLACED
      · exact ⟨events, e, [], rfl, hplaced, by simp⟩
      · have hboth : (replay false events).legalHold = true ∧ e.action ≠ .LEGAL_HOLD_RELEASED := by
          unfold replayEvent at h
          split at h <;> rename_i ha <;> simp_all
        obtain ⟨before, placed, after, rfl, hp, hafter⟩ := ih hboth.1
        refine ⟨before, placed, after ++ [e], by simp, hp, fun x hx => ?_⟩
        rcases List.mem_append.mp hx with h1 | h1
        · exact hafter x h1
        · exact List.mem_singleton.mp h1 ▸ hboth.2

variable {e : LifecycleEvent}

theorem lawful_append (h : Lawful events) (hhold : e.action = .DELETED → ¬ UnderHold events)
    (hfinal : ∀ x ∈ events, x.action ≠ .DELETED) : Lawful (events ++ [e]) := by
  constructor
  · intro before x after heq hx
    rcases List.eq_nil_or_concat after with rfl | ⟨after, y, rfl⟩
    · obtain ⟨rfl, hex⟩ := List.append_inj' heq rfl
      cases hex
      exact hhold hx
    · rw [List.concat_eq_append, ← List.cons_append, ← List.append_assoc] at heq
      obtain ⟨hev, _⟩ := List.append_inj' heq rfl
      exact h.hold before x after hev hx
  · intro before x after heq hx
    rcases List.eq_nil_or_concat after with rfl | ⟨after, y, rfl⟩
    · rfl
    · rw [List.concat_eq_append, ← List.cons_append, ← List.append_assoc] at heq
      obtain ⟨hev, _⟩ := List.append_inj' heq rfl
      exact absurd hx (hfinal x (by simp [hev]))

section Laws

variable {dateParse : String → Option Int} {toISOString : Int → Option String}
  {evidence : Evidence}

/-- The events of the policy that the request names tell what the whole log tells: a hold and a
deletion show in them too; and the id of the event is new. -/
def sliceTells (s : Store) : Request → Bool
  | .policy .. => true
  | .event input _ _ =>
    match getEvidenceRetentionPolicy s.policies (field input "policyId")
        (field input "policyVersion") with
    | none => true
    | some policy =>
      let slice := replay policy.legalHoldDefault (relevantEvents policy s.events)
      (s.events.all fun x => some (.str x.id) ≠ field input "id") &&
        ((replay false s.events).legalHold → slice.legalHold) &&
        ((replay false s.events).deleted → slice.deleted)

/-- The event carries the id and the action of the request. -/
theorem createEvidenceLifecycleEvent_ok {input : Json} {evidenceId : String} {reviewer : Reviewer}
    {now : Instant}
    (h : createEvidenceLifecycleEvent dateParse input evidenceId reviewer now = .ok e) :
    field input "id" = some (.str e.id) ∧ field input "action" = some (enumJson e.action) := by
  obtain ⟨action, haction, h⟩ := bind_ok h
  rcases hfind : lifecycleActions.find? (fun a => EnumValues.name a = action) with _ | a
  · simp only [hfind] at h
    cases h
  · simp only [hfind] at h
    obtain ⟨_, _, h⟩ := bind_ok h
    obtain ⟨_, _, h⟩ := bind_ok h
    obtain ⟨id, hid, h⟩ := bind_ok h
    obtain ⟨_, _, h⟩ := bind_ok h
    obtain ⟨_, _, h⟩ := bind_ok h
    obtain ⟨_, _, h⟩ := bind_ok h
    obtain ⟨_, _, h⟩ := bind_ok h
    obtain ⟨_, _, h⟩ := bind_ok h
    obtain ⟨_, _, h⟩ := bind_ok h
    cases h
    have hname : EnumValues.name a = action := by simpa using List.find?_some hfind
    refine ⟨(requireNonEmptyString_ok hid).1, ?_⟩
    rw [(requireNonEmptyString_ok haction).1, ← hname]
    rfl

theorem checkCurrent_ok {r : Replay} {action : Option Json} (h : checkCurrent r action = .ok ()) :
    r.deleted = false ∧ (action = some (enumJson LifecycleAction.DELETED) → r.legalHold = false) := by
  unfold checkCurrent conflictError at h
  split at h
  · cases h
  · rename_i hdeleted
    split at h
    · cases h
    · rename_i hhold
      refine ⟨by simpa using hdeleted, fun ha => ?_⟩
      simpa [ha] using hhold

theorem evaluate_replayed {policy : RetentionPolicy} {now : Instant} {current : Lifecycle}
    (h : evaluateEvidenceLifecycle dateParse toISOString evidence policy events now = .ok current) :
    current.replayed = replay policy.legalHoldDefault events := by
  unfold evaluateEvidenceLifecycle at h
  split at h
  · cases h
  · obtain ⟨_, _, h⟩ := bind_ok h
    obtain ⟨_, _, h⟩ := bind_ok h
    cases h
    rfl

theorem storeEvent_new {s t : Store} (h : storeEvent s e = .ok t)
    (hnew : ∀ x ∈ s.events, x.id ≠ e.id) : t.events = s.events ++ [e] := by
  unfold storeEvent at h
  split at h
  · cases h
  · split at h
    · rename_i existing hfind
      have hid : existing.id = e.id := by simpa using List.find?_some hfind
      exact absurd hid (hnew existing (List.mem_of_find?_eq_some hfind))
    · cases h
      rfl

/-- An accepted request whose slice tells the whole log extends a lawful log lawfully. -/
theorem accepted_lawful {s t : Store} {input : Json} {reviewer : Reviewer} {clock : Nat → Instant}
    (hlaw : Lawful s.events)
    (htells : sliceTells s (.event input reviewer clock) = true)
    (h : appendEvidenceLifecycleEvent dateParse toISOString evidence s input reviewer clock =
      .ok (t, e)) : t.events = s.events ++ [e] ∧ Lawful (s.events ++ [e]) := by
  obtain ⟨_, _, h⟩ := bind_ok h
  rcases hpolicy : getEvidenceRetentionPolicy s.policies (field input "policyId")
    (field input "policyVersion") with _ | policy
  · simp only [hpolicy] at h
    cases h
  · simp only [hpolicy] at h
    split at h
    · cases h
    · obtain ⟨current, hcurrent, h⟩ := bind_ok h
      obtain ⟨_, hcheck, h⟩ := bind_ok h
      obtain ⟨event, hevent, h⟩ := bind_ok h
      obtain ⟨stored, hstored, h⟩ := bind_ok h
      cases h
      obtain ⟨hid, haction⟩ := createEvidenceLifecycleEvent_ok hevent
      rw [evaluate_replayed hcurrent] at hcheck
      obtain ⟨hdeleted, hhold⟩ := checkCurrent_ok hcheck
      simp only [sliceTells, hpolicy, Bool.and_eq_true, List.all_eq_true, decide_eq_true_eq, hid,
        ne_eq, Option.some.injEq, Json.str.injEq] at htells
      obtain ⟨⟨hnew, htellsHold⟩, htellsDeleted⟩ := htells
      refine ⟨storeEvent_new hstored hnew, lawful_append hlaw ?_ ?_⟩
      · intro ha hunder
        have hslice := htellsHold ((underHold_iff_replay s.events).mp hunder)
        rw [hhold (by rw [haction, ha])] at hslice
        cases hslice
      · intro x hx ha
        have hslice := htellsDeleted ((replay_deleted false s.events).mpr ⟨x, hx, ha⟩)
        rw [hdeleted] at hslice
        cases hslice

theorem appendEvidenceRetentionPolicy_events {s t : Store} {input : Json} {reviewer : Reviewer}
    {now : Instant} (h : appendEvidenceRetentionPolicy s input reviewer now = .ok t) :
    t.events = s.events := by
  obtain ⟨_, _, h⟩ := bind_ok h
  split at h
  · cases h
  · obtain ⟨policy, _, h⟩ := bind_ok h
    split at h
    · split at h
      · cases h
      · cases h
        rfl
    · cases h
      rfl

/-- The log is the list of the accepted events, and it is lawful. -/
def Good (p : Store × List LifecycleEvent) : Prop := p.2 = p.1.events ∧ Lawful p.1.events

theorem step_good (p : Store × List LifecycleEvent) (request : Request)
    (q : Store × List LifecycleEvent) (hg : Good p) (htells : sliceTells p.1 request = true)
    (h : Machine.watch (step dateParse toISOString evidence)
      (accepted dateParse toISOString evidence) p request = some q) : Good q := by
  obtain ⟨s, seen⟩ := p
  obtain ⟨t, seen'⟩ := q
  obtain ⟨hst, hseen⟩ := Machine.watch_some h
  obtain ⟨hlog, hlaw⟩ := hg
  dsimp only at hlog hlaw htells
  cases request with
  | policy input reviewer now =>
    have hsame : t.events = s.events := by
      simp only [step] at hst
      split at hst
      · rename_i s' ht
        cases hst
        exact appendEvidenceRetentionPolicy_events ht
      · cases hst
        rfl
    refine ⟨?_, by rw [hsame]; exact hlaw⟩
    rw [hseen, hsame, hlog]
    simp [accepted]
  | event input reviewer clock =>
    simp only [step, accepted] at hst hseen
    split at hst
    · rename_i s' e ht
      cases hst
      simp only [ht] at hseen
      obtain ⟨hevents, hlawful⟩ := accepted_lawful hlaw htells ht
      exact ⟨by rw [hseen, hlog, hevents], by rw [hevents]; exact hlawful⟩
    · rename_i err ht
      cases hst
      simp only [ht, List.append_nil] at hseen
      exact ⟨by rw [hseen, hlog], hlaw⟩

end Laws

/-- Over every sequence of requests on one Evidence item: when the policy that each request names
tells what the whole log tells, no deletion is accepted under a hold, and nothing is accepted
after a deletion. -/
theorem holds_and_deletions_are_kept (dateParse : String → Option Int)
    (toISOString : Int → Option String) (evidence : Evidence) (requests : List Request) (s : Store)
    (events : List LifecycleEvent)
    (h : Machine.run (Machine.watch (step dateParse toISOString evidence)
      (accepted dateParse toISOString evidence)) (start, []) requests = some (s, events))
    (hc : Machine.Along (Machine.watch (step dateParse toISOString evidence)
      (accepted dateParse toISOString evidence)) (fun p r => sliceTells p.1 r = true)
      (start, []) requests) : Lawful events := by
  have hstart : Good (start, []) := ⟨rfl, by simp [start], by simp [start]⟩
  obtain ⟨hlog, hlaw⟩ := Machine.run_keeps_along step_good h hc hstart
  have hevents : events = s.events := hlog
  rw [hevents]
  exact hlaw

/-! ## One policy, and two policies -/

def epoch : Instant := { time := 0, iso := "1970-01-01T00:00:00.000Z" }

def parseEpoch : String → Option Int := fun _ => some 0

def epochText : Int → Option String := fun _ => some "1970-01-01T00:00:00.000Z"

def logEvidence : Evidence := { id := "EV", type := "LOG", createdAt := "1970-01-01T00:00:00.000Z" }

def steward : Reviewer :=
  { actorId := "alice", actorRole := "STEWARD", lifecycleRoles := ["STEWARD"] }

def one : Number := { mantissa := 1, exponent := 0, normal := Number.normal_one }

def policyRequest (id : String) : Request :=
  .policy (.obj [("id", .str id), ("version", .num one), ("dataClassification", .str "INTERNAL"),
    ("evidenceTypes", .arr [.str "LOG"]), ("retentionDays", .num one),
    ("archiveAfterDays", .num one), ("allowedAccessRoles", .arr [.str "AUDITOR"])]) steward epoch

def proof : Json :=
  .obj [("proofHash", .str ("sha256:" ++ String.ofList (List.replicate 64 'a'))),
    ("storageProvider", .str "s3")]

def eventRequest (id policyId : String) (action : LifecycleAction) : Request :=
  .event (.obj [("id", .str id), ("policyId", .str policyId), ("policyVersion", .num one),
    ("action", enumJson action), ("reason", .str "matter 7"),
    ("deletionProof", if action = .DELETED then proof else .null)]) steward fun _ => epoch

/-- Under one policy the hold blocks the first deletion, and the release lets the second pass. -/
def onePolicy : List Request :=
  [policyRequest "P1", eventRequest "E1" "P1" .LEGAL_HOLD_PLACED,
    eventRequest "E2" "P1" .DELETION_REQUESTED, eventRequest "E3" "P1" .DELETED,
    eventRequest "E4" "P1" .LEGAL_HOLD_RELEASED, eventRequest "E5" "P1" .DELETED,
    eventRequest "E6" "P1" .ARCHIVED]

theorem one_policy_is_lawful :
    ∃ s events, Machine.run (Machine.watch (step parseEpoch epochText logEvidence)
        (accepted parseEpoch epochText logEvidence)) (start, []) onePolicy = some (s, events) ∧
      events.map (·.id) = ["E1", "E2", "E4", "E5"] ∧ Lawful events := by
  have hrun : (Machine.run (Machine.watch (step parseEpoch epochText logEvidence)
      (accepted parseEpoch epochText logEvidence)) (start, []) onePolicy).map
      (fun p => p.2.map (·.id)) = some ["E1", "E2", "E4", "E5"] := by decide +kernel
  obtain ⟨⟨s, events⟩, hs, he⟩ := Option.map_eq_some_iff.mp hrun
  exact ⟨s, events, hs, he, holds_and_deletions_are_kept parseEpoch epochText logEvidence onePolicy
    s events hs (by decide +kernel)⟩

def twoPolicies : List Request :=
  [policyRequest "P1", policyRequest "P2", eventRequest "E1" "P1" .LEGAL_HOLD_PLACED,
    eventRequest "E2" "P2" .DELETION_REQUESTED, eventRequest "E3" "P2" .DELETED]

/-- A hold under one policy does not show under the other. -/
theorem hold_of_another_policy_is_missed :
    ¬ ∀ (requests : List Request) (s : Store) (events : List LifecycleEvent),
      Machine.run (Machine.watch (step parseEpoch epochText logEvidence)
        (accepted parseEpoch epochText logEvidence)) (start, []) requests = some (s, events) →
      Lawful events := by
  intro h
  have hrun : (Machine.run (Machine.watch (step parseEpoch epochText logEvidence)
      (accepted parseEpoch epochText logEvidence)) (start, []) twoPolicies).map
      (fun p => p.2.map (·.action)) =
      some [.LEGAL_HOLD_PLACED, .DELETION_REQUESTED, .DELETED] := by decide +kernel
  obtain ⟨⟨s, events⟩, hs, he⟩ := Option.map_eq_some_iff.mp hrun
  rcases events with _ | ⟨placed, _ | ⟨requested, _ | ⟨deleted, _ | ⟨_, _⟩⟩⟩⟩ <;>
    simp only [List.map_cons, List.map_nil, List.cons.injEq, reduceCtorEq, and_false, and_true] at he
  obtain ⟨hplaced, hrequested, hdeleted⟩ := he
  have hlaw := h _ s _ hs
  refine hlaw.hold [placed, requested] deleted [] rfl hdeleted ⟨[], placed, [requested], rfl, hplaced, ?_⟩
  simp [hrequested]

/-! ## A hold and the end of the retention -/

section Held

variable {dateParse : String → Option Int} {toISOString : Int → Option String}
  {evidence : Evidence} {policy : RetentionPolicy} {events : List LifecycleEvent} {now : Instant}

theorem replay_requested (legalHoldDefault : Bool) (events : List LifecycleEvent) :
    (replay legalHoldDefault events).deletionRequested = true ↔
      ∃ e ∈ events, e.action = .DELETION_REQUESTED := by
  induction events using List.reverseRecOn with
  | nil => simp [replay]
  | append_singleton events e ih =>
    rw [replay_append]
    unfold replayEvent
    split <;> rename_i ha <;> simp [ih, ha]

variable (dateParse toISOString evidence policy events now) in
/-- No deletion is reported as due. -/
def NeverDue : Prop :=
  ∀ lifecycle, evaluateEvidenceLifecycle dateParse toISOString evidence policy events now =
    .ok lifecycle → lifecycle.status ≠ .DELETION_DUE

/-- The hold comes before a request only: without one, a deletion is due from the end of the
retention on. -/
theorem held_neverDue_iff (hcovers : evidence.type ∈ policy.evidenceTypes)
    (hhold : (replay policy.legalHoldDefault events).legalHold = true)
    (hkept : ∀ e ∈ events, e.action ≠ .DELETED) :
    NeverDue dateParse toISOString evidence policy events now ↔
      (∃ e ∈ events, e.action = .DELETION_REQUESTED) ∨
      ∀ archiveDueAt retentionEndsAt,
        dueAt dateParse toISOString evidence.createdAt policy.archiveAfterDays = .ok archiveDueAt →
        dueAt dateParse toISOString evidence.createdAt policy.retentionDays = .ok retentionEndsAt →
          isReached dateParse now retentionEndsAt = false := by
  have hnotDeleted : (replay policy.legalHoldDefault events).deleted = false := by
    rw [Bool.eq_false_iff, ne_eq, replay_deleted]
    rintro ⟨e, he, hdeleted⟩
    exact hkept e he hdeleted
  rw [← replay_requested policy.legalHoldDefault]
  unfold NeverDue evaluateEvidenceLifecycle
  rw [if_neg (not_not.mpr hcovers)]
  dsimp only
  rw [hhold, hnotDeleted]
  cases hrequested : (replay policy.legalHoldDefault events).deletionRequested with
  | true =>
    refine iff_of_true (fun lifecycle h => ?_) (Or.inl rfl)
    obtain ⟨_, -, h⟩ := bind_ok h
    obtain ⟨_, -, h⟩ := bind_ok h
    cases h
    simp
  | false =>
    constructor
    · intro h
      refine Or.inr fun archiveDueAt retentionEndsAt harchive hretention => ?_
      rw [harchive, hretention] at h
      have hstatus := h _ rfl
      rw [Bool.eq_false_iff]
      intro hreached
      simp [hreached] at hstatus
    · intro h lifecycle hlifecycle
      obtain ⟨archiveDueAt, harchive, hlifecycle⟩ := bind_ok hlifecycle
      obtain ⟨retentionEndsAt, hretention, hlifecycle⟩ := bind_ok hlifecycle
      cases hlifecycle
      have hreached := h.resolve_left (by simp) _ _ harchive hretention
      simp only [hreached, Bool.and_false, Bool.or_false, Bool.false_eq_true, if_false]
      split_ifs <;> simp

end Held

/-- The first two days of the clock. -/
def parseDay (text : String) : Option Int :=
  if text = "1970-01-01T00:00:00.000Z" then some 0
  else if text = "1970-01-02T00:00:00.000Z" then some 86400000
  else none

def dayText (time : Int) : Option String :=
  if time = 0 then some "1970-01-01T00:00:00.000Z"
  else if time = 86400000 then some "1970-01-02T00:00:00.000Z"
  else none

def heldPolicy : RetentionPolicy :=
  { id := "P1", version := one, dataClassification := "INTERNAL", evidenceTypes := ["LOG"]
    retentionDays := one, archiveAfterDays := one, legalHoldDefault := true
    allowedAccessRoles := ["AUDITOR"], actorId := "alice", actorRole := "STEWARD"
    createdAt := epoch.iso }

theorem held_before_the_end : NeverDue parseDay dayText logEvidence heldPolicy [] epoch := by
  rw [held_neverDue_iff (by decide) (by decide) (by decide)]
  refine Or.inr fun _ retentionEndsAt _ hretention => ?_
  obtain rfl : "1970-01-02T00:00:00.000Z" = retentionEndsAt := Except.ok.inj hretention
  decide

/-- At the end of the retention the hold is not asked about. -/
theorem due_under_hold : ¬ ∀ (evidence : Evidence) (policy : RetentionPolicy)
    (events : List LifecycleEvent) (now : Instant), evidence.type ∈ policy.evidenceTypes →
      (replay policy.legalHoldDefault events).legalHold = true →
      (∀ e ∈ events, e.action ≠ .DELETED) →
      NeverDue parseDay dayText evidence policy events now := by
  intro h
  have hnever := h logEvidence heldPolicy []
    { time := 86400000, iso := "1970-01-02T00:00:00.000Z" } (by decide) rfl (by decide)
  exact hnever _ rfl rfl

end Traqen.EvidenceLifecycle
