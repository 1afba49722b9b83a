-- Feature lineage (`domain/feature-evolution.js`, and `appendFeatureLineage` of the
-- application and of the memory store). A request reads the lineages, checks
-- that its edge closes no cycle among them, and inserts the edge in a later turn,
-- so the check can be older than the graph that the edge enters.
import Traqen.CanonicalJson
import Traqen.Model
import Traqen.Lib.Machine
import Traqen.Lib.Reachability

open Js

namespace Traqen.FeatureEvolution

/-! ## One lineage -/

inductive FeatureLineageRelation where
  | PREDECESSOR_OF
  | SUCCESSOR_OF
  | MERGED_INTO
  | SPLIT_INTO
deriving DecidableEq, Repr

instance : EnumValues FeatureLineageRelation where
  names := ["PREDECESSOR_OF", "SUCCESSOR_OF", "MERGED_INTO", "SPLIT_INTO"]
  name
    | .PREDECESSOR_OF => "PREDECESSOR_OF"
    | .SUCCESSOR_OF => "SUCCESSOR_OF"
    | .MERGED_INTO => "MERGED_INTO"
    | .SPLIT_INTO => "SPLIT_INTO"

structure FeatureLineage where
  id : String
  predecessorFeatureId : String
  successorFeatureId : String
  relationType : Json
  actorId : String
  actorRole : String
  rationale : String
  createdAt : String
deriving DecidableEq

/-- The reviewer that `#featureGovernor` let through. -/
structure Actor where
  actorId : String
  actorRole : String

def assertOnlyFields (value : Json) (allowedFields : List String) (fieldName : String) :
    Except Failure Unit :=
  match ownKeys? value with
  | none => typeError "Cannot convert undefined or null to object"
  | some keys =>
    match keys.find? (· ∉ allowedFields) with
    | some key => typeError (fieldName ++ "." ++ key ++ " is not supported")
    | none => .ok ()

def createFeatureLineage (input : Json) (actor : Actor) (now : String) :
    Except Failure FeatureLineage := do
  let predecessorFeatureId ←
    requireNonEmptyString (field input "predecessorFeatureId") "featureLineage.predecessorFeatureId"
  let successorFeatureId ←
    requireNonEmptyString (field input "successorFeatureId") "featureLineage.successorFeatureId"
  if predecessorFeatureId = successorFeatureId then
    typeError "Feature lineage cannot reference itself"
  else
    let id ← requireNonEmptyString (field input "id") "featureLineage.id"
    let relationType ←
      assertEnum FeatureLineageRelation (field input "relationType") "featureLineage.relationType"
    let actorId ← requireNonEmptyString (some (.str actor.actorId)) "featureLineage.actorId"
    let actorRole ← requireNonEmptyString (some (.str actor.actorRole)) "featureLineage.actorRole"
    let rationale ← requireNonEmptyString (field input "rationale") "featureLineage.rationale"
    -- the field guard of the request leaves no `createdAt` in the input, so the clock gives it
    return { id, predecessorFeatureId, successorFeatureId, relationType, actorId, actorRole,
             rationale, createdAt := now }

/-- The stored record without its creation time. -/
def recordIdentity (l : FeatureLineage) : Json :=
  .obj [("id", .str l.id), ("predecessorFeatureId", .str l.predecessorFeatureId),
    ("successorFeatureId", .str l.successorFeatureId), ("relationType", l.relationType),
    ("actorId", .str l.actorId), ("actorRole", .str l.actorRole),
    ("rationale", .str l.rationale)]

/-- The text that two records of one relation share. -/
def relationKey (l : FeatureLineage) : String :=
  l.predecessorFeatureId ++ "\u0000" ++ l.successorFeatureId ++ "\u0000" ++ l.relationType.toText

/-- The edges of the lineage graph, over all relation types. -/
def edges (lineages : List FeatureLineage) : List (String × String) :=
  lineages.map fun l => (l.predecessorFeatureId, l.successorFeatureId)

/-- The stack search from the successor for the predecessor. -/
def introducesFeatureLineageCycle (lineages : List FeatureLineage)
    (predecessorFeatureId successorFeatureId : String) : Bool :=
  Graph.reaches (edges lineages) successorFeatureId predecessorFeatureId

theorem introduces_iff (lineages : List FeatureLineage) (p q : String) :
    introducesFeatureLineageCycle lineages p q = true ↔
      Relation.ReflTransGen (Graph.Edge (edges lineages)) q p :=
  Graph.reaches_iff _ _ _

/-! ## The requests of one project -/

/-- An `appendFeatureLineage` request between two of its turns. -/
inductive Request where
  /-- The baselines and the lineages were read. -/
  | loaded (lineage : FeatureLineage) (predecessor successor : Bool)
      (existing : List FeatureLineage)
  /-- The check passed, and the store read the ids of the features. -/
  | checked (lineage : FeatureLineage) (featureIds : List String)
  | settled (result : Except Failure FeatureLineage)

structure Project where
  featureIds : List String
  lineages : List FeatureLineage
  requests : List Request

/-- One turn: a new request runs up to its reads, or a request goes on to its next wait. -/
inductive Turn where
  | read (input : Json) (actor : Actor) (now : String)
  | check (request : Nat)
  | append (request : Nat)

def start (featureIds : List String) : Project := { featureIds, lineages := [], requests := [] }

section Steps

variable (localeCompare : String → String → Ordering)

/-- By creation time, and then by id. -/
def listedBefore (a b : FeatureLineage) : Prop :=
  (localeCompare a.createdAt b.createdAt).then (localeCompare a.id b.id) ≠ .gt

instance : DecidableRel (listedBefore localeCompare) := fun a b =>
  inferInstanceAs (Decidable ((localeCompare a.createdAt b.createdAt).then
    (localeCompare a.id b.id) ≠ .gt))

def listFeatureLineages (lineages : List FeatureLineage) : List FeatureLineage :=
  lineages.insertionSort (listedBefore localeCompare)

/-- The request as it stands after its reads. -/
def readRequest (s : Project) (input : Json) (actor : Actor) (now : String) : Request :=
  let created := do
    assertOnlyFields input
      ["id", "predecessorFeatureId", "successorFeatureId", "relationType", "rationale"]
      "featureLineage"
    createFeatureLineage input actor now
  match created with
  | .error e => .settled (.error e)
  | .ok lineage =>
    .loaded lineage (decide (lineage.predecessorFeatureId ∈ s.featureIds))
      (decide (lineage.successorFeatureId ∈ s.featureIds))
      (listFeatureLineages localeCompare s.lineages)

/-- The request after its checks, against what it read. -/
def checkRequest (s : Project) (lineage : FeatureLineage) (predecessor successor : Bool)
    (existing : List FeatureLineage) : Request :=
  if !predecessor || !successor then
    .settled (conflictError "Feature lineage endpoints must exist in the project")
  else
    let same := existing.find? fun item => item.id = lineage.id
    if same.isNone && introducesFeatureLineageCycle existing lineage.predecessorFeatureId
        lineage.successorFeatureId then
      .settled (conflictError "Feature lineage would create a cycle")
    else .checked lineage s.featureIds

/-- The insertion of the store: the stored lineages after it, and what the call gives. -/
def appendFeatureLineage (lineages : List FeatureLineage) (featureIds : List String)
    (lineage : FeatureLineage) : List FeatureLineage × Except Failure FeatureLineage :=
  if lineage.predecessorFeatureId ∉ featureIds ∨ lineage.successorFeatureId ∉ featureIds then
    (lineages, conflictError "Feature lineage endpoints must exist in the project")
  else
    let existing := lineages.find? fun item => item.id = lineage.id
    let duplicateRelation := lineages.find? fun item =>
      item.id ≠ lineage.id ∧ relationKey item = relationKey lineage
    let conflicts := existing.any fun item =>
      canonicalJson (recordIdentity item) ≠ canonicalJson (recordIdentity lineage)
    if conflicts || duplicateRelation.isSome then
      (lineages, conflictError
        ("Feature lineage " ++ lineage.id ++ " conflicts with immutable history"))
    else
      match existing with
      | some item => (lineages, .ok item)
      | none => (lineages ++ [lineage], .ok lineage)

def step (s : Project) : Turn → Option Project
  | .read input actor now =>
    some { s with requests := s.requests ++ [readRequest localeCompare s input actor now] }
  | .check i =>
    match s.requests[i]? with
    | some (.loaded lineage predecessor successor existing) =>
      some { s with
        requests := s.requests.set i (checkRequest s lineage predecessor successor existing) }
    | _ => none
  | .append i =>
    match s.requests[i]? with
    | some (.checked lineage featureIds) =>
      let (lineages, result) := appendFeatureLineage s.lineages featureIds lineage
      some { s with lineages, requests := s.requests.set i (.settled result) }
    | _ => none

end Steps

/-! ## What a step does -/

/-- The insertion puts the edge in only for a new id and a new relation. -/
theorem append_lineages (lineages : List FeatureLineage) (featureIds : List String)
    (l : FeatureLineage) (hp : l.predecessorFeatureId ∈ featureIds)
    (hs : l.successorFeatureId ∈ featureIds) :
    (appendFeatureLineage lineages featureIds l).1 =
      if lineages.any fun item => item.id = l.id || relationKey item = relationKey l
      then lineages else lineages ++ [l] := by
  unfold appendFeatureLineage
  rw [if_neg (by simp [hp, hs])]
  rcases hid : lineages.find? (fun item => item.id = l.id) with _ | item
  · have hnew : ∀ x ∈ lineages, x.id ≠ l.id := by
      simpa using List.find?_eq_none.mp hid
    have hany : (lineages.any fun item => item.id = l.id || relationKey item = relationKey l) =
        (lineages.find? fun item => item.id ≠ l.id ∧ relationKey item = relationKey l).isSome := by
      rw [Bool.eq_iff_iff, List.find?_isSome]
      simp only [List.any_eq_true, Bool.or_eq_true, decide_eq_true_eq]
      constructor
      · rintro ⟨x, hx, hk | hk⟩
        · exact absurd hk (hnew x hx)
        · exact ⟨x, hx, hnew x hx, hk⟩
      · rintro ⟨x, hx, _, hk⟩
        exact ⟨x, hx, Or.inr hk⟩
    simp only [hid, hany, Option.any_none, Bool.false_or]
    split <;> rfl
  · have hany : (lineages.any fun item => item.id = l.id || relationKey item = relationKey l) =
        true := by
      have := List.find?_some hid
      exact List.any_eq_true.mpr ⟨item, List.mem_of_find?_eq_some hid, by simp_all⟩
    simp only [hid, hany, if_true]
    split <;> rfl

/-- The reads that a request holds are those of the project. -/
def Request.Fits (featureIds : List String) : Request → Prop
  | .loaded l predecessor successor _ =>
    (predecessor = true → l.predecessorFeatureId ∈ featureIds) ∧
      (successor = true → l.successorFeatureId ∈ featureIds)
  | .checked l ids =>
    ids = featureIds ∧ l.predecessorFeatureId ∈ featureIds ∧ l.successorFeatureId ∈ featureIds
  | .settled _ => True

def Good (s : Project) : Prop := ∀ r ∈ s.requests, r.Fits s.featureIds

section Laws

variable {localeCompare : String → String → Ordering}

theorem read_fits (s : Project) (input : Json) (actor : Actor) (now : String) :
    (readRequest localeCompare s input actor now).Fits s.featureIds := by
  unfold readRequest
  simp only
  split
  · trivial
  · simp [Request.Fits]

theorem check_fits (s : Project) {l : FeatureLineage} {p q : Bool} {existing : List FeatureLineage}
    (h : (Request.loaded l p q existing).Fits s.featureIds) :
    (checkRequest s l p q existing).Fits s.featureIds := by
  unfold checkRequest
  obtain ⟨hp, hq⟩ := h
  split
  · trivial
  · rename_i hpq
    dsimp only
    split
    · trivial
    · simp only [Bool.or_eq_true, Bool.not_eq_true', not_or, Bool.not_eq_false] at hpq
      exact ⟨rfl, hp hpq.1, hq hpq.2⟩

theorem good_set {s : Project} {i : Nat} {r : Request} (h : Good s) (hr : r.Fits s.featureIds) :
    ∀ x ∈ s.requests.set i r, x.Fits s.featureIds := by
  intro x hx
  rcases List.mem_or_eq_of_mem_set hx with h1 | h1
  · exact h x h1
  · exact h1 ▸ hr

/-- A turn moves one request, and only the insertion touches the lineages. -/
theorem step_cases {s t : Project} {a : Turn} (hg : Good s)
    (h : step localeCompare s a = some t) :
    Good t ∧ (t.lineages = s.lineages ∧ (∀ i l ids, a = .append i →
        s.requests[i]? = some (.checked l ids) →
        s.lineages.any fun item => item.id = l.id || relationKey item = relationKey l) ∨
      ∃ i l ids, a = .append i ∧ s.requests[i]? = some (.checked l ids) ∧
        (s.lineages.any fun item => item.id = l.id || relationKey item = relationKey l) = false ∧
        t.lineages = s.lineages ++ [l]) := by
  cases a with
  | read input actor now =>
    cases h
    refine ⟨?_, Or.inl ⟨rfl, by simp⟩⟩
    intro r hr
    rcases List.mem_append.mp hr with h1 | h1
    · exact hg r h1
    · exact List.mem_singleton.mp h1 ▸ read_fits s input actor now
  | check i =>
    simp only [step] at h
    split at h
    · rename_i l p q existing hi
      cases h
      exact ⟨good_set hg (check_fits s (hg _ (List.mem_of_getElem? hi))), Or.inl ⟨rfl, by simp⟩⟩
    · cases h
  | append i =>
    simp only [step] at h
    split at h
    · rename_i l ids hi
      obtain ⟨rfl, hp, hq⟩ := hg _ (List.mem_of_getElem? hi)
      cases h
      refine ⟨good_set hg trivial, ?_⟩
      simp only [append_lineages _ _ l hp hq]
      split
      · rename_i hany
        refine Or.inl ⟨rfl, ?_⟩
        rintro j l' ids' hj hl'
        cases hj
        rw [hi] at hl'
        cases hl'
        exact hany
      · rename_i hany
        exact Or.inr ⟨i, l, _, rfl, hi, Bool.eq_false_iff.mpr hany, rfl⟩
    · cases h

/-! ## The law -/

/-- An insertion of an edge that is not there yet closes no cycle of the lineages as they
are stored now. -/
def checksCurrent (s : Project) : Turn → Bool
  | .append i =>
    match s.requests[i]? with
    | some (.checked l _) =>
      (s.lineages.any fun item => item.id = l.id || relationKey item = relationKey l) ||
        !introducesFeatureLineageCycle s.lineages l.predecessorFeatureId l.successorFeatureId
    | _ => true
  | _ => true

theorem edges_append (lineages : List FeatureLineage) (l : FeatureLineage) :
    edges (lineages ++ [l]) =
      edges lineages ++ [(l.predecessorFeatureId, l.successorFeatureId)] := by
  simp [edges]

/-- A step keeps the graph acyclic exactly when its check is current. -/
theorem acyclic_step_iff {s t : Project} {a : Turn} (hg : Good s)
    (hac : Graph.Acyclic (edges s.lineages)) (h : step localeCompare s a = some t) :
    Graph.Acyclic (edges t.lineages) ↔ checksCurrent s a = true := by
  obtain ⟨_, ⟨heq, hany⟩ | ⟨i, l, ids, rfl, hi, hany, heq⟩⟩ := step_cases hg h
  · rw [heq]
    refine ⟨fun _ => ?_, fun _ => hac⟩
    unfold checksCurrent
    split
    · split
      · rename_i hl
        rw [hany _ _ _ rfl hl, Bool.true_or]
      · rfl
    · rfl
  · rw [heq, edges_append, Graph.acyclic_append_iff hac, ← introduces_iff]
    simp [checksCurrent, hi, hany]

theorem acyclic_of_step {s t : Project} {a : Turn} (hg : Good s)
    (h : step localeCompare s a = some t) (hac : Graph.Acyclic (edges t.lineages)) :
    Graph.Acyclic (edges s.lineages) := by
  obtain ⟨_, ⟨heq, _⟩ | ⟨_, l, _, _, _, _, heq⟩⟩ := step_cases hg h
  · exact heq ▸ hac
  · rw [heq, edges_append] at hac
    exact Graph.acyclic_of_append hac

theorem good_start (featureIds : List String) : Good (start featureIds) := by
  simp [Good, start]

theorem acyclic_start (featureIds : List String) :
    Graph.Acyclic (edges (start featureIds).lineages) := by
  intro a h
  obtain ⟨b, hb, _⟩ := Relation.TransGen.head'_iff.mp h
  simp [Graph.Edge, edges, start] at hb

end Laws

/-- For every interleaving of requests, the stored lineages are acyclic exactly when every
insertion found its cycle check still true of the lineages stored at that moment. -/
theorem lineages_acyclic_iff_checks_current (localeCompare : String → String → Ordering)
    (featureIds : List String) (schedule : List Turn) (s : Project)
    (h : Machine.run (step localeCompare) (start featureIds) schedule = some s) :
    Graph.Acyclic (edges s.lineages) ↔
      Machine.Along (step localeCompare) (fun s a => checksCurrent s a = true)
        (start featureIds) schedule := by
  refine Machine.run_keeps_iff_along
    (fun s a t hg hst => (step_cases hg hst).1)
    (fun s a t hg hac hc hst => (acyclic_step_iff hg hac hst).mpr hc)
    (fun s a t hg hac hc hst hact => hc ((acyclic_step_iff hg hac hst).mp hact))
    (fun s a t hg hbad hst hact => hbad (acyclic_of_step hg hst hact))
    h (good_start featureIds) (acyclic_start featureIds)

/-! ## Requests in a row, and requests that cross -/

/-- An order of texts that is that of `localeCompare` on the texts used here. -/
def unitCompare (a b : String) : Ordering := compare (codeUnits a) (codeUnits b)

def lineageInput (id predecessor successor : String) : Json :=
  .obj [("id", .str id), ("predecessorFeatureId", .str predecessor),
    ("successorFeatureId", .str successor), ("relationType", .str "PREDECESSOR_OF"),
    ("rationale", .str "renamed")]

def governor : Actor := { actorId := "alice", actorRole := "FEATURE_OWNER" }

def inARow : List Turn :=
  [.read (lineageInput "L1" "A" "B") governor "2026-01-01T00:00:00.000Z", .check 0, .append 0,
    .read (lineageInput "L2" "B" "C") governor "2026-01-02T00:00:00.000Z", .check 1, .append 1]

theorem lineages_in_a_row_acyclic :
    ∃ s, Machine.run (step unitCompare) (start ["A", "B", "C"]) inARow = some s ∧
      edges s.lineages = [("A", "B"), ("B", "C")] ∧ Graph.Acyclic (edges s.lineages) := by
  have hrun : (Machine.run (step unitCompare) (start ["A", "B", "C"]) inARow).map
      (fun s => edges s.lineages) = some [("A", "B"), ("B", "C")] := by decide
  obtain ⟨s, hs, he⟩ := Option.map_eq_some_iff.mp hrun
  exact ⟨s, hs, he,
    (lineages_acyclic_iff_checks_current unitCompare _ inARow s hs).mpr (by decide)⟩

def crossing : List Turn :=
  [.read (lineageInput "L1" "A" "B") governor "2026-01-01T00:00:00.000Z",
    .read (lineageInput "L2" "B" "A") governor "2026-01-01T00:00:00.000Z",
    .check 0, .check 1, .append 0, .append 1]

/-- Both requests read the lineages before either edge is stored, so both checks pass. -/
theorem crossing_requests_close_a_cycle :
    ¬ ∀ (featureIds : List String) (schedule : List Turn) (s : Project),
      Machine.run (step unitCompare) (start featureIds) schedule = some s →
        Graph.Acyclic (edges s.lineages) := by
  intro h
  have hrun : (Machine.run (step unitCompare) (start ["A", "B"]) crossing).map
      (fun s => edges s.lineages) = some [("A", "B"), ("B", "A")] := by decide
  obtain ⟨s, hs, he⟩ := Option.map_eq_some_iff.mp hrun
  refine h _ _ s hs "A" ?_
  rw [he]
  exact .tail (.single (b := "B") (by simp [Graph.Edge])) (by simp [Graph.Edge])

end Traqen.FeatureEvolution
