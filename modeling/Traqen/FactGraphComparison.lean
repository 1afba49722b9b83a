-- Two fact graphs compared (`domain/change-impact.js`): an entity is told by its stable id and its
-- producer, and what only a snapshot says about it does not count.
import Traqen.CanonicalOrder
import Traqen.Lib.KeyedDiff

open Js

namespace Traqen.FactGraphComparison

open KeyedDiff
open SourceIdentity (SameUpToOrder DistinctKeys DistinctFields same_fields)

/-! ## Fact graphs -/

/-- A node or an edge of a fact graph: an object. -/
structure Entity where
  fields : List (String × Json)
  distinct : DistinctKeys (.obj fields)

def Entity.toJson (e : Entity) : Json := .obj e.fields

def Entity.get (e : Entity) (key : String) : Option Json := e.toJson.get? key

structure FactGraph where
  nodes : List Entity
  edges : List Entity
  named : ∀ node ∈ nodes, ∃ id, node.get "id" = some (.str id)

/-- A rest of a destructured object. -/
def withoutKeys (keys : List String) (e : Entity) : Json :=
  .obj (e.fields.filter fun field => field.1 ∉ keys)

def nodeSnapshotKeys : List String :=
  ["factId", "snapshotManifestId", "observedAt", "validFrom", "validTo", "bundleId"]

def edgeSnapshotKeys : List String := ["id", "snapshotManifestId", "observedAt", "bundleId"]

def semanticNode (node : Entity) : Json := withoutKeys nodeSnapshotKeys node

def semanticEdge (edge : Entity) : Json := withoutKeys edgeSnapshotKeys edge

/-- An object literal, without what is undefined: it has no place in a canonical text. -/
def present (fields : List (String × Option Json)) : Json :=
  .obj (fields.filterMap fun (key, value) => value.map fun value => (key, value))

/-- `extractor?.id ?? null`. -/
def extractorId (e : Entity) : Json := nullish (field (e.get "extractor") "id") .null

def nodeIdentity (node : Entity) : List (String × Option Json) :=
  [("stableId", node.get "id"), ("extractorId", some (extractorId node))]

def edgeIdentity (edge : Entity) : List (String × Option Json) :=
  [("subjectId", edge.get "subjectId"), ("predicate", edge.get "predicate"),
    ("objectId", edge.get "objectId"), ("extractorId", some (extractorId edge))]

def nodeKey (node : Entity) : String := canonicalJson (present (nodeIdentity node))

def edgeKey (edge : Entity) : String := canonicalJson (present (edgeIdentity edge))

/-! ## Changes -/

inductive ChangeType where
  | SOURCE_CODE | API_CONTRACT | SQL | DATABASE_SCHEMA | CONFIGURATION | DEPENDENCY | TEST_SPEC
  deriving Repr, DecidableEq

inductive ChangeKind where
  | ADDED | REMOVED | MODIFIED
  deriving Repr, DecidableEq

inductive EntityType where
  | NODE | EDGE
  deriving Repr, DecidableEq

def ChangeKind.text : ChangeKind → String
  | ADDED => "ADDED"
  | REMOVED => "REMOVED"
  | MODIFIED => "MODIFIED"

def EntityType.text : EntityType → String
  | NODE => "NODE"
  | EDGE => "EDGE"

def changeTypeForNode (node : Entity) : ChangeType :=
  match node.get "type" with
  | some (.str "DATA_OBJECT") =>
    if (nullish (field (node.get "attributes") "kind") (.str "")).toText.toLower ∈
        ["table", "column", "schema", "constraint", "view"] then .DATABASE_SCHEMA
    else .SQL
  | some (.str "ENDPOINT") => .API_CONTRACT
  | some (.str "CONFIGURATION") => .CONFIGURATION
  | some (.str "EXTERNAL_DEPENDENCY") => .DEPENDENCY
  | some (.str "TEST_ASSET") => .TEST_SPEC
  | _ => .SOURCE_CODE

def changeTypeForEdge (edge : Entity) : ChangeType :=
  match edge.get "predicate" with
  | some (.str "READS") => .SQL
  | some (.str "WRITES") => .SQL
  | some (.str "CONTROLLED_BY") => .CONFIGURATION
  | some (.str "DEPENDS_ON") => .DEPENDENCY
  | some (.str "EXERCISES") => .TEST_SPEC
  | _ => .SOURCE_CODE

structure FactChange where
  id : String
  kind : ChangeKind
  entityType : EntityType
  stableId : String
  beforeFactId : Json
  afterFactId : Json
  changeType : ChangeType
  artifact : Json
  nodeType : Json
  predicate : Json

/-- `e?.key`, of an entity that may be null. -/
def optional (e : Option Entity) (key : String) : Option Json := e.bind (·.get key)

/-- `v ?? w`, where both may be undefined. -/
def firstOf (v w : Option Json) : Option Json :=
  match v with
  | none | some .null => w
  | some v => some v

/-- `e?.factId ?? e?.id ?? null`. -/
def factIdOf (e : Option Entity) : Json :=
  nullish (firstOf (optional e "factId") (optional e "id")) .null

def changeRecord (sha256 : String → String) (kind : ChangeKind) (entityType : EntityType)
    (stableId : String) (before after : Option Entity) (changeType : ChangeType) : FactChange :=
  let artifact (e : Option Entity) := field (optional e "source") "artifact"
  let beforeFactId := factIdOf before
  let afterFactId := factIdOf after
  { id := contentId sha256 "FACT-CHANGE" (.obj [("kind", .str kind.text),
      ("entityType", .str entityType.text), ("stableId", .str stableId),
      ("beforeFactId", beforeFactId), ("afterFactId", afterFactId)])
    kind
    entityType
    stableId
    beforeFactId
    afterFactId
    changeType
    artifact := nullish (firstOf (artifact after) (artifact before)) .null
    nodeType := nullish (firstOf (optional after "type") (optional before "type")) .null
    predicate :=
      nullish (firstOf (optional after "predicate") (optional before "predicate")) .null }

/-- A difference with the type of its entity. -/
structure FactDifference where
  entityType : EntityType
  entry : Difference String Entity

def FactDifference.swap (d : FactDifference) : FactDifference :=
  { entityType := d.entityType, entry := d.entry.swap }

def kindOf (before after : Option Entity) : ChangeKind :=
  match before, after with
  | none, _ => .ADDED
  | some _, none => .REMOVED
  | some _, some _ => .MODIFIED

/-- The text of an id. -/
def idText : Option Json → String
  | some (.str id) => id
  | _ => ""

/-- What the loops over the nodes and over the edges push. -/
def changeOf (sha256 : String → String) (d : FactDifference) : FactChange :=
  let before := d.entry.before
  let after := d.entry.after
  let kind := kindOf before after
  match d.entityType with
  | .NODE =>
    changeRecord sha256 kind .NODE
      (idText (firstOf (optional after "id") (optional before "id"))) before after
      (((after.or before).map changeTypeForNode).getD .SOURCE_CODE)
  | .EDGE =>
    changeRecord sha256 kind .EDGE d.entry.key before after
      (((after.or before).map changeTypeForEdge).getD .SOURCE_CODE)

def keyOf : EntityType → Entity → String
  | .NODE => nodeKey
  | .EDGE => edgeKey

def semantic : EntityType → Entity → Json
  | .NODE => semanticNode
  | .EDGE => semanticEdge

def FactGraph.entities (graph : FactGraph) : EntityType → List Entity
  | .NODE => graph.nodes
  | .EDGE => graph.edges

/-- The texts that `!==` compares are equal. -/
def unchanged (entityType : EntityType) (before after : Entity) : Bool :=
  canonicalJson (semantic entityType before) == canonicalJson (semantic entityType after)

/-- A loop over the keys of both maps. -/
def differencesOf (entityType : EntityType) (fromGraph toGraph : FactGraph) :
    List FactDifference :=
  (diff (unchanged entityType) (index (keyOf entityType) (fromGraph.entities entityType))
    (index (keyOf entityType) (toGraph.entities entityType))).map
      fun entry => { entityType, entry }

def differences (fromGraph toGraph : FactGraph) : List FactDifference :=
  differencesOf .NODE fromGraph toGraph ++ differencesOf .EDGE fromGraph toGraph

def compareFactGraphs (sha256 : String → String) (localeCompare : String → String → Ordering)
    (fromGraph toGraph : FactGraph) : List FactChange :=
  ((differences fromGraph toGraph).map (changeOf sha256)).insertionSort fun left right =>
    (localeCompare left.entityType.text right.entityType.text).then
      (localeCompare left.stableId right.stableId) ≠ .gt

/-! ## Keys and identities -/

section Identity

variable {fs gs : List (String × Option Json)} {key : String} {value : Option Json}
  {e x y : Entity}

theorem distinct_of_mem {fields : List (String × Json)} (h : DistinctFields fields)
    {f : String × Json} (hf : f ∈ fields) : DistinctKeys f.2 := by
  induction fields with
  | nil => cases hf
  | cons g rest ih =>
    obtain ⟨name, v⟩ := g
    simp only [DistinctFields] at h
    rcases List.mem_cons.mp hf with rfl | hf
    · exact h.1
    · exact ih h.2 hf

theorem distinct_of_get {v w : Json} (hv : DistinctKeys v) (h : v.get? key = some w) :
    DistinctKeys w := by
  cases v with
  | obj fields =>
    simp only [DistinctKeys] at hv
    simp only [Json.get?, OrderedMap.lookup_eq_get?] at h
    exact distinct_of_mem hv.2 (OrderedMap.get?_mem h)
  | null => cases h
  | bool b => cases h
  | num n => cases h
  | str s => cases h
  | arr items => cases h

theorem Entity.distinct_get (e : Entity) {w : Json} (h : e.get key = some w) : DistinctKeys w :=
  distinct_of_get e.distinct h

theorem distinct_extractorId (e : Entity) : DistinctKeys (extractorId e) := by
  unfold extractorId nullish
  split
  · trivial
  · trivial
  · rename_i v hv
    unfold field at hv
    obtain ⟨extractor, hextractor, hid⟩ := Option.bind_eq_some_iff.mp hv
    exact distinct_of_get (e.distinct_get hextractor) hid

theorem present_get (hdistinct : (fs.map (·.1)).Nodup) (h : (key, value) ∈ fs) :
    (present fs).get? key = value := by
  unfold present
  simp only [Json.get?]
  induction fs with
  | nil => cases h
  | cons f rest ih =>
    obtain ⟨name, v⟩ := f
    rw [List.map_cons, List.nodup_cons] at hdistinct
    rcases List.mem_cons.mp h with heq | hrest
    · cases heq
      cases value with
      | some v => simp
      | none =>
        simp only [List.filterMap_cons, Option.map_none, List.lookup_eq_none_iff]
        intro g hg
        obtain ⟨⟨other, w⟩, hmem, hsome⟩ := List.mem_filterMap.mp hg
        obtain ⟨u, rfl, rfl⟩ := Option.map_eq_some_iff.mp hsome
        have hne : key ≠ other := by
          rintro rfl
          exact hdistinct.1 (List.mem_map.mpr ⟨_, hmem, rfl⟩)
        simpa using hne
    · have hne : key ≠ name := by
        rintro rfl
        exact hdistinct.1 (List.mem_map.mpr ⟨_, hrest, rfl⟩)
      have hbeq : (key == name) = false := by simpa using hne
      cases v with
      | none => simpa using ih hdistinct.2 hrest
      | some v => simpa [List.lookup_cons, hbeq] using ih hdistinct.2 hrest

theorem present_same
    (h : List.Forall₂ (fun f g => f.1 = g.1 ∧ SameField f.2 g.2) fs gs) :
    SameUpToOrder (present fs) (present gs) := by
  apply same_fields []
  induction h with
  | nil => exact .nil
  | @cons f g fs gs hfg _ ih =>
    obtain ⟨name, v⟩ := f
    obtain ⟨other, w⟩ := g
    obtain ⟨hname, hvalue⟩ := hfg
    dsimp only at hname hvalue
    subst hname
    cases hvalue with
    | none => simpa using ih
    | some hvw => exact .cons ⟨rfl, hvw⟩ ih

theorem present_distinct (hdistinct : (fs.map (·.1)).Nodup)
    (hvalues : ∀ f ∈ fs, ∀ v, f.2 = some v → DistinctKeys v) : DistinctKeys (present fs) := by
  unfold present
  simp only [DistinctKeys]
  induction fs with
  | nil => exact ⟨List.nodup_nil, trivial⟩
  | cons f rest ih =>
    obtain ⟨name, v⟩ := f
    rw [List.map_cons, List.nodup_cons] at hdistinct
    have hrest := ih hdistinct.2 fun f hf => hvalues f (List.mem_cons_of_mem _ hf)
    cases v with
    | none => simpa using hrest
    | some v =>
      have hv := hvalues (name, some v) List.mem_cons_self v rfl
      simp only [List.filterMap_cons, Option.map_some, List.map_cons, DistinctFields]
      refine ⟨List.nodup_cons.mpr ⟨fun hmem => ?_, hrest.1⟩, hv, hrest.2⟩
      obtain ⟨g, hg, hname⟩ := List.mem_map.mp hmem
      obtain ⟨⟨other, w⟩, hw, hsome⟩ := List.mem_filterMap.mp hg
      obtain ⟨u, rfl, rfl⟩ := Option.map_eq_some_iff.mp hsome
      exact hdistinct.1 (List.mem_map.mpr ⟨_, hw, hname⟩)

/-- One stable id and one producer, or one triple and one producer, up to the order of keys. -/
def SameIdentity : EntityType → Entity → Entity → Prop
  | .NODE, x, y => SameField (x.get "id") (y.get "id") ∧
      SameUpToOrder (extractorId x) (extractorId y)
  | .EDGE, x, y => SameField (x.get "subjectId") (y.get "subjectId") ∧
      SameField (x.get "predicate") (y.get "predicate") ∧
      SameField (x.get "objectId") (y.get "objectId") ∧
      SameUpToOrder (extractorId x) (extractorId y)

theorem nodeIdentity_distinct (node : Entity) : DistinctKeys (present (nodeIdentity node)) := by
  apply present_distinct
  · simp [nodeIdentity]
  · intro f hf v hv
    simp only [nodeIdentity, List.mem_cons, List.not_mem_nil, or_false] at hf
    rcases hf with rfl | rfl
    · exact node.distinct_get hv
    · cases hv
      exact distinct_extractorId node

theorem edgeIdentity_distinct (edge : Entity) : DistinctKeys (present (edgeIdentity edge)) := by
  apply present_distinct
  · simp [edgeIdentity]
  · intro f hf v hv
    simp only [edgeIdentity, List.mem_cons, List.not_mem_nil, or_false] at hf
    rcases hf with rfl | rfl | rfl | rfl
    · exact edge.distinct_get hv
    · exact edge.distinct_get hv
    · exact edge.distinct_get hv
    · cases hv
      exact distinct_extractorId edge

/-- The fields of objects that are one up to order. -/
theorem present_field (hf : (fs.map (·.1)).Nodup) (hg : (gs.map (·.1)).Nodup)
    (h : SameUpToOrder (present fs) (present gs)) {v w : Option Json} (hv : (key, v) ∈ fs)
    (hw : (key, w) ∈ gs) : SameField v w := by
  have hsame := same_get h key
  rwa [present_get hf hv, present_get hg hw] at hsame

theorem same_of_sameField {v w : Json} (h : SameField (some v) (some w)) : SameUpToOrder v w := by
  cases h with
  | some h => exact h

theorem nodeKey_eq_iff : nodeKey x = nodeKey y ↔ SameIdentity .NODE x y := by
  unfold nodeKey
  rw [canonicalJson_eq_iff (nodeIdentity_distinct x) (nodeIdentity_distinct y)]
  constructor
  · intro h
    have hnodup : ∀ node, ((nodeIdentity node).map (·.1)).Nodup := fun _ => by
      simp [nodeIdentity]
    have hfield : ∀ key v w, (key, v) ∈ nodeIdentity x → (key, w) ∈ nodeIdentity y →
        SameField v w := fun _ _ _ => present_field (hnodup x) (hnodup y) h
    exact ⟨hfield "stableId" _ _ (by simp [nodeIdentity]) (by simp [nodeIdentity]),
      same_of_sameField
        (hfield "extractorId" _ _ (by simp [nodeIdentity]) (by simp [nodeIdentity]))⟩
  · rintro ⟨hid, hextractor⟩
    exact present_same (.cons ⟨rfl, hid⟩ (.cons ⟨rfl, .some hextractor⟩ .nil))

theorem edgeKey_eq_iff : edgeKey x = edgeKey y ↔ SameIdentity .EDGE x y := by
  unfold edgeKey
  rw [canonicalJson_eq_iff (edgeIdentity_distinct x) (edgeIdentity_distinct y)]
  constructor
  · intro h
    have hnodup : ∀ edge, ((edgeIdentity edge).map (·.1)).Nodup := fun _ => by
      simp [edgeIdentity]
    have hfield : ∀ key v w, (key, v) ∈ edgeIdentity x → (key, w) ∈ edgeIdentity y →
        SameField v w := fun _ _ _ => present_field (hnodup x) (hnodup y) h
    exact ⟨hfield "subjectId" _ _ (by simp [edgeIdentity]) (by simp [edgeIdentity]),
      hfield "predicate" _ _ (by simp [edgeIdentity]) (by simp [edgeIdentity]),
      hfield "objectId" _ _ (by simp [edgeIdentity]) (by simp [edgeIdentity]),
      same_of_sameField
        (hfield "extractorId" _ _ (by simp [edgeIdentity]) (by simp [edgeIdentity]))⟩
  · rintro ⟨hsubject, hpredicate, hobject, hextractor⟩
    exact present_same (.cons ⟨rfl, hsubject⟩ (.cons ⟨rfl, hpredicate⟩ (.cons ⟨rfl, hobject⟩
      (.cons ⟨rfl, .some hextractor⟩ .nil))))

variable {entityType : EntityType}

theorem keyOf_eq_iff : keyOf entityType x = keyOf entityType y ↔ SameIdentity entityType x y := by
  cases entityType with
  | NODE => exact nodeKey_eq_iff
  | EDGE => exact edgeKey_eq_iff

/-! ## What does not depend on the snapshot -/

theorem lookup_withoutKeys {keys : List String} (hkey : key ∉ keys) (e : Entity) :
    (withoutKeys keys e).get? key = e.get key := by
  unfold withoutKeys Entity.get Entity.toJson
  simp only [Json.get?]
  induction e.fields with
  | nil => rfl
  | cons f rest ih =>
    obtain ⟨name, v⟩ := f
    by_cases hname : name ∈ keys
    · have hne : (key == name) = false := by
        rw [beq_eq_false_iff_ne]
        rintro rfl
        exact hkey hname
      simpa [hname, List.lookup_cons, hne] using ih
    · simp only [List.filter_cons, hname, not_false_eq_true, decide_true, if_true,
        List.lookup_cons, ih]

theorem distinctFields_filter (p : String × Json → Bool) {fields : List (String × Json)}
    (h : DistinctFields fields) : DistinctFields (fields.filter p) := by
  induction fields with
  | nil => trivial
  | cons f rest ih =>
    obtain ⟨name, v⟩ := f
    simp only [DistinctFields] at h
    rw [List.filter_cons]
    split
    · exact ⟨h.1, ih h.2⟩
    · exact ih h.2

theorem withoutKeys_distinct (keys : List String) (e : Entity) :
    DistinctKeys (withoutKeys keys e) := by
  have h := e.distinct
  unfold withoutKeys
  simp only [DistinctKeys] at h ⊢
  exact ⟨h.1.sublist (List.filter_sublist.map _), distinctFields_filter _ h.2⟩

theorem semantic_distinct (entityType : EntityType) (e : Entity) :
    DistinctKeys (semantic entityType e) := by
  cases entityType with
  | NODE => exact withoutKeys_distinct _ e
  | EDGE => exact withoutKeys_distinct _ e

/-- The same entity but for the fields of its snapshot and the order of keys. -/
def SameEntity (entityType : EntityType) (x y : Entity) : Prop :=
  SameUpToOrder (semantic entityType x) (semantic entityType y)

theorem unchanged_iff : unchanged entityType x y = true ↔ SameEntity entityType x y := by
  unfold unchanged
  rw [beq_iff_eq]
  exact canonicalJson_eq_iff (semantic_distinct entityType x) (semantic_distinct entityType y)

theorem unchanged_symm (entityType : EntityType) (x y : Entity) :
    unchanged entityType x y = unchanged entityType y x := by
  unfold unchanged
  exact Bool.beq_comm

theorem same_nullish {v w : Option Json} (h : SameField v w) (d : Json) :
    SameUpToOrder (nullish v d) (nullish w d) := by
  cases h with
  | none => exact .refl d
  | @some a b h =>
    have hnull : a = .null ↔ b = .null := by
      have hcanonical := canonicalizeValue_same h
      constructor
      · rintro rfl
        cases b <;> simp_all [canonicalizeValue]
      · rintro rfl
        cases a <;> simp_all [canonicalizeValue]
    have hvalue : ∀ v, v ≠ .null → nullish (some v) d = v := by
      intro v hv
      cases v <;> first | rfl | exact absurd rfl hv
    by_cases ha : a = .null
    · rw [ha, hnull.mp ha]
      exact .refl _
    · rw [hvalue a ha, hvalue b fun hb => ha (hnull.mpr hb)]
      exact h

theorem sameField_field {v w : Option Json} (h : SameField v w) (key : String) :
    SameField (field v key) (field w key) := by
  cases h with
  | none => exact .none
  | some h => exact same_get h key

theorem same_extractorId {keys : List String} (hkeys : "extractor" ∉ keys)
    (h : SameUpToOrder (withoutKeys keys x) (withoutKeys keys y)) :
    SameUpToOrder (extractorId x) (extractorId y) := by
  have hextractor := same_get h "extractor"
  rw [lookup_withoutKeys hkeys, lookup_withoutKeys hkeys] at hextractor
  exact same_nullish (sameField_field hextractor "id") .null

theorem same_field {keys : List String}
    (h : SameUpToOrder (withoutKeys keys x) (withoutKeys keys y)) (hkey : key ∉ keys) : SameField (x.get key) (y.get key) := by
  have hget := same_get h key
  rwa [lookup_withoutKeys hkey, lookup_withoutKeys hkey] at hget

/-- Entities that are the same have one identity: it is no part of the snapshot. -/
theorem identity_of_same (h : SameEntity entityType x y) : SameIdentity entityType x y := by
  cases entityType with
  | NODE =>
    have hkeys : "id" ∉ nodeSnapshotKeys ∧ "extractor" ∉ nodeSnapshotKeys := by decide
    exact ⟨same_field h hkeys.1, same_extractorId hkeys.2 h⟩
  | EDGE =>
    have hkeys : "subjectId" ∉ edgeSnapshotKeys ∧ "predicate" ∉ edgeSnapshotKeys ∧
        "objectId" ∉ edgeSnapshotKeys ∧ "extractor" ∉ edgeSnapshotKeys := by decide
    exact ⟨same_field h hkeys.1, same_field h hkeys.2.1, same_field h hkeys.2.2.1,
      same_extractorId hkeys.2.2.2 h⟩

end Identity

/-! ## The comparison -/

/-- An identity is that of one entity of the graph. -/
structure Unique (graph : FactGraph) : Prop where
  nodes : graph.nodes.Pairwise fun x y => ¬ SameIdentity .NODE x y
  edges : graph.edges.Pairwise fun x y => ¬ SameIdentity .EDGE x y

/-- Equal graphs, but for what belongs to a snapshot, the order of the entities and that of
keys. -/
structure SameGraph (fromGraph toGraph : FactGraph) : Prop where
  nodes : Matches (SameEntity .NODE) fromGraph.nodes toGraph.nodes
  edges : Matches (SameEntity .EDGE) fromGraph.edges toGraph.edges

/-- What has changed from one graph to another. -/
inductive Changed (fromGraph toGraph : FactGraph) : FactDifference → Prop where
  | added {entityType : EntityType} {y : Entity} : y ∈ toGraph.entities entityType →
      (∀ x ∈ fromGraph.entities entityType, ¬ SameIdentity entityType x y) →
      Changed fromGraph toGraph ⟨entityType, keyOf entityType y, none, some y⟩
  | removed {entityType : EntityType} {x : Entity} : x ∈ fromGraph.entities entityType →
      (∀ y ∈ toGraph.entities entityType, ¬ SameIdentity entityType x y) →
      Changed fromGraph toGraph ⟨entityType, keyOf entityType x, some x, none⟩
  | modified {entityType : EntityType} {x y : Entity} : x ∈ fromGraph.entities entityType →
      y ∈ toGraph.entities entityType → SameIdentity entityType x y →
      ¬ SameEntity entityType x y →
      Changed fromGraph toGraph ⟨entityType, keyOf entityType x, some x, some y⟩

def ChangeKind.exchange : ChangeKind → ChangeKind
  | ADDED => REMOVED
  | REMOVED => ADDED
  | MODIFIED => MODIFIED

/-- One change seen from both sides. -/
structure Mirrored (change other : FactChange) : Prop where
  kind : other.kind = change.kind.exchange
  entityType : other.entityType = change.entityType
  stableId : other.stableId = change.stableId
  before : other.beforeFactId = change.afterFactId
  after : other.afterFactId = change.beforeFactId

section Comparison

variable {sha256 : String → String} {localeCompare : String → String → Ordering}
  {fromGraph toGraph : FactGraph} {entityType : EntityType} {d : FactDifference}

theorem Unique.keys (h : Unique fromGraph) (entityType : EntityType) :
    ((fromGraph.entities entityType).map (keyOf entityType)).Nodup := by
  rw [List.Nodup, List.pairwise_map]
  cases entityType with
  | NODE => exact h.nodes.imp fun hne heq => hne (keyOf_eq_iff.mp heq)
  | EDGE => exact h.edges.imp fun hne heq => hne (keyOf_eq_iff.mp heq)

theorem key_of_unchanged (entityType : EntityType) (x y : Entity)
    (h : unchanged entityType x y = true) : keyOf entityType x = keyOf entityType y :=
  keyOf_eq_iff.mpr (identity_of_same (unchanged_iff.mp h))

theorem differencesOf_eq_nil (hfrom : Unique fromGraph) (hto : Unique toGraph)
    (entityType : EntityType) : differencesOf entityType fromGraph toGraph = [] ↔
      Matches (SameEntity entityType) (fromGraph.entities entityType)
        (toGraph.entities entityType) := by
  unfold differencesOf
  rw [List.map_eq_nil_iff, diff_nil_iff (hfrom.keys entityType) (hto.keys entityType)
    (key_of_unchanged entityType)]
  have hsame : (fun x y => unchanged entityType x y = true) = SameEntity entityType := by
    funext x y
    exact propext unchanged_iff
  rw [hsame]

theorem compareFactGraphs_perm (sha256 : String → String)
    (localeCompare : String → String → Ordering) (fromGraph toGraph : FactGraph) :
    (compareFactGraphs sha256 localeCompare fromGraph toGraph).Perm
      ((differences fromGraph toGraph).map (changeOf sha256)) :=
  List.perm_insertionSort _ _

theorem compareFactGraphs_nil (hfrom : Unique fromGraph) (hto : Unique toGraph) :
    compareFactGraphs sha256 localeCompare fromGraph toGraph = [] ↔
      SameGraph fromGraph toGraph := by
  have hnil : compareFactGraphs sha256 localeCompare fromGraph toGraph = [] ↔
      differences fromGraph toGraph = [] := by
    rw [← List.length_eq_zero_iff, (compareFactGraphs_perm sha256 localeCompare _ _).length_eq,
      List.length_map, List.length_eq_zero_iff]
  rw [hnil]
  unfold differences
  rw [List.append_eq_nil_iff, differencesOf_eq_nil hfrom hto, differencesOf_eq_nil hfrom hto]
  exact ⟨fun h => ⟨h.1, h.2⟩, fun h => ⟨h.nodes, h.edges⟩⟩

theorem mem_differences : d ∈ differences fromGraph toGraph ↔
    d.entry ∈ diff (unchanged d.entityType)
      (index (keyOf d.entityType) (fromGraph.entities d.entityType))
      (index (keyOf d.entityType) (toGraph.entities d.entityType)) := by
  unfold differences differencesOf
  rw [List.mem_append, List.mem_map, List.mem_map]
  obtain ⟨entityType, entry⟩ := d
  constructor
  · rintro (⟨other, hmem, heq⟩ | ⟨other, hmem, heq⟩)
    · cases heq
      exact hmem
    · cases heq
      exact hmem
  · intro h
    cases entityType with
    | NODE => exact Or.inl ⟨entry, h, rfl⟩
    | EDGE => exact Or.inr ⟨entry, h, rfl⟩

/-- The differences are the changes. -/
theorem differences_changed (hfrom : Unique fromGraph) (hto : Unique toGraph) :
    d ∈ differences fromGraph toGraph ↔ Changed fromGraph toGraph d := by
  obtain ⟨entityType, entry⟩ := d
  rw [mem_differences, mem_diff_index (hfrom.keys entityType) (hto.keys entityType)]
  constructor
  · rintro (⟨hy, hnone⟩ | ⟨hx, hnone⟩ | ⟨hx, hy, hkeys, hsame⟩)
    · exact .added hy fun x hx hid => hnone x hx (keyOf_eq_iff.mpr hid)
    · exact .removed hx fun y hy hid => hnone y hy (keyOf_eq_iff.mpr hid).symm
    · refine .modified hx hy (keyOf_eq_iff.mp hkeys) fun hentity => ?_
      rw [unchanged_iff.mpr hentity] at hsame
      cases hsame
  · rintro (⟨hy, hnone⟩ | ⟨hx, hnone⟩ | ⟨hx, hy, hid, hne⟩)
    · exact .added hy fun x hx hkey => hnone x hx (keyOf_eq_iff.mp hkey)
    · exact .removed hx fun y hy hkey => hnone y hy (keyOf_eq_iff.mp hkey.symm)
    · refine .modified hx hy (keyOf_eq_iff.mpr hid) (Bool.eq_false_iff.mpr fun hsame => ?_)
      exact hne (unchanged_iff.mp hsame)

theorem differences_nodup (fromGraph toGraph : FactGraph) :
    (differences fromGraph toGraph).Nodup := by
  have hpart : ∀ entityType, (differencesOf entityType fromGraph toGraph).Nodup := by
    intro entityType
    have hkeys : ((diff (unchanged entityType)
        (index (keyOf entityType) (fromGraph.entities entityType))
        (index (keyOf entityType) (toGraph.entities entityType))).map (·.key)).Nodup :=
      nodup_keys
    exact hkeys.of_map.map fun _ _ heq => (FactDifference.mk.inj heq).2
  unfold differences
  refine List.nodup_append.mpr ⟨hpart .NODE, hpart .EDGE, ?_⟩
  intro a ha b hb hab
  obtain ⟨_, _, rfl⟩ := List.mem_map.mp ha
  obtain ⟨_, _, rfl⟩ := List.mem_map.mp hb
  cases hab

/-- The differences the other way round. -/
theorem differences_swap (fromGraph toGraph : FactGraph) :
    (differences toGraph fromGraph).Perm
      ((differences fromGraph toGraph).map FactDifference.swap) := by
  have hpart : ∀ entityType, (differencesOf entityType toGraph fromGraph).Perm
      ((differencesOf entityType fromGraph toGraph).map FactDifference.swap) := by
    intro entityType
    unfold differencesOf
    have hmap := (diff_swap (unchanged_symm entityType)
      (index (keyOf entityType) (fromGraph.entities entityType))
      (index (keyOf entityType) (toGraph.entities entityType))).map
        fun entry => (⟨entityType, entry⟩ : FactDifference)
    rw [List.map_map] at hmap ⊢
    exact hmap
  unfold differences
  rw [List.map_append]
  exact (hpart .NODE).append (hpart .EDGE)

theorem eq_str_of_same {v : Json} {id : String} (h : SameUpToOrder (.str id) v) :
    v = .str id := by
  have hcanonical := canonicalizeValue_same h
  cases v <;> simp_all [canonicalizeValue]

theorem kindOf_swap {before after : Option Entity} (h : before ≠ none ∨ after ≠ none) :
    kindOf after before = (kindOf before after).exchange := by
  cases before <;> cases after <;> simp_all [kindOf, ChangeKind.exchange]

theorem idText_alone (v : Option Json) : idText (firstOf v none) = idText (firstOf none v) := by
  unfold firstOf
  split
  · rfl
  · rfl
  · rfl

/-- The id by which a node is reported is that of both sides. -/
theorem stableId_swap (h : Changed fromGraph toGraph d) (hnode : d.entityType = .NODE) :
    idText (firstOf (optional d.entry.before "id") (optional d.entry.after "id")) =
      idText (firstOf (optional d.entry.after "id") (optional d.entry.before "id")) := by
  cases h with
  | added hy hnone => exact (idText_alone _).symm
  | removed hx hnone => exact idText_alone _
  | @modified entityType x y hx hy hid hne =>
    dsimp only at hnode
    subst hnode
    obtain ⟨id, hx⟩ := fromGraph.named x hx
    have hfield := hid.1
    rw [hx] at hfield
    cases hy : y.get "id" with
    | none =>
      rw [hy] at hfield
      cases hfield
    | some v =>
      rw [hy] at hfield
      rw [eq_str_of_same (same_of_sameField hfield)] at hy
      simp [optional, hx, hy, firstOf]

theorem mirrored_record {kind other : ChangeKind} {stableId mirror : String}
    {before after : Option Entity} {changeType otherType : ChangeType}
    (hkind : other = kind.exchange) (hstable : mirror = stableId) :
    Mirrored (changeRecord sha256 kind entityType stableId before after changeType)
      (changeRecord sha256 other entityType mirror after before otherType) :=
  ⟨hkind, rfl, hstable, rfl, rfl⟩

theorem mirrored_swap (h : Changed fromGraph toGraph d) :
    Mirrored (changeOf sha256 d) (changeOf sha256 d.swap) := by
  have hsides : d.entry.before ≠ none ∨ d.entry.after ≠ none := by
    cases h <;> simp
  have hkind := kindOf_swap hsides
  have hstable := stableId_swap h
  obtain ⟨entityType, key, before, after⟩ := d
  simp only [changeOf, FactDifference.swap, Difference.swap]
  cases entityType with
  | NODE => exact mirrored_record hkind (hstable rfl)
  | EDGE => exact mirrored_record hkind rfl

/-- What a comparison of two graphs says. -/
structure Compared (sha256 : String → String) (localeCompare : String → String → Ordering)
    (fromGraph toGraph : FactGraph) : Prop where
  empty : compareFactGraphs sha256 localeCompare fromGraph toGraph = [] ↔
    SameGraph fromGraph toGraph
  changes : ∃ differences : List FactDifference,
    differences.Nodup ∧ (∀ d, d ∈ differences ↔ Changed fromGraph toGraph d) ∧
    (compareFactGraphs sha256 localeCompare fromGraph toGraph).Perm
      (differences.map (changeOf sha256)) ∧
    (compareFactGraphs sha256 localeCompare toGraph fromGraph).Perm
      (differences.map fun d => changeOf sha256 d.swap) ∧
    ∀ d ∈ differences, Mirrored (changeOf sha256 d) (changeOf sha256 d.swap)

end Comparison

/-! ## One stable id from two extractors -/

/-- A node of an extractor. -/
def observed (producer factId name : String) : Entity :=
  { fields := [("id", .str "N"), ("factId", .str factId), ("name", .str name),
      ("extractor", .obj [("id", .str producer)])]
    distinct := by simp [DistinctKeys, DistinctFields] }

theorem observed_distinct {p q : String} (hne : p ≠ q) (f g m n : String) :
    ¬ SameIdentity .NODE (observed p f m) (observed q g n) := by
  rintro ⟨-, hextractor⟩
  have hsame : SameUpToOrder (.str p) (.str q) := hextractor
  have heq := eq_str_of_same hsame
  simp only [Json.str.injEq] at heq
  exact hne heq.symm

/-- The extractors report the node in one order. -/
def firstGraph : FactGraph :=
  { nodes := [observed "A" "a" "old", observed "B" "b" "old"], edges := []
    named := by simp [observed, Entity.get, Entity.toJson, Json.get?] }

/-- And with another name in the other. -/
def secondGraph : FactGraph :=
  { nodes := [observed "B" "d" "new", observed "A" "c" "new"], edges := []
    named := by simp [observed, Entity.get, Entity.toJson, Json.get?] }

theorem firstGraph_unique : Unique firstGraph :=
  ⟨by simpa [firstGraph] using observed_distinct (by decide) "a" "b" "old" "old", .nil⟩

theorem secondGraph_unique : Unique secondGraph :=
  ⟨by simpa [secondGraph] using observed_distinct (by decide) "d" "c" "new" "new", .nil⟩

/-- What a change says of its entity. -/
def FactChange.sides (c : FactChange) : ChangeKind × EntityType × String × Json × Json :=
  (c.kind, c.entityType, c.stableId, c.beforeFactId, c.afterFactId)

def FactChange.exchanged (c : FactChange) : ChangeKind × EntityType × String × Json × Json :=
  (c.kind.exchange, c.entityType, c.stableId, c.afterFactId, c.beforeFactId)

end Traqen.FactGraphComparison
