-- The local graph around a record (`deterministic-facts/queries.js`): it grows level by level along
-- the relation facts, and stops where the nodes reach their limit.
import Traqen.RecordClosure

open Js

namespace Traqen.LocalGraph

open RecordVerification

/-! ## What is drawn -/

abbrev Key := String × String

def keyOf (r : Record) : Key := (r.kind, r.id)

/-- A relation fact as an edge. -/
structure LocalEdge where
  factId : String
  subjectId : String
  predicate : Option Json
  targetId : String
  evidenceIds : Option Json

def subjectOf (relation : Record) : String := textOf (relation.payload.get? "subjectId")

def targetOf (relation : Record) : String := textOf (relation.payload.get? "targetId")

def edgeOf (relation : Record) : LocalEdge :=
  { factId := relation.id, subjectId := subjectOf relation
    predicate := relation.payload.get? "predicate", targetId := targetOf relation
    evidenceIds := relation.payload.get? "evidenceIds" }

def isRelation (r : Record) : Bool :=
  decide (r.kind = "FACT" ∧ r.payload.get? "kind" = some (.str "RELATION"))

structure Drawn where
  nodes : List (Key × Record)
  edges : List (String × LocalEdge)
  truncated : Bool

def Drawn.has (s : Drawn) (key : Key) : Bool := (OrderedMap.get? s.nodes key).isSome

/-- `byKey.get(OBJECT id)`. -/
def objectOf (records : List Record) (id : String) : Option Record :=
  OrderedMap.get? (OrderedMap.ofList (records.map fun r => (keyOf r, r))) ("OBJECT", id)

section Drawing

variable (records : List Record) (limit : Nat)

def addNode (s : Drawn) (record : Record) : Drawn × Bool :=
  if s.has (keyOf record) then (s, true)
  else if s.nodes.length ≥ limit then ({ s with truncated := true }, false)
  else ({ s with nodes := OrderedMap.set s.nodes (keyOf record) record }, true)

/-- `frontier.add(id)`. -/
def addId (ids : List String) (id : String) : List String := if id ∈ ids then ids else ids ++ [id]

/-- An object that is added belongs to the frontier. -/
def addToFrontier (state : Drawn × List String) (object : Record) : Drawn × List String :=
  let (s, added) := addNode limit state.1 object
  (s, if added then addId state.2 object.id else state.2)

/-- An end of the relation that is the root. -/
def addEnd (state : Drawn × List String) (objectId : String) : Drawn × List String :=
  match objectOf records objectId with
  | some object => addToFrontier limit state object
  | none => state

/-- The objects that the root stands for, or leads to. -/
def startAt (root : Record) (depth : Nat) (s : Drawn) : Drawn × List String :=
  let state : Drawn × List String := (s, if root.kind = "OBJECT" then [root.id] else [])
  let state :=
    if isRelation root then [subjectOf root, targetOf root].foldl (addEnd records limit) state
    else state
  if root.kind = "MATERIAL" ∧ depth > 0 then
    ((records.filter fun r => r.kind = "OBJECT" ∧
        r.payload.get? "materialId" = some (.str root.id)).insertionSort recordBefore).foldl
      (addToFrontier limit) state
  else state

/-- The objects of the frontier among the nodes. -/
def addObjects (s : Drawn) (objectIds : List String) : Drawn :=
  objectIds.foldl (fun s objectId =>
    match objectOf records objectId with
    | some object => (addNode limit s object).1
    | none => s) s

/-- One end of a relation that is drawn. -/
def drawEnd (frontier : List String) (state : Drawn × List String) (objectId : String) :
    Drawn × List String :=
  let (s, next) := state
  let object := objectOf records objectId
  if object.isSome ∧ ¬ s.has ("OBJECT", objectId) ∧ s.nodes.length ≥ limit then
    ({ s with truncated := true }, next)
  else
    let s :=
      match object with
      | some object => { s with nodes := OrderedMap.set s.nodes ("OBJECT", objectId) object }
      | none => s
    (s, if objectId ∉ frontier then addId next objectId else next)

/-- A turn of the loop over the relations. -/
def drawRelation (frontier : List String) (state : Drawn × List String) (relation : Record) :
    Drawn × List String :=
  let (s, next) := state
  let subject := subjectOf relation
  let target := targetOf relation
  if subject ∉ frontier ∧ target ∉ frontier then (s, next)
  else if s.nodes.length ≥ limit ∧ ¬ s.has ("FACT", relation.id) then
    ({ s with truncated := true }, next)
  else
    let s := { s with
      edges := OrderedMap.set s.edges relation.id (edgeOf relation)
      nodes := OrderedMap.set s.nodes ("FACT", relation.id) relation }
    [subject, target].foldl (drawEnd records limit frontier) (s, next)

/-- The relations of the set, in the order of the records. -/
def relationRows : List Record := (records.filter isRelation).insertionSort recordBefore

/-- So many levels, while something is left to go on from. -/
def drawLevels : Nat → Drawn → List String → Drawn
  | 0, s, _ => s
  | _ + 1, s, [] => s
  | level + 1, s, frontier =>
    let (s, next) := (relationRows records).foldl (drawRelation records limit frontier) (s, [])
    drawLevels level s next

structure GraphAnswer where
  root : Key
  depth : Nat
  limit : Nat
  truncated : Bool
  nodes : List Record
  edges : List LocalEdge

def graph (root : Record) (depth : Nat) : GraphAnswer :=
  let s : Drawn := { nodes := [(keyOf root, root)], edges := [], truncated := false }
  let (s, objectFrontier) := startAt records limit root depth s
  let s := addObjects records limit s objectFrontier
  let s := drawLevels records limit depth s objectFrontier
  { root := keyOf root, depth, limit, truncated := s.truncated
    nodes := (s.nodes.map (·.2)).insertionSort recordBefore
    edges := (s.edges.map (·.2)).insertionSort fun left right => left.factId ≤ right.factId }

end Drawing

/-! ## The query -/

def requireVersionId (graphVersionId : Option Json) : Except Thrown Unit :=
  checked (isText graphVersionId = true ∧ ScopeLifecycle.isHexId (textOf graphVersionId) = true)
    "F002_VERSION_INVALID" "事实集版本定位符无效"

def recordId (value : Option Json) : Except Thrown Unit :=
  checked (isText value = true ∧ ScopeLifecycle.isHexId (textOf value) = true)
    "F002_RECORD_INVALID" "记录定位符无效"

/-- An integer of the parameters, within its bounds. -/
def graphParameter (value : Option Json) (fallback minimum maximum : Nat) :
    Except Thrown Nat := do
  let value := value.getD (.num (Number.ofNat fallback))
  checked (isCount (some value) = true ∧ minimum ≤ intOf (some value) ∧
    intOf (some value) ≤ maximum) "F002_GRAPH_INVALID" "局部图参数无效"
  return (intOf (some value)).toNat

/-- The records are those of the version; `pick` is the one of them that the database gives for
the id of the root. -/
def queryGraph (records : List Record) (pick : List Record → Option Record)
    (graphVersionId rootId depth limit : Option Json) : Except Thrown GraphAnswer := do
  requireVersionId graphVersionId
  recordId rootId
  let depth ← graphParameter depth 1 0 2
  let limit ← graphParameter limit 100 1 200
  match pick (records.filter fun r => r.id = textOf rootId) with
  | some root => .ok (graph records limit root depth)
  | none => .error (.F002 { code := "F002_RECORD_NOT_FOUND", message := "局部图根节点不存在"
                            status := 404 })

/-! ## Nodes and keys -/

section Keys

variable {records : List Record} {limit : Nat} {s s' : Drawn} {key : Key} {r : Record}

theorem Drawn.has_iff : s.has key = true ↔ ∃ e ∈ s.nodes, e.1 = key := by
  unfold Drawn.has
  rw [Option.isSome_iff_ne_none, Ne, OrderedMap.get?_eq_none]
  simp only [ne_eq, not_forall, not_not, exists_prop]

/-- What is drawn at any time. -/
structure Sound (records : List Record) (limit : Nat) (s : Drawn) : Prop where
  keyed : OrderedMap.Keyed s.nodes
  bound : s.nodes.length ≤ limit
  nodes : ∀ e ∈ s.nodes, e.2 ∈ records ∧ e.1 = keyOf e.2
  edgesKeyed : OrderedMap.Keyed s.edges
  edges : ∀ e ∈ s.edges, ∃ r ∈ records, isRelation r = true ∧ e = (r.id, edgeOf r) ∧
    s.has ("FACT", r.id) = true

/-- One drawing goes on from another. -/
structure Extends (s s' : Drawn) : Prop where
  nodes : ∀ key, s.has key = true → s'.has key = true
  truncated : s'.truncated = false → s.truncated = false

theorem extends_refl (s : Drawn) : Extends s s := ⟨fun _ h => h, fun h => h⟩

theorem Extends.trans {t : Drawn} (h : Extends s s') (h' : Extends s' t) : Extends s t :=
  ⟨fun key hkey => h'.nodes key (h.nodes key hkey), fun ht => h.truncated (h'.truncated ht)⟩

/-- The drawing with one more node. -/
def Drawn.put (s : Drawn) (r : Record) : Drawn :=
  { s with nodes := OrderedMap.set s.nodes (keyOf r) r }

theorem has_put : (s.put r).has key = true ↔ key = keyOf r ∨ s.has key = true := by
  unfold Drawn.put
  rw [Drawn.has_iff, Drawn.has_iff]
  exact OrderedMap.key_mem_set s.nodes (keyOf r) key r

theorem sound_put (h : Sound records limit s) (hr : r ∈ records)
    (hroom : s.has (keyOf r) = true ∨ s.nodes.length < limit) : Sound records limit (s.put r) where
  keyed := OrderedMap.keyed_set h.keyed _ _
  bound := by
    have hbound := h.bound
    have hlength := OrderedMap.length_set s.nodes (keyOf r) r
    unfold Drawn.put
    dsimp only
    unfold Drawn.has at hroom
    split at hlength
    · omega
    · have hroom' := hroom.resolve_left (by assumption)
      omega
  nodes e he := by
    rcases OrderedMap.mem_set_iff.mp he with rfl | ⟨hold, -⟩
    · exact ⟨hr, rfl⟩
    · exact h.nodes e hold
  edgesKeyed := h.edgesKeyed
  edges e he := by
    obtain ⟨relation, hmem, hrelation, heq, hhas⟩ := h.edges e he
    exact ⟨relation, hmem, hrelation, heq, has_put.mpr (Or.inr hhas)⟩

theorem extends_put (s : Drawn) (r : Record) : Extends s (s.put r) :=
  ⟨fun _ hkey => has_put.mpr (Or.inr hkey), fun h => h⟩

/-- The drawing with the mark of what was left out. -/
def Drawn.cut (s : Drawn) : Drawn := { s with truncated := true }

theorem sound_cut (h : Sound records limit s) : Sound records limit s.cut :=
  ⟨h.keyed, h.bound, h.nodes, h.edgesKeyed, h.edges⟩

theorem extends_cut (s : Drawn) : Extends s s.cut := ⟨fun _ h => h, fun h => by cases h⟩

/-- A node is there, is added, or does not fit. -/
theorem addNode_cases (limit : Nat) (s : Drawn) (r : Record) :
    (s.has (keyOf r) = true ∧ addNode limit s r = (s, true)) ∨
      (s.nodes.length < limit ∧ addNode limit s r = (s.put r, true)) ∨
      (s.has (keyOf r) = false ∧ addNode limit s r = (s.cut, false)) := by
  unfold addNode
  by_cases hhas : s.has (keyOf r) = true
  · exact Or.inl ⟨hhas, if_pos hhas⟩
  · rw [if_neg hhas]
    by_cases hfull : s.nodes.length ≥ limit
    · exact Or.inr (Or.inr ⟨by simpa using hhas, if_pos hfull⟩)
    · exact Or.inr (Or.inl ⟨by omega, if_neg hfull⟩)

/-- Where nothing is left out, the node is there. -/
theorem addNode_whole (h : (addNode limit s r).1.truncated = false) :
    (addNode limit s r).2 = true ∧ ∀ key, (addNode limit s r).1.has key = true ↔
      key = keyOf r ∨ s.has key = true := by
  rcases addNode_cases limit s r with ⟨hhas, heq⟩ | ⟨-, heq⟩ | ⟨-, heq⟩
  · rw [heq]
    refine ⟨rfl, fun key => ⟨Or.inr, ?_⟩⟩
    rintro (rfl | hkey)
    · exact hhas
    · exact hkey
  · rw [heq]
    exact ⟨rfl, fun key => has_put⟩
  · rw [heq] at h
    cases h

end Keys

/-! ## Relations -/

section Relations

variable {records : List Record} {limit : Nat} {s s' : Drawn} {key : Key} {r relation : Record}
  {frontier next ids : List String} {id b : String}

theorem mem_addId : b ∈ addId ids id ↔ b ∈ ids ∨ b = id := by
  unfold addId
  by_cases h : id ∈ ids
  · rw [if_pos h]
    exact ⟨Or.inl, fun hb => hb.elim (fun hb => hb) fun hb => hb ▸ h⟩
  · rw [if_neg h, List.mem_append, List.mem_singleton]

theorem objectOf_some {object : Record} (h : objectOf records id = some object) :
    object ∈ records ∧ keyOf object = ("OBJECT", id) := by
  obtain ⟨r, hr, heq⟩ :=
    List.mem_map.mp (OrderedMap.mem_of_mem_ofList (OrderedMap.get?_mem h))
  obtain ⟨hkey, rfl⟩ := Prod.mk.inj heq
  exact ⟨hr, hkey⟩

/-- A record is told by its key. -/
theorem eq_of_key (hclosed : Closed records) {a b : Record} (ha : a ∈ records)
    (hb : b ∈ records) (h : keyOf a = keyOf b) : a = b :=
  List.inj_on_of_nodup_map hclosed.unique ha hb h

theorem objectOf_eq (hclosed : Closed records) {object : Record} (hmem : object ∈ records)
    (hkind : object.kind = "OBJECT") : objectOf records object.id = some object := by
  refine OrderedMap.get?_ofList_of_forall ?_ ?_
  · exact ⟨(keyOf object, object), List.mem_map_of_mem hmem, by simp [keyOf, hkind]⟩
  · intro e he hkey
    obtain ⟨r, hr, rfl⟩ := List.mem_map.mp he
    exact eq_of_key hclosed hr hmem (hkey.trans (by simp [keyOf, hkind]))

theorem isRelation_iff : isRelation r = true ↔
    r.kind = "FACT" ∧ r.payload.get? "kind" = some (.str "RELATION") := by
  unfold isRelation
  rw [decide_eq_true_eq]

/-- Both ends of a relation are objects of an accepted set. -/
theorem relation_ends (hclosed : Closed records) (hmem : relation ∈ records)
    (hrelation : isRelation relation = true) :
    (∃ object, objectOf records (subjectOf relation) = some object) ∧
      ∃ object, objectOf records (targetOf relation) = some object := by
  obtain ⟨hkind, hform⟩ := isRelation_iff.mp hrelation
  obtain ⟨kind, id, payload⟩ := relation
  dsimp only at hkind hform
  subst hkind
  have hfact := hclosed.facts hmem
  have hfound : ∀ {value : Option Json}, Resolves records "OBJECT" value →
      ∃ object, objectOf records (textOf value) = some object := by
    rintro value ⟨object, content, rfl, hlisted⟩
    exact ⟨_, objectOf_eq hclosed hlisted rfl⟩
  exact ⟨hfound hfact.subject, hfound (hfact.target hform)⟩

/-- An end of a relation: drawn, or left out. -/
theorem drawEnd_cases {object : Record} (hobject : objectOf records id = some object)
    (frontier : List String) (s : Drawn) (next : List String) :
    ((s.has ("OBJECT", id) = true ∨ s.nodes.length < limit) ∧
      drawEnd records limit frontier (s, next) id =
        (s.put object, if id ∉ frontier then addId next id else next)) ∨
    drawEnd records limit frontier (s, next) id = (s.cut, next) := by
  unfold drawEnd
  rw [hobject]
  dsimp only
  by_cases hfull : (some object).isSome = true ∧ ¬ s.has ("OBJECT", id) = true ∧
      s.nodes.length ≥ limit
  · rw [if_pos hfull]
    exact Or.inr rfl
  · rw [if_neg hfull]
    refine Or.inl ⟨?_, ?_⟩
    · by_contra hout
      rw [not_or, not_lt] at hout
      exact hfull ⟨rfl, hout⟩
    · unfold Drawn.put
      rw [(objectOf_some hobject).2]

theorem drawEnd_sound {state : Drawn × List String}
    (hobject : ∃ object, objectOf records id = some object) (h : Sound records limit state.1) :
    Sound records limit (drawEnd records limit frontier state id).1 ∧
      Extends state.1 (drawEnd records limit frontier state id).1 := by
  obtain ⟨object, hobject⟩ := hobject
  obtain ⟨s, next⟩ := state
  obtain ⟨hmem, hkey⟩ := objectOf_some hobject
  rcases drawEnd_cases hobject frontier s next with ⟨hroom, heq⟩ | heq
  · rw [heq]
    exact ⟨sound_put h hmem (hkey ▸ hroom), extends_put s object⟩
  · rw [heq]
    exact ⟨sound_cut h, extends_cut s⟩

/-- What an end adds where nothing is left out. -/
structure EndDrawn (frontier : List String) (id : String) (state state' : Drawn × List String) :
    Prop where
  nodes : ∀ key, state'.1.has key = true ↔ key = ("OBJECT", id) ∨ state.1.has key = true
  edges : state'.1.edges = state.1.edges
  next : ∀ b, b ∈ state'.2 ↔ b ∈ state.2 ∨ b = id ∧ b ∉ frontier

theorem drawEnd_whole {state : Drawn × List String}
    (hobject : ∃ object, objectOf records id = some object)
    (h : (drawEnd records limit frontier state id).1.truncated = false) :
    EndDrawn frontier id state (drawEnd records limit frontier state id) := by
  obtain ⟨object, hobject⟩ := hobject
  obtain ⟨s, next⟩ := state
  rcases drawEnd_cases hobject frontier s next with ⟨-, heq⟩ | heq
  · rw [heq]
    refine ⟨fun key => ?_, rfl, fun b => ?_⟩
    · rw [has_put, (objectOf_some hobject).2]
    · by_cases hid : id ∉ frontier
      · simp only [if_pos hid, mem_addId]
        exact or_congr_right ⟨fun hb => ⟨hb, hb ▸ hid⟩, And.left⟩
      · simp only [if_neg hid]
        refine ⟨Or.inl, fun hb => hb.elim (fun hb => hb) fun hb => ?_⟩
        exact absurd (hb.1 ▸ hb.2) hid
  · rw [heq] at h
    cases h

/-- One of the ends is in the frontier. -/
def Touches (frontier : List String) (relation : Record) : Prop :=
  subjectOf relation ∈ frontier ∨ targetOf relation ∈ frontier

/-- The drawing with the edge of a relation and its node. -/
def Drawn.putEdge (s : Drawn) (relation : Record) : Drawn :=
  { s with
    edges := OrderedMap.set s.edges relation.id (edgeOf relation)
    nodes := OrderedMap.set s.nodes ("FACT", relation.id) relation }

theorem putEdge_put (hrelation : isRelation relation = true) :
    s.putEdge relation =
      { s.put relation with edges := OrderedMap.set s.edges relation.id (edgeOf relation) } := by
  unfold Drawn.putEdge Drawn.put keyOf
  rw [(isRelation_iff.mp hrelation).1]

theorem has_putEdge (hrelation : isRelation relation = true) :
    (s.putEdge relation).has key = true ↔ key = ("FACT", relation.id) ∨ s.has key = true := by
  rw [putEdge_put hrelation]
  have hput : (s.put relation).has key = true ↔ key = keyOf relation ∨ s.has key = true := has_put
  unfold keyOf at hput
  rw [(isRelation_iff.mp hrelation).1] at hput
  exact hput

theorem sound_putEdge (h : Sound records limit s) (hmem : relation ∈ records)
    (hrelation : isRelation relation = true)
    (hroom : s.has ("FACT", relation.id) = true ∨ s.nodes.length < limit) :
    Sound records limit (s.putEdge relation) := by
  have hkey : keyOf relation = ("FACT", relation.id) := by
    unfold keyOf
    rw [(isRelation_iff.mp hrelation).1]
  have hput := sound_put h hmem (hkey ▸ hroom)
  rw [putEdge_put hrelation]
  refine ⟨hput.keyed, hput.bound, hput.nodes, OrderedMap.keyed_set h.edgesKeyed _ _, ?_⟩
  intro e he
  rcases OrderedMap.mem_set_iff.mp he with rfl | ⟨hold, -⟩
  · exact ⟨relation, hmem, hrelation, rfl, has_put.mpr (Or.inl hkey.symm)⟩
  · exact hput.edges e hold

theorem drawRelation_cases (limit : Nat) (frontier : List String) (s : Drawn)
    (next : List String) (relation : Record) :
    (¬ Touches frontier relation ∧
      drawRelation records limit frontier (s, next) relation = (s, next)) ∨
    (Touches frontier relation ∧
      drawRelation records limit frontier (s, next) relation = (s.cut, next)) ∨
    (Touches frontier relation ∧
      (s.has ("FACT", relation.id) = true ∨ s.nodes.length < limit) ∧
      drawRelation records limit frontier (s, next) relation =
        drawEnd records limit frontier
          (drawEnd records limit frontier (s.putEdge relation, next) (subjectOf relation))
          (targetOf relation)) := by
  unfold drawRelation Touches
  dsimp only
  by_cases hout : subjectOf relation ∉ frontier ∧ targetOf relation ∉ frontier
  · rw [if_pos hout]
    exact Or.inl ⟨not_or.mpr hout, rfl⟩
  · have htouch : subjectOf relation ∈ frontier ∨ targetOf relation ∈ frontier := by
      by_contra hnone
      exact hout (not_or.mp hnone)
    rw [if_neg hout]
    by_cases hfull : s.nodes.length ≥ limit ∧ ¬ s.has ("FACT", relation.id) = true
    · rw [if_pos hfull]
      exact Or.inr (Or.inl ⟨htouch, rfl⟩)
    · rw [if_neg hfull]
      refine Or.inr (Or.inr ⟨htouch, ?_, rfl⟩)
      by_contra hnone
      rw [not_or, not_lt] at hnone
      exact hfull ⟨hnone.2, hnone.1⟩

theorem drawRelation_sound (hclosed : Closed records) (hmem : relation ∈ records)
    (hrelation : isRelation relation = true) (h : Sound records limit s) :
    Sound records limit (drawRelation records limit frontier (s, next) relation).1 ∧
      Extends s (drawRelation records limit frontier (s, next) relation).1 := by
  obtain ⟨hsubject, htarget⟩ := relation_ends hclosed hmem hrelation
  rcases drawRelation_cases limit frontier s next relation with
    ⟨-, heq⟩ | ⟨-, heq⟩ | ⟨-, hroom, heq⟩
  · rw [heq]
    exact ⟨h, extends_refl s⟩
  · rw [heq]
    exact ⟨sound_cut h, extends_cut s⟩
  · rw [heq]
    have hput := sound_putEdge h hmem hrelation hroom
    have hextends : Extends s (s.putEdge relation) :=
      ⟨fun key hkey => (has_putEdge hrelation).mpr (Or.inr hkey), fun ht => ht⟩
    have hfirst : Sound records limit (drawEnd records limit frontier
        (s.putEdge relation, next) (subjectOf relation)).1 ∧ Extends (s.putEdge relation) _ :=
      drawEnd_sound hsubject hput
    obtain ⟨hsecond, hother⟩ := drawEnd_sound htarget hfirst.1
    exact ⟨hsecond, (hextends.trans hfirst.2).trans hother⟩

/-- What relations add where nothing is left out. -/
structure RelationsDrawn (rows : List Record) (frontier : List String)
    (state state' : Drawn × List String) : Prop where
  nodes : ∀ key, state'.1.has key = true ↔ state.1.has key = true ∨
    ∃ r ∈ rows, Touches frontier r ∧ (key = ("FACT", r.id) ∨
      key = ("OBJECT", subjectOf r) ∨ key = ("OBJECT", targetOf r))
  edges : ∀ e, e ∈ state'.1.edges ↔ e ∈ state.1.edges ∨
    ∃ r ∈ rows, Touches frontier r ∧ e = (r.id, edgeOf r)
  next : ∀ b, b ∈ state'.2 ↔ b ∈ state.2 ∨
    ∃ r ∈ rows, Touches frontier r ∧ (b = subjectOf r ∨ b = targetOf r) ∧ b ∉ frontier

theorem drawRelation_whole (hclosed : Closed records) (hmem : relation ∈ records)
    (hrelation : isRelation relation = true) (hsound : Sound records limit s)
    (h : (drawRelation records limit frontier (s, next) relation).1.truncated = false) :
    RelationsDrawn [relation] frontier (s, next)
      (drawRelation records limit frontier (s, next) relation) := by
  obtain ⟨hsubject, htarget⟩ := relation_ends hclosed hmem hrelation
  rcases drawRelation_cases limit frontier s next relation with
    ⟨hout, heq⟩ | ⟨-, heq⟩ | ⟨htouch, hroom, heq⟩
  · rw [heq]
    refine ⟨fun key => ?_, fun e => ?_, fun b => ?_⟩ <;> simp [hout]
  · rw [heq] at h
    cases h
  · rw [heq] at h ⊢
    have hput := sound_putEdge hsound hmem hrelation hroom
    have hfirst : Sound records limit (drawEnd records limit frontier
        (s.putEdge relation, next) (subjectOf relation)).1 ∧ Extends (s.putEdge relation) _ :=
      drawEnd_sound hsubject hput
    have hsecond : _ ∧ Extends _ (drawEnd records limit frontier (drawEnd records limit frontier
        (s.putEdge relation, next) (subjectOf relation)) (targetOf relation)).1 :=
      drawEnd_sound htarget hfirst.1
    have htargetDrawn := drawEnd_whole htarget h
    have hsubjectDrawn := drawEnd_whole hsubject (hsecond.2.truncated h)
    refine ⟨fun key => ?_, fun e => ?_, fun b => ?_⟩
    · rw [htargetDrawn.nodes, hsubjectDrawn.nodes, has_putEdge hrelation]
      simp only [List.mem_singleton, exists_eq_left, htouch, true_and]
      tauto
    · rw [htargetDrawn.edges, hsubjectDrawn.edges]
      unfold Drawn.putEdge
      dsimp only
      rw [OrderedMap.mem_set_iff]
      simp only [List.mem_singleton, exists_eq_left, htouch, true_and]
      constructor
      · rintro (rfl | ⟨hold, -⟩)
        · exact Or.inr rfl
        · exact Or.inl hold
      · rintro (hold | rfl)
        · by_cases hkey : e.1 = relation.id
          · obtain ⟨other, hother, hotherRelation, rfl, -⟩ := hsound.edges e hold
            have hsame : other = relation := eq_of_key hclosed hother hmem (Prod.ext
              ((isRelation_iff.mp hotherRelation).1.trans (isRelation_iff.mp hrelation).1.symm)
              hkey)
            exact Or.inl (by rw [hsame])
          · exact Or.inr ⟨hold, hkey⟩
        · exact Or.inl rfl
    · rw [htargetDrawn.next, hsubjectDrawn.next]
      simp only [List.mem_singleton, exists_eq_left, htouch, true_and]
      tauto

theorem RelationsDrawn.append {rows others : List Record}
    {state state' state'' : Drawn × List String}
    (h : RelationsDrawn rows frontier state state')
    (h' : RelationsDrawn others frontier state' state'') :
    RelationsDrawn (rows ++ others) frontier state state'' where
  nodes key := by
    rw [h'.nodes, h.nodes]
    simp only [List.mem_append, or_and_right, exists_or, or_assoc]
  edges e := by
    rw [h'.edges, h.edges]
    simp only [List.mem_append, or_and_right, exists_or, or_assoc]
  next b := by
    rw [h'.next, h.next]
    simp only [List.mem_append, or_and_right, exists_or, or_assoc]

/-- All the relations of a level. -/
theorem drawRelations (hclosed : Closed records) (frontier : List String) (rows : List Record)
    (hrows : ∀ r ∈ rows, r ∈ records ∧ isRelation r = true) (state : Drawn × List String)
    (h : Sound records limit state.1) :
    let state' := rows.foldl (drawRelation records limit frontier) state
    Sound records limit state'.1 ∧ Extends state.1 state'.1 ∧
      (state'.1.truncated = false → RelationsDrawn rows frontier state state') := by
  induction rows generalizing state with
  | nil =>
    refine ⟨h, extends_refl state.1, fun _ => ⟨fun key => ?_, fun e => ?_, fun b => ?_⟩⟩ <;> simp
  | cons relation rows ih =>
    obtain ⟨hmem, hrelation⟩ := hrows relation List.mem_cons_self
    obtain ⟨s, next⟩ := state
    obtain ⟨hsound, hextends⟩ : Sound records limit
        (drawRelation records limit frontier (s, next) relation).1 ∧ Extends s _ :=
      drawRelation_sound hclosed hmem hrelation h
    obtain ⟨hrest, hrestExtends, hwhole⟩ :=
      ih (fun r hr => hrows r (List.mem_cons_of_mem relation hr)) _ hsound
    refine ⟨hrest, hextends.trans hrestExtends, fun hflag => ?_⟩
    have hone := drawRelation_whole hclosed hmem hrelation h (hrestExtends.truncated hflag)
    exact hone.append (hwhole hflag)

end Relations

end Traqen.LocalGraph
