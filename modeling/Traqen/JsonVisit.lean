-- What the visit of a JSON tree leaves: it takes the nodes one after the other, each before its
-- children, and a node that is shown has the parent that is shown for its object's parent.
import Traqen.JsonAcceptance
import Traqen.JsonStructure

open Js

namespace Traqen.JsonStructure

open JsonSyntax (Node slash escapeJsonPointer pointerOf pointerOf_concat pointerOf_injective
  slash_not_mem_escape)
open OrderedMap (get? get?_of_set keyed_set keyed_nil get?_mem)
open KeyedTree (self_mem_places induct placesOf places)

/-! ## Steps -/

/-- A node is shown, or left out with a call. -/
inductive Step (ι φ : Type) where
  | shown (entry : Entry ι)
  | left (call : Call ι φ)

section Steps

variable {ι φ : Type} (integral : List Nat → Bool) (ids : Ids ι φ)
  (material : Material ι) (limits : Limits) (openapi : Bool)

def take (s : State ι φ) : Step ι φ → State ι φ
  | .shown entry =>
    enter integral ids material limits openapi entry.object entry.node entry.segments s
  | .left call => { s with calls := s.calls ++ [call] }

/-- The object of a node that is shown. -/
def objectFor (segments : List (List Nat)) (key : Option (List Nat)) (parentId : ι)
    (parent : Option Node) (node : Node) : Object ι :=
  let kind := kindFor limits openapi node segments parent
  { objectId := ids.objectId kind (location node), kind, parentId
    name := nameOf key node segments kind, anchor := location node }

mutual

/-- The visit without its state. -/
def steps (segments : List (List Nat)) (key : Option (List Nat)) (parentId : ι)
    (parentKind : ObjectKind) (parent : Option Node) : Node → List (Step ι φ)
  | .node label members =>
    let node : Node := .node label members
    if isRestricted key label.item then [.left (restrictedGap node)]
    else
      let object := objectFor ids limits openapi segments key parentId parent node
      match refusal limits key node object.kind parentKind with
      | some call => [.left call]
      | none =>
        .shown { node, object, segments } ::
          stepsAll segments object.objectId object.kind (some node) members

def stepsAll (segments : List (List Nat)) (parentId : ι) (parentKind : ObjectKind)
    (parent : Option Node) : List (List Nat × Node) → List (Step ι φ)
  | [] => []
  | (key, child) :: rest =>
    steps (segments ++ [key]) (some key) parentId parentKind parent child ++
      stepsAll segments parentId parentKind parent rest

end

variable {object : Object ι} {list : List (Step ι φ)}
variable {integral ids material limits openapi} {path segments : List (List Nat)}
  {key : Option (List Nat)} {parentId : ι} {parentKind : ObjectKind} {parent : Option Node}
  {node : Node} {members : List (List Nat × Node)} {e : Entry ι} {call : Call ι φ}
  {s : State ι φ}

theorem mem_stepsAll {step : Step ι φ} :
    step ∈ stepsAll ids limits openapi segments parentId parentKind parent members ↔
      ∃ m ∈ members, step ∈ steps ids limits openapi (segments ++ [m.1]) (some m.1) parentId
        parentKind parent m.2 := by
  induction members with
  | nil => simp [stepsAll]
  | cons m members ih =>
    obtain ⟨key, child⟩ := m
    rw [stepsAll, List.mem_append, ih]
    simp

/-- A node that is shown: the root of the visit, or below it. -/
theorem mem_steps : Step.shown e ∈ steps ids limits openapi path key parentId parentKind parent
      node ↔
    isRestricted key node.label.item = false ∧
      refusal (ι := ι) (φ := φ) limits key node
        (objectFor ids limits openapi path key parentId parent node).kind parentKind = none ∧
      (e = { node, object := objectFor ids limits openapi path key parentId parent node
             segments := path } ∨
        ∃ m ∈ node.members, Step.shown e ∈ steps ids limits openapi (path ++ [m.1]) (some m.1)
          (objectFor ids limits openapi path key parentId parent node).objectId
          (objectFor ids limits openapi path key parentId parent node).kind (some node) m.2) := by
  obtain ⟨label, members⟩ := node
  rw [steps]
  dsimp only [KeyedTree.label, KeyedTree.members]
  by_cases hrestricted : isRestricted key label.item = true
  · rw [if_pos hrestricted, hrestricted]
    simp
  · rw [if_neg hrestricted]
    have hfalse : isRestricted key label.item = false := by simpa using hrestricted
    rw [hfalse]
    cases hrefusal : refusal (ι := ι) (φ := φ) limits key (.node label members)
        (objectFor ids limits openapi path key parentId parent (.node label members)).kind
        parentKind with
    | some call => simp
    | none =>
      simp only [List.mem_cons, Step.shown.injEq, mem_stepsAll, true_and]

/-! ## Places -/

/-- Every node below has the pointer of its path. -/
def Placed (path : List (List Nat)) (node : Node) : Prop :=
  ∀ at_ ∈ node.places, at_.2.label.pointer = pointerOf (path ++ at_.1)

theorem Placed.self (h : Placed path node) : node.label.pointer = pointerOf path := by
  have hself := h _ (self_mem_places node)
  rwa [List.append_nil] at hself

theorem Placed.member (h : Placed path node) {m : List Nat × Node} (hm : m ∈ node.members) :
    Placed (path ++ [m.1]) m.2 := by
  intro at_ hat
  have hplace : (m.1 :: at_.1, at_.2) ∈ node.places :=
    KeyedTree.mem_places.mpr (Or.inr ⟨m.1, m.2, at_.1, hm, hat, rfl⟩)
  rw [List.append_assoc, List.singleton_append]
  exact h _ hplace

variable (he : Step.shown e ∈ steps (φ := φ) ids limits openapi path key parentId parentKind parent node)
include he

/-- What is shown is a node of the tree, with the path to it for its segments. -/
theorem steps_place : ∃ below, (below, e.node) ∈ node.places ∧
      e.segments = path ++ below := by
  induction node using induct generalizing path key parentId parentKind parent with
  | h label members ih =>
    obtain ⟨-, -, rfl | ⟨m, hm, he⟩⟩ := mem_steps.mp he
    · exact ⟨[], self_mem_places _, (List.append_nil path).symm⟩
    · obtain ⟨below, hplace, hsegments⟩ := ih m hm he
      refine ⟨m.1 :: below, KeyedTree.mem_places.mpr (Or.inr ⟨_, _, _, hm, hplace, rfl⟩), ?_⟩
      rw [hsegments, List.append_assoc, List.singleton_append]

/-- What is shown is the root of the visit, or a child of what is shown. -/
theorem steps_parent :
    e = { node, object := objectFor ids limits openapi path key parentId parent node
          segments := path } ∨
    ∃ e' m, Step.shown e' ∈ steps (φ := φ) ids limits openapi path key parentId parentKind parent
        node ∧ m ∈ e'.node.members ∧
      e = { node := m.2, segments := e'.segments ++ [m.1]
            object := objectFor ids limits openapi (e'.segments ++ [m.1]) (some m.1)
              e'.object.objectId (some e'.node) m.2 } := by
  induction node using induct generalizing path key parentId parentKind parent with
  | h label members ih =>
    obtain ⟨hrestricted, hrefusal, rfl | ⟨m, hm, hbelow⟩⟩ := mem_steps.mp he
    · exact Or.inl rfl
    · refine Or.inr ?_
      rcases ih m hm hbelow with rfl | ⟨e', m', he', hm', rfl⟩
      · exact ⟨_, m, mem_steps.mpr ⟨hrestricted, hrefusal, Or.inl rfl⟩, hm, rfl⟩
      · exact ⟨e', m', mem_steps.mpr ⟨hrestricted, hrefusal, Or.inr ⟨m, hm, he'⟩⟩, hm', rfl⟩

/-- The child of what is shown is shown, unless it is left out. -/
theorem steps_child {m : List Nat × Node} (hm : m ∈ e.node.members)
    (hobject : object = objectFor ids limits openapi (e.segments ++ [m.1]) (some m.1)
      e.object.objectId (some e.node) m.2)
    (hrestricted : isRestricted (some m.1) m.2.label.item = false)
    (hrefusal : refusal (ι := ι) (φ := φ) limits (some m.1) m.2 object.kind e.object.kind = none) :
    Step.shown { node := m.2, segments := e.segments ++ [m.1], object } ∈ steps (φ := φ) ids limits
      openapi path key parentId parentKind parent node := by
  induction node using induct generalizing path key parentId parentKind parent with
  | h label members ih =>
    obtain ⟨hshown, hkept, rfl | ⟨m', hm', hbelow⟩⟩ := mem_steps.mp he
    · refine mem_steps.mpr ⟨hshown, hkept, Or.inr ⟨m, hm, ?_⟩⟩
      subst hobject
      exact mem_steps.mpr ⟨hrestricted, hrefusal, Or.inl rfl⟩
    · exact mem_steps.mpr ⟨hshown, hkept, Or.inr ⟨m', hm', ih m' hm' hbelow⟩⟩

omit he

/-- The pointer of what is shown. -/
theorem steps_pointer (hplaced : Placed path node)
    (he : Step.shown e ∈ steps (φ := φ) ids limits openapi path key parentId parentKind parent
      node) : e.node.label.pointer = pointerOf e.segments ∧ path <+: e.segments := by
  obtain ⟨below, hplace, hsegments⟩ := steps_place he
  rw [hsegments]
  exact ⟨hplaced _ hplace, List.prefix_append path below⟩

theorem parentPointer_concat (path : List (List Nat)) (key : List Nat) :
    parentPointer (pointerOf (path ++ [key])) = pointerOf path := by
  have hplain : ∀ c ∈ (escapeJsonPointer key).reverse, decide (c ≠ slash) = true := by
    intro c hc
    refine decide_eq_true fun heq => slash_not_mem_escape key ?_
    rw [← heq]
    exact List.mem_reverse.mp hc
  unfold parentPointer
  rw [pointerOf_concat, List.reverse_append, List.reverse_cons, List.append_assoc,
    List.dropWhile_append_of_pos hplain, List.singleton_append, List.dropWhile_cons_of_neg]
  · simp
  · simp

example : parentPointer (codeUnits "/a/b") = codeUnits "/a" := by decide +kernel

/-! ## The state -/

/-- Steps do not touch the pointer of a node that they do not show. -/
theorem get?_take {q : List Nat} (h : ∀ e, Step.shown e ∈ list → e.node.label.pointer ≠ q) :
    get? (list.foldl (take integral ids material limits openapi) s).nodes q =
        get? s.nodes q ∧
      get? (list.foldl (take integral ids material limits openapi) s).names q =
        get? s.names q := by
  induction list generalizing s with
  | nil => exact ⟨rfl, rfl⟩
  | cons step list ih =>
    obtain ⟨hnodes, hnames⟩ := ih (s := take integral ids material limits openapi s step)
      fun e he => h e (List.mem_cons_of_mem step he)
    rw [List.foldl_cons, hnodes, hnames]
    cases step with
    | left call => exact ⟨rfl, rfl⟩
    | shown entry =>
      have hother := h entry List.mem_cons_self
      simp only [take, enter, get?_of_set, if_neg (Ne.symm hother), and_self]

/-- The entry of a node stays while its children are visited. -/
theorem get?_children {k : List Nat} {child : Node} (hplaced : Placed (path ++ [k]) child) :
    get? ((steps ids limits openapi (path ++ [k]) (some k) parentId parentKind parent
        child).foldl (take integral ids material limits openapi) s).nodes (pointerOf path) =
      get? s.nodes (pointerOf path) := by
  refine (get?_take fun e he heq => ?_).1
  obtain ⟨hpointer, hprefix⟩ := steps_pointer hplaced he
  rw [hpointer] at heq
  have hlength := hprefix.length_le
  rw [pointerOf_injective heq, List.length_append, List.length_singleton] at hlength
  omega

/-- The visit is the fold of its steps. -/
theorem visit_eq (hplaced : Placed path node)
    (hparent : (get? s.nodes (parentPointer node.label.pointer)).map Entry.node =
      parent) :
    visit integral ids material limits openapi path key parentId parentKind node s =
      (steps ids limits openapi path key parentId parentKind parent node).foldl
        (take integral ids material limits openapi) s := by
  induction node using induct generalizing path key parentId parentKind parent s with
  | h label members ih =>
    have hself : label.pointer = pointerOf path := hplaced.self
    have hchildren : ∀ ms, (∀ m ∈ ms, m ∈ members) → ∀ (objectId : ι) (kind : ObjectKind)
        (s' : State ι φ), (get? s'.nodes (pointerOf path)).map Entry.node =
          some (.node label members) →
        visitAll integral ids material limits openapi path objectId kind ms s' =
          (stepsAll ids limits openapi path objectId kind (some (.node label members)) ms).foldl
            (take integral ids material limits openapi) s' := by
      intro ms
      induction ms with
      | nil => exact fun _ _ _ _ _ => rfl
      | cons m ms ihm =>
        intro hsub objectId kind s' hentry
        obtain ⟨k, child⟩ := m
        have hmem := hsub (k, child) List.mem_cons_self
        have hchild : Placed (path ++ [k]) child := hplaced.member hmem
        have hlookup : (get? s'.nodes (parentPointer child.label.pointer)).map
            Entry.node = some (.node label members) := by
          rw [hchild.self, parentPointer_concat]
          exact hentry
        rw [visitAll, stepsAll, List.foldl_append, ih (k, child) hmem hchild hlookup]
        dsimp only
        apply ihm fun m hm => hsub m (List.mem_cons_of_mem _ hm)
        rw [get?_children hchild]
        exact hentry
    rw [visit, steps]
    dsimp only
    rw [show label.pointer = (KeyedTree.node label members).label.pointer from rfl, hparent]
    split
    · rfl
    · unfold objectFor
      dsimp only
      cases hrefusal : refusal (ι := ι) (φ := φ) limits key (.node label members)
          (kindFor limits openapi (.node label members) path parent) parentKind with
      | some call => rfl
      | none =>
        dsimp only
        rw [List.foldl_cons]
        apply hchildren members (fun m hm => hm)
        simp [enter, get?_of_set, hself, KeyedTree.label]

/-! ## What is shown -/

def Step.entry? : Step ι φ → Option (Entry ι)
  | .shown entry => some entry
  | .left _ => none

/-- The nodes that steps show. -/
def nodesOf (list : List (Step ι φ)) : List Node := (list.filterMap Step.entry?).map Entry.node

theorem mem_entries : e ∈ list.filterMap Step.entry? ↔ Step.shown e ∈ list := by
  rw [List.mem_filterMap]
  constructor
  · rintro ⟨step, hstep, heq⟩
    cases step with
    | shown entry => exact Option.some.inj heq ▸ hstep
    | left call => cases heq
  · intro h
    exact ⟨_, h, rfl⟩

/-- No node is shown twice. -/
theorem nodesOf_sublist : (nodesOf (steps (φ := φ) ids limits openapi path key parentId parentKind
    parent node)).Sublist (node.places.map (·.2)) := by
  induction node using induct generalizing path key parentId parentKind parent with
  | h label members ih =>
    have hchildren : ∀ ms, (∀ m ∈ ms, m ∈ members) → ∀ (objectId : ι) (kind : ObjectKind),
        (nodesOf (stepsAll (φ := φ) ids limits openapi path objectId kind
          (some (.node label members)) ms)).Sublist ((placesOf ms).map (·.2)) := by
      intro ms hsub objectId kind
      induction ms with
      | nil => exact List.Sublist.refl _
      | cons m ms ihm =>
        obtain ⟨k, child⟩ := m
        rw [stepsAll, nodesOf, List.filterMap_append, List.map_append, placesOf,
          List.map_append, List.map_map]
        exact (ih (k, child) (hsub _ List.mem_cons_self)).append
          (ihm fun m hm => hsub m (List.mem_cons_of_mem _ hm))
    rw [steps, places]
    dsimp only
    split
    · exact List.nil_sublist _
    · split
      · exact List.nil_sublist _
      · exact (hchildren members (fun m hm => hm) _ _).cons_cons _

/-- The entry of a pointer, after steps that show no pointer twice. -/
theorem get?_shown
    (hdistinct : ((nodesOf list).map fun n => n.label.pointer).Nodup) (he : Step.shown e ∈ list) :
    get? (list.foldl (take integral ids material limits openapi) s).nodes
        e.node.label.pointer = some e ∧
      get? (list.foldl (take integral ids material limits openapi) s).names
        e.node.label.pointer = some (ids.factId (nameFact e.object e.node)) := by
  induction list generalizing s with
  | nil => cases he
  | cons step list ih =>
    rw [List.foldl_cons]
    cases step with
    | left call =>
      rcases List.mem_cons.mp he with heq | he
      · cases heq
      · exact ih hdistinct he
    | shown entry =>
      obtain ⟨hfirst, hrest⟩ := List.nodup_cons.mp hdistinct
      rcases List.mem_cons.mp he with heq | he
      · cases heq
        have hlast : ∀ e', Step.shown e' ∈ list →
            e'.node.label.pointer ≠ e.node.label.pointer := by
          intro e' he' heq
          apply hfirst
          dsimp only
          rw [← heq]
          exact List.mem_map_of_mem (List.mem_map_of_mem (mem_entries.mpr he'))
        rw [(get?_take hlast).1, (get?_take hlast).2]
        simp only [take, enter, get?_of_set, if_true, and_self]
      · exact ih hrest he

/-- The pointers that are there after the steps. -/
theorem get?_some {q : List Nat}
    (h : get? (list.foldl (take integral ids material limits openapi) s).nodes q =
      some e) :
    Step.shown e ∈ list ∧ e.node.label.pointer = q ∨ get? s.nodes q = some e := by
  induction list generalizing s with
  | nil => exact Or.inr h
  | cons step list ih =>
    rw [List.foldl_cons] at h
    rcases ih h with ⟨he, hq⟩ | hold
    · exact Or.inl ⟨List.mem_cons_of_mem step he, hq⟩
    · cases step with
      | left call => exact Or.inr hold
      | shown entry =>
        simp only [take, enter, get?_of_set] at hold
        split at hold
        · next hq =>
          cases hold
          exact Or.inl ⟨List.mem_cons_self, hq.symm⟩
        · exact Or.inr hold

variable (integral material limits openapi) in
/-- The calls of a step. -/
def Step.calls : Step ι φ → List (Call ι φ)
  | .shown entry =>
    describe integral material limits openapi entry.object entry.node entry.segments
  | .left call => [call]

theorem calls_take (list : List (Step ι φ)) :
    (list.foldl (take integral ids material limits openapi) s).calls =
      s.calls ++ list.flatMap (Step.calls integral material limits openapi) := by
  induction list generalizing s with
  | nil => simp
  | cons step list ih =>
    rw [List.foldl_cons, ih, List.flatMap_cons, ← List.append_assoc]
    congr 1
    cases step <;> rfl

theorem operations_take (list : List (Step ι φ)) :
    (list.foldl (take integral ids material limits openapi) s).operations =
      s.operations ++ (list.filterMap Step.entry?).filter fun e =>
        e.object.kind = .OPENAPI_OPERATION := by
  induction list generalizing s with
  | nil => simp
  | cons step list ih =>
    rw [List.foldl_cons, ih]
    cases step with
    | left call => rfl
    | shown entry =>
      by_cases hkind : entry.object.kind = .OPENAPI_OPERATION
      · simp [take, enter, Step.entry?, hkind]
      · simp [take, enter, Step.entry?, hkind]

theorem references_take {r : Reference ι}
    (h : r ∈ (list.foldl (take integral ids material limits openapi) s).references) :
    r ∈ s.references ∨ ∃ e, Step.shown e ∈ list ∧ r.object = e.object := by
  induction list generalizing s with
  | nil => exact Or.inl h
  | cons step list ih =>
    rw [List.foldl_cons] at h
    rcases ih h with hr | ⟨e, he, heq⟩
    · cases step with
      | left call => exact Or.inl hr
      | shown entry =>
        simp only [take, enter] at hr
        split at hr
        · rcases List.mem_append.mp hr with hr | hr
          · exact Or.inl hr
          · refine Or.inr ⟨entry, List.mem_cons_self, ?_⟩
            rw [List.mem_singleton.mp hr]
        · exact Or.inl hr
    · exact Or.inr ⟨e, List.mem_cons_of_mem step he, heq⟩

end Steps

/-! ## The whole visit -/

section Whole

variable {ι φ : Type} {object : Object ι} {list : List (Step ι φ)} {integral : List Nat → Bool}
  {ids : Ids ι φ} {material : Material ι} {limits : Limits} {root : Node} {e e' : Entry ι}
  {text : List Nat}

/-- The steps from the root of the document. -/
def rootSteps (ids : Ids ι φ) (material : Material ι) (limits : Limits) (root : Node) :
    List (Step ι φ) :=
  steps ids limits (isOpenapi root) [] none material.rootId .MATERIAL none root

/-- The node is shown. -/
def Shown (ids : Ids ι φ) (material : Material ι) (limits : Limits) (root : Node) (e : Entry ι) :
    Prop :=
  Step.shown e ∈ rootSteps ids material limits root

def start (root : Node) : State ι φ :=
  { nodes := [], names := [], operations := [], references := [], calls := versionGap root }

theorem tree_of_ok {representable : List Nat → Bool} {syntaxLimits : JsonSyntax.Limits}
    (h : JsonSyntax.parseJsonSyntax representable text syntaxLimits = .ok root) :
    JsonSyntax.Tree text root := by
  have hstrict := JsonSyntax.parseJsonSyntax_strict representable text syntaxLimits
  split at hstrict
  · exact hstrict.tree root h
  · rw [h] at hstrict
    cases hstrict

variable (htree : JsonSyntax.Tree text root)
include htree

theorem placed_root : Placed [] root :=
  fun at_ hat => (htree.nodes at_ hat).pointer

theorem visited_eq : visited integral ids material limits root =
      (rootSteps ids material limits root).foldl
        (take integral ids material limits (isOpenapi root)) (start root) :=
  visit_eq (placed_root htree) rfl

theorem distinct_root :
    ((nodesOf (rootSteps ids material limits root)).map fun n => n.label.pointer).Nodup := by
  have hsub : (nodesOf (rootSteps ids material limits root)).Sublist (root.places.map (·.2)) :=
    nodesOf_sublist
  have hall := htree.distinct
  refine List.Nodup.sublist (hsub.map fun n => n.label.pointer) ?_
  rw [List.map_map]
  exact hall

variable (he : Shown ids material limits root e)
include he

/-- A node that is shown has its entry and the id of its name. -/
theorem get?_visited : get? (visited integral ids material limits root).nodes e.node.label.pointer =
        some e ∧
      get? (visited integral ids material limits root).names e.node.label.pointer =
        some (ids.factId (nameFact e.object e.node)) := by
  rw [visited_eq htree]
  exact get?_shown (distinct_root htree) he

omit he in
theorem shown_of_get? {q : List Nat}
    (h : get? (visited integral ids material limits root).nodes q = some e) :
    Shown ids material limits root e ∧ e.node.label.pointer = q := by
  rw [visited_eq htree] at h
  rcases get?_some h with h | h
  · exact h
  · cases h

theorem shown_pointer
    : e.node.label.pointer = pointerOf e.segments :=
  (steps_pointer (placed_root htree) he).1

/-- What is shown is told by its segments. -/
theorem shown_inj
    (he' : Shown ids material limits root e') (h : e.segments = e'.segments) : e = e' := by
  have hpointers : e.node.label.pointer = e'.node.label.pointer := by
    rw [shown_pointer htree he, shown_pointer htree he', h]
  have hfirst : get? (visited (fun _ => false) ids material limits root).nodes
      e.node.label.pointer = some e := (get?_visited htree he).1
  have hsecond : get? (visited (fun _ => false) ids material limits root).nodes
      e'.node.label.pointer = some e' := (get?_visited htree he').1
  rw [hpointers, hsecond] at hfirst
  exact (Option.some.inj hfirst).symm

omit htree

theorem shown_objectId : e.object.objectId = ids.objectId e.object.kind (location e.node) := by
  rcases steps_parent he with rfl | ⟨e', m, -, -, rfl⟩
  · rfl
  · rfl

/-- Its parent is the root of the material, or what is shown one step nearer. -/
theorem shown_parent :
    e.object.parentId = material.rootId ∨ ∃ e', Shown ids material limits root e' ∧
      e.object.parentId = e'.object.objectId ∧ e'.segments.length < e.segments.length := by
  rcases steps_parent he with rfl | ⟨e', m, he', -, rfl⟩
  · exact Or.inl rfl
  · exact Or.inr ⟨e', he', rfl, by simp⟩

omit he

variable {openapi : Bool}

theorem keyed_take {s : State ι φ} (h : OrderedMap.Keyed s.nodes) :
    OrderedMap.Keyed (list.foldl (take integral ids material limits openapi) s).nodes := by
  induction list generalizing s with
  | nil => exact h
  | cons step list ih =>
    rw [List.foldl_cons]
    apply ih
    cases step with
    | left call => exact h
    | shown entry => exact keyed_set h _ _

variable (integral) in
/-- The nodes that are left are those that are shown. -/
theorem mem_nodes_visited (htree : JsonSyntax.Tree text root) :
    (∃ q, (q, e) ∈ (visited integral ids material limits root).nodes) ↔
      Shown ids material limits root e := by
  have hkeyed : OrderedMap.Keyed (visited integral ids material limits root).nodes := by
    rw [visited_eq htree]
    exact keyed_take keyed_nil
  constructor
  · rintro ⟨q, hmem⟩
    exact (shown_of_get? htree (OrderedMap.get?_of_mem hkeyed hmem)).1
  · intro he
    exact ⟨_, get?_mem (get?_visited htree he).1⟩

/-! ## Calls -/

/-- A call that adds no object and leads to none. -/
def Plain (call : Call ι φ) : Prop :=
  (∃ code anchor, call = .gap code anchor) ∨ call = .throw ∨
    ∃ fact value, call = .fact fact ∧ fact.said = .value value

theorem plain_gap (code : String) (anchor : Anchor) : Plain (.gap code anchor : Call ι φ) :=
  Or.inl ⟨code, anchor, rfl⟩

theorem plain_textFact (subjectId : ι) (predicate : String) (value : List Nat) (anchor : Anchor) :
    Plain (textFact subjectId predicate value anchor : Call ι φ) :=
  Or.inr (Or.inr ⟨_, _, rfl, rfl⟩)

variable {call : Call ι φ} {node : Node}

theorem plain_reportField {objectId : ι} {entry : String × String}
    (h : call ∈ reportField limits material objectId node entry) : Plain call := by
  unfold reportField at h
  split at h
  · cases h
  · dsimp only at h
    split at h
    · rw [List.mem_singleton.mp h]
      exact plain_gap _ _
    · rcases List.mem_cons.mp h with rfl | h
      · exact plain_textFact _ _ _ _
      · split at h
        · rw [List.mem_singleton.mp h]
          exact plain_gap _ _
        · cases h

theorem plain_testField {entry : String × String}
    (h : call ∈ testField limits object node entry) : Plain call := by
  unfold testField at h
  dsimp only at h
  split at h
  · rw [List.mem_singleton.mp h]
    exact plain_gap _ _
  · split at h
    · rw [List.mem_singleton.mp h]
      exact plain_textFact _ _ _ _
    · rw [List.mem_singleton.mp h]
      exact Or.inr (Or.inl rfl)

theorem plain_testResult (h : call ∈ testResult material limits object node) : Plain call := by
  unfold testResult at h
  rcases List.mem_append.mp h with h | h
  · rcases List.mem_append.mp h with h | h
    · obtain ⟨entry, -, h⟩ := List.mem_flatMap.mp h
      exact plain_testField h
    · split at h
      · obtain ⟨entry, -, h⟩ := List.mem_flatMap.mp h
        exact plain_reportField h
      · cases h
  · rw [List.mem_singleton.mp h]
    exact plain_gap _ _

theorem plain_containerGaps {segments : List (List Nat)}
    (h : call ∈ containerGaps openapi node segments) : Plain call := by
  have hone : ∀ {condition : Prop} [Decidable condition] {code : String},
      call ∈ (if condition then [.gap code (location node)] else []) → Plain call := by
    intro condition _ code h
    split at h
    · rw [List.mem_singleton.mp h]
      exact plain_gap _ _
    · cases h
  unfold containerGaps at h
  split at h
  · rcases List.mem_append.mp h with h | h
    · rcases List.mem_append.mp h with h | h
      · exact hone h
      · exact hone h
    · exact hone h
  · cases h

theorem plain_literalValue (h : call ∈ literalValue integral object node) : Plain call := by
  unfold literalValue at h
  split at h
  · cases h
  · rw [List.mem_singleton.mp h]
    exact Or.inr (Or.inr ⟨_, _, rfl, rfl⟩)

/-- Of the calls for a node one adds its object. -/
theorem mem_describe {segments : List (List Nat)}
    (h : call ∈ describe integral material limits openapi object node segments) :
    call = .object object ∨ Plain call := by
  unfold describe at h
  simp only [List.mem_append, List.mem_cons, List.not_mem_nil, or_false] at h
  rcases h with (((h | rfl | rfl | rfl) | h) | h) | h
  · exact Or.inr (plain_containerGaps h)
  · exact Or.inl rfl
  · exact Or.inr (Or.inr (Or.inr ⟨_, _, rfl, rfl⟩))
  · exact Or.inr (plain_textFact _ _ _ _)
  · exact Or.inr (plain_literalValue h)
  · split at h
    · simp only [List.mem_cons, List.not_mem_nil, or_false] at h
      rcases h with rfl | rfl
      · exact Or.inr (plain_textFact _ _ _ _)
      · exact Or.inr (plain_textFact _ _ _ _)
    · cases h
  · split at h
    · exact Or.inr (plain_testResult h)
    · cases h

theorem plain_refusal {key : Option (List Nat)} {kind parentKind : ObjectKind}
    (h : refusal limits key node kind parentKind = some call) : Plain call := by
  unfold refusal at h
  split at h
  · cases h
  · dsimp only at h
    split at h
    · split at h
      · cases h
        exact plain_gap _ _
      · cases h
        exact Or.inr (Or.inl rfl)
    · split at h
      · obtain ⟨problem, -, rfl⟩ := Option.map_eq_some_iff.mp h
        exact plain_gap _ _
      · cases h

/-- What is left out is left with a plain call. -/
theorem plain_left {path : List (List Nat)} {key : Option (List Nat)}
    {parentId : ι} {parentKind : ObjectKind} {parent : Option Node}
    (h : Step.left call ∈ steps ids limits openapi path key parentId parentKind parent node) :
    Plain call := by
  induction node using induct generalizing path key parentId parentKind parent with
  | h label members ih =>
    rw [steps] at h
    dsimp only at h
    split at h
    · cases List.mem_singleton.mp h
      exact plain_gap _ _
    · split at h
      · next hrefusal =>
        cases List.mem_singleton.mp h
        exact plain_refusal hrefusal
      · rcases List.mem_cons.mp h with heq | h
        · cases heq
        · obtain ⟨m, hm, h⟩ := mem_stepsAll.mp h
          exact ih m hm h

theorem plain_versionGap (h : call ∈ versionGap root) : Plain call := by
  unfold versionGap at h
  split at h
  · rw [List.mem_singleton.mp h]
    exact plain_gap _ _
  · cases h

/-- The calls of the visit: the objects of what is shown, and plain ones. -/
theorem mem_calls_visited (htree : JsonSyntax.Tree text root)
    (h : call ∈ (visited integral ids material limits root).calls) :
    (∃ e, Shown ids material limits root e ∧ call = .object e.object) ∨ Plain call := by
  rw [visited_eq htree, calls_take] at h
  rcases List.mem_append.mp h with h | h
  · exact Or.inr (plain_versionGap h)
  · obtain ⟨step, hstep, hcall⟩ := List.mem_flatMap.mp h
    cases step with
    | shown entry =>
      rcases mem_describe hcall with rfl | hplain
      · exact Or.inl ⟨entry, hstep, rfl⟩
      · exact Or.inr hplain
    | left other =>
      cases List.mem_singleton.mp hcall
      exact Or.inr (plain_left hstep)

end Whole

end Traqen.JsonStructure
