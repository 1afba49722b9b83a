-- The parameters that are attributed to an OpenAPI operation: its own, and those of its path item
-- that it does not override. Nothing is inherited where an identity is not known.
import Traqen.ReferenceCycles

open Js

namespace Traqen.JsonStructure

open JsonSyntax (Node pointerOf slash escapeJsonPointer)
open SensitiveContent (isSensitiveKey)
open KeyedTree (mapOf self_mem_places member_mem_places)

/-! ## Kinds -/

section Kinds

variable {limits : Limits} {openapi : Bool} {node parent : Node} {segments : List (List Nat)}
  {above : Option Node}

attribute [local simp] kindFor

theorem kindFor_operation (h : kindFor limits openapi node segments above = .OPENAPI_OPERATION) :
    node.label.item = .object ∧ openapi = true ∧ ∃ path method,
      segments = [codeUnits "paths", path, method] ∧ path.head? = some slash ∧
        isMethod (some method) = true := by
  unfold kindFor at h
  dsimp only at h
  split at h
  · next hcondition =>
    simp only [Bool.and_eq_true, decide_eq_true_eq, segmentIs] at hcondition
    obtain ⟨⟨⟨⟨hobject, hopenapi, hpaths⟩, hslash⟩, hlength⟩, hmethod⟩ := hcondition
    obtain ⟨first, path, method, rfl⟩ := List.length_eq_three.mp hlength
    cases hpaths
    exact ⟨hobject, hopenapi, path, method, rfl, by simpa using hslash, hmethod⟩
  · repeat' split at h
    all_goals cases h

theorem kindFor_ofOperation {path method : List Nat} (hobject : node.label.item = .object)
    (hslashed : path.head? = some slash) (hmethod : isMethod (some method) = true)
    (above : Option Node) :
    kindFor limits true node [codeUnits "paths", path, method] above = .OPENAPI_OPERATION := by
  simp [kindFor, segmentIs, hobject, hslashed, hmethod]

theorem kindFor_object (h : kindFor limits openapi node segments above = .OPENAPI_PARAMETER) :
    node.label.item = .object := by
  unfold kindFor at h
  dsimp only at h
  split at h
  · cases h
  · split at h
    · next hcondition =>
      simp only [Bool.and_eq_true, decide_eq_true_eq] at hcondition
      exact hcondition.1.1
    · repeat' split at h
      all_goals cases h

/-- Test results are below the tests. -/
theorem kindFor_test (h : kindFor limits openapi node segments above = .TEST_RESULT) :
    segments.head? = some (codeUnits "tests") := by
  unfold kindFor at h
  dsimp only at h
  generalize (if limits.testReports then _ else _ : Bool) = named at h
  repeat' split at h
  all_goals cases h
  next hcondition =>
    simp only [Bool.and_eq_true, segmentIs, decide_eq_true_eq] at hcondition
    rw [List.head?_eq_getElem?]
    exact hcondition.1.2

/-- What may have parameters: a path item or an operation. -/
def Owner (segments : List (List Nat)) : Prop :=
  ∃ path, segments = [codeUnits "paths", path] ∨
    ∃ method, segments = [codeUnits "paths", path, method] ∧ isMethod (some method) = true

theorem kindFor_parameter (howner : Owner segments) (harray : parent.label.item = .array)
    (hobject : node.label.item = .object) (index : List Nat) :
    kindFor limits true node (segments ++ [codeUnits "parameters", index]) (some parent) =
      .OPENAPI_PARAMETER := by
  obtain ⟨path, rfl | ⟨method, rfl, hmethod⟩⟩ := howner
  · simp [kindFor, segmentIs, harray, hobject]
  · simp [kindFor, segmentIs, harray, hobject, hmethod]

end Kinds

/-! ## What is shown below the paths -/

section Below

variable {ι φ : Type} {ids : Ids ι φ} {material : Material ι} {limits : Limits} {root node : Node}
  {e e' : Entry ι} {text : List Nat} {m : List Nat × Node} {path : List (List Nat)}

/-- No key of the document is a sensitive one. -/
def KeysShown (root : Node) : Prop :=
  ∀ at_ ∈ root.places, ∀ key ∈ at_.1, isSensitiveKey key = false

/-- What has members has no text. -/
theorem text_of_members (htree : JsonSyntax.Tree text root) (hnode : (path, node) ∈ root.places)
    (hm : m ∈ node.members) : textOf node.label.item = none := by
  have htoken := (htree.nodes _ hnode).token
  obtain ⟨label, members⟩ := node
  have hmembers : mapOf JsonSyntax.Label.item members ≠ [] := by
    cases members with
    | nil => cases hm
    | cons => simp [mapOf]
  rw [JsonSyntax.valueOf, KeyedTree.map] at htoken
  dsimp only [KeyedTree.label] at *
  generalize Utf16.slice text label.start label.stop = units at htoken
  generalize label.item = item at htoken ⊢
  generalize mapOf JsonSyntax.Label.item members = shown at htoken hmembers
  cases htoken with
  | scalar => exact absurd rfl hmembers
  | empty => exact absurd rfl hmembers
  | compound kind => cases kind <;> rfl

variable (he : Shown ids material limits root e)
include he

theorem shown_place : (e.segments, e.node) ∈ root.places := by
  obtain ⟨below, hplace, hsegments⟩ := steps_place he
  rw [List.nil_append] at hsegments
  rwa [hsegments]

theorem shown_anchor : e.object.anchor = location e.node := by
  rcases steps_parent he with rfl | ⟨e', m, -, -, rfl⟩
  · rfl
  · rfl

omit he in
theorem place_inj (htree : JsonSyntax.Tree text root) {at_ at_' : List (List Nat) × Node}
    (hat : at_ ∈ root.places) (hat' : at_' ∈ root.places)
    (h : at_.2.label.pointer = at_'.2.label.pointer) : at_ = at_' :=
  List.inj_on_of_nodup_map htree.distinct hat hat' h

theorem shown_kind :
    ∃ above, e.object.kind = kindFor limits (isOpenapi root) e.node e.segments above := by
  rcases steps_parent he with rfl | ⟨e', m, he', hm, rfl⟩
  · exact ⟨none, rfl⟩
  · exact ⟨some e'.node, rfl⟩

omit he in
/-- Below the root the parent is shown too. -/
theorem shown_above (segments : List (List Nat)) {key : List Nat}
    (he : Shown ids material limits root e) (hsegments : e.segments = segments ++ [key]) :
    ∃ e', Shown ids material limits root e' ∧ e'.segments = segments ∧
      (key, e.node) ∈ e'.node.members := by
  rcases steps_parent he with rfl | ⟨e', m, he', hm, rfl⟩
  · exact absurd hsegments (by simp)
  · obtain ⟨hlast, hkey⟩ := List.append_inj' hsegments rfl
    cases hkey
    exact ⟨e', he', hlast, hm⟩

/-- Nothing at the root or below the paths is a test result. -/
theorem kind_ne_test (hbelow : e.segments = [] ∨ e.segments.head? = some (codeUnits "paths")) :
    e.object.kind ≠ .TEST_RESULT := by
  intro hkind
  obtain ⟨above, h⟩ := shown_kind he
  have htests := kindFor_test (h.symm.trans hkind)
  rcases hbelow with hroot | hpaths
  · rw [hroot] at htests
    cases htests
  · rw [hpaths] at htests
    exact absurd htests (by decide)

omit he

theorem refusal_none {key : Option (List Nat)} {kind parentKind : ObjectKind}
    (hkind : kind ≠ .TEST_RESULT) (hparent : parentKind ≠ .TEST_RESULT) :
    refusal (ι := ι) (φ := φ) limits key node kind parentKind = none := by
  simp [refusal, hkind, hparent]

variable (ids material limits) in
/-- A root with members is shown. -/
theorem shown_root (htree : JsonSyntax.Tree text root) (hm : m ∈ root.members) :
    ∃ e, Shown ids material limits root e ∧ e.node = root ∧ e.segments = [] := by
  have htext := text_of_members htree (self_mem_places root) hm
  refine ⟨_, mem_steps.mpr ⟨?_, refusal_none (fun hkind => ?_) nofun, Or.inl rfl⟩, rfl, rfl⟩
  · simp [isRestricted, htext]
  · cases kindFor_test hkind

/-- The child of what is shown is shown, below the paths. -/
theorem shown_child (hkeys : KeysShown root) (he : Shown ids material limits root e)
    (hm : m ∈ e.node.members)
    (hbelow : (e.segments ++ [m.1]).head? = some (codeUnits "paths"))
    (htext : textOf m.2.label.item = none) :
    ∃ e', Shown ids material limits root e' ∧ e'.node = m.2 ∧
      e'.segments = e.segments ++ [m.1] ∧
      e'.object = objectFor ids limits (isOpenapi root) (e.segments ++ [m.1]) (some m.1)
        e.object.objectId (some e.node) m.2 := by
  have hplace : (e.segments ++ [m.1], m.2) ∈ root.places :=
    member_mem_places (shown_place he) hm
  have hkey : isSensitiveKey m.1 = false :=
    hkeys _ hplace _ (List.mem_append_right _ List.mem_cons_self)
  have hparent : e.object.kind ≠ .TEST_RESULT := by
    apply kind_ne_test he
    cases hsegments : e.segments with
    | nil => exact Or.inl rfl
    | cons first rest =>
      rw [hsegments] at hbelow
      exact Or.inr hbelow
  refine ⟨_, steps_child he hm rfl ?_ ?_, rfl, rfl, rfl⟩
  · simp [isRestricted, hkey, htext]
  · refine refusal_none (fun hkind => ?_) hparent
    have htests := kindFor_test hkind
    rw [hbelow] at htests
    exact absurd htests (by decide)

theorem mem_parametersOf {child : Node} : child ∈ parametersOf (some node) ↔
    ∃ parameters index, field node "parameters" = some parameters ∧
      parameters.label.item = .array ∧ (index, child) ∈ parameters.members := by
  unfold parametersOf
  rw [Option.bind_some]
  cases hfield : field node "parameters" with
  | none => simp
  | some parameters =>
    dsimp only
    by_cases harray : parameters.label.item = .array
    · rw [if_pos harray, List.mem_map]
      constructor
      · rintro ⟨m, hm, rfl⟩
        exact ⟨parameters, m.1, rfl, harray, hm⟩
      · rintro ⟨_, index, heq, -, hm⟩
        cases heq
        exact ⟨_, hm, rfl⟩
    · rw [if_neg harray]
      constructor
      · exact nofun
      · rintro ⟨_, index, heq, harray', -⟩
        cases heq
        exact absurd harray' harray

theorem field_mem {key : String} {child : Node} (h : field node key = some child) :
    (codeUnits key, child) ∈ node.members := by
  unfold field at h
  split at h
  · obtain ⟨m, hm, rfl⟩ := Option.map_eq_some_iff.mp h
    have hkey := List.find?_some hm
    rw [← of_decide_eq_true hkey]
    exact List.mem_of_find?_eq_some hm
  · cases h

/-- The parameters stand two steps below what has them. -/
theorem parameter_place {child : Node} (hnode : (path, node) ∈ root.places)
    (hchild : child ∈ parametersOf (some node)) :
    ∃ index, (path ++ [codeUnits "parameters", index], child) ∈ root.places := by
  obtain ⟨parameters, index, hfield, -, hm⟩ := mem_parametersOf.mp hchild
  refine ⟨index, ?_⟩
  have hplace := member_mem_places
    (member_mem_places hnode (field_mem hfield)) hm
  rwa [List.append_assoc] at hplace

end Below

/-! ## The parameters of an owner -/

section Parameters

variable {ι φ : Type} {integral : List Nat → Bool} {ids : Ids ι φ} {material : Material ι}
  {limits : Limits} {root child : Node} {e : Entry ι} {text : List Nat}

/-- The id of the object of a parameter. -/
def parameterId (ids : Ids ι φ) (child : Node) : ι :=
  ids.objectId .OPENAPI_PARAMETER (location child)

theorem Owner.head {segments : List (List Nat)} (h : Owner segments) :
    segments.head? = some (codeUnits "paths") := by
  obtain ⟨path, rfl | ⟨method, rfl, -⟩⟩ := h
  · rfl
  · rfl

theorem head_append {segments more : List (List Nat)} {first : List Nat}
    (h : segments.head? = some first) : (segments ++ more).head? = some first := by
  cases segments with
  | nil => cases h
  | cons => exact h

/-- The parameters that are objects are shown as such. -/
theorem shown_parameter (hkeys : KeysShown root) (hopenapi : isOpenapi root = true)
    (he : Shown ids material limits root e) (howner : Owner e.segments)
    (hchild : child ∈ parametersOf (some e.node)) (hobject : child.label.item = .object) :
    ∃ entry, Shown ids material limits root entry ∧ entry.node = child ∧
      entry.object.kind = .OPENAPI_PARAMETER ∧ entry.object.objectId = parameterId ids child := by
  obtain ⟨parameters, index, hfield, harray, hm⟩ := mem_parametersOf.mp hchild
  obtain ⟨above, habove, hnode, hsegments, -⟩ := shown_child hkeys he (field_mem hfield)
    (head_append howner.head) (by rw [harray]; rfl)
  obtain rfl : parameters = above.node := hnode.symm
  obtain ⟨entry, hentry, rfl, -, hobjectFor⟩ := shown_child hkeys habove hm
    (by rw [hsegments, List.append_assoc]; exact head_append howner.head) (by rw [hobject]; rfl)
  have hkind : entry.object.kind = .OPENAPI_PARAMETER := by
    rw [hobjectFor, objectFor, hopenapi, hsegments, List.append_assoc]
    exact kindFor_parameter howner harray hobject index
  refine ⟨entry, hentry, rfl, hkind, ?_⟩
  rw [shown_objectId hentry, hkind]
  rfl

variable (htree : JsonSyntax.Tree text root)
include htree

/-- Of the other members of the list none is a parameter. -/
theorem parameterEntry_none
    (he : Shown ids material limits root e) (hchild : child ∈ parametersOf (some e.node))
    (hobject : child.label.item ≠ .object) :
    parameterEntry (visited integral ids material limits root) child = none := by
  rw [parameterEntry, Option.filter_eq_none_iff]
  intro entry hentry hkind
  obtain ⟨hshown, hpointer⟩ := shown_of_get? htree hentry
  obtain ⟨index, hplace⟩ := parameter_place (shown_place he) hchild
  have hsame := place_inj htree (shown_place hshown) hplace hpointer
  obtain ⟨-, rfl⟩ := Prod.mk.inj hsame
  obtain ⟨above, h⟩ := shown_kind hshown
  exact hobject (kindFor_object (h.symm.trans (of_decide_eq_true hkind)))

variable (integral) in
theorem parameterEntry_some (hkeys : KeysShown root)
    (hopenapi : isOpenapi root = true) (he : Shown ids material limits root e)
    (howner : Owner e.segments) (hchild : child ∈ parametersOf (some e.node))
    (hobject : child.label.item = .object) :
    ∃ entry, Shown ids material limits root entry ∧ entry.node = child ∧
      entry.object.objectId = parameterId ids child ∧
      parameterEntry (visited integral ids material limits root) child = some entry := by
  obtain ⟨entry, hentry, rfl, hkind, hid⟩ := shown_parameter hkeys hopenapi he howner hchild hobject
  refine ⟨entry, hentry, rfl, hid, ?_⟩
  rw [parameterEntry, (get?_visited htree hentry).1, Option.filter_some, if_pos]
  exact decide_eq_true hkind

/-- The objects in the list of parameters. -/
def parameterObjects (owner : Node) : List Node :=
  (parametersOf (some owner)).filter fun child => child.label.item = .object

omit htree in
theorem mem_parameterObjects {owner : Node} : child ∈ parameterObjects owner ↔
    child ∈ parametersOf (some owner) ∧ child.label.item = .object := by
  unfold parameterObjects
  rw [List.mem_filter, decide_eq_true_eq]

/-- The identities of all parameters of the operation are known. -/
def Known (operation : Node) : Prop :=
  (∀ parameters, field operation "parameters" = some parameters →
    parameters.label.item = .array) ∧
  ∀ child ∈ parametersOf (some operation), ∃ identity, parameterIdentity child = some identity

omit htree in
theorem hasUnknown_iff {operation : Node} : hasUnknown operation = false ↔ Known operation := by
  unfold hasUnknown Known
  rw [Bool.or_eq_false_iff]
  refine and_congr ?_ ?_
  · cases field operation "parameters" with
    | none => simp
    | some parameters => simp
  · simp [Option.isSome_iff_exists, ← Option.isSome_iff_ne_none]

/-- No parameter of the operation has the identity of the inherited one. -/
def Inherits (operation child : Node) : Prop :=
  ∃ identity, parameterIdentity child = some identity ∧
    ∀ own ∈ parametersOf (some operation), parameterIdentity own ≠ some identity

/-! ## The calls of an operation -/

/-- Where an operation stands. -/
structure Operation (ids : Ids ι φ) (material : Material ι) (limits : Limits) (root : Node)
    (operation item : Entry ι) (path method : List Nat) : Prop where
  shown : Shown ids material limits root operation
  itemShown : Shown ids material limits root item
  openapi : isOpenapi root = true
  isObject : operation.node.label.item = .object
  slashed : path.head? = some slash
  isMethod : isMethod (some method) = true
  segments : operation.segments = [codeUnits "paths", path, method]
  above : item.segments = [codeUnits "paths", path]
  member : (method, operation.node) ∈ item.node.members

omit htree in
theorem operation_of_kind (he : Shown ids material limits root e)
    (hkind : e.object.kind = .OPENAPI_OPERATION) :
    ∃ item path method, Operation ids material limits root e item path method := by
  obtain ⟨above, h⟩ := shown_kind he
  obtain ⟨hobject, hopenapi, path, method, hsegments, hslashed, hmethod⟩ :=
    kindFor_operation (h.symm.trans hkind)
  obtain ⟨item, hitem, habove, hmember⟩ :=
    shown_above [codeUnits "paths", path] he hsegments
  exact ⟨item, path, method, he, hitem, hopenapi, hobject, hslashed, hmethod, hsegments, habove,
    hmember⟩

variable {operation item : Entry ι} {path method : List Nat} {fact : Fact ι φ}

variable (h : Operation ids material limits root operation item path method)
include h

omit htree in
theorem Operation.owner : Owner operation.segments :=
  ⟨path, Or.inr ⟨method, h.segments, h.isMethod⟩⟩

omit htree in
theorem Operation.itemOwner : Owner item.segments :=
  ⟨path, Or.inl h.above⟩

/-- The path item is found under the pointer of its path. -/
theorem Operation.pathNode : OrderedMap.get? (visited integral ids material limits root).nodes
      (slash :: codeUnits "paths" ++
        slash :: escapeJsonPointer (operation.segments[1]?.getD [])) = some item := by
  have hpointer : item.node.label.pointer = slash :: codeUnits "paths" ++
      slash :: escapeJsonPointer (operation.segments[1]?.getD []) := by
    rw [shown_pointer htree h.itemShown, h.above, h.segments]
    have hplain : escapeJsonPointer (codeUnits "paths") = codeUnits "paths" := by decide
    simp [pointerOf, hplain]
  rw [← hpointer]
  exact (get?_visited htree h.itemShown).1

/-- A parameter of an operation. -/
def parameterFact (ids : Ids ι φ) (operationId : ι) (child : Node) (basis : String)
    (premiseFactIds : List φ) : Fact ι φ :=
  { subjectId := operationId, predicate := "declaresParameter"
    said := .target (parameterId ids child), anchor := location child, basis, premiseFactIds }

theorem Operation.own (hkeys : KeysShown root)
    (hchild : child ∈ parametersOf (some operation.node)) :
    ownParameter (visited integral ids material limits root) operation child =
      if child.label.item = .object then
        [.fact (parameterFact ids operation.object.objectId child "DECLARED" [])]
      else [] := by
  unfold ownParameter
  split_ifs with hobject
  · obtain ⟨entry, -, -, hid, hentry⟩ :=
      parameterEntry_some integral htree hkeys h.openapi h.shown h.owner hchild hobject
    rw [hentry]
    dsimp only
    rw [declaresParameter, hid]
    rfl
  · rw [parameterEntry_none htree h.shown hchild hobject]

variable (integral) in
/-- What becomes of a parameter of the path item. -/
theorem Operation.inherited (hkeys : KeysShown root)
    (hchild : child ∈ parametersOf (some item.node)) (hobject : child.label.item = .object) :
    ∃ parameter, Shown ids material limits root parameter ∧ parameter.node = child ∧
      parameter.object.objectId = parameterId ids child ∧
      inheritedParameter (visited integral ids material limits root) operation item.node child =
        match (parameterIdentity child).filter fun _ => !hasUnknown operation.node with
        | none => [.gap "OPENAPI_PARAMETER_INHERITANCE_UNCONFIRMED" (location child)]
        | some identity =>
          if identity ∈ (parametersOf (some operation.node)).filterMap parameterIdentity then []
          else [.fact (parameterFact ids operation.object.objectId child "DERIVED"
            [ids.factId (nameFact operation.object operation.node),
              ids.factId (nameFact item.object item.node),
              ids.factId (nameFact parameter.object child)])] := by
  obtain ⟨parameter, hshown, rfl, hid, hentry⟩ := parameterEntry_some integral htree
    hkeys h.openapi h.itemShown h.itemOwner hchild hobject
  refine ⟨parameter, hshown, rfl, hid, ?_⟩
  have hnames : nameIds (visited integral ids material limits root)
      [operation.node, item.node, parameter.node] =
        [ids.factId (nameFact operation.object operation.node),
          ids.factId (nameFact item.object item.node),
          ids.factId (nameFact parameter.object parameter.node)] := by
    simp [nameIds, (get?_visited htree h.shown).2, (get?_visited htree h.itemShown).2,
      (get?_visited htree hshown).2]
  unfold inheritedParameter
  rw [hentry]
  dsimp only
  rw [hnames, declaresParameter, hid]
  rfl

theorem Operation.notInherited
    (hchild : child ∈ parametersOf (some item.node))
    (hobject : child.label.item ≠ .object) :
    inheritedParameter (visited integral ids material limits root) operation item.node child =
      [] := by
  unfold inheritedParameter
  rw [parameterEntry_none htree h.itemShown hchild hobject]

omit h in
omit htree in
theorem fact_of_declaresResponse {s : State ι φ} {m : List Nat × Node}
    (h : .fact fact ∈ declaresResponse s operation m) : fact.predicate = "declaresResponse" := by
  unfold declaresResponse at h
  split at h
  · cases List.mem_singleton.mp h
    rfl
  · cases h

/-- The parameters of an operation are its own and those it inherits. -/
theorem Operation.facts (hkeys : KeysShown root)
    (hfact : .fact fact ∈ operationCalls (visited integral ids material limits root) operation)
    (hpredicate : fact.predicate = "declaresParameter") :
    (∃ child ∈ parameterObjects operation.node,
      fact = parameterFact ids operation.object.objectId child "DECLARED" []) ∨
    ∃ child ∈ parameterObjects item.node, Known operation.node ∧ Inherits operation.node child ∧
      ∃ parameter, Shown ids material limits root parameter ∧ parameter.node = child ∧
        parameter.object.objectId = parameterId ids child ∧
        fact = parameterFact ids operation.object.objectId child "DERIVED"
          [ids.factId (nameFact operation.object operation.node),
            ids.factId (nameFact item.object item.node),
            ids.factId (nameFact parameter.object child)] := by
  unfold operationCalls at hfact
  rw [h.pathNode htree, Option.map_some] at hfact
  dsimp only at hfact
  rcases List.mem_append.mp hfact with hfact | hfact
  · rcases List.mem_append.mp hfact with hfact | hfact
    · obtain ⟨child, hchild, hfact⟩ := List.mem_flatMap.mp hfact
      rw [h.own htree hkeys hchild] at hfact
      split_ifs at hfact with hobject
      · cases List.mem_singleton.mp hfact
        exact Or.inl ⟨child, mem_parameterObjects.mpr ⟨hchild, hobject⟩, rfl⟩
      · cases hfact
    · obtain ⟨child, hchild, hfact⟩ := List.mem_flatMap.mp hfact
      by_cases hobject : child.label.item = .object
      · obtain ⟨parameter, hshown, hnode, hid, hinherited⟩ :=
          h.inherited integral htree hkeys hchild hobject
        rw [hinherited] at hfact
        split at hfact
        · cases List.mem_singleton.mp hfact
        · next identity hidentity =>
          obtain ⟨hknown, hunknown⟩ := Option.filter_eq_some_iff.mp hidentity
          split_ifs at hfact with hoverridden
          · cases hfact
          · cases List.mem_singleton.mp hfact
            refine Or.inr ⟨child, mem_parameterObjects.mpr ⟨hchild, hobject⟩,
              hasUnknown_iff.mp (by simpa using hunknown),
              ⟨identity, hknown, fun own hown heq => ?_⟩,
              parameter, hshown, hnode, hid, rfl⟩
            exact hoverridden (List.mem_filterMap.mpr ⟨own, hown, heq⟩)
      · rw [h.notInherited htree hchild hobject] at hfact
        cases hfact
  · split at hfact
    · split at hfact
      · obtain ⟨m, -, hfact⟩ := List.mem_flatMap.mp hfact
        rw [fact_of_declaresResponse hfact] at hpredicate
        exact absurd hpredicate (by decide)
      · cases hfact
    · cases hfact

theorem Operation.declares_own (hkeys : KeysShown root)
    (hchild : child ∈ parameterObjects operation.node) :
    .fact (parameterFact ids operation.object.objectId child "DECLARED" []) ∈
      operationCalls (visited integral ids material limits root) operation := by
  obtain ⟨hmem, hobject⟩ := mem_parameterObjects.mp hchild
  refine List.mem_append_left _ (List.mem_append_left _ (List.mem_flatMap.mpr ⟨child, hmem, ?_⟩))
  rw [h.own htree hkeys hmem, if_pos hobject]
  exact List.mem_cons_self

/-- The calls for the parameters of the path item. -/
theorem Operation.mem_inherited
    {call : Call ι φ}
    (hchild : child ∈ parametersOf (some item.node))
    (hcall : call ∈ inheritedParameter (visited integral ids material limits root) operation
      item.node child) :
    call ∈ operationCalls (visited integral ids material limits root) operation := by
  refine List.mem_append_left _ (List.mem_append_right _ ?_)
  rw [h.pathNode htree, Option.map_some]
  exact List.mem_flatMap.mpr ⟨child, hchild, hcall⟩

variable (integral) in
theorem Operation.declares_inherited
    (hkeys : KeysShown root) (hknown : Known operation.node)
    (hchild : child ∈ parameterObjects item.node) (hinherits : Inherits operation.node child) :
    ∃ premises, .fact (parameterFact ids operation.object.objectId child "DERIVED" premises) ∈
      operationCalls (visited integral ids material limits root) operation := by
  obtain ⟨hmem, hobject⟩ := mem_parameterObjects.mp hchild
  obtain ⟨identity, hidentity, hown⟩ := hinherits
  obtain ⟨parameter, -, -, -, hinherited⟩ :=
    h.inherited integral htree hkeys hmem hobject
  have hfree : ¬ identity ∈ (parametersOf (some operation.node)).filterMap parameterIdentity := by
    intro hoverridden
    obtain ⟨own, hmem, heq⟩ := List.mem_filterMap.mp hoverridden
    exact hown own hmem heq
  have hinherit : (!false) = true := rfl
  rw [hidentity, hasUnknown_iff.mpr hknown, Option.filter_some, if_pos hinherit] at hinherited
  dsimp only at hinherited
  rw [if_neg hfree] at hinherited
  exact ⟨_, h.mem_inherited htree hmem (hinherited ▸ List.mem_cons_self)⟩

theorem Operation.unconfirmed (hkeys : KeysShown root) (hchild : child ∈ parameterObjects item.node)
    (hunknown : ¬ Known operation.node ∨ parameterIdentity child = none) :
    .gap "OPENAPI_PARAMETER_INHERITANCE_UNCONFIRMED" (location child) ∈
      operationCalls (visited integral ids material limits root) operation := by
  obtain ⟨hmem, hobject⟩ := mem_parameterObjects.mp hchild
  obtain ⟨parameter, -, -, -, hinherited⟩ :=
    h.inherited integral htree hkeys hmem hobject
  apply h.mem_inherited htree hmem
  have hnone : (parameterIdentity child).filter (fun _ => !hasUnknown operation.node) = none := by
    rcases hunknown with hunknown | hnone
    · rw [← hasUnknown_iff, Bool.not_eq_false] at hunknown
      simp [hunknown]
    · rw [hnone]
      rfl
  rw [hinherited, hnone]
  exact List.mem_cons_self

omit htree

omit h

end Parameters

/-! ## The whole document -/

section Document

variable {ι φ : Type} [DecidableEq ι] {integral : List Nat → Bool} {ids : Ids ι φ}
  {material : Material ι} {limits : Limits} {root child : Node} {e : Entry ι} {text : List Nat}
  {fact : Fact ι φ} {call : Call ι φ} {target : ι}

omit [DecidableEq ι] in
theorem mem_operations (htree : JsonSyntax.Tree text root) :
    e ∈ (visited integral ids material limits root).operations ↔
      Shown ids material limits root e ∧ e.object.kind = .OPENAPI_OPERATION := by
  rw [visited_eq htree, operations_take, List.mem_append, List.mem_filter, mem_entries,
    decide_eq_true_eq]
  exact or_iff_right (List.not_mem_nil)

/-- References that lead nowhere have gaps only. -/
theorem gap_of_resolveReferences {s : State ι φ} (h : call ∈ (resolveReferences s).2) :
    ∃ code anchor, call = .gap code anchor := by
  unfold resolveReferences at h
  generalize hstart : (([], []) : List (ι × Edge ι) × List (Call ι φ)) = start at h
  have hbegin : ∀ c ∈ start.2, ∃ code anchor, c = .gap code anchor := by
    rw [← hstart]
    exact nofun
  clear hstart
  generalize s.references = list at h
  induction list generalizing start with
  | nil => exact hbegin call h
  | cons r list ih =>
    rw [List.foldl_cons] at h
    apply ih _ ?_ h
    obtain ⟨edges, calls⟩ := start
    dsimp only
    split
    · exact hbegin
    · intro c hc
      rcases List.mem_append.mp hc with hc | hc
      · exact hbegin c hc
      · exact ⟨_, _, List.mem_singleton.mp hc⟩

theorem predicate_of_reference {s : State ι φ} (h : .fact fact ∈ referenceCalls s) :
    fact.predicate = "refersTo" := by
  unfold referenceCalls at h
  dsimp only at h
  split at h
  · rcases List.mem_append.mp h with h | h
    · obtain ⟨code, anchor, heq⟩ := gap_of_resolveReferences h
      cases heq
    · cases List.mem_singleton.mp h
  · rcases List.mem_append.mp h with h | h
    · obtain ⟨code, anchor, heq⟩ := gap_of_resolveReferences h
      cases heq
    · obtain ⟨edge, -, heq⟩ := List.mem_map.mp h
      split at heq
      · cases heq
      · cases heq
        rfl

/-- A parameter is attributed by the calls of an operation. -/
theorem operation_of_fact (htree : JsonSyntax.Tree text root)
    (h : .fact fact ∈ extractTree integral ids material limits root)
    (hpredicate : fact.predicate = "declaresParameter") (hsaid : fact.said = .target target) :
    ∃ operation, Shown ids material limits root operation ∧
      operation.object.kind = .OPENAPI_OPERATION ∧
      .fact fact ∈ operationCalls (visited integral ids material limits root) operation := by
  have hplain : ¬ Plain (.fact fact : Call ι φ) := by
    rintro (⟨code, anchor, heq⟩ | heq | ⟨fact, value, heq, hvalue⟩)
    · cases heq
    · cases heq
    · cases heq
      rw [hsaid] at hvalue
      cases hvalue
  unfold extractTree at h
  split at h
  · rcases List.mem_append.mp h with h | h
    · exact absurd (plain_versionGap h) hplain
    · cases List.mem_singleton.mp h
  · dsimp only at h
    rcases List.mem_append.mp h with h | h
    · rcases List.mem_append.mp h with h | h
      · rcases mem_calls_visited htree h with ⟨e, -, heq⟩ | h
        · cases heq
        · exact absurd h hplain
      · obtain ⟨operation, hoperation, h⟩ := List.mem_flatMap.mp h
        obtain ⟨hshown, hkind⟩ := (mem_operations htree).mp hoperation
        exact ⟨operation, hshown, hkind, h⟩
    · rw [predicate_of_reference h] at hpredicate
      exact absurd hpredicate (by decide)

variable (integral) in
/-- The calls of what is shown, and those of the operations, are carried out. -/
theorem calls_of_shown (htree : JsonSyntax.Tree text root)
    (hlimit : overCaseLimit limits root = none) (he : Shown ids material limits root e) :
    (.object e.object ∈ extractTree integral ids material limits root ∧
      .fact (nameFact e.object e.node) ∈ extractTree integral ids material limits root) ∧
    (e.object.kind = .OPENAPI_OPERATION →
      ∀ call ∈ operationCalls (visited integral ids material limits root) e,
        call ∈ extractTree integral ids material limits root) := by
  have hdescribed : ∀ call ∈ [.object e.object, .fact (nameFact e.object e.node)],
      call ∈ extractTree integral ids material limits root := by
    intro call hcall
    unfold extractTree
    rw [hlimit]
    refine List.mem_append_left _ (List.mem_append_left _ ?_)
    rw [visited_eq htree, calls_take]
    refine List.mem_append_right _ (List.mem_flatMap.mpr ⟨.shown e, he, ?_⟩)
    unfold Step.calls describe
    simp only [List.mem_append, List.mem_cons]
    rcases List.mem_cons.mp hcall with rfl | hcall
    · simp
    · rw [List.mem_singleton.mp hcall]
      simp
  refine ⟨⟨hdescribed _ (by simp), hdescribed _ (by simp)⟩, fun hkind call hcall => ?_⟩
  unfold extractTree
  rw [hlimit]
  refine List.mem_append_left _ (List.mem_append_right _ (List.mem_flatMap.mpr ⟨e, ?_, hcall⟩))
  exact (mem_operations htree).mpr ⟨he, hkind⟩

/-- An object is of what is shown. -/
theorem shown_of_object (htree : JsonSyntax.Tree text root) {object : Object ι}
    (h : .object object ∈ extractTree integral ids material limits root) :
    overCaseLimit limits root = none ∧
      ∃ e, Shown ids material limits root e ∧ e.object = object := by
  refine ⟨?_, ?_⟩
  · unfold extractTree at h
    split at h
    · exfalso
      rcases List.mem_append.mp h with h | h
      · exact absurd (plain_containment (plain_versionGap h)).1 (by simp [containmentOf])
      · cases List.mem_singleton.mp h
    · assumption
  · rcases mem_extractTree htree h with ⟨e, he, heq⟩ | haside | hreference
    · cases heq
      exact ⟨e, he, rfl⟩
    · cases haside.1
    · cases (mem_refersTo_calls htree hreference).1

/-! ## Attribution -/

/-- The target is attributed to the subject as a parameter. -/
def Attributed (calls : List (Call ι φ)) (subjectId targetId : ι) : Prop :=
  ∃ fact, .fact fact ∈ calls ∧ fact.predicate = "declaresParameter" ∧
    fact.subjectId = subjectId ∧ fact.said = .target targetId

/-- Where the nodes of an operation and of its path item stand. -/
structure OperationAt (root : Node) (path method : List Nat) (itemNode node : Node) : Prop where
  openapi : isOpenapi root = true
  item : ([codeUnits "paths", path], itemNode) ∈ root.places
  member : (method, node) ∈ itemNode.members
  isObject : node.label.item = .object
  slashed : path.head? = some slash
  isMethod : isMethod (some method) = true

/-- The parameters of an operation, in what is recorded. -/
structure Declares (ids : Ids ι φ) (calls : List (Call ι φ)) (operation : Object ι) (node : Node)
    (pathItem : Object ι) (itemNode : Node) : Prop where
  known : Known node → ∀ targetId, Attributed calls operation.objectId targetId ↔
    (∃ child ∈ parameterObjects node, targetId = parameterId ids child) ∨
      ∃ child ∈ parameterObjects itemNode, Inherits node child ∧
        targetId = parameterId ids child
  unknown : ¬ Known node →
    (∀ targetId, Attributed calls operation.objectId targetId ↔
      ∃ child ∈ parameterObjects node, targetId = parameterId ids child) ∧
    ∀ child ∈ parameterObjects itemNode,
      ¬ Attributed calls operation.objectId (parameterId ids child) ∧
        .gap "OPENAPI_PARAMETER_INHERITANCE_UNCONFIRMED" (location child) ∈ calls
  premises : ∀ fact, .fact fact ∈ calls → fact.predicate = "declaresParameter" →
    fact.subjectId = operation.objectId → ∀ child ∈ parameterObjects itemNode,
      fact.said = .target (parameterId ids child) →
      ∃ parameter, .object parameter ∈ calls ∧ parameter.objectId = parameterId ids child ∧
        fact.premiseFactIds =
          [nameFact operation node, nameFact pathItem itemNode, nameFact parameter child].map
            ids.factId ∧
        ∀ name ∈ [nameFact operation node, nameFact pathItem itemNode, nameFact parameter child],
          .fact name ∈ calls

omit [DecidableEq ι] in
/-- Parameters of one id are one node, at one place. -/
theorem parameterId_inj (htree : JsonSyntax.Tree text root) (htelling : Telling ids material)
    {at_ at_' : List (List Nat) × Node} (hat : at_ ∈ root.places) (hat' : at_' ∈ root.places)
    (h : parameterId ids at_.2 = parameterId ids at_'.2) : at_ = at_' :=
  place_inj htree hat hat' (htelling.pointer h)

variable {operation item item' : Entry ι} {path path' method method' : List Nat} {subjectId : ι}

omit [DecidableEq ι] in
theorem Operation.item_unique
    (h : Operation ids material limits root operation item path method)
    (h' : Operation ids material limits root operation item' path' method')
    (htree : JsonSyntax.Tree text root) : item = item' := by
  apply shown_inj htree h.itemShown h'.itemShown
  have hsegments := h.segments.symm.trans h'.segments
  simp only [List.cons.injEq, and_true, true_and] at hsegments
  rw [h.above, h'.above, hsegments.1]

omit [DecidableEq ι] in
/-- A parameter of the path item is none of the operation's own. -/
theorem Operation.apart (h : Operation ids material limits root operation item path method)
    (htree : JsonSyntax.Tree text root) (htelling : Telling ids material) {own : Node}
    (hown : own ∈ parameterObjects operation.node) (hchild : child ∈ parameterObjects item.node) :
    parameterId ids child ≠ parameterId ids own := by
  intro hid
  obtain ⟨i, hplace⟩ := parameter_place (shown_place h.itemShown) (mem_parameterObjects.mp hchild).1
  obtain ⟨j, hplace'⟩ := parameter_place (shown_place h.shown) (mem_parameterObjects.mp hown).1
  have hpath := (Prod.mk.inj (parameterId_inj htree htelling hplace hplace' hid)).1
  rw [h.segments, h.above] at hpath
  simp at hpath

/-- The fact attributes one of the operation's own parameters, or one that it inherits. -/
def Attributes (ids : Ids ι φ) (material : Material ι) (limits : Limits) (root : Node)
    (operation item : Entry ι) (fact : Fact ι φ) (target : ι) : Prop :=
  (∃ own ∈ parameterObjects operation.node, target = parameterId ids own) ∨
    ∃ child ∈ parameterObjects item.node, Known operation.node ∧
      Inherits operation.node child ∧ target = parameterId ids child ∧
      ∃ parameter, Shown ids material limits root parameter ∧ parameter.node = child ∧
        parameter.object.objectId = parameterId ids child ∧
        fact.premiseFactIds = [ids.factId (nameFact operation.object operation.node),
          ids.factId (nameFact item.object item.node),
          ids.factId (nameFact parameter.object child)]

/-- Whatever is attributed is a parameter of an operation, or one that it inherits. -/
theorem attributed_cases (htree : JsonSyntax.Tree text root) (hkeys : KeysShown root)
    (h : .fact fact ∈ extractTree integral ids material limits root)
    (hpredicate : fact.predicate = "declaresParameter") (hsaid : fact.said = .target target) :
    ∃ operation item path method, Operation ids material limits root operation item path method ∧
      fact.subjectId = operation.object.objectId ∧
      Attributes ids material limits root operation item fact target := by
  obtain ⟨operation, hshown, hkind, hfact⟩ := operation_of_fact htree h hpredicate hsaid
  obtain ⟨item, path, method, hoperation⟩ := operation_of_kind hshown hkind
  refine ⟨operation, item, path, method, hoperation, ?_⟩
  rcases hoperation.facts htree hkeys hfact hpredicate with
    ⟨own, hown, rfl⟩ | ⟨child, hchild, hknown, hinherits, parameter, hparameter, hnode, hid, rfl⟩
  · cases hsaid
    exact ⟨rfl, Or.inl ⟨own, hown, rfl⟩⟩
  · cases hsaid
    exact ⟨rfl, Or.inr ⟨child, hchild, hknown, hinherits, rfl, parameter, hparameter, hnode, hid,
      rfl⟩⟩

theorem Operation.declares (h : Operation ids material limits root operation item path method)
    (htree : JsonSyntax.Tree text root) (hkeys : KeysShown root) (htelling : Telling ids material)
    (hkind : operation.object.kind = .OPENAPI_OPERATION)
    (hlimit : overCaseLimit limits root = none) :
    Declares ids (extractTree integral ids material limits root) operation.object operation.node
      item.object item.node := by
  have hcases : ∀ {fact : Fact ι φ} {target : ι},
      .fact fact ∈ extractTree integral ids material limits root →
      fact.predicate = "declaresParameter" → fact.said = .target target →
      fact.subjectId = operation.object.objectId →
      Attributes ids material limits root operation item fact target := by
    intro fact target hfact hpredicate hsaid hsubject
    obtain ⟨operation', item', path', method', h', hsubject', hcase⟩ :=
      attributed_cases htree hkeys hfact hpredicate hsaid
    obtain rfl := shown_of_objectId htree htelling h'.shown h.shown (hsubject'.symm.trans hsubject)
    obtain rfl := h.item_unique h' htree
    exact hcase
  have hcalls := (calls_of_shown integral htree hlimit h.shown).2 hkind
  have hown : ∀ own ∈ parameterObjects operation.node,
      Attributed (extractTree integral ids material limits root) operation.object.objectId
        (parameterId ids own) :=
    fun own hmem => ⟨_, hcalls _ (h.declares_own htree hkeys hmem), rfl, rfl, rfl⟩
  refine ⟨fun hknown target => ⟨?_, ?_⟩, fun hunknown => ⟨fun target => ⟨?_, ?_⟩,
    fun child hchild => ⟨?_, ?_⟩⟩, fun fact hfact hpredicate hsubject child hchild hsaid => ?_⟩
  · rintro ⟨fact, hfact, hpredicate, hsubject, hsaid⟩
    refine (hcases hfact hpredicate hsaid hsubject).imp_right ?_
    rintro ⟨child, hchild, -, hinherits, htarget, -⟩
    exact ⟨child, hchild, hinherits, htarget⟩
  · rintro (⟨own, hmem, rfl⟩ | ⟨child, hchild, hinherits, rfl⟩)
    · exact hown own hmem
    · obtain ⟨premises, hfact⟩ :=
        h.declares_inherited integral htree hkeys hknown hchild hinherits
      exact ⟨_, hcalls _ hfact, rfl, rfl, rfl⟩
  · rintro ⟨fact, hfact, hpredicate, hsubject, hsaid⟩
    refine (hcases hfact hpredicate hsaid hsubject).resolve_right ?_
    rintro ⟨child, -, hknown, -⟩
    exact hunknown hknown
  · rintro ⟨own, hmem, rfl⟩
    exact hown own hmem
  · rintro ⟨fact, hfact, hpredicate, hsubject, hsaid⟩
    rcases hcases hfact hpredicate hsaid hsubject with ⟨own, hmem, hid⟩ | ⟨_, -, hknown, -⟩
    · exact h.apart htree htelling hmem hchild hid
    · exact hunknown hknown
  · exact hcalls _ (h.unconfirmed htree hkeys hchild (Or.inl hunknown))
  · rcases hcases hfact hpredicate hsaid hsubject with
      ⟨own, hmem, hid⟩ | ⟨child', hchild', -, -, hid, parameter, hshown, rfl, hparameter, hpremises⟩
    · exact absurd hid (h.apart htree htelling hmem hchild)
    · obtain ⟨i, hplace⟩ :=
        parameter_place (shown_place h.itemShown) (mem_parameterObjects.mp hchild).1
      obtain ⟨-, rfl⟩ := Prod.mk.inj
        (parameterId_inj htree htelling hplace (shown_place hshown) hid)
      have hnames : ∀ e, Shown ids material limits root e →
          .object e.object ∈ extractTree integral ids material limits root ∧
          .fact (nameFact e.object e.node) ∈ extractTree integral ids material limits root :=
        fun e he => (calls_of_shown integral htree hlimit he).1
      refine ⟨parameter.object, (hnames _ hshown).1, hparameter, hpremises, fun name hname => ?_⟩
      simp only [List.mem_cons, List.not_mem_nil, or_false] at hname
      rcases hname with rfl | rfl | rfl
      · exact (hnames _ h.shown).2
      · exact (hnames _ h.itemShown).2
      · exact (hnames _ hshown).2

omit [DecidableEq ι] in
variable (ids material limits) in
/-- The operations of the document are shown. -/
theorem OperationAt.shown {node itemNode : Node} (h : OperationAt root path method itemNode node)
    (htree : JsonSyntax.Tree text root) (hkeys : KeysShown root) :
    ∃ operation, Shown ids material limits root operation ∧ operation.node = node ∧
      operation.object.kind = .OPENAPI_OPERATION := by
  obtain ⟨paths, hpaths, hitem⟩ : ∃ paths, (codeUnits "paths", paths) ∈ root.members ∧
      (path, itemNode) ∈ paths.members := by
    rcases KeyedTree.mem_places.mp h.item with heq | ⟨key, paths, below, hpaths, hbelow, heq⟩
    · cases heq
    · cases heq
      rcases KeyedTree.mem_places.mp hbelow with heq | ⟨key, item, below, hitem, hrest, heq⟩
      · cases heq
      · cases heq
        rcases KeyedTree.mem_places.mp hrest with heq | ⟨_, _, _, _, _, heq⟩
        · cases heq
          exact ⟨paths, hpaths, hitem⟩
        · cases heq
  obtain ⟨e₀, hshown₀, hnode₀, hsegments₀⟩ :=
    shown_root ids material limits htree hpaths
  have hpathsNode : ([codeUnits "paths"], paths) ∈ root.places :=
    member_mem_places (self_mem_places root) hpaths
  obtain ⟨e₁, hshown₁, hnode₁, hsegments₁, -⟩ := shown_child hkeys hshown₀ (hnode₀ ▸ hpaths)
    (by rw [hsegments₀]; rfl) (text_of_members htree hpathsNode hitem)
  rw [hsegments₀] at hsegments₁
  have hitem₁ : (path, itemNode) ∈ e₁.node.members := by
    rw [hnode₁]
    exact hitem
  obtain ⟨e₂, hshown₂, hnode₂, hsegments₂, -⟩ := shown_child hkeys hshown₁ hitem₁
    (by rw [hsegments₁]; rfl) (text_of_members htree h.item h.member)
  rw [hsegments₁] at hsegments₂
  have hmember₂ : (method, node) ∈ e₂.node.members := by
    rw [hnode₂]
    exact h.member
  obtain ⟨e₃, hshown₃, hnode₃, -, hobject₃⟩ := shown_child hkeys hshown₂ hmember₂
    (by rw [hsegments₂]; rfl) (by rw [h.isObject]; rfl)
  refine ⟨e₃, hshown₃, hnode₃, ?_⟩
  rw [hobject₃, objectFor, hsegments₂, h.openapi]
  exact kindFor_ofOperation h.isObject h.slashed h.isMethod _

end Document

/-- An operation below a path with one parameter. -/
def inheritedText : List Nat :=
  codeUnits ("\x7b\"openapi\":\"3.0.3\",\"paths\":\x7b\"/a\":\x7b\"parameters\":" ++
    "[\x7b\"name\":\"n\",\"in\":\"query\"\x7d],\"get\":\x7b\x7d\x7d\x7d\x7d")

def plainLimits : Limits :=
  { syntaxLimits := { maxJsonDepth := none, maxJsonNodes := none }, testReports := false
    maxReportCases := none, maxReportFieldBytes := none }

def inheritedRoot : Node :=
  (JsonSyntax.parseJsonSyntax (fun _ => true) inheritedText plainLimits.syntaxLimits).toOption.getD
    (.node { pointer := [], start := 0, stop := 0, item := .null, keySpan := none } [])

end Traqen.JsonStructure
