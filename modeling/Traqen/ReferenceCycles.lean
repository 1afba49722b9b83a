-- The references that close a cycle: the sources of the references whose two ends are in one strong
-- component of the tree with all its references. Without them the references and the containment
-- have no cycle.
import Traqen.JsonVisit
import Traqen.Lib.Reachability

open Js

namespace Traqen.JsonStructure

open JsonSyntax (Node pointerOf_injective slash)
open Relation (ReflTransGen TransGen)
open OrderedMap (get? get?_of_set mem_set)

/-! ## The graph -/

section Links

variable {ι : Type} [DecidableEq ι] {map map' : List (ι × List ι)} {key value a b : ι}
  {nodes edges pairs : List (ι × ι)} {g g' : Graphs ι}

theorem push_some (hkey : (get? map key).isSome = true) (value : ι) :
    ∃ map', push map key value = some map' ∧
      (∀ a, (get? map' a).isSome = (get? map a).isSome) ∧
      ∀ a b, b ∈ neighbours map' a ↔ b ∈ neighbours map a ∨ a = key ∧ b = value := by
  obtain ⟨list, hlist⟩ := Option.isSome_iff_exists.mp hkey
  refine ⟨OrderedMap.set map key (list ++ [value]), by simp [push, hlist], fun a => ?_,
    fun a b => ?_⟩
  · rw [get?_of_set]
    by_cases ha : a = key
    · rw [if_pos ha, ha, hlist]
      rfl
    · rw [if_neg ha]
  · unfold neighbours
    rw [get?_of_set]
    by_cases ha : a = key
    · rw [if_pos ha, ha, hlist]
      simp
    · rw [if_neg ha]
      simp [ha]

/-- The two maps list the same links, between the same ids. -/
structure Holds (ids : List ι) (pairs : List (ι × ι)) (g : Graphs ι) : Prop where
  keys : ∀ a, (get? g.graph a).isSome = true ↔ a ∈ ids
  reverseKeys : ∀ a, (get? g.reverse a).isSome = true ↔ a ∈ ids
  next : ∀ a b, b ∈ neighbours g.graph a ↔ (a, b) ∈ pairs
  prev : ∀ a b, a ∈ neighbours g.reverse b ↔ (a, b) ∈ pairs

theorem get?_empty (ids : List ι) (a : ι) :
    get? (ids.map fun id => (id, ([] : List ι))) a =
      if a ∈ ids then some [] else none := by
  induction ids with
  | nil => rfl
  | cons id ids ih =>
    unfold get? at ih ⊢
    rw [List.map_cons, List.find?_cons]
    by_cases ha : id = a
    · simp [ha]
    · have hother : decide ((id, ([] : List ι)).1 = a) = false := decide_eq_false ha
      rw [hother]
      dsimp only
      rw [ih]
      simp [Ne.symm ha]

theorem holds_empty (ids : List ι) : Holds ids []
    { graph := ids.map fun id => (id, []), reverse := ids.map fun id => (id, []) } := by
  refine ⟨fun a => ?_, fun a => ?_, fun a b => ?_, fun a b => ?_⟩ <;>
    simp only [neighbours, get?_empty] <;> split <;> simp_all

theorem Holds.connect {ids : List ι} (h : Holds ids pairs g) {link : ι × ι}
    (hfrom : link.1 ∈ ids) (hto : link.2 ∈ ids) :
    ∃ g', JsonStructure.connect g link = some g' ∧ Holds ids (pairs ++ [link]) g' := by
  obtain ⟨graph, hgraph, hkeys, hnext⟩ := push_some ((h.keys link.1).mpr hfrom) link.2
  obtain ⟨reverse, hreverse, hrkeys, hprev⟩ := push_some ((h.reverseKeys link.2).mpr hto) link.1
  refine ⟨{ graph, reverse }, by simp [JsonStructure.connect, hgraph, hreverse], ?_⟩
  refine ⟨fun a => ?_, fun a => ?_, fun a b => ?_, fun a b => ?_⟩
  · rw [hkeys, h.keys]
  · rw [hrkeys, h.reverseKeys]
  · rw [hnext, h.next, List.mem_append, List.mem_singleton, Prod.ext_iff]
  · rw [hprev, h.prev, List.mem_append, List.mem_singleton, Prod.ext_iff]
    exact or_congr_right and_comm

/-- All the links. -/
theorem connect_all {ids : List ι} (more : List (ι × ι)) (h : Holds ids pairs g)
    (hends : ∀ link ∈ more, link.1 ∈ ids ∧ link.2 ∈ ids) :
    ∃ g', more.foldlM connect g = some g' ∧ Holds ids (pairs ++ more) g' := by
  induction more generalizing pairs g with
  | nil => exact ⟨g, rfl, by rwa [List.append_nil]⟩
  | cons link more ih =>
    obtain ⟨hfrom, hto⟩ := hends link List.mem_cons_self
    obtain ⟨g₁, hconnect, hholds⟩ := h.connect hfrom hto
    obtain ⟨g₂, hrest, hlast⟩ := ih hholds fun l hl => hends l (List.mem_cons_of_mem link hl)
    refine ⟨g₂, ?_, by simpa using hlast⟩
    rw [List.foldlM_cons, hconnect]
    exact hrest

theorem mem_graphIds : a ∈ graphIds nodes ↔ ∃ n ∈ nodes, n.1 = a := by
  unfold graphIds
  rw [List.mem_map, OrderedMap.key_mem_ofList]
  simp

/-! ## The sources -/

/-- Both ends of a reference are in one component. -/
def OnCycle (nodes edges : List (ι × ι)) (edge : ι × ι) : Prop :=
  ReflTransGen (Graph.Edge (links nodes edges)) edge.1 edge.2 ∧
    ReflTransGen (Graph.Edge (links nodes edges)) edge.2 edge.1

theorem mem_links : (a, b) ∈ links nodes edges ↔
    ((b, a) ∈ nodes ∧ ∃ n ∈ nodes, n.1 = a) ∨ (a, b) ∈ edges := by
  unfold links
  rw [List.mem_append, List.mem_map]
  refine or_congr_left ⟨?_, ?_⟩
  · rintro ⟨n, hn, heq⟩
    obtain ⟨hmem, hparent⟩ := List.mem_filter.mp hn
    obtain ⟨rfl, rfl⟩ := Prod.mk.inj heq
    exact ⟨hmem, mem_graphIds.mp (of_decide_eq_true hparent)⟩
  · rintro ⟨hmem, hparent⟩
    exact ⟨(b, a), List.mem_filter.mpr ⟨hmem, decide_eq_true (mem_graphIds.mpr hparent)⟩, rfl⟩

/-- The search ends, and finds the sources of the references within a component. -/
theorem cyclicReferenceSources_spec
    (hends : ∀ e ∈ edges, (∃ n ∈ nodes, n.1 = e.1) ∧ ∃ n ∈ nodes, n.1 = e.2) :
    ∃ sources, cyclicReferenceSources nodes edges = some sources ∧
      ∀ id, id ∈ sources ↔ ∃ e ∈ edges, e.1 = id ∧ OnCycle nodes edges e := by
  have hlinks : ∀ link ∈ links nodes edges, link.1 ∈ graphIds nodes ∧ link.2 ∈ graphIds nodes := by
    rintro ⟨a, b⟩ hlink
    rw [mem_graphIds, mem_graphIds]
    rcases mem_links.mp hlink with ⟨hnode, hparent⟩ | hedge
    · exact ⟨hparent, _, hnode, rfl⟩
    · exact hends _ hedge
  obtain ⟨g, hg, hholds⟩ := connect_all (links nodes edges) (holds_empty (graphIds nodes)) hlinks
  rw [List.nil_append] at hholds
  have hfollows : FinishingOrder.Follows (neighbours g.graph) =
      Graph.Edge (links nodes edges) := by
    funext a b
    exact propext (hholds.next a b)
  obtain ⟨component, hcomponent, -, hsame⟩ := StrongComponents.components_spec
    (neighbours g.graph) (neighbours g.reverse) (graphIds nodes)
    (fun a b => (hholds.prev b a).trans (hholds.next b a).symm)
    (fun a b hab => hlinks _ ((hholds.next a b).mp hab))
  refine ⟨((edges.filter fun edge => decide (get? component edge.1 =
    get? component edge.2)).map (·.1)).eraseDups, ?_, fun id => ?_⟩
  · unfold cyclicReferenceSources
    simp only [hg, hcomponent, Option.bind_eq_bind, Option.bind_some]
    rfl
  · rw [List.mem_eraseDups, List.mem_map]
    refine exists_congr fun e => ?_
    rw [List.mem_filter, decide_eq_true_eq, and_assoc]
    refine and_congr_right fun he => ?_
    obtain ⟨hfrom, hto⟩ := hends e he
    rw [hsame e.1 (mem_graphIds.mpr hfrom) e.2 (mem_graphIds.mpr hto), and_comm]
    unfold StrongComponents.Mutual OnCycle
    rw [hfollows]

end Links

/-! ## The facts -/

section Facts

variable {ι φ : Type} {integral : List Nat → Bool} {ids : Ids ι φ} {material : Material ι}
  {limits : Limits} {root : Node} {e e' : Entry ι} {text : List Nat} {call : Call ι φ} {a b : ι}

/-- From the parent of an object that is added to the object. -/
def containmentOf : Call ι φ → Option (ι × ι)
  | .object object => some (object.parentId, object.objectId)
  | _ => none

def containment (calls : List (Call ι φ)) : List (ι × ι) := calls.filterMap containmentOf

/-- From the subject of a `refersTo` fact to its target. -/
def refersToOf : Call ι φ → Option (ι × ι)
  | .fact fact =>
    match fact.said with
    | .target targetId =>
      if fact.predicate = "refersTo" then some (fact.subjectId, targetId) else none
    | .value _ => none
  | _ => none

def refersTo (calls : List (Call ι φ)) : List (ι × ι) := calls.filterMap refersToOf

theorem plain_containment (h : Plain call) :
    containmentOf call = none ∧ refersToOf call = none := by
  rcases h with ⟨code, anchor, rfl⟩ | rfl | ⟨fact, value, rfl, hsaid⟩
  · exact ⟨rfl, rfl⟩
  · exact ⟨rfl, rfl⟩
  · exact ⟨rfl, by simp only [refersToOf, hsaid]⟩

/-- A call that neither adds an object nor is of a reference. -/
def Aside (call : Call ι φ) : Prop := containmentOf call = none ∧ refersToOf call = none

theorem aside_declaresParameter {operation target : Object ι} {child : Node} {basis : String}
    {premises : List φ} :
    Aside (declaresParameter operation target child basis premises) := by
  refine ⟨rfl, ?_⟩
  simp [refersToOf, declaresParameter]

theorem aside_operation {s : State ι φ} {operation : Entry ι}
    (h : call ∈ operationCalls s operation) : Aside call := by
  unfold operationCalls at h
  rcases List.mem_append.mp h with h | h
  · rcases List.mem_append.mp h with h | h
    · obtain ⟨child, -, h⟩ := List.mem_flatMap.mp h
      unfold ownParameter at h
      split at h
      · rw [List.mem_singleton.mp h]
        exact aside_declaresParameter
      · cases h
    · split at h
      · obtain ⟨child, -, h⟩ := List.mem_flatMap.mp h
        unfold inheritedParameter at h
        split at h
        · cases h
        · split at h
          · rw [List.mem_singleton.mp h]
            exact plain_containment (plain_gap _ _)
          · split at h
            · cases h
            · rw [List.mem_singleton.mp h]
              exact aside_declaresParameter
      · cases h
  · split at h
    · split at h
      · obtain ⟨child, -, h⟩ := List.mem_flatMap.mp h
        unfold declaresResponse at h
        split at h
        · rw [List.mem_singleton.mp h]
          exact plain_containment (plain_textFact _ _ _ _)
        · cases h
      · cases h
    · cases h

variable [DecidableEq ι]

/-- An edge leads from what is shown to what is shown. -/
def Between (ids : Ids ι φ) (material : Material ι) (limits : Limits) (root : Node)
    (edge : Edge ι) : Prop :=
  (∃ e, Shown ids material limits root e ∧ e.object.objectId = edge.sourceId) ∧
    ∃ e, Shown ids material limits root e ∧ e.object.objectId = edge.targetId

variable (htree : JsonSyntax.Tree text root)
include htree

variable (integral ids material limits) in
/-- The references that are resolved, and calls of gaps. -/
theorem resolveReferences_spec :
    (∀ e ∈ (resolveReferences (visited integral ids material limits root)).1,
      Between ids material limits root e.2) ∧
    ∀ call ∈ (resolveReferences (visited integral ids material limits root)).2, Aside call := by
  have hshown : ∀ r ∈ (visited integral ids material limits root).references,
      ∃ e, Shown ids material limits root e ∧ r.object = e.object := by
    intro r hr
    rw [visited_eq htree] at hr
    rcases references_take hr with hr | hr
    · cases hr
    · exact hr
  unfold resolveReferences
  generalize hstart : (([], []) : List (ι × Edge ι) × List (Call ι φ)) = start
  have hbegin : (∀ e ∈ start.1, Between ids material limits root e.2) ∧
      ∀ call ∈ start.2, Aside call := by
    rw [← hstart]
    exact ⟨nofun, nofun⟩
  clear hstart
  generalize hlist : (visited integral ids material limits root).references = list at hshown
  clear hlist
  induction list generalizing start with
  | nil => exact hbegin
  | cons r list ih =>
    rw [List.foldl_cons]
    apply ih _ _ fun r' hr' => hshown r' (List.mem_cons_of_mem r hr')
    obtain ⟨edges, calls⟩ := start
    dsimp only
    split
    · next edge hedge =>
      refine ⟨fun e he => ?_, hbegin.2⟩
      rcases mem_set he with rfl | he
      · obtain ⟨source, hsource, hobject⟩ := hshown r List.mem_cons_self
        unfold resolveReference at hedge
        split at hedge
        · cases hedge
        · split at hedge
          · cases hedge
          · split at hedge
            · cases hedge
            · split at hedge
              · cases hedge
              · next target htarget =>
                cases hedge
                exact ⟨⟨source, hsource, by rw [hobject]⟩,
                  target, (shown_of_get? htree htarget).1, rfl⟩
      · exact hbegin.1 e he
    · next code hcode =>
      refine ⟨hbegin.1, fun call hcall => ?_⟩
      rcases List.mem_append.mp hcall with hcall | hcall
      · exact hbegin.2 call hcall
      · rw [List.mem_singleton.mp hcall]
        exact plain_containment (plain_gap _ _)

/-- The objects of what is shown, with their parents. -/
def parentLinks (s : State ι φ) : List (ι × ι) :=
  s.nodes.map fun e => (e.2.object.objectId, e.2.object.parentId)

def edgeLinks (s : State ι φ) : List (ι × ι) :=
  (resolveReferences s).1.map fun e => (e.2.sourceId, e.2.targetId)

omit [DecidableEq ι] in
theorem mem_parentLinks {n : ι × ι} : n ∈ parentLinks (visited integral ids material limits root) ↔
      ∃ e, Shown ids material limits root e ∧
        n = (e.object.objectId, e.object.parentId) := by
  unfold parentLinks
  rw [List.mem_map]
  constructor
  · rintro ⟨⟨q, e⟩, he, rfl⟩
    exact ⟨e, (mem_nodes_visited integral htree).mp ⟨q, he⟩, rfl⟩
  · rintro ⟨e, he, rfl⟩
    obtain ⟨q, hq⟩ := (mem_nodes_visited integral htree).mpr he
    exact ⟨(q, e), hq, rfl⟩

/-- The facts of the references: along edges that lie on no cycle. -/
theorem mem_refersTo_calls
    (hcall : call ∈ referenceCalls (visited integral ids material limits root)) :
    containmentOf call = none ∧ ∀ link, refersToOf call = some link →
      link ∈ edgeLinks (visited integral ids material limits root) ∧
      ¬ OnCycle (parentLinks (visited integral ids material limits root))
        (edgeLinks (visited integral ids material limits root)) link := by
  obtain ⟨hedges, hgaps⟩ := resolveReferences_spec integral ids material limits htree
  have hends : ∀ l ∈ edgeLinks (visited integral ids material limits root),
      (∃ n ∈ parentLinks (visited integral ids material limits root), n.1 = l.1) ∧
        ∃ n ∈ parentLinks (visited integral ids material limits root), n.1 = l.2 := by
    intro l hl
    obtain ⟨e, he, rfl⟩ := List.mem_map.mp hl
    obtain ⟨⟨source, hsource, hsourceId⟩, target, htarget, htargetId⟩ := hedges e he
    exact ⟨⟨_, (mem_parentLinks htree).mpr ⟨source, hsource, rfl⟩, hsourceId⟩,
      _, (mem_parentLinks htree).mpr ⟨target, htarget, rfl⟩, htargetId⟩
  obtain ⟨cyclic, hcyclic, hmem⟩ := cyclicReferenceSources_spec hends
  have hnone : ∀ {c : Call ι φ}, Aside c → containmentOf c = none ∧ ∀ link,
      refersToOf c = some link → link ∈ edgeLinks (visited integral ids material limits root) ∧
        ¬ OnCycle (parentLinks (visited integral ids material limits root))
          (edgeLinks (visited integral ids material limits root)) link := by
    rintro c ⟨hfirst, hsecond⟩
    refine ⟨hfirst, fun link hlink => ?_⟩
    rw [hsecond] at hlink
    cases hlink
  unfold referenceCalls at hcall
  unfold parentLinks edgeLinks at hcyclic
  dsimp only at hcall
  rw [hcyclic] at hcall
  rcases List.mem_append.mp hcall with hcall | hcall
  · exact hnone (hgaps call hcall)
  · obtain ⟨edge, hedge, rfl⟩ := List.mem_map.mp hcall
    split
    · exact hnone (plain_containment (plain_gap _ _))
    · next hfree =>
      refine ⟨rfl, fun link hlink => ?_⟩
      cases hlink
      have hlisted : (edge.2.sourceId, edge.2.targetId) ∈
          edgeLinks (visited integral ids material limits root) := List.mem_map_of_mem hedge
      exact ⟨hlisted, fun hcycle => hfree ((hmem _).mpr ⟨_, hlisted, rfl, hcycle⟩)⟩

/-! ## No cycle -/

/-- An object id tells the pointer of its anchor, and is not the id of the material's root. -/
structure Telling (ids : Ids ι φ) (material : Material ι) : Prop where
  pointer : ∀ {kind kind' : ObjectKind} {p p' : List Nat} {start stop start' stop' : Nat},
    ids.objectId kind (.pointer p start stop) = ids.objectId kind' (.pointer p' start' stop') →
      p = p'
  root : ∀ kind anchor, ids.objectId kind anchor ≠ material.rootId

omit [DecidableEq ι] in
theorem shown_of_objectId (htelling : Telling ids material)
    (he : Shown ids material limits root e) (he' : Shown ids material limits root e')
    (h : e.object.objectId = e'.object.objectId) : e = e' := by
  rw [shown_objectId he, shown_objectId he'] at h
  have hpointer : e.node.label.pointer = e'.node.label.pointer := htelling.pointer h
  rw [shown_pointer htree he, shown_pointer htree he'] at hpointer
  exact shown_inj htree he he' (pointerOf_injective hpointer)

omit [DecidableEq ι] in
omit htree in
theorem shown_ne_root (htelling : Telling ids material) (he : Shown ids material limits root e) :
    e.object.objectId ≠ material.rootId := by
  rw [shown_objectId he]
  exact htelling.root _ _

/-- A link of the containment: to what is shown, from the root of the material or from what is
nearer. -/
structure Contains (ids : Ids ι φ) (material : Material ι) (limits : Limits) (root : Node)
    (a b : ι) : Prop where
  child : ∃ e, Shown ids material limits root e ∧ e.object.objectId = b ∧
    e.object.parentId = a ∧
    (a = material.rootId ∨ ∃ e', Shown ids material limits root e' ∧ e'.object.objectId = a ∧
      e'.segments.length < e.segments.length)

omit [DecidableEq ι] in
/-- A way along the containment leads on to what is further. -/
theorem contains_further (htelling : Telling ids material)
    (h : TransGen (Contains ids material limits root) a b) :
    ∃ e, Shown ids material limits root e ∧ e.object.objectId = b ∧
      (a = material.rootId ∨ ∃ e', Shown ids material limits root e' ∧ e'.object.objectId = a ∧
        e'.segments.length < e.segments.length) := by
  induction h using TransGen.head_induction_on with
  | single hstep =>
    obtain ⟨e, he, hb, -, hparent⟩ := hstep
    exact ⟨e, he, hb, hparent⟩
  | head hstep _ ih =>
    obtain ⟨e, he, hb, hroot | ⟨e', he', hc, hless⟩⟩ := ih
    · obtain ⟨c, hc, hid, -, -⟩ := hstep
      exact absurd (hid.trans hroot) (shown_ne_root htelling hc)
    · obtain ⟨c, hshown, hid, -, hparent⟩ := hstep
      obtain rfl := shown_of_objectId htree htelling hshown he' (hid.trans hc.symm)
      refine ⟨e, he, hb, hparent.imp_right ?_⟩
      rintro ⟨e'', he'', ha, hless'⟩
      exact ⟨e'', he'', ha, hless'.trans hless⟩

omit [DecidableEq ι] in
theorem contains_acyclic (htelling : Telling ids material) :
    ¬ TransGen (Contains ids material limits root) a a := by
  intro h
  obtain ⟨e, he, rfl, hroot | ⟨e', he', hid, hless⟩⟩ := contains_further htree htelling h
  · exact shown_ne_root htelling he hroot
  · obtain rfl := shown_of_objectId htree htelling he' he hid
    exact Nat.lt_irrefl _ hless

/-- The calls of a document that is read. -/
theorem mem_extractTree (hcall : call ∈ extractTree integral ids material limits root) :
    (∃ e, Shown ids material limits root e ∧ call = .object e.object) ∨ Aside call ∨
      call ∈ referenceCalls (visited integral ids material limits root) := by
  unfold extractTree at hcall
  split at hcall
  · refine Or.inr (Or.inl ?_)
    rcases List.mem_append.mp hcall with hcall | hcall
    · exact plain_containment (plain_versionGap hcall)
    · rw [List.mem_singleton.mp hcall]
      exact plain_containment (plain_gap _ _)
  · dsimp only at hcall
    rcases List.mem_append.mp hcall with hcall | hcall
    · rcases List.mem_append.mp hcall with hcall | hcall
      · exact (mem_calls_visited htree hcall).imp_right fun h => Or.inl (plain_containment h)
      · obtain ⟨operation, -, hcall⟩ := List.mem_flatMap.mp hcall
        exact Or.inr (Or.inl (aside_operation hcall))
    · exact Or.inr (Or.inr hcall)

/-- The containment and the references of a document have no cycle. -/
theorem extractTree_acyclic (htelling : Telling ids material) :
    Graph.Acyclic (containment (extractTree integral ids material limits root) ++
      refersTo (extractTree integral ids material limits root)) := by
  set calls := extractTree integral ids material limits root with hcalls
  set s := visited integral ids material limits root with hs
  have hcontains : ∀ {a b}, (a, b) ∈ containment calls → Contains ids material limits root a b := by
    intro a b hlink
    obtain ⟨call, hcall, hof⟩ := List.mem_filterMap.mp hlink
    rcases mem_extractTree htree hcall with ⟨e, he, rfl⟩ | haside | hreference
    · cases hof
      refine ⟨e, he, rfl, rfl, ?_⟩
      refine (shown_parent he).imp_right ?_
      rintro ⟨e', he', hid, hless⟩
      exact ⟨e', he', hid.symm, hless⟩
    · rw [haside.1] at hof
      cases hof
    · rw [(mem_refersTo_calls htree hreference).1] at hof
      cases hof
  have hrefers : ∀ {a b}, (a, b) ∈ refersTo calls → (a, b) ∈ edgeLinks s ∧
      ¬ OnCycle (parentLinks s) (edgeLinks s) (a, b) := by
    intro a b hlink
    obtain ⟨call, hcall, hof⟩ := List.mem_filterMap.mp hlink
    rcases mem_extractTree htree hcall with ⟨e, he, rfl⟩ | haside | hreference
    · cases hof
    · rw [haside.2] at hof
      cases hof
    · exact (mem_refersTo_calls htree hreference).2 _ hof
  have htarget : ∀ {a b}, Graph.Edge (containment calls ++ refersTo calls) a b →
      b ≠ material.rootId := by
    intro a b hedge
    rcases List.mem_append.mp hedge with hlink | hlink
    · obtain ⟨e, he, rfl, -⟩ := hcontains hlink
      exact shown_ne_root htelling he
    · obtain ⟨edge, hedge, heq⟩ := List.mem_map.mp (hrefers hlink).1
      obtain ⟨-, e, he, hid⟩ := (resolveReferences_spec integral ids material limits htree).1 edge hedge
      rw [← (Prod.mk.inj heq).2, ← hid]
      exact shown_ne_root htelling he
  have hlinked : ∀ {a b}, a ≠ material.rootId →
      Graph.Edge (containment calls ++ refersTo calls) a b →
      Graph.Edge (links (parentLinks s) (edgeLinks s)) a b := by
    intro a b hroot hedge
    apply mem_links.mpr
    rcases List.mem_append.mp hedge with hlink | hlink
    · obtain ⟨e, he, rfl, rfl, hparent⟩ := hcontains hlink
      obtain ⟨e', he', hid, -⟩ := hparent.resolve_left hroot
      exact Or.inl ⟨(mem_parentLinks htree).mpr ⟨e, he, rfl⟩,
        _, (mem_parentLinks htree).mpr ⟨e', he', rfl⟩, hid⟩
    · exact Or.inr (hrefers hlink).1
  have hway : ∀ {a b}, a ≠ material.rootId →
      ReflTransGen (Graph.Edge (containment calls ++ refersTo calls)) a b →
      b ≠ material.rootId ∧
        ReflTransGen (Graph.Edge (links (parentLinks s) (edgeLinks s))) a b := by
    intro a b hroot hreach
    induction hreach with
    | refl => exact ⟨hroot, .refl⟩
    | tail _ hstep ih => exact ⟨htarget hstep, ih.2.tail (hlinked ih.1 hstep)⟩
  intro a hcycle
  rcases Graph.transGen_append_or hcycle with hcontained | ⟨⟨source, target⟩, hlink, hto, hfrom⟩
  · exact contains_acyclic htree htelling
      (TransGen.mono (fun x y hxy => hcontains hxy) _ _ hcontained)
  · -- a reference on the cycle closes it, and such a reference makes no fact
    have hroot : target ≠ material.rootId :=
      htarget (List.mem_append_right _ hlink : Graph.Edge _ source target)
    obtain ⟨hedge, hfree⟩ := hrefers hlink
    exact hfree ⟨.single (mem_links.mpr (Or.inr hedge)), (hway hroot (hfrom.trans hto)).2⟩

omit htree

/-! ## References and cycles -/

omit [DecidableEq ι] in
theorem acyclic_of_nil {calls : List (Call ι φ)} (hcalls : ∀ call ∈ calls, Aside call) :
    Graph.Acyclic (containment calls ++ refersTo calls) := by
  have hcontainment : containment calls = [] :=
    List.filterMap_eq_nil_iff.mpr fun call hcall => (hcalls call hcall).1
  have hrefersTo : refersTo calls = [] :=
    List.filterMap_eq_nil_iff.mpr fun call hcall => (hcalls call hcall).2
  rw [hcontainment, hrefersTo]
  intro a hcycle
  obtain ⟨b, -, hlast⟩ := TransGen.tail'_iff.mp hcycle
  cases hlast

/-- The same of a text, whatever it is. -/
theorem extractJsonStructure_acyclic (htelling : Telling ids material)
    (representable : List Nat → Bool) (text : List Nat) :
    Graph.Acyclic (containment (extractJsonStructure integral ids material limits representable
        text) ++
      refersTo (extractJsonStructure integral ids material limits representable text)) := by
  unfold extractJsonStructure
  split
  · next root hroot => exact extractTree_acyclic (tree_of_ok hroot) htelling
  · apply acyclic_of_nil
    intro call hcall
    rw [List.mem_singleton.mp hcall]
    exact plain_containment (plain_gap _ _)
  · apply acyclic_of_nil
    intro call hcall
    rw [List.mem_singleton.mp hcall]
    exact plain_containment (Or.inr (Or.inl rfl))

/-- The search ends with the sources of the references whose ends are in one component, and what is
recorded of a text has no cycle. -/
theorem reference_cycles (integral : List Nat → Bool) (ids : Ids ι φ) (material : Material ι)
    (htelling : Telling ids material) :
    (∀ nodes edges : List (ι × ι),
      (∀ e ∈ edges, (∃ n ∈ nodes, n.1 = e.1) ∧ ∃ n ∈ nodes, n.1 = e.2) →
      ∃ sources, cyclicReferenceSources nodes edges = some sources ∧
        ∀ id, id ∈ sources ↔ ∃ e ∈ edges, e.1 = id ∧ OnCycle nodes edges e) ∧
    ∀ (limits : Limits) (representable : List Nat → Bool) (text : List Nat),
      Graph.Acyclic
        (containment (extractJsonStructure integral ids material limits representable text) ++
          refersTo (extractJsonStructure integral ids material limits representable text)) :=
  ⟨fun _ _ hends => cyclicReferenceSources_spec hends,
    fun _ representable text => extractJsonStructure_acyclic htelling representable text⟩

end Facts

/-- From node 2 to its sibling, and from node 3 back to the node above it. -/
example : cyclicReferenceSources [(1, 0), (2, 1), (3, 2), (4, 1)] [(2, 4), (3, 1)] = some [3] := by
  decide

/-- The ids are the kinds and the anchors themselves. -/
def plainIds : Ids (Option (ObjectKind × Anchor)) Unit :=
  { objectId := fun kind anchor => some (kind, anchor), factId := fun _ => () }

def plainMaterial : Material (Option (ObjectKind × Anchor)) :=
  { rootId := none, reportBundleId := none }

/-- Two schemas that refer to each other. -/
def mutualSchemas : List Nat :=
  codeUnits "\x7b\"openapi\":\"3.0.3\",\"a\":\x7b\"$ref\":\"#/b\"\x7d,\"b\":\x7b\"$ref\":\"#/a\"\x7d\x7d"

/-- The id of a schema at the root. -/
def schemaId (name : Nat) : Option (ObjectKind × Anchor) :=
  some (.JSON_OBJECT, .pointer [slash, name] 0 0)

theorem reference_cycles_mutual :
    (∃ sources, cyclicReferenceSources [(schemaId 0x61, none), (schemaId 0x62, none)]
        [(schemaId 0x61, schemaId 0x62), (schemaId 0x62, schemaId 0x61)] = some sources ∧
      schemaId 0x61 ∈ sources) ∧
    Graph.Acyclic
      (containment (extractJsonStructure (fun _ => false) plainIds plainMaterial
          { syntaxLimits := { maxJsonDepth := none, maxJsonNodes := none }, testReports := false
            maxReportCases := none, maxReportFieldBytes := none } (fun _ => true) mutualSchemas) ++
        refersTo (extractJsonStructure (fun _ => false) plainIds plainMaterial
          { syntaxLimits := { maxJsonDepth := none, maxJsonNodes := none }, testReports := false
            maxReportCases := none, maxReportFieldBytes := none } (fun _ => true)
          mutualSchemas)) := by
  have htelling : Telling plainIds plainMaterial := by
    refine ⟨fun h => ?_, fun _ _ => nofun⟩
    cases h
    rfl
  obtain ⟨hsources, htexts⟩ := reference_cycles (fun _ => false) plainIds plainMaterial htelling
  refine ⟨?_, htexts _ _ _⟩
  obtain ⟨sources, hfound, hmem⟩ := hsources [(schemaId 0x61, none), (schemaId 0x62, none)]
    [(schemaId 0x61, schemaId 0x62), (schemaId 0x62, schemaId 0x61)] (by simp)
  refine ⟨sources, hfound, (hmem _).mpr ⟨_, List.mem_cons_self, rfl, .single ?_, .single ?_⟩⟩
  · exact List.mem_append_right _ List.mem_cons_self
  · exact List.mem_append_right _ (List.mem_cons_of_mem _ List.mem_cons_self)

end Traqen.JsonStructure
