-- The evidence boundary of Reverse Skills: what an accepted artifact bundle rests on was
-- selected by the task scope of its input package, and its references stay inside it.
import Traqen.ReverseSkill

open Js

namespace Traqen.ReverseSkill

open ExecutionEvidence (requireObject requireObject_ok)
open Facts (FactBundle FactNode FactEdge)

/-! ## What a task scope selects -/

/-- The texts of a list of the task scope. -/
def textsOf (v : Option Json) : List String :=
  (itemsOf v).filterMap fun item =>
    match item with
    | .str s => some s
    | _ => none

def scopeOf (input : Option Json) : TaskScope where
  artifacts := textsOf (field (field input "taskScope") "artifacts")
  nodeIds := textsOf (field (field input "taskScope") "nodeIds")
  nodeTypes := textsOf (field (field input "taskScope") "nodeTypes")
  modules := textsOf (field (field input "taskScope") "modules")

section Selection

variable {dateParse : String → Option Int} (factBundles : List (FactBundle dateParse))
  (scope : TaskScope)

def ListedNode (n : FactNode) : Prop := ∃ b ∈ factBundles, n ∈ b.nodes

def ListedEdge (e : FactEdge) : Prop := ∃ b ∈ factBundles, e ∈ b.edges

/-- A module node that the scope names. -/
structure NamedModule (m : FactNode) : Prop where
  listed : ListedNode factBundles m
  type : m.type = .str "MODULE"
  named : ∃ name ∈ scope.modules, name = m.id ∨ name = m.name ∨ name = m.naturalKey

/-- The node is a named module, or an edge of containment leads from one to it. -/
def InModule (n : FactNode) : Prop :=
  ∃ m, NamedModule factBundles scope m ∧ (n.id = m.id ∨
    ∃ e, ListedEdge factBundles e ∧
      (∃ name ∈ ["CONTAINS", "CONTROLLED_BY", "DEPENDS_ON"], e.predicate = .str name) ∧
      e.subjectId = m.id ∧ e.objectId = n.id)

/-- A node of the fact bundles that meets every dimension that the scope gives. -/
structure SelectedNode (n : FactNode) : Prop where
  listed : ListedNode factBundles n
  artifact : scope.artifacts ≠ [] → n.source.artifact ∈ scope.artifacts
  nodeId : scope.nodeIds ≠ [] → n.id ∈ scope.nodeIds
  nodeType : scope.nodeTypes ≠ [] → ∃ type ∈ scope.nodeTypes, n.type = .str type
  module : scope.modules ≠ [] → InModule factBundles scope n

/-- An id of a selected fact: an edge needs both its endpoints selected. -/
inductive ScopeSelects : String → Prop
  | node {n : FactNode} (selected : SelectedNode factBundles scope n) : ScopeSelects n.factId
  | edge {e : FactEdge} (listed : ListedEdge factBundles e)
    (subject : ∃ n, SelectedNode factBundles scope n ∧ n.id = e.subjectId)
    (object : ∃ n, SelectedNode factBundles scope n ∧ n.id = e.objectId) : ScopeSelects e.id

end Selection

/-! ## The input package -/

variable {name : String}

section Package

variable {dateParse : String → Option Int} {factBundles : List (FactBundle dateParse)}
  {scope : TaskScope}

theorem uniqueStrings_ok {v : Option Json} {allowEmpty : Bool} {texts : List String}
    (h : uniqueStrings v name allowEmpty = .ok texts) :
    v = some (.arr (texts.map .str)) ∧ texts.Nodup := by
  unfold uniqueStrings typeError at h
  split at h
  · rename_i items
    split at h
    · cases h
    · obtain ⟨result, hresult, h⟩ := bind_ok h
      split at h
      · cases h
      · rename_i hnodup
        cases h
        refine ⟨?_, (OrderedMap.nodup_iff_size _).mp (not_not.mp hnodup)⟩
        have hitems := mapM_ok_map (g := Json.str) (k := fun x : Json × Nat => x.1) hresult (by
          intro x text htext
          have hsome := (requireNonEmptyString_ok htext).1
          rw [Option.some.injEq] at hsome
          exact hsome.symm)
        rw [hitems]
        simp
  · cases h

theorem textsOf_map (texts : List String) : textsOf (some (.arr (texts.map .str))) = texts := by
  unfold textsOf itemsOf
  induction texts with
  | nil => rfl
  | cons text texts ih => simp

theorem scopeList_ok {fields : List (String × Json)} {texts : List String}
    (h : scopeList fields name = .ok texts) : texts = textsOf (fields.lookup name) := by
  unfold scopeList at h
  obtain ⟨hv, _⟩ := uniqueStrings_ok h
  cases hlookup : fields.lookup name with
  | none =>
    rw [hlookup] at hv
    cases texts with
    | nil => rfl
    | cons t ts => simp [nullish] at hv
  | some v =>
    rw [hlookup] at hv
    cases v with
    | null =>
      cases texts with
      | nil => rfl
      | cons t ts => simp [nullish] at hv
    | _ =>
      unfold nullish at hv
      rw [hv, textsOf_map]

/-- The package works with the scope that it was given. -/
theorem normalizeTaskScope_ok {input : Option Json} {t : TaskScope}
    (h : normalizeTaskScope (field input "taskScope") = .ok t) : t = scopeOf input := by
  unfold normalizeTaskScope at h
  obtain ⟨fields, hfields, h⟩ := bind_ok h
  have hobject := requireObject_ok hfields
  have hlookup : ∀ name, field (field input "taskScope") name = fields.lookup name := by
    intro name
    unfold nullish at hobject
    split at hobject
    · rename_i hnone
      cases hobject
      rw [hnone]
      rfl
    · rename_i hnull
      cases hobject
      rw [hnull]
      rfl
    · rename_i hsome
      rw [hsome, hobject]
      rfl
  split at h
  · cases h
  · obtain ⟨artifacts, hartifacts, h⟩ := bind_ok h
    obtain ⟨nodeIds, hnodeIds, h⟩ := bind_ok h
    obtain ⟨modules, hmodules, h⟩ := bind_ok h
    obtain ⟨nodeTypes, hnodeTypes, h⟩ := bind_ok h
    obtain ⟨_, _, h⟩ := bind_ok h
    cases h
    unfold scopeOf
    rw [hlookup, hlookup, hlookup, hlookup, ← scopeList_ok hartifacts, ← scopeList_ok hnodeIds,
      ← scopeList_ok hmodules, ← scopeList_ok hnodeTypes]

theorem listedNode_iff {n : FactNode} :
    n ∈ factBundles.flatMap (·.nodes) ↔ ListedNode factBundles n := List.mem_flatMap

theorem listedEdge_iff {e : FactEdge} :
    e ∈ factBundles.flatMap (·.edges) ↔ ListedEdge factBundles e := List.mem_flatMap

theorem namedModule_of_mem {m : FactNode}
    (h : m ∈ moduleNodes scope (factBundles.flatMap (·.nodes))) :
    NamedModule factBundles scope m := by
  unfold moduleNodes at h
  obtain ⟨hlisted, hmatch⟩ := List.mem_filter.mp h
  rw [Bool.and_eq_true, List.any_eq_true] at hmatch
  obtain ⟨htype, name, hname, hrefs⟩ := hmatch
  refine ⟨listedNode_iff.mp hlisted, ?_, name, hname, ?_⟩
  · exact Option.some.inj (eq_of_strictEq htype)
  · simpa [moduleRefs] using hrefs

theorem inModule_of_member {n : FactNode}
    (h : n.id ∈ moduleMemberIds scope (factBundles.flatMap (·.nodes))
      (factBundles.flatMap (·.edges))) : InModule factBundles scope n := by
  unfold moduleMemberIds at h
  rcases List.mem_append.mp h with h | h
  · obtain ⟨m, hm, hid⟩ := List.mem_map.mp h
    exact ⟨m, namedModule_of_mem hm, Or.inl hid.symm⟩
  · obtain ⟨e, he, hobject⟩ := List.mem_map.mp h
    obtain ⟨hlisted, hmatch⟩ := List.mem_filter.mp he
    rw [Bool.and_eq_true, decide_eq_true_eq] at hmatch
    obtain ⟨m, hm, hsubject⟩ := List.mem_map.mp hmatch.2
    refine ⟨m, namedModule_of_mem hm, Or.inr ⟨e, listedEdge_iff.mp hlisted, ?_, hsubject.symm,
      hobject⟩⟩
    obtain ⟨name, hname, heq⟩ := List.any_eq_true.mp hmatch.1
    exact ⟨name, hname, Option.some.inj (eq_of_strictEq heq)⟩

theorem selectedNode_of_mem {n : FactNode}
    (h : n ∈ selectedNodes scope (factBundles.flatMap (·.nodes)) (factBundles.flatMap (·.edges))) :
    SelectedNode factBundles scope n := by
  unfold selectedNodes selectsNode at h
  obtain ⟨hlisted, hmatch⟩ := List.mem_filter.mp h
  simp only [Bool.and_eq_true, Bool.or_eq_true, List.isEmpty_iff, decide_eq_true_eq,
    List.any_eq_true] at hmatch
  obtain ⟨⟨⟨hartifact, hnodeId⟩, hnodeType⟩, hmodule⟩ := hmatch
  refine ⟨listedNode_iff.mp hlisted, hartifact.resolve_left, hnodeId.resolve_left, ?_, ?_⟩
  · intro hne
    obtain ⟨type, htype, heq⟩ := hnodeType.resolve_left hne
    exact ⟨type, htype, Option.some.inj (eq_of_strictEq heq)⟩
  · intro hne
    exact inModule_of_member (hmodule.resolve_left hne)

theorem selects_edge {e : FactEdge}
    (h : e ∈ selectedEdges scope (factBundles.flatMap (·.nodes)) (factBundles.flatMap (·.edges))) :
    ScopeSelects factBundles scope e.id := by
  unfold selectedEdges at h
  obtain ⟨hlisted, hends⟩ := List.mem_filter.mp h
  rw [Bool.and_eq_true, decide_eq_true_eq, decide_eq_true_eq] at hends
  obtain ⟨n, hn, hsubject⟩ := List.mem_map.mp hends.1
  obtain ⟨m, hm, hobject⟩ := List.mem_map.mp hends.2
  exact .edge (listedEdge_iff.mp hlisted) ⟨n, selectedNode_of_mem hn, hsubject⟩
    ⟨m, selectedNode_of_mem hm, hobject⟩

/-- The allowed ids of a package are ids of selected facts. -/
theorem allowed_selected {sha256 : String → String} {clock : Instant} {input : Option Json}
    {p : ReverseInputPackage} (h : createReverseInputPackage sha256 clock input factBundles = .ok p)
    {factId : String} (hid : factId ∈ p.allowedFactIds) :
    ScopeSelects factBundles (scopeOf input) factId := by
  unfold createReverseInputPackage typeError rangeError at h
  obtain ⟨projectId, _, h⟩ := bind_ok h
  obtain ⟨snapshotManifestId, _, h⟩ := bind_ok h
  obtain ⟨sourceComponentId, _, h⟩ := bind_ok h
  split at h
  · cases h
  · split at h
    · cases h
    · obtain ⟨taskScope, hscope, h⟩ := bind_ok h
      obtain ⟨_, _, h⟩ := bind_ok h
      dsimp only at h
      split at h
      · cases h
      · obtain ⟨maxInputNodes, _, h⟩ := bind_ok h
        split at h
        · cases h
        · split at h
          · cases h
          · obtain ⟨_, _, h⟩ := bind_ok h
            obtain ⟨policyContext, _, h⟩ := bind_ok h
            cases h
            rw [← normalizeTaskScope_ok hscope]
            rw [List.mem_eraseDups, List.mem_append] at hid
            rcases hid with hid | hid
            · obtain ⟨n, hn, rfl⟩ := List.mem_map.mp hid
              exact .node (selectedNode_of_mem hn)
            · obtain ⟨e, he, rfl⟩ := List.mem_map.mp hid
              exact selects_edge he

end Package

/-! ## The artifact bundle -/

def ReverseArtifactBundle.localIds (b : ReverseArtifactBundle) : List String :=
  b.candidateFeatures.map (·.localId) ++ b.candidateClaims.map (·.localId) ++
    b.candidateTestSpecs.map (·.localId) ++ b.openQuestions.map (·.localId)

def ReverseArtifactBundle.evidence (b : ReverseArtifactBundle) : List EvidenceRef :=
  b.candidateFeatures.flatMap (·.evidence) ++ b.candidateClaims.flatMap (·.evidence) ++
    b.candidateTestSpecs.flatMap (·.evidence) ++ b.openQuestions.flatMap (·.evidence)

def ReverseArtifactBundle.count (b : ReverseArtifactBundle) : Nat :=
  b.candidateFeatures.length + b.candidateClaims.length + b.candidateTestSpecs.length +
    b.openQuestions.length

/-- The boundary that an accepted bundle stays in. -/
structure WithinBoundary {dateParse : String → Option Int}
    (factBundles : List (FactBundle dateParse)) (scope : TaskScope) (input : Json)
    (b : ReverseArtifactBundle) : Prop where
  evidence : ∀ ref ∈ b.evidence, ScopeSelects factBundles scope ref.factId
  localIds : b.localIds.Nodup
  testSpecs : ∀ t ∈ b.candidateTestSpecs, ∀ id ∈ t.verifiesCandidateClaimIds,
    ∃ c ∈ b.candidateClaims, c.localId = id
  questions : ∀ q ∈ b.openQuestions, ∀ id ∈ q.relatedLocalIds, id ∈ b.localIds
  count : ∃ max, limitOf (field input "maxOutputCandidates") 500 "maxOutputCandidates" = .ok max ∧
    b.count ≤ max.toInt

section Candidates

variable {sha256 toUpperCase : String → String} {allowed : List String} {producer : Producer}

variable {item : Json}

theorem evidenceRef_ok {ref : EvidenceRef}
    (h : evidenceRef toUpperCase allowed name item = .ok ref) : ref.factId ∈ allowed := by
  unfold evidenceRef typeError at h
  obtain ⟨evidence, _, h⟩ := bind_ok h
  obtain ⟨_, _, h⟩ := bind_ok h
  obtain ⟨factId, _, h⟩ := bind_ok h
  split at h
  · cases h
  · rename_i hallowed
    obtain ⟨relation, _, h⟩ := bind_ok h
    split at h
    · cases h
    · cases h
      exact not_not.mp hallowed

/-- All evidence names allowed facts. -/
theorem evidenceRefs_ok {v : Option Json} {refs : List EvidenceRef}
    (h : evidenceRefs toUpperCase allowed v name = .ok refs) : ∀ ref ∈ refs, ref.factId ∈ allowed := by
  unfold evidenceRefs typeError at h
  split at h
  · obtain ⟨result, hresult, h⟩ := bind_ok h
    cases h
    intro ref href
    unfold distinctEvidence at href
    obtain ⟨e, he, rfl⟩ := List.mem_map.mp href
    obtain ⟨item, hitem, rfl⟩ := List.mem_map.mp (OrderedMap.mem_of_mem_ofList he)
    obtain ⟨_, _, hone⟩ := exists_source (mapM_ok hresult) hitem
    exact evidenceRef_ok hone
  · cases h

variable {seen : List String}

theorem openItem_ok {fields : List String} {localId : String}
    {value : List (String × Json)} (h : openItem seen fields item name = .ok (value, localId)) :
    localId ∉ seen := by
  unfold openItem typeError at h
  obtain ⟨_, _, h⟩ := bind_ok h
  obtain ⟨_, _, h⟩ := bind_ok h
  obtain ⟨_, _, h⟩ := bind_ok h
  split at h
  · cases h
  · cases h
    assumption

theorem normalizeFeature_ok {f : CandidateFeature}
    (h : normalizeFeature sha256 toUpperCase producer allowed seen item name = .ok f) :
    f.localId ∉ seen ∧ ∀ ref ∈ f.evidence, ref.factId ∈ allowed := by
  unfold normalizeFeature at h
  obtain ⟨⟨value, localId⟩, hopen, h⟩ := bind_ok h
  obtain ⟨externalKey, _, h⟩ := bind_ok h
  obtain ⟨featureName, _, h⟩ := bind_ok h
  obtain ⟨description, _, h⟩ := bind_ok h
  obtain ⟨evidence, hevidence, h⟩ := bind_ok h
  cases h
  exact ⟨openItem_ok hopen, evidenceRefs_ok hevidence⟩

theorem normalizeClaim_ok {c : CandidateClaim}
    (h : normalizeClaim sha256 toUpperCase producer allowed seen item name = .ok c) :
    c.localId ∉ seen ∧ ∀ ref ∈ c.evidence, ref.factId ∈ allowed := by
  unfold normalizeClaim at h
  obtain ⟨⟨value, localId⟩, hopen, h⟩ := bind_ok h
  obtain ⟨type, _, h⟩ := bind_ok h
  obtain ⟨subjectKey, _, h⟩ := bind_ok h
  obtain ⟨statement, _, h⟩ := bind_ok h
  obtain ⟨confidence, _, h⟩ := bind_ok h
  obtain ⟨claimConstraint, _, h⟩ := bind_ok h
  obtain ⟨scope, _, h⟩ := bind_ok h
  obtain ⟨evidence, hevidence, h⟩ := bind_ok h
  cases h
  exact ⟨openItem_ok hopen, evidenceRefs_ok hevidence⟩

theorem normalizeTestSpec_ok {t : CandidateTestSpec}
    (h : normalizeTestSpec sha256 toUpperCase producer allowed seen item name = .ok t) :
    t.localId ∉ seen ∧ ∀ ref ∈ t.evidence, ref.factId ∈ allowed := by
  unfold normalizeTestSpec at h
  obtain ⟨⟨value, localId⟩, hopen, h⟩ := bind_ok h
  obtain ⟨testName, _, h⟩ := bind_ok h
  obtain ⟨featureKey, _, h⟩ := bind_ok h
  obtain ⟨verifies, _, h⟩ := bind_ok h
  obtain ⟨specification, _, h⟩ := bind_ok h
  obtain ⟨evidence, hevidence, h⟩ := bind_ok h
  cases h
  exact ⟨openItem_ok hopen, evidenceRefs_ok hevidence⟩

theorem normalizeQuestion_ok {q : OpenQuestion}
    (h : normalizeQuestion sha256 toUpperCase producer allowed seen item name = .ok q) :
    q.localId ∉ seen ∧ ∀ ref ∈ q.evidence, ref.factId ∈ allowed := by
  unfold normalizeQuestion at h
  obtain ⟨⟨value, localId⟩, hopen, h⟩ := bind_ok h
  obtain ⟨question, _, h⟩ := bind_ok h
  obtain ⟨relatedLocalIds, _, h⟩ := bind_ok h
  obtain ⟨evidence, hevidence, h⟩ := bind_ok h
  cases h
  refine ⟨openItem_ok hopen, ?_⟩
  unfold questionEvidence at hevidence
  split at hevidence
  · exact evidenceRefs_ok hevidence
  · cases hevidence
    simp

/-- What every item of a list has, the whole list has; and its local ids are new ones. -/
theorem normalizeItems_ok {α : Type} {normalize : List String → Json → String → Except Failure α}
    {localIdOf : α → String} {listName : String} {P : α → Prop}
    (hone : ∀ seen item name a, normalize seen item name = .ok a → localIdOf a ∉ seen ∧ P a)
    {items : List Json} {index : Nat} {xs : List α}
    (h : normalizeItems normalize localIdOf listName seen index items = .ok xs) :
    (∀ x ∈ xs, P x) ∧ (seen.Nodup → (seen ++ xs.map localIdOf).Nodup) := by
  induction items generalizing seen index xs with
  | nil =>
    cases h
    simp
  | cons item items ih =>
    rw [normalizeItems] at h
    obtain ⟨a, ha, h⟩ := bind_ok h
    obtain ⟨rest, hrest, h⟩ := bind_ok h
    cases h
    obtain ⟨hnew, hp⟩ := hone _ _ _ _ ha
    obtain ⟨hall, hnodup⟩ := ih hrest
    refine ⟨List.forall_mem_cons.mpr ⟨hp, hall⟩, ?_⟩
    intro hseen
    have hone : (seen ++ [localIdOf a]).Nodup := by
      rw [List.nodup_append]
      refine ⟨hseen, by simp, ?_⟩
      intro x hx y hy heq
      rw [List.mem_singleton.mp hy] at heq
      exact hnew (heq ▸ hx)
    simpa using hnodup hone

theorem checkReferences_ok {c : Candidates} (h : checkReferences c = .ok ()) :
    (∀ t ∈ c.testSpecs, ∀ id ∈ t.verifiesCandidateClaimIds, ∃ x ∈ c.claims, x.localId = id) ∧
    ∀ q ∈ c.questions, ∀ id ∈ q.relatedLocalIds, id ∈ c.localIds := by
  unfold checkReferences typeError at h
  split at h
  · cases h
  · rename_i hspecs
    split at h
    · cases h
    · rename_i hquestions
      rw [List.find?_eq_none] at hspecs hquestions
      refine ⟨?_, ?_⟩
      · intro t ht id hid
        have hclaim := hspecs id (List.mem_flatMap.mpr ⟨t, ht, hid⟩)
        rw [decide_eq_true_eq, not_not] at hclaim
        exact List.mem_map.mp hclaim
      · intro q hq id hid
        have hlocal := hquestions id (List.mem_flatMap.mpr ⟨q, hq, hid⟩)
        rw [decide_eq_true_eq, not_not] at hlocal
        exact hlocal

/-- What is known of the candidates of an accepted output. -/
structure CheckedCandidates (allowed : List String) (c : Candidates) : Prop where
  features : ∀ f ∈ c.features, ∀ ref ∈ f.evidence, ref.factId ∈ allowed
  claims : ∀ x ∈ c.claims, ∀ ref ∈ x.evidence, ref.factId ∈ allowed
  testSpecs : ∀ t ∈ c.testSpecs, ∀ ref ∈ t.evidence, ref.factId ∈ allowed
  questions : ∀ q ∈ c.questions, ∀ ref ∈ q.evidence, ref.factId ∈ allowed
  localIds : c.localIds.Nodup
  references : checkReferences c = .ok ()

theorem normalizeCandidates_ok {rawOutput : List (String × Json)} {c : Candidates}
    (h : normalizeCandidates sha256 toUpperCase producer allowed rawOutput = .ok c) :
    CheckedCandidates allowed c := by
  unfold normalizeCandidates at h
  obtain ⟨featureItems, _, h⟩ := bind_ok h
  obtain ⟨features, hfeatures, h⟩ := bind_ok h
  obtain ⟨claimItems, _, h⟩ := bind_ok h
  obtain ⟨claims, hclaims, h⟩ := bind_ok h
  obtain ⟨testSpecItems, _, h⟩ := bind_ok h
  obtain ⟨testSpecs, htestSpecs, h⟩ := bind_ok h
  obtain ⟨questionItems, _, h⟩ := bind_ok h
  obtain ⟨questions, hquestions, h⟩ := bind_ok h
  obtain ⟨⟨⟩, hreferences, h⟩ := bind_ok h
  cases h
  obtain ⟨h1, n1⟩ := normalizeItems_ok (fun _ _ _ _ => normalizeFeature_ok) hfeatures
  obtain ⟨h2, n2⟩ := normalizeItems_ok (fun _ _ _ _ => normalizeClaim_ok) hclaims
  obtain ⟨h3, n3⟩ := normalizeItems_ok (fun _ _ _ _ => normalizeTestSpec_ok) htestSpecs
  obtain ⟨h4, n4⟩ := normalizeItems_ok (fun _ _ _ _ => normalizeQuestion_ok) hquestions
  refine ⟨h1, h2, h3, h4, ?_, hreferences⟩
  exact n4 (n3 (n2 (by simpa using n1 List.nodup_nil)))

end Candidates

theorem allowedFactIds_ok {facts : AllowedFacts} {ids allowed : List String}
    (hfacts : facts = .set ids ∨ facts = .value (some (.arr (ids.map .str))))
    (h : allowedFactIds facts = .ok allowed) : allowed = ids := by
  rcases hfacts with rfl | rfl
  · cases h
    rfl
  · rw [allowedFactIds] at h
    obtain ⟨hv, _⟩ := uniqueStrings_ok h
    have htexts := congrArg textsOf hv
    rw [textsOf_map, textsOf_map] at htexts
    exact htexts.symm

/-- An accepted bundle stays inside the boundary of its input package. -/
theorem evidence_stays_in_scope {sha256 toUpperCase : String → String}
    {dateParse : String → Option Int} {packageClock clock : Instant} {packageInput : Option Json}
    {factBundles : List (FactBundle dateParse)} {p : ReverseInputPackage} {input : Json}
    {facts : AllowedFacts} {b : ReverseArtifactBundle}
    (hp : createReverseInputPackage sha256 packageClock packageInput factBundles = .ok p)
    (hfacts : facts = .set p.allowedFactIds ∨
      facts = .value (some (.arr (p.allowedFactIds.map .str))))
    (hb : createReverseArtifactBundle sha256 toUpperCase dateParse clock input facts = .ok b) :
    WithinBoundary factBundles (scopeOf packageInput) input b := by
  unfold createReverseArtifactBundle typeError rangeError at hb
  obtain ⟨producer, _, hb⟩ := bind_ok hb
  obtain ⟨scope, _, hb⟩ := bind_ok hb
  obtain ⟨projectId, _, hb⟩ := bind_ok hb
  obtain ⟨snapshotManifestId, _, hb⟩ := bind_ok hb
  obtain ⟨sourceComponentId, _, hb⟩ := bind_ok hb
  obtain ⟨inputDigest, _, hb⟩ := bind_ok hb
  obtain ⟨allowed, hallowed, hb⟩ := bind_ok hb
  obtain ⟨rawOutput, _, hb⟩ := bind_ok hb
  obtain ⟨_, _, hb⟩ := bind_ok hb
  obtain ⟨maxRawOutputBytes, _, hb⟩ := bind_ok hb
  split at hb
  · cases hb
  · split at hb
    · cases hb
    · obtain ⟨_, _, hb⟩ := bind_ok hb
      obtain ⟨c, hc, hb⟩ := bind_ok hb
      split at hb
      · cases hb
      · obtain ⟨max, hmax, hb⟩ := bind_ok hb
        split at hb
        · cases hb
        · rename_i hcount
          obtain ⟨warnings, _, hb⟩ := bind_ok hb
          obtain ⟨runId, _, hb⟩ := bind_ok hb
          obtain ⟨taskScope, _, hb⟩ := bind_ok hb
          cases hb
          have hcandidates := normalizeCandidates_ok hc
          have hreferences := checkReferences_ok hcandidates.references
          rw [allowedFactIds_ok hfacts hallowed] at hcandidates
          refine ⟨?_, hcandidates.localIds, hreferences.1, hreferences.2, max, hmax, ?_⟩
          · intro ref href
            refine allowed_selected hp ?_
            unfold ReverseArtifactBundle.evidence at href
            simp only [List.mem_append, List.mem_flatMap] at href
            rcases href with ((⟨f, hf, href⟩ | ⟨x, hx, href⟩) | ⟨t, ht, href⟩) | ⟨q, hq, href⟩
            · exact hcandidates.features f hf ref href
            · exact hcandidates.claims x hx ref href
            · exact hcandidates.testSpecs t ht ref href
            · exact hcandidates.questions q hq ref href
          · exact not_lt.mp hcount

/-! ## A claim about an order -/

def noon : Instant := { time := 1784116800000, iso := "2026-07-15T12:00:00.000Z" }

def noonParse (text : String) : Option Int := if text = noon.iso then some noon.time else none

def factSource (artifact : String) : Facts.SourceLocation where
  artifact := artifact
  startLine := Number.ofNat 1
  endLine := Number.ofNat 9
  contentHash := "sha256:abababababababababababababababababababababababababababababababab"

def scanner : Facts.Extractor := { id := "X", version := "1" }

def symbolNode (id artifact : String) : FactNode where
  id := id
  factId := "FACT-" ++ id
  projectId := "P"
  snapshotManifestId := "SM"
  type := .str "CODE_SYMBOL"
  naturalKey := id
  name := id
  attributes := []
  source := factSource artifact
  extractor := scanner
  observedAt := noon.iso
  validFrom := noon.iso
  validTo := none

def callEdge (subjectId objectId : String) : FactEdge where
  id := "EDGE-" ++ subjectId ++ "-" ++ objectId
  projectId := "P"
  snapshotManifestId := "SM"
  subjectId := subjectId
  predicate := .str "CALLS"
  objectId := objectId
  attributes := []
  source := factSource "order.js"
  extractor := scanner
  observedAt := noon.iso

/-- Two symbols of one artifact and one of another, with a call inside and a call across. -/
def orderFacts : FactBundle noonParse where
  id := "B"
  projectId := "P"
  snapshotManifestId := "SM"
  sourceComponentId := "S"
  sourceDigest := "sha256:abababababababababababababababababababababababababababababababab"
  extractor := scanner
  observedAt := { text := noon.iso, time := noon.time, parses := by decide }
  complete := true
  diagnostics := []
  nodes := [symbolNode "SUBMIT" "order.js", symbolNode "CHECK" "order.js", symbolNode "PAY" "pay.js"]
  edges := [callEdge "SUBMIT" "CHECK", callEdge "SUBMIT" "PAY"]

def orderScope : Json :=
  .obj [("projectId", .str "P"), ("snapshotManifestId", .str "SM"), ("sourceComponentId", .str "S"),
    ("taskScope", .obj [("artifacts", .arr [.str "order.js"])])]

def supportedBy (factId : String) : Json :=
  .arr [.obj [("factId", .str factId), ("relation", .str "SUPPORTS")]]

def orderOutput : Json :=
  .obj [("runId", .str "RUN"), ("scope", orderScope),
    ("producer", .obj [("skillId", .str "SK"), ("skillVersion", .str "1.0.0"),
      ("adapterId", .str "A")]),
    ("inputDigest",
      .str "sha256:abababababababababababababababababababababababababababababababab"),
    ("rawOutput", .obj [
      ("candidateClaims", .arr [.obj [("localId", .str "c1"),
        ("type", .str "IMPLEMENTATION_BEHAVIOR"), ("subjectKey", .str "order.submit"),
        ("statement", .str "Submitting checks the order."), ("confidence", .str "HIGH"),
        ("evidence", supportedBy "EDGE-SUBMIT-CHECK")]]),
      ("openQuestions", .arr [.obj [("localId", .str "q1"),
        ("question", .str "Which states may be submitted?"),
        ("relatedLocalIds", .arr [.str "c1"]), ("evidence", supportedBy "FACT-CHECK")]])])]

/-- The relations of this output stand in upper case already. -/
def upperCase (text : String) : String := text

def orderPackage : Except Failure ReverseInputPackage :=
  createReverseInputPackage id noon (some orderScope) [orderFacts]

theorem order_claim_stays_in_scope :
    ∃ p b, orderPackage = .ok p ∧
      createReverseArtifactBundle id upperCase noonParse noon orderOutput (.set p.allowedFactIds) =
        .ok b ∧
      WithinBoundary [orderFacts] (scopeOf (some orderScope)) orderOutput b := by
  have hpackage := ok_get (x := orderPackage) (by decide +kernel)
  have hbundle := ok_get (x := createReverseArtifactBundle id upperCase noonParse noon orderOutput
    (.set (orderPackage.toOption.get (by decide +kernel)).allowedFactIds)) (by decide +kernel)
  exact ⟨_, _, hpackage, hbundle, evidence_stays_in_scope hpackage (Or.inl rfl) hbundle⟩

end Traqen.ReverseSkill
