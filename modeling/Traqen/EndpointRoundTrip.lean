-- Both sides together: what `resolveEndpointContracts` adds to the records of a compilation is
-- accepted by `verifyEndpointContracts`, in whatever order the records come back.
import Traqen.CompileRecords
import Traqen.EndpointVerification
import Traqen.PublishedSets

open Js

namespace Traqen.EndpointContracts

open CompileBudget (Object Fact Gap Evidence Material State FactInput Budget Agree addEvidence
  recordFact addFact addGap charge)
open FactIdentity (Anchor createEvidenceId)
open Throwing
open RecordVerification (onlyIf)
open CompileBudget (identified charge_ok chargeGap chargeGap_ok)

/-! ## What an action adds -/

/-- Evidence under the identity of its own fields. -/
def Own (sha256 : String → String) (e : Evidence) : Prop :=
  createEvidenceId sha256 e.materialId e.contentDigest e.anchor e.evidenceKind = .ok e.evidenceId

structure Consistent (sha256 : String → String) (s : State) : Prop where
  agree : Agree s
  own : ∀ e ∈ s.evidence, Own sha256 e

/-- The record of a fact that was added. -/
structure Recorded (sha256 : String → String) (evidence : List Evidence) (m : Material)
    (input : FactInput) (f : Fact) : Prop where
  kind : f.kind = if input.targetId.isSome then "RELATION" else "PROPERTY"
  subjectId : f.subjectId = input.subjectId
  predicate : f.predicate = input.predicate
  targetId : f.targetId = input.targetId
  basis : f.basis = input.basis
  ruleRef : f.ruleRef = m.input.ruleRef
  premises : f.premiseFactIds = input.premiseFactIds
  evidence : ∃ e ∈ evidence, f.evidenceIds = [e.evidenceId] ∧
    createEvidenceId sha256 m.materialId m.contentDigest input.anchor input.evidenceKind =
      .ok e.evidenceId

def isFact : Action → Bool
  | .fact _ _ => true
  | _ => false

/-- What a run of the actions makes of the records. -/
structure Performed (sha256 : String → String) (actions : List Action) (s t : State) : Prop where
  objects : t.objects = s.objects
  evidence : s.evidence ⊆ t.evidence
  facts : ∃ fresh, t.facts = s.facts ++ fresh ∧ fresh.length ≤ actions.countP isFact ∧
    ∀ f ∈ fresh, ∃ m input, Action.fact m input ∈ actions ∧ Recorded sha256 t.evidence m input f
  gaps : ∃ fresh, t.gaps = s.gaps ++ fresh ∧ ∀ g ∈ fresh, ∃ m code anchor extra,
    Action.gap m code anchor extra ∈ actions ∧ g.materialId = some m.materialId ∧
      g.code = code ∧ g.reason = ("category", .str code) :: extra

variable {input : FactInput} {anchor extra : Anchor} {code id kind : String}

section Performing

variable {sha256 : String → String} {b : Budget} {s t u : State} {m : Material}

theorem Consistent.of_within {α : Type} {x : CompileBudget.Run α} {r : Except _ α}
    (hwithin : Within (CompileBudget.Added sha256 b [m.materialId]) x) (h : x s = (r, t))
    (hs : Consistent sha256 s) (hown : ∀ e ∈ t.evidence, Own sha256 e) : Consistent sha256 t := by
  have hagree := hwithin.keeps (fun _ _ hstep => hstep.agree) hs.agree
  rw [h] at hagree
  exact ⟨hagree, hown⟩

/-- What `addEvidence` leaves: the evidence is there. -/
structure Evidenced (sha256 : String → String) (m : Material) (anchor : Anchor) (kind id : String)
    (s t : State) : Prop where
  consistent : Consistent sha256 t
  objects : t.objects = s.objects
  facts : t.facts = s.facts
  gaps : t.gaps = s.gaps
  evidence : s.evidence ⊆ t.evidence
  created : createEvidenceId sha256 m.materialId m.contentDigest anchor kind = .ok id
  mem : ∃ e ∈ t.evidence, e.evidenceId = id

variable (hs : Consistent sha256 s)
include hs

theorem addEvidence_effect (h : addEvidence sha256 b m anchor kind s = (.ok id, t)) :
    Evidenced sha256 m anchor kind id s t := by
  have hwithin : Within (CompileBudget.Added sha256 b [m.materialId])
      (addEvidence sha256 b m anchor kind) := CompileBudget.addEvidence_within anchor kind
  have hrun := h
  unfold addEvidence at h
  cases hid : identified
      (createEvidenceId sha256 m.materialId m.contentDigest anchor kind) with
  | error e =>
    rw [hid] at h
    cases h
  | ok evidenceId =>
    have hcreated := CompileBudget.identified_ok hid
    rw [hid] at h
    dsimp only at h
    by_cases hseen : evidenceId ∈ s.evidenceIdsSeen
    · rw [if_pos hseen] at h
      cases h
      obtain ⟨e, he, heq⟩ := List.mem_map.mp ((hs.agree.evidence.mem _).mp hseen)
      exact ⟨hs, rfl, rfl, rfl, List.Subset.refl _, hcreated, e, he, heq⟩
    · rw [if_neg hseen] at h
      split at h
      · cases h
      rename_i v hpaid
      obtain ⟨rfl, -⟩ := charge_ok hpaid
      cases h
      refine ⟨hs.of_within hwithin hrun ?_, rfl, rfl, rfl, List.subset_append_left _ _, hcreated,
        _, List.mem_append_right _ (List.mem_singleton_self _), rfl⟩
      intro e he
      rcases List.mem_append.mp he with he | he
      · exact hs.own e he
      · rw [List.mem_singleton.mp he]
        exact hcreated

/-- What `recordFact` leaves: one more fact, or the same records. -/
theorem recordFact_effect (h : recordFact sha256 b m input id s = (.ok (), t)) :
    Consistent sha256 t ∧ t.objects = s.objects ∧ t.evidence = s.evidence ∧ t.gaps = s.gaps ∧
      (t.facts = s.facts ∨ ∃ factId, t.facts = s.facts ++
        [{ factId, kind := if input.targetId.isSome then "RELATION" else "PROPERTY"
           subjectId := input.subjectId, predicate := input.predicate
           targetId := input.targetId
           value := if input.targetId.isSome then none else input.value
           basis := input.basis, evidenceIds := [id], ruleRef := m.input.ruleRef
           premiseFactIds := input.premiseFactIds }]) := by
  have hwithin : Within (CompileBudget.Added sha256 b [m.materialId])
      (recordFact sha256 b m input id) := CompileBudget.recordFact_within input id
  have hrun := h
  unfold recordFact at h
  dsimp only at h
  cases hid : identified (FactIdentity.createFactId sha256 input.subjectId
      input.predicate (if input.targetId.isSome then none else input.value) input.targetId
      input.basis [id] m.input.ruleRef input.premiseFactIds) with
  | error e =>
    rw [hid] at h
    cases h
  | ok factId =>
    rw [hid] at h
    dsimp only at h
    by_cases hseen : factId ∈ s.factIdsSeen
    · rw [if_pos hseen] at h
      cases h
      exact ⟨hs, rfl, rfl, rfl, Or.inl rfl⟩
    · rw [if_neg hseen] at h
      split at h
      · cases h
      rename_i v hpaid
      obtain ⟨rfl, -⟩ := charge_ok hpaid
      cases h
      exact ⟨hs.of_within hwithin hrun hs.own, rfl, rfl, rfl, Or.inr ⟨factId, rfl⟩⟩

theorem addFact_performed (h : addFact sha256 b m input s = (.ok (), t)) :
    Consistent sha256 t ∧ Performed sha256 [.fact m input] s t := by
  obtain ⟨id, u, hevidence, hrecord⟩ := andThen_ok h
  have hu := addEvidence_effect hs hevidence
  obtain ⟨ht, hobjects, hsame, hgaps, hfacts⟩ := recordFact_effect hu.consistent hrecord
  refine ⟨ht, hobjects.trans hu.objects, hsame ▸ hu.evidence, ?_, [], ?_, by simp⟩
  · rcases hfacts with hfacts | ⟨factId, hfacts⟩
    · exact ⟨[], by rw [hfacts, hu.facts, List.append_nil], Nat.zero_le _, by simp⟩
    · refine ⟨_, by rw [hfacts, hu.facts], by simp [isFact], ?_⟩
      intro f hf
      obtain rfl := List.mem_singleton.mp hf
      obtain ⟨e, he, rfl⟩ := hu.mem
      exact ⟨m, input, List.mem_singleton_self _, rfl, rfl, rfl, rfl, rfl, rfl, rfl, e,
        hsame ▸ he, rfl, hu.created⟩
  · rw [List.append_nil, hgaps, hu.gaps]

theorem addGap_performed (h : addGap sha256 b m "json" code (some anchor) extra s = (.ok (), t)) :
    Consistent sha256 t ∧ Performed sha256 [.gap m code anchor extra] s t := by
  have hwithin : Within (CompileBudget.Added sha256 b [m.materialId])
      (addGap sha256 b m "json" code (some anchor) extra) :=
    CompileBudget.addGap_within (List.mem_singleton_self m.materialId) _ _ _ _
  have hrun := h
  unfold addGap at h
  dsimp only at h
  split at h
  · cases h
  rename_i gapId hid
  by_cases hseen : gapId ∈ s.gapIdsSeen
  · rw [if_pos hseen] at h
    cases h
    exact ⟨hs, rfl, List.Subset.refl _, ⟨[], by simp, by simp, by simp⟩, [], by simp, by simp⟩
  · rw [if_neg hseen] at h
    split at h
    · cases h
    rename_i v hpaid
    have hsame : v.objects = s.objects ∧ v.evidence = s.evidence ∧ v.facts = s.facts ∧
        v.gaps = s.gaps := by
      rcases chargeGap_ok hpaid with ⟨-, rfl⟩ | ⟨-, hpaid⟩
      · exact ⟨rfl, rfl, rfl, rfl⟩
      · obtain ⟨rfl, -⟩ := charge_ok hpaid
        exact ⟨rfl, rfl, rfl, rfl⟩
    obtain ⟨hobjects, hevidence, hfacts, hgaps⟩ := hsame
    cases h
    refine ⟨hs.of_within hwithin hrun (hevidence ▸ hs.own), hobjects, hevidence ▸
      List.Subset.refl _, ⟨[], by simpa using hfacts, by simp, by simp⟩, _, by rw [hgaps], ?_⟩
    intro g hg
    obtain rfl := List.mem_singleton.mp hg
    exact ⟨m, code, anchor, extra, List.mem_singleton_self _, rfl, rfl, rfl⟩

theorem perform_performed {a : Action} (h : perform sha256 b a s = (.ok (), t)) :
    Consistent sha256 t ∧ Performed sha256 [a] s t := by
  cases a with
  | fact m input => exact addFact_performed hs h
  | gap m code anchor extra => exact addGap_performed hs h
  | throw failure => cases h

omit hs in
theorem Recorded.mono {evidence more : List Evidence} {f : Fact}
    (h : Recorded sha256 evidence m input f) (hsub : evidence ⊆ more) :
    Recorded sha256 more m input f := by
  obtain ⟨e, he, hids, hid⟩ := h.evidence
  exact { h with evidence := ⟨e, hsub he, hids, hid⟩ }

omit hs in
theorem Performed.trans {as bs : List Action} (h : Performed sha256 as s u)
    (h' : Performed sha256 bs u t) : Performed sha256 (as ++ bs) s t := by
  obtain ⟨facts, hfacts, hlength, hfrom⟩ := h.facts
  obtain ⟨facts', hfacts', hlength', hfrom'⟩ := h'.facts
  obtain ⟨gaps, hgaps, hgapsFrom⟩ := h.gaps
  obtain ⟨gaps', hgaps', hgapsFrom'⟩ := h'.gaps
  refine ⟨h'.objects.trans h.objects, fun _ he => h'.evidence (h.evidence he),
    ⟨facts ++ facts', ?_, ?_, ?_⟩, gaps ++ gaps', ?_, ?_⟩
  · rw [hfacts', hfacts, List.append_assoc]
  · rw [List.length_append, List.countP_append]
    omega
  · intro f hf
    rcases List.mem_append.mp hf with hf | hf
    · obtain ⟨m, input, hmem, hrecorded⟩ := hfrom f hf
      exact ⟨m, input, List.mem_append_left _ hmem, hrecorded.mono h'.evidence⟩
    · obtain ⟨m, input, hmem, hrecorded⟩ := hfrom' f hf
      exact ⟨m, input, List.mem_append_right _ hmem, hrecorded⟩
  · rw [hgaps', hgaps, List.append_assoc]
  · intro g hg
    rcases List.mem_append.mp hg with hg | hg
    · obtain ⟨m, code, anchor, extra, hmem, hg⟩ := hgapsFrom g hg
      exact ⟨m, code, anchor, extra, List.mem_append_left _ hmem, hg⟩
    · obtain ⟨m, code, anchor, extra, hmem, hg⟩ := hgapsFrom' g hg
      exact ⟨m, code, anchor, extra, List.mem_append_right _ hmem, hg⟩

/-- A run of the actions that ends without an error. -/
theorem forEach_performed {actions : List Action}
    (h : forEach (perform sha256 b) actions s = (.ok (), t)) :
    Consistent sha256 t ∧ Performed sha256 actions s t := by
  induction actions generalizing s with
  | nil =>
    cases h
    exact ⟨hs, rfl, List.Subset.refl _, ⟨[], by simp, by simp, by simp⟩, [], by simp, by simp⟩
  | cons a actions ih =>
    obtain ⟨_, u, hfirst, hrest⟩ := andThen_ok h
    obtain ⟨hu, hone⟩ := perform_performed hs hfirst
    obtain ⟨ht, hmore⟩ := ih hu hrest
    exact ⟨ht, hone.trans hmore⟩

omit hs

end Performing

/-! ## The index of the tables -/

/-- The records as the extractors leave them. -/
structure Extracted (sha256 : String → String) (materials : List Material) (s : State) : Prop where
  consistent : Consistent sha256 s
  placed : Placed s.objects (materialById materials)
  ruled : Ruled s.facts
  /-- The properties of an operation are recorded with its material. -/
  rules : ∀ f ∈ s.facts, f.kind = "PROPERTY" → ∀ o ∈ s.objects, isContract o = true →
    o.objectId = f.subjectId → ∀ m ∈ materials, m.materialId = o.materialId →
    f.ruleRef = m.input.ruleRef
  unmatched : ∀ f ∈ s.facts, f.predicate ≠ "matchesEndpointContract"
  unambiguous : ∀ g ∈ s.gaps, g.code ≠ "ENDPOINT_CONTRACT_AMBIGUOUS"

/-- The tables hold the records, in any order. -/
structure Filed (materials : List Material) (t : State) (g : Graph) : Prop where
  objects : t.objects.Perm g.objects
  facts : t.facts.Perm g.facts
  materials : materials.Perm g.materials
  evidence : t.evidence.Perm g.evidence
  gaps : t.gaps.Perm g.gaps

/-- The actions on the records of a compilation. -/
def actionsOf (limits : Limits) (materials : List Material) (s : State) : List Action :=
  resolveEndpointContracts limits s.objects s.facts materials

section Index

variable {sha256 : String → String} {limits : Limits} {materials : List Material} {s t : State}
variable {g : Graph} {d d' : Declarations} {item target : Entry}

theorem get?_materialById_perm (h : materials.Perm g.materials) (id : String) :
    OrderedMap.get? (materialById materials) id =
      OrderedMap.get? (materialById g.materials) id := by
  have hids : (materials.map (·.materialId)).Nodup :=
    (h.map (·.materialId)).nodup_iff.mpr g.materialIds
  ext m
  rw [get?_materialById hids, get?_materialById g.materialIds, h.mem_iff]

theorem endpointDeclarations_congr {objects : List Object} {facts : List Fact}
    {materials others : List (String × Material)}
    (h : ∀ id, OrderedMap.get? materials id = OrderedMap.get? others id) :
    endpointDeclarations objects facts materials = endpointDeclarations objects facts others := by
  have hone : declaration facts materials = declaration facts others := by
    funext o
    unfold declaration
    rw [h]
  unfold endpointDeclarations
  rw [hone]

/-- A fact of the actions is a match. -/
theorem fact_of_actions (henabled : limits.enabled = true)
    (hd : endpointDeclarations s.objects s.facts (materialById materials) = .ok d) {m : Material}
    (h : Action.fact m input ∈ actionsOf limits materials s) :
    ¬ OverDeclared limits s.objects ∧ ¬ limits.matchLimit < (matchable d).length ∧
      ∃ item target, Matched d item target ∧ m = item.material ∧ input = matchInput item target :=
  (fact_mem_resolve henabled hd).mp h

theorem sameProperties (henabled : limits.enabled = true)
    (hd : endpointDeclarations s.objects s.facts (materialById materials) = .ok d)
    (hrun : Performed sha256 (actionsOf limits materials s) s t) (hg : Filed materials t g) :
    SameProperties s.facts g.facts := by
  obtain ⟨fresh, hfacts, -, hfrom⟩ := hrun.facts
  have hnone : fresh.filter (fun f => f.kind = "PROPERTY") = [] := by
    rw [List.filter_eq_nil_iff]
    intro f hf
    obtain ⟨m, input, hmem, hrecorded⟩ := hfrom f hf
    obtain ⟨-, -, item, target, -, -, rfl⟩ := fact_of_actions henabled hd hmem
    rw [hrecorded.kind]
    simp [matchInput]
  have hsame := hg.facts.filter fun f => f.kind = "PROPERTY"
  rw [hfacts, List.filter_append, hnone, List.append_nil] at hsame
  exact hsame

/-- The index of the tables is the one that was resolved. -/
theorem index_filed (henabled : limits.enabled = true)
    (hd : endpointDeclarations s.objects s.facts (materialById materials) = .ok d)
    (hrun : Performed sha256 (actionsOf limits materials s) s t) (hg : Filed materials t g) :
    ∃ d', endpointDeclarations g.objects g.facts (materialById g.materials) = .ok d' ∧
      SameEntries d d' := by
  have hobjects : s.objects.Perm g.objects := hrun.objects ▸ hg.objects
  have hfacts := sameProperties henabled hd hrun hg
  rw [endpointDeclarations_congr (get?_materialById_perm hg.materials)] at hd
  exact endpointDeclarations_perm hobjects hfacts hd

theorem Alone.perm {items others : List Entry} {key : String} (h : items.Perm others)
    (halone : Alone items key) : Alone others key := by
  unfold Alone at halone ⊢
  rw [← (h.filter _).length_eq]
  exact halone

theorem SameEntries.matched (h : SameEntries d d') (hmatched : Matched d item target) :
    Matched d' item target :=
  ⟨h.1.mem_iff.mp hmatched.contract, h.2.mem_iff.mp hmatched.route, hmatched.key,
    hmatched.aloneContract.perm h.1, hmatched.aloneRoute.perm h.2⟩

/-- There are no more facts than matches. -/
theorem countP_facts (henabled : limits.enabled = true)
    (hd : endpointDeclarations s.objects s.facts (materialById materials) = .ok d) :
    (actionsOf limits materials s).countP isFact ≤ (matchable d).length := by
  by_cases hover : OverDeclared limits s.objects
  · have hnone : (actionsOf limits materials s).countP isFact = 0 := by
      rw [List.countP_eq_zero]
      rintro (⟨m, input⟩ | ⟨m, code, anchor, extra⟩ | failure) hmem hfact
      · exact (fact_of_actions henabled hd hmem).1 hover
      · cases hfact
      · cases hfact
    omega
  · unfold actionsOf
    rw [resolve_eq henabled hover hd, resolved_eq, List.countP_append, List.countP_append]
    have hinvalid : (d.invalidContracts.map fun i =>
        gapAction i.material i.code i.object.anchor []).countP isFact = 0 := by
      rw [List.countP_eq_zero]
      intro a ha hfact
      obtain ⟨i, -, rfl⟩ := List.mem_map.mp ha
      unfold gapAction at hfact
      split at hfact
      · cases hfact
      · cases hfact
    have hleft : ((d.contracts.map (outcomeIn limits d)).filterMap Sum.getLeft?).countP isFact
        = 0 := by
      rw [List.countP_eq_zero]
      rintro (⟨m, input⟩ | ⟨m, code, anchor, extra⟩ | failure) hmem hfact
      · exact left_ne hmem
      · cases hfact
      · cases hfact
    rw [hinvalid, hleft, ← length_planned limits d]
    split_ifs
    · have hlimit : ((plannedIn limits d).map fun p => limitGap p.1).countP isFact = 0 := by
        rw [List.countP_eq_zero]
        intro a ha hfact
        obtain ⟨p, -, rfl⟩ := List.mem_map.mp ha
        cases hfact
      omega
    · have hle := List.countP_le_length (p := isFact)
        (l := (plannedIn limits d).map fun p => Action.fact p.1.material (matchInput p.1 p.2))
      rw [List.length_map] at hle
      omega

end Index

/-! ## A match is accepted -/

variable {contract : Bool} {e : Entry}

section Matches

variable {sha256 : String → String} {limits : Limits} {g : Graph} {d : Declarations}
variable {item target : Entry} {f : Fact}

theorem check_pass {condition : Prop} [Decidable condition] {reason : String} (h : condition) :
    check condition reason = .ok () := by
  unfold check RecordVerification.checked
  rw [if_pos h]

theorem verifyRelation_pass (henabled : limits.enabled = true)
    (hf : Recorded sha256 g.evidence item.material (matchInput item target) f)
    (hitem : InGraph g true item) (hrule : item.method.ruleRef = item.material.input.ruleRef) :
    verifyRelation limits f = .ok () := by
  obtain ⟨rule, shape, hcontract, -, hunder, -⟩ := hitem.key
  obtain rfl := hcontract rfl
  unfold underRule at hunder
  rw [hrule, ← hf.ruleRef] at hunder
  unfold verifyRelation
  rw [check_pass ⟨henabled, hf.kind⟩]
  cases href : f.ruleRef with
  | none =>
    rw [href] at hunder
    cases hunder
  | some ref =>
    rw [href] at hunder
    obtain ⟨hid, hversion⟩ : ref.id = "f002-json" ∧ ref.version = "2" := by simpa using hunder
    exact check_pass ⟨hid, hversion, hf.basis⟩

theorem componentId_eq {a b : Material} {method method' : Fact} {shape shape' : String}
    (h : keyOf a method shape = keyOf b method' shape') :
    a.input.componentId = b.input.componentId := by
  have hjson := Json.arr.inj (Json.stringify_injective h)
  exact Json.str.inj (List.cons.inj hjson).1

theorem same_component (hitem : InGraph g true item) (htarget : InGraph g false target)
    (hkey : target.key = item.key) :
    item.material.input.componentId = target.material.input.componentId := by
  obtain ⟨rule, shape, -, -, -, -, -, hitemKey⟩ := hitem.key
  obtain ⟨rule', shape', -, -, -, -, -, htargetKey⟩ := htarget.key
  rw [hitemKey, htargetKey] at hkey
  exact (componentId_eq hkey).symm

theorem material?_of_entry (h : InGraph g contract e) :
    g.material? e.object.materialId = some e.material := by
  obtain ⟨hmem, hid⟩ := (get?_materialById g.materialIds).mp h.material
  rw [← hid]
  exact material?_of_mem hmem

theorem kind_of_contract (h : InGraph g true e) :
    e.object.kind = "OPENAPI_OPERATION" := of_decide_eq_true h.kind

theorem kind_of_route (h : InGraph g false e) : e.object.kind = "ROUTE" := by
  have hkind := of_decide_eq_true h.declaration
  have hnot := of_decide_eq_false h.kind
  simpa [declarationKinds, hnot] using hkind

theorem verifyEnds_pass (hf : Recorded sha256 g.evidence item.material (matchInput item target) f)
    (hitem : InGraph g true item) (htarget : InGraph g false target)
    (hkey : target.key = item.key) :
    verifyEnds g f = .ok (item.object, target.object) := by
  have hsource : g.object? f.subjectId = some item.object := by
    rw [hf.subjectId]
    exact object?_of_mem hitem.object
  have htargetId : f.targetId.bind g.object? = some target.object := by
    rw [hf.targetId]
    exact object?_of_mem htarget.object
  unfold verifyEnds
  rw [hsource, htargetId]
  change (do
    check (item.object.kind = "OPENAPI_OPERATION") "端点合同关系越过组件或对象类型边界"
    check (target.object.kind = "ROUTE") "端点合同关系越过组件或对象类型边界"
    let sourceMaterial ← got (g.material? item.object.materialId)
    let targetMaterial ← got (g.material? target.object.materialId)
    check (sourceMaterial.input.componentId = targetMaterial.input.componentId)
      "端点合同关系越过组件或对象类型边界"
    return (item.object, target.object)) = _
  rw [check_pass (kind_of_contract hitem), check_pass (kind_of_route htarget),
    material?_of_entry hitem, material?_of_entry htarget]
  change (do
    check (item.material.input.componentId = target.material.input.componentId)
      "端点合同关系越过组件或对象类型边界"
    return (item.object, target.object)) = _
  rw [check_pass (same_component hitem htarget hkey)]
  rfl

/-- The entries of one object with one method and one path are one. -/
theorem entry_unique (he : InGraph g true e) (hitem : InGraph g true item)
    (hobject : e.object.objectId = item.object.objectId)
    (hmethod : e.method.factId = item.method.factId) (hpath : e.path.factId = item.path.factId) :
    e = item := by
  have hsameObject : e.object = item.object :=
    List.inj_on_of_nodup_map g.objectIds he.object hitem.object hobject
  have hsameMethod : e.method = item.method :=
    List.inj_on_of_nodup_map g.factIds (mem_propertiesOf.mp he.method).1
      (mem_propertiesOf.mp hitem.method).1 hmethod
  have hsamePath : e.path = item.path :=
    List.inj_on_of_nodup_map g.factIds (mem_propertiesOf.mp he.path).1
      (mem_propertiesOf.mp hitem.path).1 hpath
  have hsameMaterial : e.material = item.material := by
    have hmaterial := he.material
    rw [hsameObject, hitem.material] at hmaterial
    exact (Option.some.inj hmaterial).symm
  obtain ⟨rule, shape, hrule, -, -, -, hshape, hkey⟩ := he.key
  obtain ⟨rule', shape', hrule', -, -, -, hshape', hkey'⟩ := hitem.key
  rw [hrule rfl, hsamePath, ← hrule' rfl, hshape'] at hshape
  have hsameKey : e.key = item.key := by
    rw [hkey, hkey', hsameMaterial, hsameMethod, Option.some.inj hshape]
  cases e
  cases item
  simp_all

theorem byOrigin_self (hd : endpointDeclarations g.objects g.facts (materialById g.materials) =
    .ok d) (hmem : item ∈ d.contracts) :
    byOrigin d item.object.objectId item.method.factId item.path.factId = some item := by
  have hitem : InGraph g true item := inGraph_of_mem hd hmem
  cases hfound : byOrigin d item.object.objectId item.method.factId item.path.factId with
  | none =>
    unfold byOrigin at hfound
    rw [List.find?_eq_none] at hfound
    exact absurd (by simp) (hfound item (List.mem_reverse.mpr hmem))
  | some e =>
    obtain ⟨he, hobject, hmethod, hpath⟩ := byOrigin_some hfound
    rw [entry_unique (inGraph_of_mem hd he) hitem hobject hmethod hpath]

theorem path_of_contract (h : InGraph g true e) : e.path.predicate = "path" := by
  obtain ⟨rule, shape, -, -, -, hpath, -⟩ := h.key
  rw [hpath]
  rfl

theorem verifyOrigin_pass (hd : endpointDeclarations g.objects g.facts (materialById g.materials) =
      .ok d) (hf : Recorded sha256 g.evidence item.material (matchInput item target) f)
    (hmem : item ∈ d.contracts) (hroute : target ∈ d.routes) :
    verifyOrigin g d f item.object = .ok (some item) := by
  have hitem : InGraph g true item := inGraph_of_mem hd hmem
  have htarget : InGraph g false target := inGraph_of_mem hd hroute
  obtain ⟨hmethod, -, hmethodSubject⟩ := mem_propertiesOf.mp hitem.method
  obtain ⟨hpath, -, hpathSubject⟩ := mem_propertiesOf.mp hitem.path
  obtain ⟨hmethod', -, hmethodSubject'⟩ := mem_propertiesOf.mp htarget.method
  obtain ⟨hpath', -, hpathSubject'⟩ := mem_propertiesOf.mp htarget.path
  have hne : target.object.objectId ≠ item.object.objectId := (object_ne hitem htarget).symm
  have hpremises : f.premiseFactIds.mapM (fun id => got (g.fact? id)) =
      .ok [item.method, item.path, target.method, target.path] := by
    rw [hf.premises]
    change (premisesOf item target).mapM _ = _
    unfold premisesOf
    simp only [List.mapM_cons, List.mapM_nil, fact?_of_mem hmethod, fact?_of_mem hpath,
      fact?_of_mem hmethod', fact?_of_mem hpath']
    rfl
  have hmethods : premisesUnder [item.method, item.path, target.method, target.path] item.object
      "httpMethod" = [item.method] := by
    simp [premisesUnder, hmethodSubject, hpathSubject, hmethodSubject',
      hpathSubject', hne, hitem.methodPredicate, path_of_contract hitem]
  have hpaths : premisesUnder [item.method, item.path, target.method, target.path] item.object
      "path" = [item.path] := by
    simp [premisesUnder, hmethodSubject, hpathSubject, hmethodSubject',
      hpathSubject', hne, hitem.methodPredicate, path_of_contract hitem]
  unfold verifyOrigin
  rw [hpremises]
  change (do
    check ((premisesUnder [item.method, item.path, target.method, target.path] item.object
      "httpMethod").length = 1 ∧ (premisesUnder [item.method, item.path, target.method,
        target.path] item.object "path").length = 1) "端点合同缺少来源方法或路径前提"
    return do
      let m ← (premisesUnder [item.method, item.path, target.method, target.path] item.object
        "httpMethod").head?
      let p ← (premisesUnder [item.method, item.path, target.method, target.path] item.object
        "path").head?
      byOrigin d item.object.objectId m.factId p.factId) = _
  rw [hmethods, hpaths, check_pass ⟨rfl, rfl⟩]
  exact congrArg Except.ok (byOrigin_self hd hmem)

theorem verifyCandidate_pass (h : Matched d item target) :
    verifyCandidate d (some item) target.object = .ok (item, target) := by
  have hcandidates : group d.routes item.key = [target] := by
    obtain ⟨e, -, -, hone⟩ := filter_of_alone h.aloneRoute
    have hmem : target ∈ d.routes.filter fun e => e.key = item.key :=
      List.mem_filter.mpr ⟨h.route, decide_eq_true h.key⟩
    rw [hone, List.mem_singleton] at hmem
    unfold group
    rw [group_eq, hone, hmem]
  have horigins : (group d.contracts item.key).length = 1 := by
    unfold group
    rw [group_eq]
    exact h.aloneContract
  unfold verifyCandidate
  dsimp only [Option.map_some, Option.getD_some]
  rw [hcandidates, check_pass]
  · rfl
  · simp [horigins]

theorem verifyPremises_pass
    (hf : Recorded sha256 g.evidence item.material (matchInput item target) f)
    (hitem : InGraph g true item) (htarget : InGraph g false target) :
    verifyPremises f item target = .ok () := by
  have hsame : f.premiseFactIds = premisesOf item target := hf.premises
  unfold verifyPremises
  apply check_pass
  rw [hsame]
  exact ⟨rfl, (OrderedMap.nodup_iff_size _).mpr (premisesOf_nodup hitem htarget), fun _ h => h⟩

theorem evidence?_of_mem {e : Evidence} (h : e ∈ g.evidence) :
    g.evidence? e.evidenceId = some e :=
  find?_of_key g.evidenceIds h

/-- An evidence id tells the material and the anchor. -/
theorem place_of_evidenceId (hsha : Function.Injective sha256) {materialId materialId' kind' : String}
    {content content' : Option String} {anchor' : Anchor}
    (h : createEvidenceId sha256 materialId content anchor kind = .ok id)
    (h' : createEvidenceId sha256 materialId' content' anchor' kind' = .ok id) :
    materialId = materialId' ∧
      SourceIdentity.sortKeys (.obj anchor) = SourceIdentity.sortKeys (.obj anchor') := by
  obtain ⟨m, hm, h⟩ := bind_ok h
  obtain ⟨c, -, h⟩ := bind_ok h
  obtain ⟨k, -, h⟩ := bind_ok h
  obtain ⟨m', hm', h'⟩ := bind_ok h'
  obtain ⟨c', -, h'⟩ := bind_ok h'
  obtain ⟨k', -, h'⟩ := bind_ok h'
  obtain ⟨rfl, -⟩ := And.imp_left Option.some.inj (FactIdentity.requireHexId_ok hm)
  obtain ⟨rfl, -⟩ := And.imp_left Option.some.inj (FactIdentity.requireHexId_ok hm')
  have hsame := FactIdentity.canonicalDigest_injective hsha
    ((Except.ok.inj h).trans (Except.ok.inj h').symm)
  refine ⟨Json.str.inj (FactIdentity.field_eq hsame "materialId" (.str materialId)
    (.str materialId') (by simp) (by simp)), ?_⟩
  exact FactIdentity.field_eq hsame "anchor" (.obj anchor) (.obj anchor') (by simp) (by simp)

theorem verifyEvidence_pass (hsha : Function.Injective sha256)
    (hown : ∀ e ∈ g.evidence, Own sha256 e)
    (hf : Recorded sha256 g.evidence item.material (matchInput item target) f)
    (hitem : InGraph g true item) : verifyEvidence sha256 g f item.object = .ok () := by
  obtain ⟨e, he, hids, hid⟩ := hf.evidence
  obtain ⟨hmaterial, hanchor⟩ := place_of_evidenceId hsha (hown e he) hid
  have hplace := ((get?_materialById g.materialIds).mp hitem.material).2
  unfold verifyEvidence
  rw [hids, check_pass (List.length_singleton (a := e.evidenceId))]
  change (do
    let evidence ← got (g.evidence? e.evidenceId)
    check (evidence.materialId = item.object.materialId ∧
        anchorDigest sha256 evidence.anchor = anchorDigest sha256 item.object.anchor)
      "端点合同证据没有回到合同声明锚点") = _
  rw [evidence?_of_mem he]
  exact check_pass ⟨hmaterial.trans hplace, RecordVerification.canonicalDigest_congr _ hanchor⟩

/-- A match that was recorded is accepted, within the limit. -/
theorem verifyMatch_pass (hsha : Function.Injective sha256) (henabled : limits.enabled = true)
    (hd : endpointDeclarations g.objects g.facts (materialById g.materials) = .ok d)
    (hown : ∀ e ∈ g.evidence, Own sha256 e) (hmatched : Matched d item target)
    (hf : Recorded sha256 g.evidence item.material (matchInput item target) f)
    (hrule : item.method.ruleRef = item.material.input.ruleRef) {n : Nat}
    (hn : (n + 1 : ℚ) ≤ limits.matchLimit) : verifyMatch sha256 g limits d n f = .ok () := by
  have hitem : InGraph g true item := inGraph_of_mem hd hmatched.contract
  have htarget : InGraph g false target := inGraph_of_mem hd hmatched.route
  unfold verifyMatch
  rw [verifyRelation_pass henabled hf hitem hrule, check_pass hn,
    verifyEnds_pass hf hitem htarget hmatched.key]
  change (do
    let entry ← verifyOrigin g d f item.object
    let ends ← verifyCandidate d entry target.object
    verifyPremises f ends.1 ends.2
    verifyEvidence sha256 g f item.object) = _
  rw [verifyOrigin_pass hd hf hmatched.contract hmatched.route]
  change (do
    let ends ← verifyCandidate d (some item) target.object
    verifyPremises f ends.1 ends.2
    verifyEvidence sha256 g f item.object) = _
  rw [verifyCandidate_pass hmatched]
  change (do
    verifyPremises f item target
    verifyEvidence sha256 g f item.object) = _
  rw [verifyPremises_pass hf hitem htarget]
  exact verifyEvidence_pass hsha hown hf hitem

def isMatch (f : Fact) : Bool := decide (f.predicate = "matchesEndpointContract")

theorem verifyMatches_pass {N count : Nat} {facts : List Fact}
    (h : ∀ f ∈ facts, f.predicate = "matchesEndpointContract" → ∀ n < N,
      verifyMatch sha256 g limits d n f = .ok ()) (hcount : count + facts.countP isMatch ≤ N) :
    verifyMatches sha256 g limits d count facts = .ok (count + facts.countP isMatch) := by
  induction facts generalizing count with
  | nil => rfl
  | cons f facts ih =>
    have hrest := fun x hx => h x (List.mem_cons_of_mem f hx)
    rw [verifyMatches, List.countP_cons] at *
    by_cases hmatch : f.predicate = "matchesEndpointContract"
    · have hone : isMatch f = true := decide_eq_true hmatch
      rw [if_pos hone] at hcount ⊢
      rw [if_pos hmatch, h f List.mem_cons_self hmatch count (by omega)]
      have htail : verifyMatches sha256 g limits d (count + 1) facts =
          .ok (count + 1 + facts.countP isMatch) := ih hrest (by omega)
      have hsum : count + (facts.countP isMatch + 1) = count + 1 + facts.countP isMatch := by omega
      rw [hsum]
      exact htail
    · have hnone : isMatch f = false := decide_eq_false hmatch
      rw [hnone] at hcount ⊢
      rw [if_neg hmatch]
      exact ih hrest hcount

end Matches

/-! ## An ambiguity is accepted -/

section Ambiguities

variable {limits : Limits} {objects : List Object} {facts : List Fact} {materials : List Material}
variable {g : Graph} {d d' : Declarations}

def ambiguous : String := "ENDPOINT_CONTRACT_AMBIGUOUS"

theorem codes_of_concat {ds : List Declarations}
    (h : ∀ d ∈ ds, ∀ i ∈ d.invalidContracts, i.code ≠ ambiguous) :
    ∀ i ∈ (Declarations.concat ds).invalidContracts, i.code ≠ ambiguous := by
  intro i hi
  obtain ⟨d, hd, hi⟩ := List.mem_flatMap.mp hi
  exact h d hd i hi

variable {material : Option Material}

theorem codes_of_invalid {object : Object}
    (hcode : code ≠ ambiguous) :
    ∀ i ∈ (invalid contract object material code).invalidContracts, i.code ≠ ambiguous := by
  unfold invalid
  intro i hi
  split_ifs at hi
  · obtain rfl := List.mem_singleton.mp hi
    exact hcode
  · cases hi

theorem codes_of_path {object : Object}
    {rule : String} {method path : Fact}
    (h : declaredPath object material contract rule method path = .ok d) :
    ∀ i ∈ d.invalidContracts, i.code ≠ ambiguous := by
  unfold declaredPath at h
  split at h
  · cases h
    exact codes_of_invalid (by decide)
  · split at h
    · cases h
    · cases h
      intro i hi
      split_ifs at hi <;> cases hi

theorem codes_of_declared {object : Object}
    {rule : String} (h : declared facts object material contract rule = .ok d) :
    ∀ i ∈ d.invalidContracts, i.code ≠ ambiguous := by
  unfold declared at h
  dsimp only at h
  split_ifs at h
  · cases h
  split at h
  · obtain ⟨ds, hds, h⟩ := bind_ok h
    cases h
    apply codes_of_concat
    intro x hx
    obtain ⟨path, -, hpath⟩ := exists_source (mapM_ok hds) hx
    exact codes_of_path hpath
  · cases h
    exact codes_of_invalid (by decide)

/-- An invalid declaration is not an ambiguity. -/
theorem codes_of_declarations {materials : List (String × Material)}
    (h : endpointDeclarations objects facts materials = .ok d) :
    ∀ i ∈ d.invalidContracts, i.code ≠ ambiguous := by
  obtain ⟨ds, hds, h⟩ := bind_ok h
  cases h
  apply codes_of_concat
  intro x hx
  obtain ⟨o, -, hdeclaration⟩ := exists_source (mapM_ok hds) hx
  unfold declaration at hdeclaration
  split_ifs at hdeclaration
  · cases hdeclaration
    exact fun i hi => absurd hi List.not_mem_nil
  · obtain ⟨rule, -, hdeclaration⟩ := bind_ok hdeclaration
    split_ifs at hdeclaration
    · cases hdeclaration
      exact fun i hi => absurd hi List.not_mem_nil
    · exact codes_of_declared hdeclaration

theorem gap_of_gapAction {code' : String}
    {anchor' extra' : Anchor} {m : Material}
    (h : gapAction material code anchor extra = .gap m code' anchor' extra') : code = code' := by
  unfold gapAction at h
  split at h
  · cases h
    rfl
  · cases h

/-- The entries that share the key. -/
def sharing (items : List Entry) (key : String) : List Entry := items.filter fun e => e.key = key

theorem outcome_ambiguous {item : Entry} {m : Material}
    (h : outcomeIn limits d item = .inl (.gap m ambiguous anchor extra)) :
    m = item.material ∧
      extra = ambiguity limits (sharing d.routes item.key) (sharing d.contracts item.key) := by
  unfold outcomeIn outcome at h
  simp only [group_eq] at h
  split_ifs at h
  · cases h
    exact ⟨rfl, rfl⟩
  · split at h
    · have hcode := (Action.gap.inj (Sum.inl.inj h)).2.1
      exact absurd hcode (by decide)
    · cases h

/-- An ambiguity comes from a contract, with what shares its key. -/
theorem ambiguity_of_actions (henabled : limits.enabled = true)
    (hd : endpointDeclarations objects facts (materialById materials) = .ok d) {m : Material}
    (h : Action.gap m ambiguous anchor extra ∈
      resolveEndpointContracts limits objects facts materials) :
    ∃ item ∈ d.contracts, m = item.material ∧
      extra = ambiguity limits (sharing d.routes item.key) (sharing d.contracts item.key) := by
  by_cases hover : OverDeclared limits objects
  · rw [resolve_over henabled hover] at h
    obtain ⟨o, -, heq⟩ := List.mem_map.mp h
    exact absurd (gap_of_gapAction heq) (by decide)
  · rw [resolve_eq henabled hover hd, resolved_eq, List.mem_append, List.mem_append] at h
    rcases h with (h | h) | h
    · obtain ⟨i, hi, heq⟩ := List.mem_map.mp h
      exact absurd (gap_of_gapAction heq) (codes_of_declarations hd i hi)
    · obtain ⟨out, hout, hleft⟩ := List.mem_filterMap.mp h
      obtain ⟨item, hitem, rfl⟩ := List.mem_map.mp hout
      exact ⟨item, hitem, outcome_ambiguous (Sum.getLeft?_eq_some_iff.mp hleft)⟩
    · split_ifs at h
      · obtain ⟨p, -, heq⟩ := List.mem_map.mp h
        exact absurd (Action.gap.inj heq).2.1 (by decide)
      · obtain ⟨p, -, heq⟩ := List.mem_map.mp h
        cases heq

theorem sliceTo_of_nonneg {α : Type} (items : List α) {end_ : ℚ} (h : 0 ≤ end_) :
    sliceTo items end_ = items.take ⌊end_⌋.toNat := if_pos h

theorem length_sliceTo {α : Type} (items : List α) {end_ : ℚ} (h : 0 ≤ end_) :
    ((sliceTo items end_).length : ℚ) ≤ end_ := by
  have hfloor : 0 ≤ ⌊end_⌋ := Int.floor_nonneg.mpr h
  have hlength : (sliceTo items end_).length ≤ ⌊end_⌋.toNat := by
    rw [sliceTo_of_nonneg items h]
    exact List.length_take_le _ _
  have hcast : ((⌊end_⌋.toNat : ℤ) : ℚ) ≤ end_ := by
    rw [Int.toNat_of_nonneg hfloor]
    exact Int.floor_le end_
  calc ((sliceTo items end_).length : ℚ) ≤ (⌊end_⌋.toNat : ℚ) := by exact_mod_cast hlength
    _ ≤ end_ := by exact_mod_cast hcast

theorem idsOf_nodup (entries : List Entry) : (idsOf entries).Nodup :=
  (List.perm_insertionSort _ _).nodup_iff.mpr (OrderedMap.nodup_eraseDups _)

theorem mem_idsOf {entries : List Entry} :
    id ∈ idsOf entries ↔ ∃ e ∈ entries, e.object.objectId = id := by
  unfold idsOf
  rw [List.mem_insertionSort, List.mem_eraseDups, List.mem_map]

theorem forM_pass {α ε : Type} {f : α → Except ε Unit} {xs : List α}
    (h : ∀ x ∈ xs, f x = .ok ()) : xs.forM f = .ok () := by
  induction xs with
  | nil => rfl
  | cons x xs ih =>
    change (do
      f x
      xs.forM f) = _
    rw [h x List.mem_cons_self]
    exact ih fun y hy => h y (List.mem_cons_of_mem x hy)

theorem verifyRef_pass {componentId : String} {o : Object} {m : Material}
    (ho : g.object? o.objectId = some o) (hkind : o.kind = kind)
    (hm : g.material? o.materialId = some m) (hcomponent : m.input.componentId = componentId) :
    verifyRef g (some componentId) kind (.str o.objectId) = .ok () := by
  unfold verifyRef
  dsimp only
  rw [ho]
  dsimp only
  rw [check_pass hkind, hm]
  exact check_pass (congrArg some hcomponent)

/-- A list of an ambiguity is accepted: objects of one kind, in the component of the contract. -/
theorem verifyRefs_pass (henabled : limits.enabled = true) (hrefs : 0 ≤ limits.refLimit) {gap : Gap}
    {m : Material} {key : String} {entries : List Entry}
    (hmaterial : gap.materialId.bind g.material? = some m)
    (hids : gap.reason.lookup key = some (.arr ((sliceTo (idsOf entries) limits.refLimit).map
      .str)))
    (hentries : ∀ e ∈ entries, g.object? e.object.objectId = some e.object ∧ e.object.kind = kind ∧
      g.material? e.object.materialId = some e.material ∧
      e.material.input.componentId = m.input.componentId) :
    verifyRefs g limits gap key kind = .ok () := by
  have htake := sliceTo_of_nonneg (idsOf entries) hrefs
  have hnodup : ((sliceTo (idsOf entries) limits.refLimit).map Json.str).Nodup := by
    rw [htake]
    exact ((idsOf_nodup entries).sublist (List.take_sublist _ _)).map fun _ _ => Json.str.inj
  have hlength := length_sliceTo (idsOf entries) hrefs
  unfold verifyRefs
  dsimp only
  rw [hmaterial, hids, check_pass]
  · apply forM_pass
    intro id hid
    obtain ⟨text, htext, rfl⟩ := List.mem_map.mp hid
    rw [htake] at htext
    obtain ⟨e, he, rfl⟩ := mem_idsOf.mp (List.mem_of_mem_take htext)
    obtain ⟨hobject, hkind, hplace, hcomponent⟩ := hentries e he
    exact verifyRef_pass hobject hkind hplace hcomponent
  · refine ⟨henabled, rfl, ?_, (OrderedMap.nodup_iff_size _).mpr hnodup⟩
    change ((((sliceTo (idsOf entries) limits.refLimit).map Json.str).length : Nat) : ℚ) ≤ _
    rw [List.length_map]
    exact hlength

theorem entry_of_index (hd : endpointDeclarations g.objects g.facts (materialById g.materials) =
    .ok d) {side : Bool} {item : Entry} (he : e ∈ d.side side)
    (hitem : item ∈ d.contracts) (hkey : e.key = item.key) :
    g.object? e.object.objectId = some e.object ∧
      e.object.kind = (if side = true then "OPENAPI_OPERATION" else "ROUTE") ∧
      g.material? e.object.materialId = some e.material ∧
      e.material.input.componentId = item.material.input.componentId := by
  have hin : InGraph g side e := inGraph_of_mem hd he
  have hin' : InGraph g true item := inGraph_of_mem hd hitem
  obtain ⟨rule, shape, -, -, -, -, -, hentryKey⟩ := hin.key
  obtain ⟨rule', shape', -, -, -, -, -, hitemKey⟩ := hin'.key
  rw [hentryKey, hitemKey] at hkey
  refine ⟨object?_of_mem hin.object, ?_, material?_of_entry hin, componentId_eq hkey⟩
  cases side with
  | false => exact kind_of_route hin
  | true => exact kind_of_contract hin

theorem verifyAmbiguity_pass (henabled : limits.enabled = true) (hrefs : 0 ≤ limits.refLimit)
    (hd' : endpointDeclarations g.objects g.facts (materialById g.materials) = .ok d')
    (hsame : SameEntries d d') {item : Entry} (hitem : item ∈ d.contracts) {gap : Gap}
    (hmaterial : gap.materialId = some item.material.materialId)
    (hreason : gap.reason = ("category", .str ambiguous) ::
      ambiguity limits (sharing d.routes item.key) (sharing d.contracts item.key)) :
    verifyAmbiguity g limits gap = .ok () := by
  have hitem' : item ∈ d'.contracts := hsame.1.mem_iff.mp hitem
  have hin : InGraph g true item := inGraph_of_mem hd' hitem'
  have hplace : gap.materialId.bind g.material? = some item.material := by
    rw [hmaterial]
    exact material?_of_mem ((get?_materialById g.materialIds).mp hin.material).1
  unfold verifyAmbiguity
  have hroutes : verifyRefs g limits gap "candidateObjectIds" "ROUTE" = .ok () := by
    apply @verifyRefs_pass _ limits g henabled hrefs gap _ _ (sharing d.routes item.key) hplace
    · rw [hreason]
      rfl
    · intro e he
      obtain ⟨he, hkey⟩ := List.mem_filter.mp he
      exact @entry_of_index e g d' hd' false item (hsame.2.mem_iff.mp he) hitem'
        (of_decide_eq_true hkey)
  rw [hroutes]
  apply verifyRefs_pass henabled hrefs hplace
  · rw [hreason]
    rfl
  · intro e he
    obtain ⟨he, hkey⟩ := List.mem_filter.mp he
    exact @entry_of_index e g d' hd' true item (hsame.1.mem_iff.mp he) hitem'
      (of_decide_eq_true hkey)

end Ambiguities

/-! ## Both sides -/

section Both

variable {sha256 : String → String} {limits : Limits} {materials : List Material} {s t : State}
variable {g : Graph} {d : Declarations}

theorem length_matches (hs : Extracted sha256 materials s)
    (hrun : Performed sha256 (actionsOf limits materials s) s t) (hg : Filed materials t g) :
    g.facts.countP isMatch ≤ (actionsOf limits materials s).countP isFact := by
  obtain ⟨fresh, hfacts, hlength, -⟩ := hrun.facts
  have hbefore : s.facts.countP isMatch = 0 := by
    rw [List.countP_eq_zero]
    exact fun f hf hmatch => hs.unmatched f hf (of_decide_eq_true hmatch)
  have hfresh := List.countP_le_length (p := isMatch) (l := fresh)
  rw [← hg.facts.countP_eq, hfacts, List.countP_append]
  omega

/-- What is recorded of a match is a fact of the actions. -/
theorem recorded_of_match (henabled : limits.enabled = true) (hs : Extracted sha256 materials s)
    (hd : endpointDeclarations s.objects s.facts (materialById materials) = .ok d)
    (hrun : Performed sha256 (actionsOf limits materials s) s t) (hg : Filed materials t g)
    {f : Fact} (hf : f ∈ g.facts) (hmatch : f.predicate = "matchesEndpointContract") :
    ¬ OverDeclared limits s.objects ∧ ¬ limits.matchLimit < (matchable d).length ∧
      ∃ item target, Matched d item target ∧
        Recorded sha256 g.evidence item.material (matchInput item target) f := by
  obtain ⟨fresh, hfacts, -, hfrom⟩ := hrun.facts
  have hmem := hg.facts.mem_iff.mpr hf
  rw [hfacts, List.mem_append] at hmem
  rcases hmem with hmem | hmem
  · exact absurd hmatch (hs.unmatched f hmem)
  · obtain ⟨m, input, haction, hrecorded⟩ := hfrom f hmem
    obtain ⟨hover, hlimit, item, target, hmatched, rfl, rfl⟩ :=
      fact_of_actions henabled hd haction
    exact ⟨hover, hlimit, item, target, hmatched, hrecorded.mono hg.evidence.subset⟩

theorem rule_of_item (hs : Extracted sha256 materials s) (hids : (materials.map
      (·.materialId)).Nodup)
    (hd : endpointDeclarations s.objects s.facts (materialById materials) = .ok d) {item : Entry}
    (hitem : item ∈ d.contracts) : item.method.ruleRef = item.material.input.ruleRef := by
  have hdeclared : Declared s.objects s.facts (materialById materials) true item :=
    entry_declared hd hitem
  obtain ⟨hmethod, hkind, hsubject⟩ := mem_propertiesOf.mp hdeclared.method
  obtain ⟨hmaterial, hid⟩ := (get?_materialById hids).mp hdeclared.material
  exact hs.rules _ hmethod hkind _ hdeclared.object hdeclared.kind hsubject.symm _ hmaterial hid

/-- The records with what was resolved are accepted. -/
theorem verify_filed (hsha : Function.Injective sha256) (henabled : limits.enabled = true)
    (hrefs : 0 ≤ limits.refLimit) (hs : Extracted sha256 materials s) (ht : Consistent sha256 t)
    (hrun : Performed sha256 (actionsOf limits materials s) s t) (hg : Filed materials t g) :
    verifyEndpointContracts sha256 g limits = .ok () := by
  obtain ⟨d, hd⟩ := endpointDeclarations_total hs.placed hs.ruled
  obtain ⟨d', hd', hsame⟩ := index_filed henabled hd hrun hg
  have hids : (materials.map (·.materialId)).Nodup :=
    (hg.materials.map (·.materialId)).nodup_iff.mpr g.materialIds
  have hown : ∀ e ∈ g.evidence, Own sha256 e := fun e he => ht.own e (hg.evidence.mem_iff.mpr he)
  have hcount := length_matches hs hrun hg
  have hplanned := countP_facts henabled hd
  have hmatches : verifyMatches sha256 g limits d' 0 g.facts =
      .ok (0 + g.facts.countP isMatch) := by
    apply verifyMatches_pass (N := g.facts.countP isMatch)
    · intro f hf hmatch n hn
      obtain ⟨-, hlimit, item, target, hmatched, hrecorded⟩ :=
        recorded_of_match henabled hs hd hrun hg hf hmatch
      refine verifyMatch_pass hsha henabled hd' hown (hsame.matched hmatched) hrecorded
        (rule_of_item hs hids hd hmatched.contract) ?_
      have hle : n + 1 ≤ (matchable d).length := by omega
      calc ((n : ℚ) + 1) ≤ ((matchable d).length : ℚ) := by exact_mod_cast hle
        _ ≤ limits.matchLimit := not_lt.mp hlimit
    · omega
  have hover : g.facts.countP isMatch ≠ 0 → ¬ OverDeclared limits s.objects := by
    intro hsome
    obtain ⟨f, hf, hmatch⟩ := List.countP_pos_iff.mp (Nat.pos_of_ne_zero hsome)
    exact (recorded_of_match henabled hs hd hrun hg hf (of_decide_eq_true hmatch)).1
  unfold verifyEndpointContracts
  rw [hd']
  change (do
    let count ← verifyMatches sha256 g limits d' 0 g.facts
    onlyIf (count ≠ 0)
      (check (((g.objects.filter isDeclaration).length : ℚ) ≤ limits.declarationLimit)
        "端点合同声明预算越界")
    (g.gaps.filter fun gap : Gap => gap.code = "ENDPOINT_CONTRACT_AMBIGUOUS").forM
      (verifyAmbiguity g limits)) = _
  rw [hmatches]
  change (do
    onlyIf (0 + g.facts.countP isMatch ≠ 0)
      (check (((g.objects.filter isDeclaration).length : ℚ) ≤ limits.declarationLimit)
        "端点合同声明预算越界")
    (g.gaps.filter fun gap : Gap => gap.code = "ENDPOINT_CONTRACT_AMBIGUOUS").forM
      (verifyAmbiguity g limits)) = _
  have hdeclared : onlyIf (0 + g.facts.countP isMatch ≠ 0)
      (check (((g.objects.filter isDeclaration).length : ℚ) ≤ limits.declarationLimit)
        "端点合同声明预算越界") = .ok () := by
    unfold onlyIf
    split_ifs with hsome
    · apply check_pass
      have hobjects : s.objects.Perm g.objects := hrun.objects ▸ hg.objects
      rw [← (hobjects.filter isDeclaration).length_eq]
      exact not_lt.mp (hover (by omega))
    · rfl
  rw [hdeclared]
  apply forM_pass
  intro gap hgap
  obtain ⟨hmem, hcode⟩ := List.mem_filter.mp hgap
  obtain ⟨fresh, hgaps, hfrom⟩ := hrun.gaps
  have hmem' := hg.gaps.mem_iff.mpr hmem
  rw [hgaps, List.mem_append] at hmem'
  rcases hmem' with hmem' | hmem'
  · exact absurd (of_decide_eq_true hcode) (hs.unambiguous gap hmem')
  · obtain ⟨m, code, anchor, extra, haction, hmaterial, hsameCode, hreason⟩ := hfrom gap hmem'
    obtain rfl : code = ambiguous := hsameCode.symm.trans (of_decide_eq_true hcode)
    obtain ⟨item, hitem, rfl, rfl⟩ := ambiguity_of_actions henabled hd haction
    exact verifyAmbiguity_pass henabled hrefs hd' hsame hitem hmaterial hreason

end Both

/-! ## Endpoint contracts -/

/-- What is emitted: a fact for exactly the matches, unless a limit is hit, and a gap for every
other declaration of an operation and for every operation without one. -/
structure Emitted (limits : Limits) (objects : List Object) (facts : List Fact)
    (materials : List Material) (d : Declarations) : Prop where
  facts_iff : ∀ m input,
    Action.fact m input ∈ resolveEndpointContracts limits objects facts materials ↔
      ¬ OverDeclared limits objects ∧ ¬ limits.matchLimit < (matchable d).length ∧
        ∃ item target, Matched d item target ∧ m = item.material ∧
          input = matchInput item target
  declarations : ∀ item ∈ d.contracts, (∃ target, Action.fact item.material
      (matchInput item target) ∈ resolveEndpointContracts limits objects facts materials) ∨
    Reported (resolveEndpointContracts limits objects facts materials) item.object
  operations : ∀ o ∈ objects, isContract o = true → (∃ item ∈ d.contracts, item.object = o) ∨
    Reported (resolveEndpointContracts limits objects facts materials) o

section Emitting

variable {limits : Limits} {objects : List Object} {facts : List Fact} {materials : List Material}
variable {d : Declarations}

theorem reported_over (henabled : limits.enabled = true)
    (hplaced : Placed objects (materialById materials)) (hover : OverDeclared limits objects)
    {o : Object} (ho : o ∈ objects) (hcontract : isContract o = true) :
    Reported (resolveEndpointContracts limits objects facts materials) o := by
  rw [resolve_over henabled hover]
  obtain ⟨m, hm⟩ := hplaced o ho
  have hkind : isDeclaration o = true := by
    unfold isDeclaration
    rw [of_decide_eq_true hcontract]
    rfl
  refine reported_of_gap _ _ hm (List.mem_map.mpr ⟨o, ?_, by rw [hm]; rfl⟩)
  exact List.mem_filter.mpr ⟨List.mem_filter.mpr ⟨ho, hkind⟩, hcontract⟩

theorem emitted (henabled : limits.enabled = true)
    (hplaced : Placed objects (materialById materials))
    (hd : endpointDeclarations objects facts (materialById materials) = .ok d) :
    Emitted limits objects facts materials d := by
  refine ⟨fun m input => fact_mem_resolve henabled hd, ?_, ?_⟩
  · intro item hitem
    have hdeclared : Declared objects facts (materialById materials) true item :=
      entry_declared hd hitem
    by_cases hover : OverDeclared limits objects
    · exact Or.inr (reported_over henabled hplaced hover hdeclared.object hdeclared.kind)
    · rw [resolve_eq henabled hover hd]
      exact entry_settled hd hitem
  · intro o ho hcontract
    by_cases hover : OverDeclared limits objects
    · exact Or.inr (reported_over henabled hplaced hover ho hcontract)
    · rw [resolve_eq henabled hover hd]
      rcases endpointDeclarations_covers hd ho hcontract with hentry | ⟨i, hi, rfl, hmaterial⟩
      · exact Or.inl hentry
      · exact Or.inr (invalid_reported hplaced ho hi hmaterial)

end Emitting

def shapeLimits : Limits :=
  { endpointContracts := some (.str "component-path-shape-v1"), maxEndpointDeclarations := none
    maxEndpointMatches := none, maxEndpointCandidateRefs := none }

/-- A material of the component `c`, under a rule of version 2. -/
def materialUnder (materialId rule : String) : Material :=
  { input := { componentId := "c", pathBytes := "YQ", rawPath := [97], displayPath := some "a"
               bytesDigest := "", isUtf8 := true, privateKey := false, contentAvailable := true
               contentDigest := none, unavailableCode := none, kind := .JSON
               ruleRef := some { id := rule, version := "2" } }
    materialId, contentDigest := none, root := none }

def orderMaterials : List Material :=
  [materialUnder "m1" "f002-json", materialUnder "m2" "f002-javascript"]

def orderObjects : List Object :=
  [{ objectId := "operation", materialId := "m1", kind := "OPENAPI_OPERATION"
     name := "GET /orders/\x7bid\x7d", anchor := [] },
    { objectId := "route", materialId := "m2", kind := "ROUTE", name := "GET /orders/:id"
      anchor := [] }]

def textProperty (factId subjectId predicate basis rule value : String) : Fact :=
  { factId, kind := "PROPERTY", subjectId, predicate, targetId := none
    value := some [("datatype", .str "string"), ("value", .str value)], basis, evidenceIds := []
    ruleRef := some { id := rule, version := "2" }, premiseFactIds := [] }

def orderFacts : List Fact :=
  [textProperty "f1" "operation" "httpMethod" "DECLARED" "f002-json" "GET",
    textProperty "f2" "operation" "path" "DECLARED" "f002-json" "/orders/\x7bid\x7d",
    textProperty "f3" "route" "httpMethod" "DECLARED" "f002-javascript" "GET",
    textProperty "f4" "route" "effectivePath" "DERIVED" "f002-javascript" "/orders/:id"]

theorem order_placed : Placed orderObjects (materialById orderMaterials) := by
  intro o ho
  rcases List.mem_pair.mp ho with rfl | rfl
  · exact ⟨materialUnder "m1" "f002-json", rfl⟩
  · exact ⟨materialUnder "m2" "f002-javascript", rfl⟩

theorem order_ruled : Ruled orderFacts := by
  intro f hf _
  simp only [orderFacts, List.mem_cons, List.not_mem_nil, or_false] at hf
  rcases hf with rfl | rfl | rfl | rfl <;> rfl

end Traqen.EndpointContracts
