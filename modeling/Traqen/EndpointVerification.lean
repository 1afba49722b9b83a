-- The verification of endpoint contracts (`deterministic-facts/endpoint-verification.js`), which
-- makes the index anew: what it accepts is alone under its key on both sides, and has exactly the
-- four declared facts for its premises.
import Traqen.EndpointEmission
import Traqen.RecordClosure

open Js

namespace Traqen.EndpointContracts

open CompileBudget (Object Fact Gap Evidence Material)
open FactIdentity (Anchor)
open Grouping (groupsOf)
open RecordVerification (Thrown checked identified onlyIf)
open ScopeLifecycle (canonicalDigest)

/-! ## The records -/

/-- The tables of the records: payloads, each under its own id. -/
structure Graph where
  objects : List Object
  facts : List Fact
  materials : List Material
  evidence : List Evidence
  gaps : List Gap
  objectIds : (objects.map (·.objectId)).Nodup
  factIds : (facts.map (·.factId)).Nodup
  materialIds : (materials.map (·.materialId)).Nodup
  evidenceIds : (evidence.map (·.evidenceId)).Nodup

namespace Graph

variable (g : Graph)

def object? (id : String) : Option Object := g.objects.find? fun o => o.objectId = id

def fact? (id : String) : Option Fact := g.facts.find? fun f => f.factId = id

def material? (id : String) : Option Material := g.materials.find? fun m => m.materialId = id

def evidence? (id : String) : Option Evidence := g.evidence.find? fun e => e.evidenceId = id

end Graph

/-! ## The checks -/

def check (condition : Prop) [Decidable condition] (reason : String) : Except Thrown Unit :=
  checked condition "F002_ENDPOINT_CONTRACT_INVALID" reason

/-- A property is read of the value. -/
def got {α : Type} : Option α → Except Thrown α
  | some a => .ok a
  | none => identified undefinedError

section Verification

variable (sha256 : String → String) (g : Graph) (limits : Limits) (d : Declarations)

/-- `byOrigin.get(..)`: the last contract with these facts. -/
def byOrigin (objectId methodId pathId : String) : Option Entry :=
  d.contracts.reverse.find? fun e =>
    e.object.objectId = objectId ∧ e.method.factId = methodId ∧ e.path.factId = pathId

/-- The premises about the source under a predicate. -/
def premisesUnder (premises : List Fact) (source : Object) (predicate : String) : List Fact :=
  premises.filter fun p => p.subjectId = source.objectId ∧ p.predicate = predicate

def group (items : List Entry) (key : String) : List Entry :=
  (OrderedMap.get? (groupsOf Entry.key items) key).getD []

/-- The relation as such. -/
def verifyRelation (f : Fact) : Except Thrown Unit := do
  check (limits.enabled = true ∧ f.kind = "RELATION") "端点合同关系不属于固定组件匹配能力"
  let rule ← got f.ruleRef
  check (rule.id = "f002-json" ∧ rule.version = "2" ∧ f.basis = "DERIVED")
    "端点合同关系不属于固定组件匹配能力"

/-- The two ends, in one component. -/
def verifyEnds (f : Fact) : Except Thrown (Object × Object) := do
  let source ← got (g.object? f.subjectId)
  check (source.kind = "OPENAPI_OPERATION") "端点合同关系越过组件或对象类型边界"
  let target ← got (f.targetId.bind g.object?)
  check (target.kind = "ROUTE") "端点合同关系越过组件或对象类型边界"
  let sourceMaterial ← got (g.material? source.materialId)
  let targetMaterial ← got (g.material? target.materialId)
  check (sourceMaterial.input.componentId = targetMaterial.input.componentId)
    "端点合同关系越过组件或对象类型边界"
  return (source, target)

/-- The contract that the premises about the source name. -/
def verifyOrigin (f : Fact) (source : Object) : Except Thrown (Option Entry) := do
  let premises ← f.premiseFactIds.mapM fun id => got (g.fact? id)
  let method := premisesUnder premises source "httpMethod"
  let path := premisesUnder premises source "path"
  check (method.length = 1 ∧ path.length = 1) "端点合同缺少来源方法或路径前提"
  return do
    let m ← method.head?
    let p ← path.head?
    byOrigin d source.objectId m.factId p.factId

/-- The contract and its only candidate. -/
def verifyCandidate (entry : Option Entry) (target : Object) : Except Thrown (Entry × Entry) := do
  let candidates := (entry.map fun e => group d.routes e.key).getD []
  check (entry.any (fun e => decide ((group d.contracts e.key).length = 1)) = true ∧
      candidates.length = 1 ∧
      candidates.head?.any (fun c => decide (c.object.objectId = target.objectId)) = true)
    "端点合同方法、路径形状或候选唯一性不成立"
  let e ← got entry
  let c ← got candidates.head?
  return (e, c)

def verifyPremises (f : Fact) (item target : Entry) : Except Thrown Unit :=
  check (f.premiseFactIds.length = 4 ∧ f.premiseFactIds.eraseDups.length = 4 ∧
    ∀ id ∈ premisesOf item target, id ∈ f.premiseFactIds) "端点合同缺少正确两端四项前提"

def anchorDigest (anchor : Anchor) : String :=
  canonicalDigest sha256 "ENDPOINT_ANCHOR" (.obj anchor)

def verifyEvidence (f : Fact) (source : Object) : Except Thrown Unit := do
  check (f.evidenceIds.length = 1) "端点合同证据没有回到合同声明锚点"
  let evidence ← got (f.evidenceIds.head?.bind g.evidence?)
  check (evidence.materialId = source.materialId ∧
      anchorDigest sha256 evidence.anchor = anchorDigest sha256 source.anchor)
    "端点合同证据没有回到合同声明锚点"

/-- One relation, behind `count` others. -/
def verifyMatch (count : Nat) (f : Fact) : Except Thrown Unit := do
  verifyRelation limits f
  check ((count + 1 : ℚ) ≤ limits.matchLimit) "端点合同关系预算越界"
  let (source, target) ← verifyEnds g f
  let entry ← verifyOrigin g d f source
  let (item, candidate) ← verifyCandidate d entry target
  verifyPremises f item candidate
  verifyEvidence sha256 g f source

/-- The loop over the facts, with the count of the relations. -/
def verifyMatches : Nat → List Fact → Except Thrown Nat
  | count, [] => .ok count
  | count, f :: fs =>
    if f.predicate = "matchesEndpointContract" then do
      verifyMatch sha256 g limits d count f
      verifyMatches (count + 1) fs
    else verifyMatches count fs

/-- One candidate of an ambiguity. -/
def verifyRef (componentId : Option String) (kind : String) (id : Json) : Except Thrown Unit :=
  match id with
  | .str id =>
    match g.object? id with
    | some o => do
      check (o.kind = kind) "端点合同歧义候选越过组件或引用未登记对象"
      let material ← got (g.material? o.materialId)
      check (some material.input.componentId = componentId)
        "端点合同歧义候选越过组件或引用未登记对象"
    | none => check False "端点合同歧义候选越过组件或引用未登记对象"
  | _ => check False "端点合同歧义候选越过组件或引用未登记对象"

/-- One of the two lists of an ambiguity. -/
def verifyRefs (gap : Gap) (key kind : String) : Except Thrown Unit := do
  let componentId := (gap.materialId.bind g.material?).map fun m => m.input.componentId
  let ids := gap.reason.lookup key
  check (limits.enabled = true ∧ RecordVerification.isArray ids = true ∧
      ((itemsOf ids).length : ℚ) ≤ limits.refLimit ∧
      (itemsOf ids).eraseDups.length = (itemsOf ids).length)
    "端点合同歧义候选列表无效"
  (itemsOf ids).forM (verifyRef g componentId kind)

def verifyAmbiguity (gap : Gap) : Except Thrown Unit := do
  verifyRefs g limits gap "candidateObjectIds" "ROUTE"
  verifyRefs g limits gap "contractObjectIds" "OPENAPI_OPERATION"

def verifyEndpointContracts : Except Thrown Unit := do
  let d ← identified (endpointDeclarations g.objects g.facts (materialById g.materials))
  let count ← verifyMatches sha256 g limits d 0 g.facts
  onlyIf (count ≠ 0)
    (check (((g.objects.filter isDeclaration).length : ℚ) ≤ limits.declarationLimit)
      "端点合同声明预算越界")
  (g.gaps.filter fun gap => gap.code = "ENDPOINT_CONTRACT_AMBIGUOUS").forM
    (verifyAmbiguity g limits)

end Verification

/-! ## What is looked up -/

variable {f : Fact}

section Lookups

variable {g : Graph}

theorem mem_of_object? {id : String} {o : Object} (h : g.object? id = some o) :
    o ∈ g.objects ∧ o.objectId = id :=
  ⟨List.mem_of_find?_eq_some h, by simpa using List.find?_some h⟩

theorem find?_of_key {α : Type} {key : α → String} {items : List α} (h : (items.map key).Nodup)
    {x : α} (hx : x ∈ items) : items.find? (fun y => key y = key x) = some x := by
  cases hfound : items.find? fun y => key y = key x with
  | none => exact absurd (List.find?_eq_none.mp hfound x hx) (by simp)
  | some y =>
    have hkey : key y = key x := by simpa using List.find?_some hfound
    exact congrArg some (List.inj_on_of_nodup_map h (List.mem_of_find?_eq_some hfound) hx hkey)

theorem object?_of_mem {o : Object} (h : o ∈ g.objects) : g.object? o.objectId = some o :=
  find?_of_key g.objectIds h

theorem fact?_of_mem (h : f ∈ g.facts) : g.fact? f.factId = some f :=
  find?_of_key g.factIds h

theorem material?_of_mem {m : Material} (h : m ∈ g.materials) :
    g.material? m.materialId = some m :=
  find?_of_key g.materialIds h

theorem got_ok {α : Type} {x : Option α} {a : α} (h : got x = .ok a) : x = some a := by
  cases x with
  | none => cases h
  | some b =>
    cases h
    rfl

theorem check_ok {condition : Prop} [Decidable condition] {reason : String}
    (h : check condition reason = .ok ()) : condition :=
  RecordVerification.checked_ok h

end Lookups

/-! ## Entries and their facts -/

section Facts

variable {g : Graph} {d : Declarations} {item target : Entry}

/-- An entry of the index of the graph. -/
def InGraph (g : Graph) (contract : Bool) (e : Entry) : Prop :=
  Declared g.objects g.facts (materialById g.materials) contract e

theorem inGraph_of_mem {side : Bool} {e : Entry}
    (hd : endpointDeclarations g.objects g.facts (materialById g.materials) = .ok d)
    (he : e ∈ d.side side) : InGraph g side e :=
  entry_declared hd he

theorem path_ne_method {contract : Bool} {e : Entry} (h : InGraph g contract e) :
    e.path.predicate ≠ "httpMethod" := by
  obtain ⟨rule, shape, -, -, -, hpath, -⟩ := h.key
  rw [hpath]
  unfold pathPredicate
  split_ifs
  · decide
  · decide

/-- The ids of facts that differ in a property differ. -/
theorem factId_ne {f' : Fact} (hf : f ∈ g.facts) (hf' : f' ∈ g.facts) (h : f ≠ f') :
    f.factId ≠ f'.factId :=
  fun heq => h (List.inj_on_of_nodup_map g.factIds hf hf' heq)

theorem object_ne (hitem : InGraph g true item) (htarget : InGraph g false target) :
    item.object.objectId ≠ target.object.objectId := by
  intro heq
  have hsame : item.object = target.object :=
    List.inj_on_of_nodup_map g.objectIds hitem.object htarget.object heq
  have hkind := hitem.kind
  rw [hsame, htarget.kind] at hkind
  cases hkind

/-- The four premises are four. -/
theorem premisesOf_nodup (hitem : InGraph g true item) (htarget : InGraph g false target) :
    (premisesOf item target).Nodup := by
  obtain ⟨hmethod, -, hmethodSubject⟩ := mem_propertiesOf.mp hitem.method
  obtain ⟨hpath, -, hpathSubject⟩ := mem_propertiesOf.mp hitem.path
  obtain ⟨hmethod', -, hmethodSubject'⟩ := mem_propertiesOf.mp htarget.method
  obtain ⟨hpath', -, hpathSubject'⟩ := mem_propertiesOf.mp htarget.path
  have hsubjects := object_ne hitem htarget
  have hpredicate : ∀ {e : Entry} {contract : Bool}, InGraph g contract e → e.method ≠ e.path := by
    intro e contract he heq
    exact path_ne_method he (heq ▸ he.methodPredicate)
  have hsubject : ∀ {f f' : Fact}, f.subjectId = item.object.objectId →
      f'.subjectId = target.object.objectId → f ≠ f' := by
    rintro f f' hf hf' rfl
    exact hsubjects (hf.symm.trans hf')
  unfold premisesOf
  simp only [List.nodup_cons, List.mem_cons, List.not_mem_nil, or_false, not_or, not_false_eq_true,
    List.nodup_nil, and_true]
  exact ⟨⟨factId_ne hmethod hpath (hpredicate hitem),
    factId_ne hmethod hmethod' (hsubject hmethodSubject hmethodSubject'),
    factId_ne hmethod hpath' (hsubject hmethodSubject hpathSubject')⟩,
    ⟨factId_ne hpath hmethod' (hsubject hpathSubject hmethodSubject'),
      factId_ne hpath hpath' (hsubject hpathSubject hpathSubject')⟩,
    factId_ne hmethod' hpath' (hpredicate htarget)⟩

end Facts

/-! ## What is accepted -/

section Accepted

variable {sha256 : String → String} {g : Graph} {limits : Limits} {d : Declarations}

theorem verifyMatches_mem {count total : Nat} {facts : List Fact}
    (h : verifyMatches sha256 g limits d count facts = .ok total) (hf : f ∈ facts)
    (hpredicate : f.predicate = "matchesEndpointContract") :
    ∃ n, verifyMatch sha256 g limits d n f = .ok () := by
  induction facts generalizing count with
  | nil => cases hf
  | cons x facts ih =>
    rw [verifyMatches] at h
    rcases List.mem_cons.mp hf with rfl | hf
    · rw [if_pos hpredicate] at h
      obtain ⟨u, hmatch, -⟩ := bind_ok h
      exact ⟨count, hmatch⟩
    · split_ifs at h with hx
      · obtain ⟨u, -, h⟩ := bind_ok h
        exact ih h hf
      · exact ih h hf

theorem byOrigin_some {objectId methodId pathId : String} {e : Entry}
    (h : byOrigin d objectId methodId pathId = some e) : e ∈ d.contracts ∧
      e.object.objectId = objectId ∧ e.method.factId = methodId ∧ e.path.factId = pathId := by
  unfold byOrigin at h
  exact ⟨List.mem_reverse.mp (List.mem_of_find?_eq_some h), by simpa using List.find?_some h⟩

theorem verifyOrigin_ok {source : Object} {e : Entry}
    (h : verifyOrigin g d f source = .ok (some e)) :
    e ∈ d.contracts ∧ e.object.objectId = source.objectId := by
  obtain ⟨premises, -, h⟩ := bind_ok h
  obtain ⟨u, -, h⟩ := bind_ok h
  have hentry := Except.ok.inj h
  simp only [Option.bind_eq_bind, Option.bind_eq_some_iff] at hentry
  obtain ⟨m, -, p, -, hentry⟩ := hentry
  obtain ⟨hmem, hobject, -⟩ := byOrigin_some hentry
  exact ⟨hmem, hobject⟩

theorem verifyCandidate_ok {entry : Option Entry} {target : Object} {item candidate : Entry}
    (h : verifyCandidate d entry target = .ok (item, candidate)) :
    entry = some item ∧ Alone d.contracts item.key ∧ Alone d.routes item.key ∧
      candidate ∈ d.routes ∧ candidate.key = item.key ∧
      candidate.object.objectId = target.objectId := by
  obtain ⟨u, hcheck, h⟩ := bind_ok h
  obtain ⟨e, he, h⟩ := bind_ok h
  obtain ⟨c, hc, h⟩ := bind_ok h
  cases h
  obtain rfl := got_ok he
  obtain ⟨horigins, hcandidates, hobject⟩ := check_ok hcheck
  have hhead := got_ok hc
  simp only [Option.map_some, Option.getD_some] at hcandidates hhead hobject
  rw [hhead] at hobject
  have hmem : candidate ∈ d.routes.filter fun e => e.key = item.key := by
    rw [← group_eq]
    exact List.mem_of_mem_head? hhead
  obtain ⟨hroute, hkey⟩ := List.mem_filter.mp hmem
  refine ⟨rfl, ?_, ?_, hroute, of_decide_eq_true hkey, of_decide_eq_true hobject⟩
  · unfold Alone
    rw [← group_eq]
    exact of_decide_eq_true horigins
  · unfold Alone
    rw [← group_eq]
    exact hcandidates

theorem verifyEnds_ok {source target : Object}
    (h : verifyEnds g f = .ok (source, target)) :
    f.subjectId = source.objectId ∧ f.targetId = some target.objectId := by
  obtain ⟨s, hs, h⟩ := bind_ok h
  obtain ⟨u, -, h⟩ := bind_ok h
  obtain ⟨t, ht, h⟩ := bind_ok h
  obtain ⟨u, -, h⟩ := bind_ok h
  obtain ⟨m, -, h⟩ := bind_ok h
  obtain ⟨m', -, h⟩ := bind_ok h
  obtain ⟨u, -, h⟩ := bind_ok h
  cases h
  obtain ⟨id, hid, htarget⟩ := Option.bind_eq_some_iff.mp (got_ok ht)
  obtain ⟨-, hsourceId⟩ := mem_of_object? (got_ok hs)
  obtain ⟨-, rfl⟩ := mem_of_object? htarget
  exact ⟨hsourceId.symm, hid⟩

theorem verifyMatch_ok {n : Nat}
    (hd : endpointDeclarations g.objects g.facts (materialById g.materials) = .ok d)
    (h : verifyMatch sha256 g limits d n f = .ok ()) : ∃ item target, Matched d item target ∧
      f.subjectId = item.object.objectId ∧ f.targetId = some target.object.objectId ∧
      f.premiseFactIds.Perm (premisesOf item target) := by
  obtain ⟨u, -, h⟩ := bind_ok h
  obtain ⟨u, -, h⟩ := bind_ok h
  obtain ⟨⟨source, target⟩, hends, h⟩ := bind_ok h
  obtain ⟨entry, horigin, h⟩ := bind_ok h
  obtain ⟨⟨item, candidate⟩, hcandidate, h⟩ := bind_ok h
  obtain ⟨u, hpremises, -⟩ := bind_ok h
  obtain ⟨rfl, hcontracts, hroutes, hroute, hkey, hobject⟩ := verifyCandidate_ok hcandidate
  obtain ⟨hcontract, hsource⟩ := verifyOrigin_ok horigin
  obtain ⟨hsubject, htargetId⟩ := verifyEnds_ok hends
  have hmatched : Matched d item candidate := ⟨hcontract, hroute, hkey, hcontracts, hroutes⟩
  have hitem : InGraph g true item := inGraph_of_mem hd hcontract
  have htarget : InGraph g false candidate := inGraph_of_mem hd hroute
  refine ⟨item, candidate, hmatched, ?_, ?_, ?_⟩
  · exact hsubject.trans hsource.symm
  · rw [hobject]
    exact htargetId
  · obtain ⟨hlength, hdistinct, hincluded⟩ := check_ok hpremises
    have hsub := (premisesOf_nodup hitem htarget).subperm hincluded
    exact (hsub.perm_of_length_le (by rw [hlength]; rfl)).symm

/-- A match that is accepted is one of the index, with its four facts. -/
theorem verify_matched (hverify : verifyEndpointContracts sha256 g limits = .ok ())
    (hd : endpointDeclarations g.objects g.facts (materialById g.materials) = .ok d)
    (hf : f ∈ g.facts) (hpredicate : f.predicate = "matchesEndpointContract") :
    ∃ item target, Matched d item target ∧ f.subjectId = item.object.objectId ∧
      f.targetId = some target.object.objectId ∧
      f.premiseFactIds.Perm (premisesOf item target) := by
  obtain ⟨d', hd', hverify⟩ := bind_ok hverify
  obtain ⟨count, hcount, -⟩ := bind_ok hverify
  rw [hd] at hd'
  cases hd'
  obtain ⟨n, hmatch⟩ := verifyMatches_mem hcount hf hpredicate
  exact verifyMatch_ok hd hmatch

end Accepted

end Traqen.EndpointContracts
