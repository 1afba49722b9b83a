-- What the index of endpoint declarations holds: where an entry comes from, that nothing is thrown
-- when every object has a material, and that the order of the records does not matter.
import Traqen.EndpointContracts

open Js

namespace Traqen.EndpointContracts

open CompileBudget (Object Fact Material)
open OrderedMap (get? get?_mem)

/-! ## Loops -/

section Loops

variable {α β γ ε : Type}

variable {f : α → Except ε β}

theorem mapM_perm {xs ys : List α} (h : xs.Perm ys) {rs : List β}
    (hxs : xs.mapM f = .ok rs) : ∃ ss, ys.mapM f = .ok ss ∧ rs.Perm ss := by
  induction h generalizing rs with
  | nil => exact ⟨rs, hxs, .refl _⟩
  | cons x _ ih =>
    rw [List.mapM_cons] at hxs ⊢
    obtain ⟨r, hr, hxs⟩ := bind_ok hxs
    obtain ⟨rest, hrest, hxs⟩ := bind_ok hxs
    obtain ⟨ss, hss, hperm⟩ := ih hrest
    cases hxs
    rw [hr, hss]
    exact ⟨r :: ss, rfl, hperm.cons r⟩
  | swap x y xs =>
    rw [List.mapM_cons] at hxs
    obtain ⟨r, hr, hxs⟩ := bind_ok hxs
    obtain ⟨tail, htail, hxs⟩ := bind_ok hxs
    rw [List.mapM_cons] at htail
    obtain ⟨q, hq, htail⟩ := bind_ok htail
    obtain ⟨rest, hrest, htail⟩ := bind_ok htail
    cases htail
    cases hxs
    rw [List.mapM_cons, List.mapM_cons, hq, hr, hrest]
    exact ⟨q :: r :: rest, rfl, .swap q r rest⟩
  | trans _ _ ih ih' =>
    obtain ⟨ss, hss, hperm⟩ := ih hxs
    obtain ⟨ts, hts, hperm'⟩ := ih' hss
    exact ⟨ts, hts, hperm.trans hperm'⟩

theorem mapM_rel {g : α → Except ε γ} {R : β → γ → Prop} {xs : List α}
    {rs : List β} (hxs : xs.mapM f = .ok rs)
    (h : ∀ x ∈ xs, ∀ r, f x = .ok r → ∃ s, g x = .ok s ∧ R r s) :
    ∃ ss, xs.mapM g = .ok ss ∧ List.Forall₂ R rs ss := by
  induction xs generalizing rs with
  | nil =>
    cases hxs
    exact ⟨[], rfl, .nil⟩
  | cons x xs ih =>
    rw [List.mapM_cons] at hxs ⊢
    obtain ⟨r, hr, hxs⟩ := bind_ok hxs
    obtain ⟨rest, hrest, hxs⟩ := bind_ok hxs
    obtain ⟨s, hs, hrel⟩ := h x List.mem_cons_self r hr
    obtain ⟨ss, hss, hall⟩ := ih hrest fun y hy => h y (List.mem_cons_of_mem x hy)
    cases hxs
    rw [hs, hss]
    exact ⟨s :: ss, rfl, .cons hrel hall⟩

theorem mapM_total {xs : List α} (h : ∀ x ∈ xs, ∃ r, f x = .ok r) : ∃ rs, xs.mapM f = .ok rs := by
  induction xs with
  | nil => exact ⟨[], rfl⟩
  | cons x xs ih =>
    obtain ⟨r, hr⟩ := h x List.mem_cons_self
    obtain ⟨rs, hrs⟩ := ih fun y hy => h y (List.mem_cons_of_mem x hy)
    exact ⟨r :: rs, by rw [List.mapM_cons, hr, hrs]; rfl⟩

end Loops

/-! ## Properties -/

theorem propertiesOf_eq (facts : List Fact) (objectId : String) :
    propertiesOf facts objectId =
      (facts.filter fun f => f.kind = "PROPERTY").filter fun f => f.subjectId = objectId := by
  unfold propertiesOf
  rw [Grouping.get?_groupsOf]
  split_ifs with h
  · exact h.symm
  · rfl

theorem mem_propertiesOf {facts : List Fact} {objectId : String} {f : Fact} :
    f ∈ propertiesOf facts objectId ↔ f ∈ facts ∧ f.kind = "PROPERTY" ∧ f.subjectId = objectId := by
  rw [propertiesOf_eq]
  simp [and_comm, and_assoc]

/-- The facts that are indexed are the same. -/
def SameProperties (facts others : List Fact) : Prop :=
  (facts.filter fun f => f.kind = "PROPERTY").Perm (others.filter fun f => f.kind = "PROPERTY")

theorem SameProperties.propertiesOf {facts others : List Fact} (h : SameProperties facts others)
    (objectId : String) : (propertiesOf facts objectId).Perm (propertiesOf others objectId) := by
  rw [propertiesOf_eq, propertiesOf_eq]
  exact h.filter _

/-! ## The materials -/

theorem get?_materialById {materials : List Material}
    (hunique : (materials.map (·.materialId)).Nodup) {id : String} {m : Material} :
    get? (materialById materials) id = some m ↔ m ∈ materials ∧ m.materialId = id := by
  unfold materialById
  constructor
  · intro h
    have hmem := OrderedMap.mem_of_mem_ofList (get?_mem h)
    obtain ⟨x, hx, heq⟩ := List.mem_map.mp hmem
    cases heq
    exact ⟨hx, rfl⟩
  · rintro ⟨hm, rfl⟩
    apply OrderedMap.get?_ofList_of_forall ⟨_, List.mem_map.mpr ⟨m, hm, rfl⟩, rfl⟩
    intro e he hkey
    obtain ⟨x, hx, rfl⟩ := List.mem_map.mp he
    exact List.inj_on_of_nodup_map hunique hx hm hkey

/-! ## Entries -/

/-- Where an entry comes from. -/
structure Declared (objects : List Object) (facts : List Fact)
    (materials : List (String × Material)) (contract : Bool) (e : Entry) : Prop where
  object : e.object ∈ objects
  kind : isContract e.object = contract
  declaration : isDeclaration e.object = true
  material : get? materials e.object.materialId = some e.material
  method : e.method ∈ propertiesOf facts e.object.objectId
  methodPredicate : e.method.predicate = "httpMethod"
  path : e.path ∈ propertiesOf facts e.object.objectId
  key : ∃ rule shape, (contract = true → rule = "f002-json") ∧
    (contract = false → e.material.input.ruleRef.map (·.id) = some rule) ∧
    underRule rule e.method = true ∧ e.path.predicate = pathPredicate contract rule ∧
    endpointPathShape (valueOf e.path) (decide (rule = "f002-javascript")) = some shape ∧
    e.key = keyOf e.material e.method shape

section Entries

variable {objects : List Object} {facts : List Fact} {materials : List (String × Material)}

variable {ds : List Declarations} {e : Entry}

theorem mem_concat : (e ∈ (Declarations.concat ds).contracts ↔ ∃ d ∈ ds, e ∈ d.contracts) ∧
      (e ∈ (Declarations.concat ds).routes ↔ ∃ d ∈ ds, e ∈ d.routes) := by
  unfold Declarations.concat
  simp

/-- The entries of one side. -/
def Declarations.side (d : Declarations) (contract : Bool) : List Entry :=
  if contract = true then d.contracts else d.routes

variable {contract side : Bool}

theorem mem_side_concat :
    e ∈ (Declarations.concat ds).side contract ↔ ∃ d ∈ ds, e ∈ d.side contract := by
  cases contract with
  | false => exact mem_concat.2
  | true => exact mem_concat.1

variable {material : Option Material} {o object : Object}

theorem side_invalid {code : String} : (invalid contract object material code).side side = [] := by
  unfold invalid Declarations.side Declarations.none
  split_ifs <;> rfl

variable {d : Declarations}

theorem declaredPath_side {rule : String} {method path : Fact}
    (h : declaredPath object material contract rule method path = .ok d) (he : e ∈ d.side side) :
    side = contract ∧ ∃ m shape, material = some m ∧
      endpointPathShape (valueOf path) (decide (rule = "f002-javascript")) = some shape ∧
      e = { object, material := m, path, method, key := keyOf m method shape } := by
  unfold declaredPath at h
  split at h
  · cases h
    rw [side_invalid] at he
    cases he
  · next shape hshape =>
    cases material with
    | none => cases h
    | some m =>
      cases h
      cases contract with
      | false =>
        cases side with
        | false => exact ⟨rfl, m, shape, rfl, hshape, List.mem_singleton.mp he⟩
        | true => cases he
      | true =>
        cases side with
        | false => cases he
        | true => exact ⟨rfl, m, shape, rfl, hshape, List.mem_singleton.mp he⟩

theorem declared_side {rule : String}
    (h : declared facts object material contract rule = .ok d) (he : e ∈ d.side side) :
    side = contract ∧ ∃ m shape, material = some m ∧ e.object = object ∧ e.material = m ∧
      verbsOf (propertiesOf facts object.objectId) contract rule = [e.method] ∧
      e.path ∈ pathsOf (propertiesOf facts object.objectId) contract rule ∧
      endpointPathShape (valueOf e.path) (decide (rule = "f002-javascript")) = some shape ∧
      e.key = keyOf m e.method shape := by
  unfold declared at h
  dsimp only at h
  split_ifs at h
  · cases h
  split at h
  · next method path paths hverbs hpaths =>
    obtain ⟨ds, hds, h⟩ := bind_ok h
    cases h
    obtain ⟨x, hx, hex⟩ := mem_side_concat.mp he
    obtain ⟨p, hp, hdeclared⟩ := exists_source (mapM_ok hds) hx
    obtain ⟨hside, m, shape, hm, hshape, rfl⟩ := declaredPath_side hdeclared hex
    exact ⟨hside, m, shape, hm, rfl, rfl, hverbs, hpaths ▸ hp, hshape, rfl⟩
  · cases h
    rw [side_invalid] at he
    cases he

theorem declaration_side
    (hobject : object ∈ objects) (h : declaration facts materials object = .ok d)
    (he : e ∈ d.side side) : Declared objects facts materials side e := by
  unfold declaration at h
  have hnone : ∀ s, Declarations.none.side s = [] := by
    intro s
    cases s <;> rfl
  split_ifs at h with hkind
  · cases h
    rw [hnone] at he
    cases he
  · obtain ⟨rule, hrule, h⟩ := bind_ok h
    split_ifs at h with hroute
    · cases h
      rw [hnone] at he
      cases he
    · obtain ⟨rfl, m, shape, hmaterial, rfl, rfl, hverbs, hpath, hshape, hkey⟩ :=
        declared_side h he
      have hmethod : e.method ∈ verbsOf (propertiesOf facts e.object.objectId)
          (isContract e.object) (rule.getD "") := by
        rw [hverbs]
        exact List.mem_singleton_self _
      obtain ⟨hmethod, hverb⟩ := List.mem_filter.mp hmethod
      obtain ⟨hpath, hpathOf⟩ := List.mem_filter.mp hpath
      simp only [Bool.and_eq_true, decide_eq_true_eq, eligible] at hverb hpathOf
      refine ⟨hobject, rfl, Bool.eq_true_of_not_eq_false hkind, hmaterial, hmethod, hverb.1.1,
        hpath, rule.getD "", shape, ?_, ?_, hverb.1.2.1.1, hpathOf.1, hshape, hkey⟩
      · intro hcontract
        unfold ruleOf at hrule
        rw [if_pos hcontract] at hrule
        cases hrule
        rfl
      · intro hcontract
        unfold ruleOf at hrule
        rw [hcontract, if_neg (by simp), hmaterial] at hrule
        cases hrule
        cases href : e.material.input.ruleRef with
        | some ref => rfl
        | none =>
          rw [href] at hroute
          exact absurd ⟨hcontract, by decide⟩ hroute

theorem entry_declared
    (h : endpointDeclarations objects facts materials = .ok d) (he : e ∈ d.side side) :
    Declared objects facts materials side e := by
  obtain ⟨ds, hds, h⟩ := bind_ok h
  cases h
  obtain ⟨x, hx, hex⟩ := mem_side_concat.mp he
  obtain ⟨o, ho, hdeclaration⟩ := exists_source (mapM_ok hds) hx
  exact declaration_side ho hdeclaration hex

/-! ## Nothing is thrown -/

/-- Every object that declares has its material. -/
def Placed (objects : List Object) (materials : List (String × Material)) : Prop :=
  ∀ o ∈ objects, ∃ m, get? materials o.materialId = some m

/-- Every property has a rule, as the properties of an extractor have. -/
def Ruled (facts : List Fact) : Prop := ∀ f ∈ facts, f.kind = "PROPERTY" → f.ruleRef.isSome = true

theorem Ruled.any_eq (h : Ruled facts) (objectId : String) (contract : Bool) (rule : String) :
    (propertiesOf facts objectId).any (isUnruled contract rule) = false := by
  rw [List.any_eq_false]
  intro f hf
  obtain ⟨hmem, hkind, -⟩ := mem_propertiesOf.mp hf
  unfold isUnruled
  rw [Option.isNone_eq_false_iff.mpr (h f hmem hkind)]
  simp

theorem declared_total (hruled : Ruled facts) (object : Object) (m : Material) (contract : Bool)
    (rule : String) : ∃ d, declared facts object (some m) contract rule = .ok d := by
  unfold declared
  dsimp only
  rw [hruled.any_eq, if_neg (by simp)]
  split
  · next method path paths _ _ =>
    have hone : ∀ p ∈ path :: paths,
        ∃ d, declaredPath object (some m) contract rule method p = .ok d := by
      intro p _
      unfold declaredPath
      split
      · exact ⟨_, rfl⟩
      · exact ⟨_, rfl⟩
    obtain ⟨ds, hds⟩ := mapM_total hone
    exact ⟨_, by rw [hds]; rfl⟩
  · exact ⟨_, rfl⟩

theorem endpointDeclarations_total (h : Placed objects materials) (hruled : Ruled facts) :
    ∃ d, endpointDeclarations objects facts materials = .ok d := by
  have hone : ∀ o ∈ objects, ∃ d, declaration facts materials o = .ok d := by
    intro o ho
    obtain ⟨m, hm⟩ := h o ho
    unfold declaration
    split_ifs with hkind
    · exact ⟨_, rfl⟩
    · dsimp only
      rw [hm]
      have hrule : ∃ rule, ruleOf (isContract o) (some m) = .ok rule := by
        unfold ruleOf
        split_ifs
        · exact ⟨_, rfl⟩
        · exact ⟨_, rfl⟩
      obtain ⟨rule, hrule⟩ := hrule
      rw [hrule]
      change ∃ d, (if isContract o = false ∧ rule ∉ routeRules then _ else _) = _
      split_ifs
      · exact ⟨_, rfl⟩
      · exact declared_total hruled o m _ _
  obtain ⟨ds, hds⟩ := mapM_total hone
  exact ⟨_, by unfold endpointDeclarations; rw [hds]; rfl⟩

/-! ## No operation is left out -/

/-- The object has an entry, or is reported. -/
def Covered (materials : List (String × Material)) (o : Object) (d : Declarations) : Prop :=
  (∃ e ∈ d.contracts, e.object = o) ∨
    ∃ i ∈ d.invalidContracts, i.object = o ∧
      i.material = get? materials o.materialId

theorem covered_invalid {code : String} : Covered materials o
    (invalid true o (get? materials o.materialId) code) :=
  Or.inr ⟨_, List.mem_singleton_self _, rfl, rfl⟩

theorem Covered.concat (hd : d ∈ ds)
    (h : Covered materials o d) : Covered materials o (Declarations.concat ds) := by
  rcases h with ⟨e, he, heq⟩ | ⟨i, hi, heq⟩
  · exact Or.inl ⟨e, List.mem_flatMap.mpr ⟨d, hd, he⟩, heq⟩
  · exact Or.inr ⟨i, List.mem_flatMap.mpr ⟨d, hd, hi⟩, heq⟩

theorem declared_covers {rule : String}
    (h : declared facts o (get? materials o.materialId) true rule = .ok d) :
    Covered materials o d := by
  unfold declared at h
  dsimp only at h
  split_ifs at h
  · cases h
  split at h
  · next method path paths _ _ =>
    obtain ⟨ds, hds, h⟩ := bind_ok h
    cases h
    obtain ⟨x, hx, hpath⟩ := exists_of_mem (mapM_ok hds) (List.mem_cons_self (a := path))
    refine Covered.concat hx ?_
    unfold declaredPath at hpath
    split at hpath
    · cases hpath
      exact covered_invalid
    · split at hpath
      · cases hpath
      · cases hpath
        exact Or.inl ⟨_, List.mem_singleton_self _, rfl⟩
  · cases h
    exact covered_invalid

theorem endpointDeclarations_covers
    (h : endpointDeclarations objects facts materials = .ok d) (ho : o ∈ objects)
    (hcontract : isContract o = true) : Covered materials o d := by
  obtain ⟨ds, hds, h⟩ := bind_ok h
  cases h
  obtain ⟨x, hx, hdeclaration⟩ := exists_of_mem (mapM_ok hds) ho
  refine Covered.concat hx ?_
  have hkind : isDeclaration o = true := by
    unfold isDeclaration
    rw [of_decide_eq_true hcontract]
    rfl
  unfold declaration at hdeclaration
  rw [hkind, if_neg (by simp)] at hdeclaration
  obtain ⟨rule, -, hdeclaration⟩ := bind_ok hdeclaration
  rw [hcontract, if_neg (by simp)] at hdeclaration
  exact declared_covers hdeclaration

/-! ## The order of the records -/

/-- The entries of both sides are the same. -/
def SameEntries (d d' : Declarations) : Prop :=
  d.contracts.Perm d'.contracts ∧ d.routes.Perm d'.routes

theorem SameEntries.concat {ds' : List Declarations} (h : List.Forall₂ SameEntries ds ds') :
    SameEntries (Declarations.concat ds) (Declarations.concat ds') := by
  induction h with
  | nil => exact ⟨.refl _, .refl _⟩
  | cons hd _ ih => exact ⟨hd.1.append ih.1, hd.2.append ih.2⟩

theorem sameEntries_of_perm {ds' : List Declarations} (h : ds.Perm ds') :
    SameEntries (Declarations.concat ds) (Declarations.concat ds') :=
  ⟨h.flatMap_right _, h.flatMap_right _⟩

theorem SameEntries.trans {d' d'' : Declarations} (h : SameEntries d d')
    (h' : SameEntries d' d'') : SameEntries d d'' :=
  ⟨h.1.trans h'.1, h.2.trans h'.2⟩

theorem declared_perm {others : List Fact} (hfacts : SameProperties facts others) {rule : String}
    (h : declared facts o material contract rule = .ok d) :
    ∃ d', declared others o material contract rule = .ok d' ∧ SameEntries d d' := by
  have hverbs : (verbsOf (propertiesOf facts o.objectId) contract rule).Perm
      (verbsOf (propertiesOf others o.objectId) contract rule) :=
    (hfacts.propertiesOf o.objectId).filter _
  have hpaths : (pathsOf (propertiesOf facts o.objectId) contract rule).Perm
      (pathsOf (propertiesOf others o.objectId) contract rule) :=
    (hfacts.propertiesOf o.objectId).filter _
  unfold declared at h ⊢
  dsimp only at h ⊢
  rw [(hfacts.propertiesOf o.objectId).any_eq] at h
  split_ifs at h ⊢
  · cases h
  generalize verbsOf (propertiesOf facts o.objectId) contract rule = verbs at *
  generalize verbsOf (propertiesOf others o.objectId) contract rule = verbs' at *
  generalize pathsOf (propertiesOf facts o.objectId) contract rule = paths at *
  generalize pathsOf (propertiesOf others o.objectId) contract rule = paths' at *
  rcases verbs with _ | ⟨method, _ | ⟨second, more⟩⟩
  · rw [List.nil_perm.mp hverbs]
    exact ⟨d, h, .refl _, .refl _⟩
  · rw [← List.singleton_perm.mp hverbs]
    rcases paths with _ | ⟨path, rest⟩
    · rw [List.nil_perm.mp hpaths]
      exact ⟨d, h, .refl _, .refl _⟩
    · rcases paths' with _ | ⟨path', rest'⟩
      · cases List.perm_nil.mp hpaths
      · obtain ⟨ds, hds, h⟩ := bind_ok h
        cases h
        obtain ⟨es, hes, hperm⟩ := mapM_perm hpaths hds
        dsimp only
        rw [hes]
        exact ⟨_, rfl, sameEntries_of_perm hperm⟩
  · rcases verbs' with _ | ⟨method', _ | ⟨second', more'⟩⟩
    · cases List.perm_nil.mp hverbs
    · cases List.perm_singleton.mp hverbs
    · exact ⟨d, h, .refl _, .refl _⟩

theorem declaration_perm {others : List Fact} (hfacts : SameProperties facts others)
    (h : declaration facts materials o = .ok d) :
    ∃ d', declaration others materials o = .ok d' ∧ SameEntries d d' := by
  unfold declaration at h ⊢
  split_ifs at h ⊢ with hkind
  · exact ⟨d, h, .refl _, .refl _⟩
  · obtain ⟨rule, hrule, h⟩ := bind_ok h
    dsimp only
    rw [hrule]
    change ∃ d', (if isContract o = false ∧ rule ∉ routeRules then _ else _) = _ ∧ _
    split_ifs at h ⊢ with hroute
    · exact ⟨d, h, .refl _, .refl _⟩
    · exact declared_perm hfacts h

/-- The entries do not depend on the order of the objects and of the facts. -/
theorem endpointDeclarations_perm {shuffled : List Object} {others : List Fact}
    (hobjects : objects.Perm shuffled) (hfacts : SameProperties facts others)
    (h : endpointDeclarations objects facts materials = .ok d) :
    ∃ d', endpointDeclarations shuffled others materials = .ok d' ∧ SameEntries d d' := by
  obtain ⟨ds, hds, h⟩ := bind_ok h
  cases h
  obtain ⟨es, hes, hperm⟩ := mapM_perm hobjects hds
  obtain ⟨fs, hfs, hall⟩ := mapM_rel hes fun o _ x hx => declaration_perm hfacts hx
  refine ⟨_, by unfold endpointDeclarations; rw [hfs]; rfl, ?_⟩
  exact (sameEntries_of_perm hperm).trans (.concat hall)

end Entries

end Traqen.EndpointContracts
