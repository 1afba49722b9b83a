-- What `resolveEndpointContracts` emits: a fact for exactly the declarations that are alone under
-- their key on both sides, unless a limit is hit, and a gap for every other operation.
import Traqen.EndpointDeclarations

open Js

namespace Traqen.EndpointContracts

open CompileBudget (Object Fact Material FactInput)
open Grouping (groupsOf)

/-! ## Alone under a key -/

def Alone (items : List Entry) (key : String) : Prop :=
  (items.filter fun e => e.key = key).length = 1

instance (items : List Entry) (key : String) : Decidable (Alone items key) :=
  inferInstanceAs (Decidable (_ = _))

/-- A contract and a route under one key, each the only one there. -/
structure Matched (d : Declarations) (item target : Entry) : Prop where
  contract : item ∈ d.contracts
  route : target ∈ d.routes
  key : target.key = item.key
  aloneContract : Alone d.contracts item.key
  aloneRoute : Alone d.routes item.key

/-- The contracts that are alone on both sides. -/
def matchable (d : Declarations) : List Entry :=
  d.contracts.filter fun e => Alone d.contracts e.key ∧ Alone d.routes e.key

theorem group_eq (items : List Entry) (key : String) :
    (OrderedMap.get? (groupsOf Entry.key items) key).getD [] =
      items.filter fun e => e.key = key := by
  rw [Grouping.get?_groupsOf]
  split_ifs with h
  · exact h.symm
  · rfl

theorem filter_of_alone {items : List Entry} {key : String} (h : Alone items key) :
    ∃ e ∈ items, e.key = key ∧ (items.filter fun e => e.key = key) = [e] := by
  obtain ⟨e, he⟩ := List.length_eq_one_iff.mp h
  have hmem : e ∈ items.filter fun e => e.key = key := by
    rw [he]
    exact List.mem_singleton_self e
  exact ⟨e, (List.mem_filter.mp hmem).1, of_decide_eq_true (List.mem_filter.mp hmem).2, he⟩

/-! ## Outcomes -/

variable {item : Entry}

section Outcomes

variable {limits : Limits} {d : Declarations}

/-- The outcome of a contract, among the declarations. -/
def outcomeIn (limits : Limits) (d : Declarations) : Entry → Action ⊕ (Entry × Entry) :=
  outcome limits (groupsOf Entry.key d.contracts) (groupsOf Entry.key d.routes)

theorem outcome_planned {target : Entry} (hitem : item ∈ d.contracts) :
    outcomeIn limits d item = .inr (item, target) ↔ Matched d item target := by
  have hself : item ∈ d.contracts.filter fun e => e.key = item.key :=
    List.mem_filter.mpr ⟨hitem, decide_eq_true rfl⟩
  have hpositive := List.length_pos_of_mem hself
  unfold outcomeIn outcome
  simp only [group_eq]
  constructor
  · intro h
    split_ifs at h with hmany
    split at h
    · cases h
    · next other rest hroutes =>
      cases h
      rw [hroutes, List.length_cons] at hmany
      have hrest : rest = [] := List.length_eq_zero_iff.mp (by omega)
      have hmem : target ∈ d.routes.filter fun e => e.key = item.key := by
        rw [hroutes]
        exact List.mem_cons_self
      obtain ⟨hroute, hkey⟩ := List.mem_filter.mp hmem
      refine ⟨hitem, hroute, of_decide_eq_true hkey, ?_, ?_⟩
      · unfold Alone
        omega
      · unfold Alone
        rw [hroutes, hrest]
        rfl
  · intro h
    obtain ⟨e, -, -, hone⟩ := filter_of_alone h.aloneRoute
    have htarget : target ∈ d.routes.filter fun e => e.key = item.key :=
      List.mem_filter.mpr ⟨h.route, decide_eq_true h.key⟩
    rw [hone, List.mem_singleton] at htarget
    have halone : (d.contracts.filter fun e => e.key = item.key).length = 1 := h.aloneContract
    rw [hone, halone, if_neg (by simp), htarget]

theorem outcome_self {p : Entry × Entry} (h : outcomeIn limits d item = .inr p) :
    p.1 = item := by
  unfold outcomeIn outcome at h
  dsimp only at h
  split_ifs at h
  split at h
  · cases h
  · cases h
    rfl

/-- What is not planned is a gap at the place of the contract. -/
theorem outcome_left {a : Action} (h : outcomeIn limits d item = .inl a) :
    ∃ code extra, a = .gap item.material code item.object.anchor extra := by
  unfold outcomeIn outcome at h
  dsimp only at h
  split_ifs at h
  · cases h
    exact ⟨_, _, rfl⟩
  · split at h
    · cases h
      exact ⟨_, _, rfl⟩
    · cases h

theorem outcome_gap (hitem : item ∈ d.contracts)
    (h : ∀ target, ¬ Matched d item target) : ∃ code extra,
      outcomeIn limits d item = .inl (.gap item.material code item.object.anchor extra) := by
  cases hout : outcomeIn limits d item with
  | inr p =>
    have hplanned : outcomeIn limits d item = .inr (item, p.2) := by
      rw [hout, ← outcome_self hout]
    exact absurd ((outcome_planned hitem).mp hplanned) (h p.2)
  | inl a =>
    obtain ⟨code, extra, rfl⟩ := outcome_left hout
    exact ⟨code, extra, rfl⟩

/-- What is planned, in the order of the contracts. -/
def plannedIn (limits : Limits) (d : Declarations) : List (Entry × Entry) :=
  (d.contracts.map (outcomeIn limits d)).filterMap Sum.getRight?

theorem mem_planned {target : Entry} :
    (item, target) ∈ plannedIn limits d ↔ Matched d item target := by
  unfold plannedIn
  rw [List.filterMap_map, List.mem_filterMap]
  constructor
  · rintro ⟨e, he, hout⟩
    have hright : outcomeIn limits d e = .inr (item, target) := Sum.getRight?_eq_some_iff.mp hout
    obtain rfl : item = e := outcome_self hright
    exact (outcome_planned he).mp hright
  · intro h
    refine ⟨item, h.contract, ?_⟩
    rw [Function.comp_apply, (outcome_planned h.contract).mpr h]
    rfl

theorem isRight_iff (hitem : item ∈ d.contracts) :
    (outcomeIn limits d item).getRight?.isSome = true ↔
      Alone d.contracts item.key ∧ Alone d.routes item.key := by
  constructor
  · intro h
    obtain ⟨p, hp⟩ := Option.isSome_iff_exists.mp h
    have hright := Sum.getRight?_eq_some_iff.mp hp
    have hplanned : outcomeIn limits d item = .inr (item, p.2) := by
      rw [hright, ← outcome_self hright]
    have hmatched := (outcome_planned hitem).mp hplanned
    exact ⟨hmatched.aloneContract, hmatched.aloneRoute⟩
  · rintro ⟨hcontract, hroute⟩
    obtain ⟨target, htarget, hkey, -⟩ := filter_of_alone hroute
    rw [(outcome_planned hitem).mpr ⟨hitem, htarget, hkey, hcontract, hroute⟩]
    rfl

/-- As many are planned as can be matched. -/
theorem length_planned (limits : Limits) (d : Declarations) :
    (plannedIn limits d).length = (matchable d).length := by
  have hall : ∀ items : List Entry, (∀ e ∈ items, e ∈ d.contracts) →
      ((items.map (outcomeIn limits d)).filterMap Sum.getRight?).length =
        (items.filter fun e => Alone d.contracts e.key ∧ Alone d.routes e.key).length := by
    intro items hitems
    induction items with
    | nil => rfl
    | cons e items ih =>
      have hrest := ih fun x hx => hitems x (List.mem_cons_of_mem e hx)
      have hright : (outcomeIn limits d e).getRight?.isSome = true ↔ _ :=
        isRight_iff (hitems e List.mem_cons_self)
      rw [List.map_cons, List.filterMap_cons, List.filter_cons]
      cases hout : (outcomeIn limits d e).getRight? with
      | none =>
        rw [hout] at hright
        rw [if_neg (by simpa using hright), hrest]
      | some p =>
        rw [hout] at hright
        rw [if_pos (by simpa using hright), List.length_cons, List.length_cons, hrest]
  exact hall d.contracts fun e he => he

end Outcomes

/-! ## The actions -/

section Actions

variable {limits : Limits} {objects : List Object} {facts : List Fact} {materials : List Material}
variable {d : Declarations}

variable {input : FactInput} {m : Material}

theorem gapAction_ne {material : Option Material} {code : String}
    {anchor extra : FactIdentity.Anchor} : gapAction material code anchor extra ≠ .fact m input := by
  unfold gapAction
  split
  · exact nofun
  · exact nofun

theorem resolved_eq (limits : Limits) (d : Declarations) : resolved limits d =
    d.invalidContracts.map (fun i => gapAction i.material i.code i.object.anchor []) ++
      (d.contracts.map (outcomeIn limits d)).filterMap Sum.getLeft? ++
      if limits.matchLimit < (matchable d).length then
        (plannedIn limits d).map fun p => limitGap p.1
      else (plannedIn limits d).map fun p => .fact p.1.material (matchInput p.1 p.2) := by
  rw [← length_planned limits d]
  rfl

/-- The outcome of a contract is never a fact by itself. -/
theorem left_ne :
    Action.fact m input ∉ (d.contracts.map (outcomeIn limits d)).filterMap Sum.getLeft? := by
  intro h
  obtain ⟨out, hout, hleft⟩ := List.mem_filterMap.mp h
  obtain ⟨item, hitem, rfl⟩ := List.mem_map.mp hout
  obtain ⟨code, extra, heq⟩ := outcome_left (Sum.getLeft?_eq_some_iff.mp hleft)
  cases heq

theorem fact_mem_resolved :
    Action.fact m input ∈ resolved limits d ↔ ¬ limits.matchLimit < (matchable d).length ∧
      ∃ item target, Matched d item target ∧ m = item.material ∧
        input = matchInput item target := by
  rw [resolved_eq, List.mem_append, List.mem_append]
  have hinvalid : Action.fact m input ∉
      d.invalidContracts.map fun i => gapAction i.material i.code i.object.anchor [] := by
    intro h
    obtain ⟨i, -, heq⟩ := List.mem_map.mp h
    exact gapAction_ne heq
  constructor
  · rintro ((h | h) | h)
    · exact absurd h hinvalid
    · exact absurd h left_ne
    · split_ifs at h with hlimit
      · obtain ⟨p, -, heq⟩ := List.mem_map.mp h
        cases heq
      · obtain ⟨p, hp, heq⟩ := List.mem_map.mp h
        cases heq
        exact ⟨hlimit, p.1, p.2, mem_planned.mp hp, rfl, rfl⟩
  · rintro ⟨hlimit, item, target, hmatched, rfl, rfl⟩
    right
    rw [if_neg hlimit]
    exact List.mem_map.mpr ⟨(item, target), mem_planned.mpr hmatched, rfl⟩

/-- A gap at the place of the object. -/
def Reported (actions : List Action) (object : Object) : Prop :=
  ∃ m code extra, m.materialId = object.materialId ∧
    Action.gap m code object.anchor extra ∈ actions

/-- The material under an id has that id. -/
def OwnIds (materials : List (String × Material)) : Prop :=
  ∀ id m, OrderedMap.get? materials id = some m → m.materialId = id

theorem ownIds_materialById (materials : List Material) : OwnIds (materialById materials) := by
  intro id m h
  obtain ⟨x, -, heq⟩ := List.mem_map.mp (OrderedMap.mem_of_mem_ofList (OrderedMap.get?_mem h))
  cases heq
  rfl

theorem reported_of_gap {actions : List Action} {object : Object}
    (code : String) (extra : FactIdentity.Anchor)
    (hplaced : OrderedMap.get? (materialById materials) object.materialId = some m)
    (h : Action.gap m code object.anchor extra ∈ actions) : Reported actions object :=
  ⟨m, code, extra, ownIds_materialById materials _ _ hplaced, h⟩

/-- A declaration of a contract is matched, or reported. -/
theorem entry_settled (hd : endpointDeclarations objects facts (materialById materials) = .ok d)
    (hitem : item ∈ d.contracts) :
    (∃ target, Action.fact item.material (matchInput item target) ∈ resolved limits d) ∨
      Reported (resolved limits d) item.object := by
  have hdeclared : Declared objects facts (materialById materials) true item :=
    entry_declared hd hitem
  by_cases hmatched : ∃ target, Matched d item target
  · obtain ⟨target, hmatched⟩ := hmatched
    by_cases hlimit : limits.matchLimit < (matchable d).length
    · refine Or.inr (reported_of_gap "ENDPOINT_CONTRACT_LIMIT" [] hdeclared.material ?_)
      rw [resolved_eq, if_pos hlimit]
      exact List.mem_append_right _ (List.mem_map.mpr ⟨_, mem_planned.mpr hmatched, rfl⟩)
    · exact Or.inl ⟨target, fact_mem_resolved.mpr ⟨hlimit, item, target, hmatched, rfl, rfl⟩⟩
  · obtain ⟨code, extra, hout⟩ := outcome_gap hitem fun target h => hmatched ⟨target, h⟩
    refine Or.inr (reported_of_gap code extra hdeclared.material ?_)
    rw [resolved_eq]
    refine List.mem_append_left _ (List.mem_append_right _ (List.mem_filterMap.mpr ?_))
    exact ⟨_, List.mem_map_of_mem hitem, by rw [hout]; rfl⟩

/-- An operation without a valid declaration is reported. -/
theorem invalid_reported (hplaced : Placed objects (materialById materials)) {i : Invalid}
    (hobject : i.object ∈ objects) (hi : i ∈ d.invalidContracts)
    (hmaterial : i.material = OrderedMap.get? (materialById materials) i.object.materialId) :
    Reported (resolved limits d) i.object := by
  obtain ⟨m, hm⟩ := hplaced _ hobject
  refine reported_of_gap i.code [] hm ?_
  rw [resolved_eq]
  refine List.mem_append_left _ (List.mem_append_left _ (List.mem_map.mpr ⟨i, hi, ?_⟩))
  rw [hmaterial, hm]
  rfl

/-! ## All of it -/

/-- The limit of the declarations is hit. -/
def OverDeclared (limits : Limits) (objects : List Object) : Prop :=
  limits.declarationLimit < (objects.filter isDeclaration).length

theorem resolve_over (henabled : limits.enabled = true) (h : OverDeclared limits objects) :
    resolveEndpointContracts limits objects facts materials =
      ((objects.filter isDeclaration).filter isContract).map fun o =>
        gapAction (OrderedMap.get? (materialById materials) o.materialId)
          "ENDPOINT_CONTRACT_LIMIT" o.anchor [] := by
  unfold resolveEndpointContracts
  rw [henabled, if_neg (by simp)]
  exact if_pos h

theorem resolve_eq (henabled : limits.enabled = true) (h : ¬ OverDeclared limits objects)
    (hd : endpointDeclarations objects facts (materialById materials) = .ok d) :
    resolveEndpointContracts limits objects facts materials = resolved limits d := by
  unfold OverDeclared at h
  unfold resolveEndpointContracts
  rw [henabled, if_neg (by simp), if_neg h, hd]

/-- A fact for the contracts that are matched, while no limit is hit, and for none besides. -/
theorem fact_mem_resolve (henabled : limits.enabled = true)
    (hd : endpointDeclarations objects facts (materialById materials) = .ok d)
    :
    Action.fact m input ∈ resolveEndpointContracts limits objects facts materials ↔
      ¬ OverDeclared limits objects ∧ ¬ limits.matchLimit < (matchable d).length ∧
        ∃ item target, Matched d item target ∧ m = item.material ∧
          input = matchInput item target := by
  by_cases hover : OverDeclared limits objects
  · rw [resolve_over henabled hover]
    constructor
    · intro h
      obtain ⟨o, -, heq⟩ := List.mem_map.mp h
      exact absurd heq gapAction_ne
    · rintro ⟨hnot, -⟩
      exact absurd hover hnot
  · rw [resolve_eq henabled hover hd, fact_mem_resolved]
    exact ⟨fun h => ⟨hover, h⟩, fun h => h.2⟩

end Actions

end Traqen.EndpointContracts
