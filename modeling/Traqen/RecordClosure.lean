-- What the verification of a publication leaves of the records: they are closed under reference,
-- the parents of an object end at one without a parent, and the premises of the facts go back to
-- facts without premises.
import Traqen.RecordVerification

open Js

namespace Traqen.RecordVerification

open OrderedMap (keyed_nil keyed_set get?_mem get?)

/-! ## Closed lists -/

def Listed (records : List Record) (kind id : String) (payload : Json) : Prop :=
  (⟨kind, id, payload⟩ : Record) ∈ records

/-- The value is the id of a record of the kind. -/
def Resolves (records : List Record) (kind : String) (value : Option Json) : Prop :=
  ∃ id payload, value = some (.str id) ∧ Listed records kind id payload

/-- From the object up through its parents to one without a parent, all in one material. -/
inductive ParentChain (records : List Record) (materialId : String) : String → Prop
  | top {id : String} {payload : Json} (listed : Listed records "OBJECT" id payload)
      (material : payload.get? "materialId" = some (.str materialId))
      (last : payload.get? "parentId" = none) : ParentChain records materialId id
  | child {id parentId : String} {payload : Json} (listed : Listed records "OBJECT" id payload)
      (material : payload.get? "materialId" = some (.str materialId))
      (parent : payload.get? "parentId" = some (.str parentId))
      (chain : ParentChain records materialId parentId) : ParentChain records materialId id

structure FactClosed (records : List Record) (payload : Json) : Prop where
  subject : Resolves records "OBJECT" (payload.get? "subjectId")
  target : payload.get? "kind" = some (.str "RELATION") →
    Resolves records "OBJECT" (payload.get? "targetId")
  evidence : ∀ v ∈ itemsOf (payload.get? "evidenceIds"), Resolves records "EVIDENCE" (some v)
  premises : ∀ v ∈ itemsOf (payload.get? "premiseFactIds"), Resolves records "FACT" (some v)

/-- The evidence has the content digest of a material that can be read. -/
def EvidenceBound (records : List Record) (payload : Json) : Prop :=
  ∃ id material digest, payload.get? "materialId" = some (.str id) ∧
    Listed records "MATERIAL" id material ∧
    material.get? "contentAvailable" = some (.bool true) ∧
    material.get? "contentDigest" = some (.str digest) ∧
    payload.get? "contentDigest" = some (.str digest)

/-- `premise` is a premise of the fact `id`. -/
def PremiseOf (records : List Record) (premise id : String) : Prop :=
  ∃ payload, Listed records "FACT" id payload ∧
    Json.str premise ∈ itemsOf (payload.get? "premiseFactIds")

structure Closed (records : List Record) : Prop where
  unique : (records.map fun r => (r.kind, r.id)).Nodup
  parents : ∀ {id payload}, Listed records "OBJECT" id payload →
    ∃ materialId, payload.get? "materialId" = some (.str materialId) ∧
      (∃ material, Listed records "MATERIAL" materialId material) ∧
      ParentChain records materialId id
  facts : ∀ {id payload}, Listed records "FACT" id payload → FactClosed records payload
  evidence : ∀ {id payload}, Listed records "EVIDENCE" id payload → EvidenceBound records payload
  wellFounded : WellFounded (PremiseOf records)

/-! ## What the checks tell -/

theorem checked_ok {condition : Prop} [Decidable condition] {code message : String}
    (h : checked condition code message = .ok ()) : condition := by
  unfold checked at h
  by_contra hnot
  rw [if_neg hnot] at h
  cases h

theorem onlyIf_ok {guard : Prop} [Decidable guard] {check : Except Thrown Unit}
    (h : onlyIf guard check = .ok ()) (hguard : guard) : check = .ok () := by
  unfold onlyIf at h
  rwa [if_pos hguard] at h

theorem text_of_isText {v : Option Json} (h : isText v = true) : ∃ s, v = some (.str s) := by
  unfold isText at h
  split at h
  · exact ⟨_, rfl⟩
  · cases h

theorem identified_ok {α : Type} {x : Except Failure α} {a : α} (h : identified x = .ok a) :
    x = .ok a := by
  cases x with
  | error e => cases h
  | ok b =>
    cases h
    rfl

theorem forM_ok {α ε : Type} {f : α → Except ε Unit} {xs : List α} (h : xs.forM f = .ok ()) :
    ∀ x ∈ xs, f x = .ok () := by
  induction xs with
  | nil => exact nofun
  | cons x xs ih =>
    obtain ⟨u, hx, h⟩ := bind_ok h
    exact List.forall_mem_cons.mpr ⟨hx, ih h⟩

/-! ## The tables -/

section Tables

variable {records : List Record} {kind id : String} {payload : Json}

theorem mem_table (h : (id, payload) ∈ table records kind) : Listed records kind id payload := by
  obtain ⟨r, hr, heq⟩ := List.mem_map.mp (OrderedMap.mem_of_mem_ofList h)
  obtain ⟨hmem, hkind⟩ := List.mem_filter.mp hr
  cases heq
  obtain rfl : r.kind = kind := of_decide_eq_true hkind
  exact hmem

theorem keyed_table (records : List Record) (kind : String) :
    OrderedMap.Keyed (table records kind) := by
  unfold table
  induction (records.filter fun r => r.kind = kind).map (fun r => (r.id, r.payload))
    using List.reverseRecOn with
  | nil => exact keyed_nil
  | append_singleton entries e ih =>
    rw [OrderedMap.ofList_append]
    exact keyed_set ih e.1 e.2

/-- Where no two records share kind and id, none hides another. -/
theorem table_of_listed (hunique : (records.map fun r => (r.kind, r.id)).Nodup)
    (h : Listed records kind id payload) : (id, payload) ∈ table records kind := by
  have hentry : (id, payload) ∈
      (records.filter fun r => r.kind = kind).map fun r => (r.id, r.payload) :=
    List.mem_map.mpr ⟨_, List.mem_filter.mpr ⟨h, decide_eq_true rfl⟩, rfl⟩
  obtain ⟨⟨key, found⟩, he, hkey⟩ := (OrderedMap.key_mem_ofList _ id).mpr ⟨_, hentry, rfl⟩
  obtain rfl : key = id := hkey
  have hfound : Listed records kind key found := mem_table he
  have hsame : (⟨kind, key, found⟩ : Record) = ⟨kind, key, payload⟩ :=
    List.inj_on_of_nodup_map hunique hfound h rfl
  cases hsame
  exact he

theorem lookup_some {value : Option Json} (h : lookup (table records kind) value = some payload) :
    ∃ id, value = some (.str id) ∧ Listed records kind id payload := by
  unfold lookup at h
  split at h
  · exact ⟨_, rfl, mem_table (get?_mem h)⟩
  · cases h

theorem resolves_of_lookup {value : Option Json}
    (h : (lookup (table records kind) value).isSome = true) : Resolves records kind value := by
  obtain ⟨payload, hfound⟩ := Option.isSome_iff_exists.mp h
  obtain ⟨id, hvalue, hlisted⟩ := lookup_some hfound
  exact ⟨id, payload, hvalue, hlisted⟩

theorem get?_of_listed (hunique : (records.map fun r => (r.kind, r.id)).Nodup)
    (h : Listed records kind id payload) : get? (table records kind) id = some payload :=
  OrderedMap.get?_of_mem (keyed_table records kind) (table_of_listed hunique h)

theorem key_of_listed (hunique : (records.map fun r => (r.kind, r.id)).Nodup)
    (h : Listed records kind id payload) : id ∈ keysOf (table records kind) :=
  List.mem_map.mpr ⟨_, table_of_listed hunique h, rfl⟩

end Tables

/-! ## One reference after another -/

section References

variable {records : List Record} {rules : Rules} {profile : Option Json} {payload : Json}

theorem objectReferences_ok (h : objectReferences profile (tablesOf records) payload = .ok ()) :
    ∃ materialId, payload.get? "materialId" = some (.str materialId) ∧
      (∃ material, Listed records "MATERIAL" materialId material) ∧
      ∀ v, payload.get? "parentId" = some v → ∃ parentId parent, v = .str parentId ∧
        Listed records "OBJECT" parentId parent ∧
        parent.get? "materialId" = some (.str materialId) := by
  unfold objectReferences at h
  obtain ⟨u, hmaterial, h⟩ := bind_ok h
  obtain ⟨materialId, material, hid, hlisted⟩ := resolves_of_lookup (checked_ok hmaterial)
  refine ⟨materialId, hid, ⟨material, hlisted⟩, ?_⟩
  intro v hv
  obtain ⟨u, -, h⟩ := bind_ok h
  obtain ⟨u, hparent, -⟩ := bind_ok (onlyIf_ok h (by rw [hv]; rfl))
  obtain ⟨parent, hfound, hsame⟩ := (Option.any_eq_true _ _).mp (checked_ok hparent).1
  obtain ⟨parentId, hvalue, hparent⟩ := lookup_some hfound
  refine ⟨parentId, parent, Option.some.inj (hv.symm.trans hvalue), hparent, ?_⟩
  exact (of_decide_eq_true hsame).trans hid

theorem evidenceBinding_ok (h : evidenceBinding (tablesOf records) payload = .ok ())
    (hdigest : isText (payload.get? "contentDigest") = true) : EvidenceBound records payload := by
  obtain ⟨material, hfound, hsame⟩ := (Option.any_eq_true _ _).mp (checked_ok h)
  obtain ⟨id, hvalue, hlisted⟩ := lookup_some hfound
  simp only [Bool.and_eq_true, decide_eq_true_eq] at hsame
  obtain ⟨digest, hdigest⟩ := text_of_isText hdigest
  exact ⟨id, material, digest, hvalue, hlisted, hsame.1, hsame.2.trans hdigest, hdigest⟩

theorem factReferences_ok (h : factReferences rules profile (tablesOf records) payload = .ok ()) :
    FactClosed records payload := by
  unfold factReferences at h
  obtain ⟨u, hsubject, h⟩ := bind_ok h
  obtain ⟨u, htarget, h⟩ := bind_ok h
  obtain ⟨u, -, h⟩ := bind_ok h
  obtain ⟨u, hevidence, h⟩ := bind_ok h
  obtain ⟨u, hpremises, -⟩ := bind_ok h
  refine ⟨resolves_of_lookup (checked_ok hsubject), fun hkind => ?_, fun v hv => ?_, fun v hv => ?_⟩
  · exact resolves_of_lookup (checked_ok (onlyIf_ok htarget (decide_eq_true hkind)))
  · exact resolves_of_lookup (checked_ok (forM_ok hevidence v hv))
  · exact resolves_of_lookup (checked_ok (forM_ok hpremises v hv))

end References

/-! ## No infinite descent -/

section Descent

variable {rules : Rules} {context : Context} {records : List Record}

theorem parentOf_some {t : Tables} {id parentId : String} (h : parentOf t id = some parentId) :
    ∃ payload, get? t.objects id = some payload ∧
      payload.get? "parentId" = some (.str parentId) := by
  unfold parentOf at h
  cases hget : get? t.objects id with
  | none =>
    rw [hget] at h
    cases h
  | some payload =>
    rw [hget] at h
    refine ⟨payload, rfl, ?_⟩
    split at h
    · next heq =>
      cases h
      exact heq
    · cases h

theorem get?_of_key {t : List (String × Json)} {id : String} (h : id ∈ keysOf t) :
    ∃ payload, get? t id = some payload := by
  obtain ⟨e, he, rfl⟩ := List.mem_map.mp h
  cases hget : get? t e.1 with
  | none => exact absurd rfl (OrderedMap.get?_eq_none.mp hget e he)
  | some payload => exact ⟨payload, rfl⟩

theorem parentChains_ok {t : Tables} (h : parentChains t = .ok ()) :
    Acyclic.Grounded (Acyclic.only (parentOf t)) (keysOf t.objects) := by
  unfold parentChains at h
  split at h
  · next hclimb => exact Acyclic.climbAll_grounded hclimb
  · cases checked_ok h
  · cases h

theorem premiseVisits_ok {t : Tables} (h : premiseVisits t = .ok ()) :
    Acyclic.Grounded (premisesOf t) (keysOf t.facts) := by
  unfold premiseVisits at h
  split at h
  · next hvisit => exact Acyclic.visitAll_grounded hvisit
  · cases checked_ok h
  · cases h

variable (hunique : (records.map fun r => (r.kind, r.id)).Nodup)
include hunique

/-- The climb was through, and every object is known with its parent: its chain ends. -/
theorem parentChain_of_acc (hrefs : ∀ {id payload}, Listed records "OBJECT" id payload →
      ∃ materialId, payload.get? "materialId" = some (.str materialId) ∧
        ∀ v, payload.get? "parentId" = some v → ∃ parentId parent, v = .str parentId ∧
          Listed records "OBJECT" parentId parent ∧
          parent.get? "materialId" = some (.str materialId))
    {id materialId : String}
    (hacc : Acc (Acyclic.After (Acyclic.only (parentOf (tablesOf records)))) id) :
    ∀ {payload}, Listed records "OBJECT" id payload →
      payload.get? "materialId" = some (.str materialId) → ParentChain records materialId id := by
  induction hacc with
  | intro id _ ih =>
    intro payload hlisted hmaterial
    cases hparent : payload.get? "parentId" with
    | none => exact .top hlisted hmaterial hparent
    | some v =>
      obtain ⟨m, hm, hknown⟩ := hrefs hlisted
      obtain ⟨parentId, parent, rfl, hparentListed, hsame⟩ := hknown v hparent
      have hmid : m = materialId := Json.str.inj (Option.some.inj (hm.symm.trans hmaterial))
      rw [hmid] at hsame
      have hget : get? (tablesOf records).objects id = some payload :=
        get?_of_listed hunique hlisted
      have hafter : parentOf (tablesOf records) id = some parentId := by
        unfold parentOf
        rw [hget]
        simp [field, hparent]
      apply ParentChain.child hlisted hmaterial hparent
      apply ih parentId _ hparentListed hsame
      simp [Acyclic.After, Acyclic.only, hafter]

omit hunique in
theorem of_mem_textItems {v : Option Json} {s : String} (h : s ∈ textItems v) :
    Json.str s ∈ itemsOf v := by
  obtain ⟨item, hitem, heq⟩ := List.mem_filterMap.mp h
  cases item with
  | str t =>
    cases heq
    exact hitem
  | _ => cases heq

omit hunique in
theorem mem_textItems {v : Option Json} {s : String} (h : Json.str s ∈ itemsOf v) :
    s ∈ textItems v :=
  List.mem_filterMap.mpr ⟨_, h, rfl⟩

/-- The visit was through: the premises of the facts have no infinite descent. -/
theorem premises_wellFounded
    (h : Acyclic.Grounded (premisesOf (tablesOf records)) (keysOf (tablesOf records).facts)) :
    WellFounded (PremiseOf records) := by
  have hafter : Subrelation (PremiseOf records)
      (Acyclic.After (premisesOf (tablesOf records))) := by
    rintro premise id ⟨payload, hlisted, hmem⟩
    have hget : get? (tablesOf records).facts id = some payload :=
      get?_of_listed hunique hlisted
    unfold Acyclic.After premisesOf
    rw [hget]
    exact mem_textItems hmem
  refine ⟨fun id => ⟨id, fun premise hpremise => ?_⟩⟩
  obtain ⟨payload, hlisted, hmem⟩ := hpremise
  have hacc : Acc (PremiseOf records) id :=
    hafter.accessible (h id (key_of_listed hunique hlisted))
  exact hacc.inv ⟨payload, hlisted, hmem⟩

/-- Where parents and premises resolve, the two searches for a cycle end, and each of them lets the
records through exactly where nothing descends without an end. -/
theorem cycles_are_refused
    (hobjects : ∀ {id payload}, Listed records "OBJECT" id payload →
      ∀ v, payload.get? "parentId" = some v → Resolves records "OBJECT" (some v))
    (hfacts : ∀ {id payload}, Listed records "FACT" id payload →
      ∀ v ∈ itemsOf (payload.get? "premiseFactIds"), Resolves records "FACT" (some v)) :
    let t := tablesOf records
    ((Acyclic.Grounded (Acyclic.only (parentOf t)) (keysOf t.objects) ∧ parentChains t = .ok ()) ∨
      (¬ Acyclic.Grounded (Acyclic.only (parentOf t)) (keysOf t.objects) ∧
        parentChains t = checked False "F002_RECORD_PARENT_CYCLE" "对象父结构存在环")) ∧
    ((Acyclic.Grounded (premisesOf t) (keysOf t.facts) ∧ premiseVisits t = .ok ()) ∨
      (¬ Acyclic.Grounded (premisesOf t) (keysOf t.facts) ∧
        premiseVisits t = checked False "F002_RECORD_PREMISE_CYCLE" "推导事实前提存在环")) := by
  intro t
  have hkey : ∀ {kind id}, Resolves records kind (some (.str id)) →
      id ∈ keysOf (table records kind) := by
    rintro kind id ⟨_, payload, heq, hlisted⟩
    cases heq
    exact key_of_listed hunique hlisted
  constructor
  · have hparents : ∀ id ∈ keysOf t.objects, ∀ y ∈ parentOf t id, y ∈ keysOf t.objects := by
      intro id _ parentId hparent
      obtain ⟨payload, hget, hparent⟩ := parentOf_some hparent
      exact hkey (hobjects (mem_table (get?_mem hget)) _ hparent)
    unfold parentChains
    obtain ⟨hg, done, h⟩ | ⟨hg, h⟩ := Acyclic.climbAll_stops hparents (List.Subset.refl _)
    · exact Or.inl ⟨hg, by rw [h]⟩
    · exact Or.inr ⟨hg, by rw [h]⟩
  · have hpremises : ∀ id ∈ keysOf t.facts, premisesOf t id ⊆ keysOf t.facts := by
      intro id hid premise hpremise
      obtain ⟨payload, hget⟩ := get?_of_key hid
      unfold premisesOf at hpremise
      rw [hget] at hpremise
      exact hkey (hfacts (mem_table (get?_mem hget)) _ (of_mem_textItems hpremise))
    unfold premiseVisits
    obtain ⟨hg, done, h⟩ | ⟨hg, h⟩ := Acyclic.visitAll_stops hpremises (List.Subset.refl _)
    · exact Or.inl ⟨hg, by rw [h]⟩
    · exact Or.inr ⟨hg, by rw [h]⟩

omit hunique in
/-- An object that is its own parent. -/
theorem own_parent_is_refused : parentChains (tablesOf
      [⟨"OBJECT", "o", .obj [("parentId", .str "o")]⟩]) =
    checked False "F002_RECORD_PARENT_CYCLE" "对象父结构存在环" := by
  refine ((cycles_are_refused (by decide) ?_ ?_).1.resolve_left ?_).2
  · intro id payload h v hv
    obtain ⟨-, rfl, rfl⟩ := Record.mk.inj (List.mem_singleton.mp h)
    exact ⟨"o", _, hv.symm, List.mem_singleton_self _⟩
  · intro id payload h
    exact absurd (Record.mk.inj (List.mem_singleton.mp h)).1 (by decide)
  · rintro ⟨hg, -⟩
    exact Acyclic.not_self (hg "o" (by decide)) (List.mem_singleton_self "o")

omit hunique

end Descent

/-! ## The whole closure -/

variable {sha256 : String → String} {rules : Rules} {context : Context} {records : List Record}

theorem closed_of_validateClosure (hunique : (records.map fun r => (r.kind, r.id)).Nodup)
    (hdigest : ∀ {id payload}, Listed records "EVIDENCE" id payload →
      isText (payload.get? "contentDigest") = true)
    (h : validateClosure sha256 rules context (tablesOf records) = .ok ()) : Closed records := by
  unfold validateClosure at h
  obtain ⟨u, -, h⟩ := bind_ok h
  obtain ⟨u, hobjects, h⟩ := bind_ok h
  obtain ⟨u, hparents, h⟩ := bind_ok h
  obtain ⟨u, hevidence, h⟩ := bind_ok h
  obtain ⟨u, hfacts, h⟩ := bind_ok h
  obtain ⟨u, -, h⟩ := bind_ok h
  obtain ⟨u, hpremises, -⟩ := bind_ok h
  have hrefs : ∀ {id payload}, Listed records "OBJECT" id payload → _ := fun hlisted =>
    objectReferences_ok (forM_ok hobjects _ (table_of_listed hunique hlisted))
  refine ⟨hunique, fun hlisted => ?_, fun hlisted => ?_, fun hlisted => ?_, ?_⟩
  · obtain ⟨materialId, hmaterial, hknown, -⟩ := hrefs hlisted
    have hacc := parentChains_ok hparents _ (key_of_listed hunique hlisted)
    exact ⟨materialId, hmaterial, hknown,
      parentChain_of_acc hunique (fun h => (hrefs h).imp fun m hm => ⟨hm.1, hm.2.2⟩) hacc hlisted
        hmaterial⟩
  · exact factReferences_ok (forM_ok hfacts _ (table_of_listed hunique hlisted))
  · exact evidenceBinding_ok (forM_ok hevidence _ (table_of_listed hunique hlisted))
      (hdigest hlisted)
  · exact premises_wellFounded hunique (premiseVisits_ok hpremises)

end Traqen.RecordVerification
