-- The budget of a scope: every material keeps its root, one that is over the budget keeps that and
-- the gap that says so, and what is taken back leaves no trace in the id sets, the index or the
-- counts. The records stay within the budget as long as no extractor adds an object of the kind of
-- the roots, which is not charged.
import Traqen.CompileRecords

open Js

namespace Traqen.CompileBudget

open FactIdentity Throwing Ledger

/-! ## One material -/

variable {ms : List Material}

section Material

variable {sha256 : String → String} {b : Budget} {ids : List String} {m : Material} {s t u : State}

theorem Kept.mono {ids' : List String} (h : Kept sha256 b ids s) (hsub : ∀ id ∈ ids, id ∈ ids')
    (hlength : ids.length ≤ ids'.length) : Kept sha256 b ids' s := by
  refine ⟨h.agree, h.counted, fun o ho => ?_, fun g hg => ?_, h.roots.trans hlength⟩
  · exact ⟨hsub _ (h.objectIds o ho).1, (h.objectIds o ho).2⟩
  · obtain ⟨⟨id, hid, heq⟩, hcreated⟩ := h.gapIds g hg
    exact ⟨⟨id, hsub id hid, heq⟩, hcreated⟩

/-- The root of a new material is a new object. -/
theorem root_new (hsha : Function.Injective sha256) (hs : Kept sha256 b ids s)
    (hm : m.materialId ∉ ids) {kind id : String} {anchor : Anchor}
    (hid : createObjectId sha256 m.materialId kind anchor = .ok id) :
    OrderedMap.get? s.objectById id = none := by
  rw [hs.agree.objects.get, List.find?_eq_none]
  intro o ho heq
  obtain ⟨hmem, hsame⟩ := hs.objectIds o ho
  rw [of_decide_eq_true heq] at hsame
  exact hm (material_of_objectId hsha hsame hid ▸ hmem)

/-- The root as it is added. -/
def rootOf (m : Material) (objectId : String) : Object :=
  { objectId, materialId := m.materialId, kind := "MATERIAL"
    name := m.input.displayPath.getD "[non-utf8-path]", anchor := rootAnchor m }

variable {root : Material}

theorem addRoot_ok (hsha : Function.Injective sha256) (hs : Kept sha256 b ids s)
    (hm : m.materialId ∉ ids) (h : addRoot sha256 b m s = (.ok root, t)) :
    ∃ id, createObjectId sha256 m.materialId "MATERIAL" (rootAnchor m) = .ok id ∧
      OrderedMap.get? s.objectById id = none ∧ root = { m with root := some id } ∧
      t = pushObject m (rootOf m id) s := by
  unfold addRoot at h
  obtain ⟨objectId, v, hadd, hret⟩ := andThen_ok h
  cases hret
  unfold addObject at hadd
  cases hid : identified (createObjectId sha256 m.materialId "MATERIAL" (rootAnchor m)) with
  | error e =>
    rw [hid] at hadd
    cases hadd
  | ok id =>
    have hnew := root_new hsha hs hm (identified_ok hid)
    rw [hid] at hadd
    dsimp only at hadd
    rw [if_neg (by simp [hnew]), if_pos rfl] at hadd
    cases hadd
    exact ⟨_, identified_ok hid, hnew, rfl, rfl⟩

theorem pushObject_extends (m : Material) (o : Object) (s : State) : Extends s (pushObject m o s) :=
  ⟨List.prefix_append _ _, List.prefix_rfl, List.prefix_rfl, List.prefix_rfl,
    fun _ => List.prefix_rfl⟩

/-- A root is not charged. -/
theorem pushRoot_kept (hs : Kept sha256 b ids s) {id : String}
    (hid : createObjectId sha256 m.materialId "MATERIAL" (rootAnchor m) = .ok id)
    (hnew : OrderedMap.get? s.objectById id = none) :
    Kept sha256 b (ids ++ [m.materialId]) (pushObject m (rootOf m id) s) := by
  have hlast : m.materialId ∈ ids ++ [m.materialId] := by simp
  have hmono := hs.mono (fun id h => List.mem_append_left [m.materialId] h) (by simp)
  refine ⟨⟨hs.agree.objects.append hnew, hs.agree.evidence, hs.agree.facts, hs.agree.gaps,
    hs.agree.counts⟩, ⟨?_, hs.counted.within⟩, ?_, hmono.gapIds, ?_⟩
  · have hpaid := hs.counted.paid
    simpa [pushObject, rootOf, List.filter_append, isRoot, gapped] using hpaid
  · exact List.forall_mem_append.mpr
      ⟨hmono.objectIds, List.forall_mem_singleton.mpr ⟨hlast, hid⟩⟩
  · have hroots := hs.roots
    simpa [pushObject, rootOf, List.filter_append, isRoot] using hroots

/-! ## Its gaps -/

/-- The material has no gap so far. -/
def Free (m : Material) (s : State) : Prop := ∀ g ∈ s.gaps, g.materialId ≠ some m.materialId

theorem Kept.free (hs : Kept sha256 b ids s) (hm : m.materialId ∉ ids) : Free m s := by
  intro g hg heq
  obtain ⟨⟨id, hid, hmaterial⟩, -⟩ := hs.gapIds g hg
  rw [hmaterial] at heq
  exact hm (Option.some.inj heq ▸ hid)

/-- The gap of the limit of the records is refused by no check. -/
theorem createGapId_limit (sha256 : String → String) (materialId : Option String)
    (reason : Anchor) : ∃ id, createGapId sha256 "F002" materialId none "records" "SCOPE_RECORD_LIMIT" none reason =
      .ok id := ⟨_, rfl⟩

/-- The first gap of a material is added without a charge. -/
theorem addGap_free (hsha : Function.Injective sha256) (hs : Kept sha256 b ids s) (hfree : Free m s)
    (extraReason : Anchor) : ∃ gap seen,
      addGap sha256 b m "records" "SCOPE_RECORD_LIMIT" none extraReason s =
        (.ok (), { s with gapCounts := tally s.gapCounts (some m.materialId) 1
                          gapIdsSeen := seen, gaps := s.gaps ++ [gap] }) ∧
      gap.materialId = some m.materialId ∧ gap.capability = "records" ∧
      gap.code = "SCOPE_RECORD_LIMIT" := by
  obtain ⟨gapId, hid⟩ := createGapId_limit sha256 (some m.materialId)
    (("category", .str "SCOPE_RECORD_LIMIT") :: extraReason)
  have hnew : gapId ∉ s.gapIdsSeen := by
    intro hseen
    obtain ⟨g, hg, heq⟩ := List.mem_map.mp ((hs.agree.gaps.mem gapId).mp hseen)
    have hsame := (hs.gapIds g hg).2
    rw [heq] at hsame
    exact hfree g hg (material_of_gapId hsha hsame hid)
  have hcount : countOf s.gapCounts (some m.materialId) = 0 := by
    rw [hs.agree.counts.zero_iff, List.mem_map]
    rintro ⟨g, hg, heq⟩
    exact hfree g hg heq
  unfold addGap
  dsimp only
  rw [hid]
  dsimp only [identified, chargeGap]
  rw [if_neg hnew, if_neg (not_not.mpr hcount)]
  exact ⟨_, _, rfl, rfl, rfl, rfl⟩

/-! ## The rest of a material -/

/-- Calls that add no root. -/
def Leaves (extract : Extractor) : Prop := ∀ s m, ∀ call ∈ extract s m, call.isLeaf = true

variable {extract : Extractor}

theorem within_kept {α : Type} {x : Run α} (h : Within (Added sha256 b ids) x)
    (hs : Kept sha256 b ids s) : Kept sha256 b ids (x s).2 ∧ Extends s (x s).2 :=
  ⟨h.keeps (fun _ _ hadded hkept => hadded.kept hkept) hs,
    h.keeps (fun _ _ hadded hextends => hextends.trans hadded.extends) Extends.refl⟩

/-- What is taken back leaves the records of before, and nothing else is known of them. -/
theorem rollback_kept (hs : Kept sha256 b ids s) (ht : Kept sha256 b ids t) (h : Extends s t) :
    SameRecords s (rollback (snapshot s) t) ∧ Kept sha256 b ids (rollback (snapshot s) t) := by
  have hsame := rollback_same h
  exact ⟨hsame, hsame.kept (rollback_agree _ ht.agree) hs⟩

theorem SameRecords.extends (h : SameRecords s t) : Extends s t :=
  ⟨h.objects ▸ List.prefix_rfl, h.evidence ▸ List.prefix_rfl, h.facts ▸ List.prefix_rfl,
    h.gaps ▸ List.prefix_rfl, fun _ => h.pending ▸ List.prefix_rfl⟩

/-- An extraction ends as it is, or in the gap of a material that is over the budget. -/
theorem boundMaterial_cases (sha256 : String → String) (b : Budget) (extract : Extractor)
    (m : Material) (s : State) :
    (∃ t, extractMaterial sha256 b extract m s = (.error .ScopeRecordLimit, t) ∧
      boundMaterial sha256 b extract m s =
        addGap sha256 b m "records" "SCOPE_RECORD_LIMIT" none (limitReason b)
          (rollback (snapshot s) t)) ∨
    (extractMaterial sha256 b extract m s).1 ≠ .error .ScopeRecordLimit ∧
      boundMaterial sha256 b extract m s = extractMaterial sha256 b extract m s := by
  unfold boundMaterial
  rcases extractMaterial sha256 b extract m s with ⟨(_ | failure | _) | _, t⟩
  · exact .inl ⟨t, rfl, rfl⟩
  · exact .inr ⟨by simp, rfl⟩
  · exact .inr ⟨by simp, rfl⟩
  · exact .inr ⟨by simp, rfl⟩

theorem boundMaterial_kept (hm : m.materialId ∈ ids) (hleaf : Leaves extract)
    (hs : Kept sha256 b ids s) :
    Kept sha256 b ids (boundMaterial sha256 b extract m s).2 ∧
      Extends s (boundMaterial sha256 b extract m s).2 := by
  have hextracted := within_kept (extractMaterial_within hm hleaf) hs
  rcases boundMaterial_cases sha256 b extract m s with ⟨t, hlimit, heq⟩ | ⟨-, heq⟩ <;> rw [heq]
  · rw [hlimit] at hextracted
    obtain ⟨hsame, hback⟩ := rollback_kept hs hextracted.1 hextracted.2
    obtain ⟨hkept, hextends⟩ := within_kept
      (addGap_within hm "records" "SCOPE_RECORD_LIMIT" none (limitReason b)) hback
    exact ⟨hkept, hsame.extends.trans hextends⟩
  · exact hextracted

/-- The limit of the records never gets out of a material. -/
theorem boundMaterial_ne (hsha : Function.Injective sha256) (hm : m.materialId ∈ ids)
    (hleaf : Leaves extract) (hs : Kept sha256 b ids s) (hfree : Free m s) :
    (boundMaterial sha256 b extract m s).1 ≠ .error .ScopeRecordLimit := by
  rcases boundMaterial_cases sha256 b extract m s with ⟨t, hlimit, heq⟩ | ⟨hne, heq⟩ <;> rw [heq]
  · have hextracted := within_kept (extractMaterial_within hm hleaf) hs
    rw [hlimit] at hextracted
    obtain ⟨hsame, hback⟩ := rollback_kept hs hextracted.1 hextracted.2
    have hstill : Free m (rollback (snapshot s) t) := by
      unfold Free
      rw [hsame.gaps]
      exact hfree
    obtain ⟨gap, seen, hgap, -⟩ := addGap_free hsha hback hstill (limitReason b)
    rw [hgap]
    exact nofun
  · exact hne

/-- All that a material adds is its root and the gap of the limit. -/
structure OnlyLimit (m : Material) (s t : State) : Prop where
  objects : ∃ root, t.objects = s.objects ++ [root] ∧ root.materialId = m.materialId ∧
    root.kind = "MATERIAL"
  evidence : t.evidence = s.evidence
  facts : t.facts = s.facts
  gaps : ∃ gap, t.gaps = s.gaps ++ [gap] ∧ gap.materialId = some m.materialId ∧
    gap.capability = "records" ∧ gap.code = "SCOPE_RECORD_LIMIT"
  pending : t.pending = s.pending
  extraRecords : t.extraRecords = s.extraRecords

/-- What is taken back of a computation from `s` that stops in `t`: the records are those of `s`
again, the bookkeeping agrees with them, and nothing is lost or doubled later. -/
structure TakenBack (sha256 : String → String) (b : Budget) (s t : State) : Prop where
  same : SameRecords s (rollback (snapshot s) t)
  agree : Agree (rollback (snapshot s) t)
  once : Once sha256 b (rollback (snapshot s) t)

theorem takenBack (hs : Kept sha256 b ids s) (ht : Kept sha256 b ids t) (h : Extends s t) :
    TakenBack sha256 b s t :=
  have hback := rollback_kept hs ht h
  ⟨hback.1, hback.2.agree, hback.2.agree.once⟩

/-! ## A material with its root -/

/-- The root of a material is among the objects. -/
def Rooted (m : Material) (s : State) : Prop :=
  ∃ o ∈ s.objects, m.root = some o.objectId ∧ o.materialId = m.materialId ∧ o.kind = "MATERIAL"

theorem Rooted.extends (h : Rooted m s) (hst : Extends s t) : Rooted m t := by
  obtain ⟨o, ho, hroot⟩ := h
  exact ⟨o, hst.objects.subset ho, hroot⟩

/-- The material with its root, in the state behind it. -/
structure RootAdded (sha256 : String → String) (b : Budget) (ids : List String) (m : Material)
    (s : State) (root : Material) (t : State) : Prop where
  input : root.input = m.input
  materialId : root.materialId = m.materialId
  mem : root.materialId ∈ ids ++ [m.materialId]
  grown : Extends s t
  rooted : Rooted root t
  free : Free root t
  kept : Kept sha256 b (ids ++ [m.materialId]) t
  added : ∃ o, t = pushObject m o s ∧ o.materialId = m.materialId ∧ o.kind = "MATERIAL"

theorem rootAdded (hsha : Function.Injective sha256) (hs : Kept sha256 b ids s)
    (hm : m.materialId ∉ ids) (h : addRoot sha256 b m s = (.ok root, t)) :
    RootAdded sha256 b ids m s root t := by
  obtain ⟨id, hid, hnew, rfl, rfl⟩ := addRoot_ok hsha hs hm h
  refine ⟨rfl, rfl, by simp, pushObject_extends _ _ _, ⟨rootOf m id, ?_, rfl, rfl, rfl⟩, hs.free hm,
    pushRoot_kept hs hid hnew, ⟨_, rfl, rfl, rfl⟩⟩
  exact List.mem_append_right _ (List.mem_singleton_self _)

theorem compileMaterial_ok (hsha : Function.Injective sha256) (hleaf : Leaves extract)
    (hs : Kept sha256 b ids s) (hm : m.materialId ∉ ids) {done : Material}
    (h : compileMaterial sha256 b extract m s = (.ok done, t)) :
    Kept sha256 b (ids ++ [m.materialId]) t ∧ Extends s t ∧ Rooted done t ∧
      done.input = m.input ∧ done.materialId = m.materialId := by
  obtain ⟨root, u, hroot, h⟩ := andThen_ok h
  obtain ⟨_, v, hbound, h⟩ := andThen_ok h
  cases h
  have hadded := rootAdded hsha hs hm hroot
  have hdone := boundMaterial_kept hadded.mem hleaf hadded.kept
  rw [hbound] at hdone
  exact ⟨hdone.1, hadded.grown.trans hdone.2, hadded.rooted.extends hdone.2, hadded.input,
    hadded.materialId⟩

theorem identified_ne {α : Type} {x : Except Failure α} :
    identified x ≠ .error .ScopeRecordLimit := by
  cases x <;> simp [identified]

theorem addRoot_ne : (addRoot sha256 b m s).1 ≠ .error .ScopeRecordLimit := by
  unfold addRoot andThen addObject
  cases hid : identified (createObjectId sha256 m.materialId "MATERIAL" (rootAnchor m)) with
  | error e =>
    dsimp only
    intro h
    exact identified_ne (hid.trans (by rw [Except.error.inj h]))
  | ok id =>
    dsimp only
    by_cases hfound : (OrderedMap.get? s.objectById id).isSome = true
    · rw [if_pos hfound]
      exact nofun
    · rw [if_neg hfound, if_pos rfl]
      exact nofun

theorem compileMaterial_ne (hsha : Function.Injective sha256) (hleaf : Leaves extract)
    (hs : Kept sha256 b ids s) (hm : m.materialId ∉ ids) :
    (compileMaterial sha256 b extract m s).1 ≠ .error .ScopeRecordLimit := by
  unfold compileMaterial
  have hfirst : (addRoot sha256 b m s).1 ≠ _ := addRoot_ne
  rcases hroot : addRoot sha256 b m s with ⟨e | root, u⟩
  · rw [hroot] at hfirst
    rw [andThen, hroot]
    exact fun h => hfirst (congrArg Except.error (Except.error.inj h))
  · have hadded := rootAdded hsha hs hm hroot
    have hsecond := boundMaterial_ne hsha hadded.mem hleaf hadded.kept hadded.free
    rw [andThen, hroot]
    dsimp only
    rcases hbound : boundMaterial sha256 b extract root u with ⟨e | _, v⟩
    · rw [hbound] at hsecond
      rw [andThen, hbound]
      exact fun h => hsecond (congrArg Except.error (Except.error.inj h))
    · rw [andThen, hbound]
      exact nofun

/-- The material `root`, whose root stands in `t`, is over the budget: its extraction stops in
`u`. -/
structure OverBudget (sha256 : String → String) (b : Budget) (extract : Extractor) (m : Material)
    (s : State) (root : Material) (t u : State) : Prop where
  added : addRoot sha256 b m s = (.ok root, t)
  stopped : extractMaterial sha256 b extract root t = (.error .ScopeRecordLimit, u)

theorem compileMaterial_of (hroot : addRoot sha256 b m s = (.ok root, t))
    (hbound : boundMaterial sha256 b extract root t = (.ok (), u)) :
    compileMaterial sha256 b extract m s = (.ok root, u) := by
  unfold compileMaterial
  rw [andThen, hroot]
  dsimp only
  rw [andThen, hbound]
  rfl

theorem OverBudget.only (hsha : Function.Injective sha256) (hleaf : Leaves extract)
    (hs : Kept sha256 b ids s) (hm : m.materialId ∉ ids)
    (h : OverBudget sha256 b extract m s root t u) : TakenBack sha256 b t u ∧
      ∃ v, compileMaterial sha256 b extract m s = (.ok root, v) ∧ OnlyLimit m s v := by
  have hadded := rootAdded hsha hs hm h.added
  have hextracted := within_kept (extractMaterial_within hadded.mem hleaf) hadded.kept
  rw [h.stopped] at hextracted
  have hback : TakenBack sha256 b t u := takenBack hadded.kept hextracted.1 hextracted.2
  have hkept := hback.same.kept hback.agree hadded.kept
  have hstill : Free root (rollback (snapshot t) u) := by
    unfold Free
    rw [hback.same.gaps]
    exact hadded.free
  obtain ⟨gap, seen, hgap, hmaterial, hcapability, hcode⟩ :=
    addGap_free hsha hkept hstill (limitReason b)
  have hbound : boundMaterial sha256 b extract root t =
      addGap sha256 b root "records" "SCOPE_RECORD_LIMIT" none (limitReason b)
        (rollback (snapshot t) u) := by
    unfold boundMaterial
    rw [h.stopped]
  refine ⟨hback, _, compileMaterial_of h.added (hbound.trans hgap), ?_⟩
  obtain ⟨o, rfl, hobject, hkind⟩ := hadded.added
  exact ⟨⟨o, hback.same.objects, hobject, hkind⟩, hback.same.evidence, hback.same.facts,
    ⟨gap, congrArg (· ++ _) hback.same.gaps, hmaterial.trans (congrArg some hadded.materialId),
      hcapability, hcode⟩, hback.same.pending, hback.same.extraRecords⟩

/-! ## All materials -/

def idsOf (ms : List Material) : List String := ms.map (·.materialId)

theorem compileMaterials_ok (hsha : Function.Injective sha256) (hleaf : Leaves extract)
    (hs : Kept sha256 b ids s) (hids : (ids ++ idsOf ms).Nodup)
    {done : List Material} (h : compileMaterials sha256 b extract ms s = (.ok done, t)) :
    Kept sha256 b (ids ++ idsOf ms) t ∧ Extends s t ∧ (∀ m ∈ done, Rooted m t) ∧
      done.map (·.input) = ms.map (·.input) ∧ idsOf done = idsOf ms := by
  induction ms generalizing ids s done with
  | nil =>
    cases h
    refine ⟨?_, .refl, by simp, rfl, rfl⟩
    simpa [idsOf] using hs
  | cons m ms ih =>
    obtain ⟨first, u, hfirst, h⟩ := andThen_ok h
    obtain ⟨rest, v, hrest, h⟩ := andThen_ok h
    cases h
    have hsplit : ids ++ idsOf (m :: ms) = ids ++ [m.materialId] ++ idsOf ms := by simp [idsOf]
    rw [hsplit] at hids ⊢
    have hm : m.materialId ∉ ids := by
      have hids := (List.nodup_append.mp hids).1
      exact fun hmem => (List.nodup_append.mp hids).2.2 _ hmem _ (List.mem_singleton_self _) rfl
    obtain ⟨hkept, hextends, hrooted, hinput, hid⟩ := compileMaterial_ok hsha hleaf hs hm hfirst
    obtain ⟨hkept, hmore, hroots, hinputs, hdone⟩ := ih hkept hids hrest
    refine ⟨hkept, hextends.trans hmore, ?_, ?_, ?_⟩
    · exact List.forall_mem_cons.mpr ⟨hrooted.extends hmore, hroots⟩
    · rw [List.map_cons, List.map_cons, hinput, hinputs]
    · rw [idsOf, idsOf, List.map_cons, List.map_cons, hid]
      exact congrArg _ hdone

theorem compileMaterials_ne (hsha : Function.Injective sha256) (hleaf : Leaves extract)
    (hs : Kept sha256 b ids s) (hids : (ids ++ idsOf ms).Nodup) :
    (compileMaterials sha256 b extract ms s).1 ≠ .error .ScopeRecordLimit := by
  induction ms generalizing ids s with
  | nil => exact nofun
  | cons m ms ih =>
    have hsplit : ids ++ idsOf (m :: ms) = ids ++ [m.materialId] ++ idsOf ms := by simp [idsOf]
    rw [hsplit] at hids
    have hm : m.materialId ∉ ids := by
      have hids := (List.nodup_append.mp hids).1
      exact fun hmem => (List.nodup_append.mp hids).2.2 _ hmem _ (List.mem_singleton_self _) rfl
    have hne := compileMaterial_ne hsha hleaf hs hm
    unfold compileMaterials
    rcases hfirst : compileMaterial sha256 b extract m s with ⟨e | first, u⟩
    · rw [hfirst] at hne
      rw [andThen, hfirst]
      exact fun h => hne (congrArg Except.error (Except.error.inj h))
    · have hrest := ih (compileMaterial_ok hsha hleaf hs hm hfirst).1 hids
      rw [andThen, hfirst]
      dsimp only
      rcases hmore : compileMaterials sha256 b extract ms u with ⟨e | rest, v⟩
      · rw [hmore] at hrest
        rw [andThen, hmore]
        exact fun h => hrest (congrArg Except.error (Except.error.inj h))
      · rw [andThen, hmore]
        exact nofun

/-! ## The relations -/

variable {relations : Relations} {ms : List Material}

def LeafRelations (relations : Relations) : Prop :=
  ∀ s ms, ∀ call ∈ relations s ms, call.2.isLeaf = true

theorem relations_within (hids : ids = idsOf ms) (hleaf : LeafRelations relations) :
    Within (Added sha256 b ids) (forEach (execRelation sha256 b ms) (relations s ms)) := by
  refine within_forEach fun call hcall => ?_
  unfold execRelation
  cases hm : ms[call.1]? with
  | none => exact within_lift _
  | some m =>
    refine exec_within ?_ (hleaf s ms call hcall)
    rw [hids]
    exact List.mem_map_of_mem (List.mem_of_getElem? hm)

/-- The relation phase ends as it is, or in the gap of the scope. -/
theorem relate_cases (sha256 : String → String) (b : Budget) (relations : Relations)
    (ms : List Material) (s : State) :
    (∃ t, forEach (execRelation sha256 b ms) (relations s ms) s = (.error .ScopeRecordLimit, t) ∧
      relate sha256 b relations ms s = limitRelations sha256 b (rollback (snapshot s) t)) ∨
    (forEach (execRelation sha256 b ms) (relations s ms) s).1 ≠ .error .ScopeRecordLimit ∧
      relate sha256 b relations ms s = forEach (execRelation sha256 b ms) (relations s ms) s := by
  unfold relate
  rcases forEach (execRelation sha256 b ms) (relations s ms) s with ⟨(_ | failure | _) | _, t⟩
  · exact .inl ⟨t, rfl, rfl⟩
  · exact .inr ⟨by simp, rfl⟩
  · exact .inr ⟨by simp, rfl⟩
  · exact .inr ⟨by simp, rfl⟩

theorem limitRelations_ok (h : limitRelations sha256 b s = (.ok (), t)) :
    ∃ gap, t = { s with gaps := s.gaps ++ [gap] } := by
  unfold limitRelations at h
  dsimp only at h
  generalize identified _ = id at h
  cases id with
  | error e => cases h
  | ok id =>
    cases h
    exact ⟨_, rfl⟩

theorem limitRelations_ne : (limitRelations sha256 b s).1 ≠ .error .ScopeRecordLimit := by
  unfold limitRelations
  dsimp only
  generalize hid : identified _ = id
  cases id with
  | error e => exact fun h => identified_ne (hid.trans (congrArg _ (Except.error.inj h)))
  | ok id => exact nofun

theorem relate_ne : (relate sha256 b relations ms s).1 ≠ .error .ScopeRecordLimit := by
  rcases relate_cases sha256 b relations ms s with ⟨t, -, heq⟩ | ⟨hne, heq⟩ <;> rw [heq]
  · exact limitRelations_ne
  · exact hne

/-- Behind the materials stand their records, and at most one gap more. -/
theorem relate_ok (hs : Kept sha256 b (idsOf ms) s) (hleaf : LeafRelations relations)
    (h : relate sha256 b relations ms s = (.ok (), t)) :
    ∃ u, Kept sha256 b (idsOf ms) u ∧ Extends s u ∧ t.objects = u.objects ∧
      t.evidence = u.evidence ∧ t.facts = u.facts ∧ t.gaps.length ≤ u.gaps.length + 1 := by
  have hrelated := within_kept (relations_within (s := s) rfl hleaf) hs
  rcases relate_cases sha256 b relations ms s with ⟨u, hstopped, heq⟩ | ⟨hne, heq⟩
  · rw [hstopped] at hrelated
    obtain ⟨hsame, hkept⟩ := rollback_kept hs hrelated.1 hrelated.2
    obtain ⟨gap, rfl⟩ := limitRelations_ok (heq.symm.trans h)
    exact ⟨_, hkept, hsame.extends, rfl, rfl, rfl, by simp⟩
  · rw [heq.symm.trans h] at hrelated
    exact ⟨t, hrelated.1, hrelated.2, rfl, rfl, rfl, Nat.le_succ _⟩

end Material

/-! ## The scope -/

section Scope

variable {sha256 : String → String} {input : Input} {extract : Extractor} {relations : Relations}

def Result.total (r : Result) : Nat :=
  r.materials.length + r.objects.length + r.evidence.length + r.facts.length + r.gaps.length

/-- The locations of the materials. -/
def places (input : Input) : List (String × String) :=
  input.materials.map fun m => (m.componentId, m.pathBytes)

theorem initial_kept {b : Budget} : Kept sha256 b [] initial := by
  refine ⟨⟨indexed_nil _, seen_nil _, seen_nil _, seen_nil _, fun _ => rfl⟩, ⟨rfl, ?_⟩, nofun,
    nofun, le_refl 0⟩
  intro hbounded hle
  dsimp only [initial]
  omega

/-- The materials are those of the input, in the order of their places. -/
theorem normalized_ok (h : normalized sha256 input = .ok ms) :
    (ms.map (·.input)).Perm input.materials ∧ ∀ m ∈ ms, createMaterialId sha256 input.workspaceId
      input.bundleId m.input.componentId m.input.pathBytes = .ok m.materialId := by
  obtain ⟨taken, htaken, h⟩ := bind_ok h
  cases h
  have hperm := List.perm_insertionSort precedes taken
  have hof : ∀ x m, materialOf sha256 input.workspaceId input.bundleId x = .ok m → m.input = x ∧
      createMaterialId sha256 input.workspaceId input.bundleId x.componentId x.pathBytes =
        .ok m.materialId := by
    intro x m hm
    obtain ⟨id, hid, hm⟩ := bind_ok hm
    cases hm
    exact ⟨rfl, hid⟩
  constructor
  · have hinputs : taken.map (·.input) = input.materials.map id :=
      mapM_ok_map htaken fun x m hm => (hof x m hm).1
    rw [List.map_id] at hinputs
    exact hinputs ▸ hperm.map _
  · intro m hm
    obtain ⟨x, -, hx⟩ := exists_source (mapM_ok htaken) (hperm.mem_iff.mp hm)
    obtain ⟨rfl, hid⟩ := hof x m hx
    exact hid

/-- Materials of distinct places have distinct ids. -/
theorem normalized_ids (hsha : Function.Injective sha256) (hplaces : (places input).Nodup)
    (h : normalized sha256 input = .ok ms) : (idsOf ms).Nodup := by
  obtain ⟨hperm, hids⟩ := normalized_ok h
  have hdistinct : (ms.map fun m => (m.input.componentId, m.input.pathBytes)).Nodup := by
    have hsame := hperm.map fun m : MaterialInput => (m.componentId, m.pathBytes)
    rw [List.map_map] at hsame
    exact hsame.nodup_iff.mpr hplaces
  refine (List.nodup_map_iff_inj_on hdistinct.of_map).mpr fun m hm m' hm' heq => ?_
  have hplace := hids m' hm'
  rw [← heq] at hplace
  obtain ⟨hcomponent, hpath⟩ := location_of_materialId hsha (hids m hm) hplace
  exact List.inj_on_of_nodup_map hdistinct hm hm' (Prod.ext hcomponent hpath)

/-- The records that are charged, the roots and the free gaps. -/
theorem Kept.total_le {b : Budget} {ids : List String} {s : State} (hs : Kept sha256 b ids s)
    (hbounded : b.bounded = true) (hreserved : b.reserved ≤ b.recordLimit) :
    ((s.objects.length + s.evidence.length + s.facts.length + s.gaps.length : Nat) : Int) ≤
      b.recordLimit - b.reserved + 2 * ids.length := by
  have hpaid := hs.counted.paid
  have hwithin := hs.counted.within hbounded hreserved
  have hroots := hs.roots
  have hsplit := List.length_eq_length_filter_add (l := s.objects) isRoot
  have hgapped : (gapped s).card ≤ ids.length := by
    have hsub : gapped s ⊆ (ids.map some).toFinset := by
      intro id hid
      obtain ⟨g, hg, rfl⟩ := List.mem_map.mp (List.mem_toFinset.mp hid)
      obtain ⟨⟨id, hid, heq⟩, -⟩ := hs.gapIds g hg
      rw [List.mem_toFinset, heq]
      exact List.mem_map_of_mem hid
    calc (gapped s).card ≤ (ids.map some).toFinset.card := Finset.card_le_card hsub
      _ ≤ (ids.map some).length := List.toFinset_card_le _
      _ = ids.length := List.length_map _
  omega

/-- A compilation takes up the materials, then their relations. -/
theorem compile_ok {result : Result} (h : compile sha256 input extract relations = .ok result) :
    checkBudget input = .ok () ∧ ∃ ms done s t, normalized sha256 input = .ok ms ∧
      compileMaterials sha256 (budgetOf input) extract ms initial = (.ok done, s) ∧
      relate sha256 (budgetOf input) relations done s = (.ok (), t) ∧ result = resultOf done t := by
  unfold compile at h
  obtain ⟨_, hcheck, h⟩ := bind_ok h
  obtain ⟨ms, hms, h⟩ := bind_ok h
  dsimp only at h
  rcases hdone : compileMaterials sha256 (budgetOf input) extract ms initial with ⟨e | done, s⟩
  · rw [hdone] at h
    cases h
  · rw [hdone] at h
    dsimp only at h
    rcases hrelated : relate sha256 (budgetOf input) relations done s with ⟨e | _, t⟩
    · rw [hrelated] at h
      cases h
    · rw [hrelated] at h
      exact ⟨hcheck, ms, done, s, t, identified_ok hms, hdone, hrelated, (Except.ok.inj h).symm⟩

theorem checkBudget_ok (h : checkBudget input = .ok ()) (hbounded : input.bounded = true) :
    (budgetOf input).reserved ≤ (budgetOf input).recordLimit := by
  unfold checkBudget at h
  split at h
  · cases h
  rename_i hform
  split at h
  · cases h
  rename_i hsmall
  exact not_lt.mp fun hlt => hsmall ⟨hbounded, hlt⟩

theorem checkBudget_ne : checkBudget input ≠ .error .ScopeRecordLimit := by
  unfold checkBudget
  by_cases hform : input.bounded = true ∧ ¬ (1 ≤ input.maxRecords ∧ input.maxRecords ≤ 500000)
  · rw [if_pos hform]
    exact nofun
  · rw [if_neg hform]
    by_cases hsmall : input.bounded = true ∧ input.maxRecords < (budgetOf input).reserved
    · rw [if_pos hsmall]
      exact nofun
    · rw [if_neg hsmall]
      exact nofun

/-- The limit of the records is no error of a compilation. -/
theorem compile_ne (hsha : Function.Injective sha256) (hextract : Leaves extract)
    (hplaces : (places input).Nodup) :
    compile sha256 input extract relations ≠ .error .ScopeRecordLimit := by
  intro h
  unfold compile at h
  rcases bind_error h with h | ⟨_, -, h⟩
  · exact checkBudget_ne h
  rcases bind_error h with h | ⟨ms, hms, h⟩
  · exact identified_ne h
  have hids := normalized_ids hsha hplaces (identified_ok hms)
  have hmaterials := compileMaterials_ne (b := budgetOf input) hsha hextract initial_kept hids
  dsimp only at h
  rcases hdone : compileMaterials sha256 (budgetOf input) extract ms initial with ⟨e | done, s⟩
  · rw [hdone] at h hmaterials
    exact hmaterials (congrArg _ (Except.error.inj h))
  · rw [hdone] at h
    dsimp only at h
    have hrelations : (relate sha256 (budgetOf input) relations done s).1 ≠ _ := relate_ne
    rcases hrelated : relate sha256 (budgetOf input) relations done s with ⟨e | _, t⟩
    · rw [hrelated] at h hrelations
      exact hrelations (congrArg _ (Except.error.inj h))
    · rw [hrelated] at h
      cases h

/-- Every material keeps its root, one that is over the budget keeps nothing else but the gap that
says so, what is taken back is as if it had never been there, and the scope is within its budget. -/
theorem scope_record_budget (hsha : Function.Injective sha256) (hextract : Leaves extract)
    (hrelations : LeafRelations relations) (hbounded : input.bounded = true)
    (hplaces : (places input).Nodup) :
    (∀ result, compile sha256 input extract relations = .ok result →
      result.total ≤ input.maxRecords ∧
      (result.materials.map (·.input)).Perm input.materials ∧
      ∀ m ∈ result.materials, ∃ o ∈ result.objects,
        m.root = some o.objectId ∧ o.materialId = m.materialId ∧ o.kind = "MATERIAL") ∧
    compile sha256 input extract relations ≠ .error .ScopeRecordLimit ∧
    ∀ ms, normalized sha256 input = .ok ms →
      (∀ before m after done s root t u, ms = before ++ m :: after →
        compileMaterials sha256 (budgetOf input) extract before initial = (.ok done, s) →
        OverBudget sha256 (budgetOf input) extract m s root t u →
        TakenBack sha256 (budgetOf input) t u ∧
          ∃ v, compileMaterial sha256 (budgetOf input) extract m s = (.ok root, v) ∧
            OnlyLimit m s v) ∧
      ∀ done s t, compileMaterials sha256 (budgetOf input) extract ms initial = (.ok done, s) →
        forEach (execRelation sha256 (budgetOf input) done) (relations s done) s =
          (.error .ScopeRecordLimit, t) →
        TakenBack sha256 (budgetOf input) s t := by
  refine ⟨fun result h => ?_, compile_ne hsha hextract hplaces, fun ms hms => ⟨?_, ?_⟩⟩
  · obtain ⟨hcheck, ms, done, s, t, hms, hdone, hrelated, rfl⟩ := compile_ok h
    obtain ⟨hperm, -⟩ := normalized_ok hms
    have hids := normalized_ids hsha hplaces hms
    obtain ⟨hkept, -, hrooted, hinputs, hsame⟩ :=
      compileMaterials_ok hsha hextract initial_kept hids hdone
    rw [List.nil_append, ← hsame] at hkept
    obtain ⟨u, hkept, hextends, hobjects, hevidence, hfacts, hgaps⟩ :=
      relate_ok hkept hrelations hrelated
    refine ⟨?_, ?_, fun m hm => ?_⟩
    · have htotal := hkept.total_le hbounded (checkBudget_ok hcheck hbounded)
      have hlength : done.length = input.materials.length := by
        rw [← hperm.length_eq, ← hinputs, List.length_map]
      have hreserved : (budgetOf input).reserved = input.materials.length * 3 + 1 := rfl
      have hlimit : (budgetOf input).recordLimit = input.maxRecords := rfl
      simp only [Result.total, resultOf, List.length_insertionSort, hobjects, hevidence, hfacts]
      rw [idsOf, List.length_map] at htotal
      omega
    · exact hinputs ▸ hperm
    · obtain ⟨o, ho, hroot⟩ := (hrooted m hm).extends hextends
      refine ⟨o, ?_, hroot⟩
      rw [resultOf, (List.perm_insertionSort _ _).mem_iff, hobjects]
      exact ho
  · intro before m after done s root t u hsplit hdone hover
    have hids := normalized_ids hsha hplaces hms
    rw [hsplit, idsOf, List.map_append, List.map_cons, List.nodup_append] at hids
    have hkept := (compileMaterials_ok hsha hextract initial_kept hids.1 hdone).1
    refine hover.only hsha hextract hkept fun hmem => ?_
    exact hids.2.2 _ hmem _ List.mem_cons_self rfl
  · intro done s t hdone hstopped
    have hids := normalized_ids hsha hplaces hms
    obtain ⟨hkept, -, -, -, hsame⟩ := compileMaterials_ok hsha hextract initial_kept hids hdone
    have hrelated := within_kept (relations_within (s := s) hsame.symm hrelations) hkept
    rw [hstopped] at hrelated
    exact takenBack hkept hrelated.1 hrelated.2

end Scope

/-! ## One material -/

def bundleB : String := String.ofList (List.replicate 64 'b')

def componentC : String := String.ofList (List.replicate 64 'c')

/-- The file `a.json` of the component, which holds an empty object. -/
def emptyObject : MaterialInput :=
  { componentId := componentC, pathBytes := "YS5qc29u", rawPath := [97, 46, 106, 115, 111, 110]
    displayPath := some "a.json"
    bytesDigest := "44136fa355b3678a1146ad16f7e8649e94fb4fc21fe77e8310c060f61caaff8a"
    isUtf8 := true, privateKey := false, contentAvailable := true, contentDigest := none
    unavailableCode := none, kind := .JSON, ruleRef := some { id := "json", version := "1" } }

def scopeOf (maxRecords : Int) : Input :=
  { workspaceId := "shop", bundleId := bundleB, bounded := true, maxRecords
    materials := [emptyObject] }

def scopeDigest : String → String :=
  SourceIdentity.listedDigest
    [("\x7b\"domain\":\"F002.MATERIAL\",\"payload\":\x7b\"bundleId\":\"" ++ bundleB ++
        "\",\"componentId\":\"" ++ componentC ++
        "\",\"pathBytes\":\"YS5qc29u\",\"workspaceId\":\"shop\"\x7d,\"version\":1\x7d",
      "85cca96d8dcfeb4efa33f1b342cfedbbf8192bc6d2c0adbc44b433c828fdb8cb")]

theorem scopeDigest_injective : Function.Injective scopeDigest :=
  SourceIdentity.listedDigest_injective (by decide) (by decide)

def span (start : Nat) : Anchor := [("start", .num (Number.ofNat start))]

/-- Two pieces of evidence, where one is left. -/
def twoEvidence : Extractor := fun _ _ =>
  [.evidence (span 0) "SOURCE_TEXT", .evidence (span 1) "SOURCE_TEXT"]

def noRelations : Relations := fun _ _ => []

theorem twoEvidence_leaves : Leaves twoEvidence := by
  intro s m call hcall
  rcases List.mem_pair.mp hcall with rfl | rfl <;> rfl

/-- The result of a compilation, by what is computed of it. -/
theorem result_of {γ : Type} (compiled : Except Thrown Result) (f : Result → γ) {c : γ}
    (h : compiled.toOption.map f = some c) : ∃ result, compiled = .ok result ∧ f result = c := by
  cases compiled with
  | error e => cases h
  | ok result => exact ⟨result, rfl, Option.some.inj h⟩

/-- The material is over the budget of five records: it keeps its root and one gap. -/
theorem material_over_budget : ∃ result,
    compile scopeDigest (scopeOf 5) twoEvidence noRelations = .ok result ∧
      (result.total, result.gaps.map (·.code)) = (3, ["SCOPE_RECORD_LIMIT"]) ∧
      result.total ≤ (scopeOf 5).maxRecords ∧ ∀ m ∈ result.materials, ∃ o ∈ result.objects,
        m.root = some o.objectId ∧ o.materialId = m.materialId ∧ o.kind = "MATERIAL" := by
  obtain ⟨result, hresult, hvalues⟩ : ∃ result, _ ∧ _ = (3, ["SCOPE_RECORD_LIMIT"]) := result_of
    (compile scopeDigest (scopeOf 5) twoEvidence noRelations)
    (fun r => (r.total, r.gaps.map (·.code))) (by decide +kernel)
  have hscope := @scope_record_budget scopeDigest (scopeOf 5) twoEvidence noRelations
    scopeDigest_injective twoEvidence_leaves (fun _ _ _ hcall => nomatch hcall) rfl (by decide)
  obtain ⟨hwithin, -, hroots⟩ := hscope.1 result hresult
  exact ⟨result, hresult, hvalues, hwithin, hroots⟩

/-- Objects of the kind of a root are not charged. -/
def threeRoots : Extractor := fun _ _ =>
  [.object "MATERIAL" "a" (span 0), .object "MATERIAL" "b" (span 1),
    .object "MATERIAL" "c" (span 2)]

/-- An extractor that adds objects of the kind of a root exceeds a budget of what is reserved. -/
theorem roots_exceed_the_budget : 3 * (scopeOf 4).materials.length + 1 ≤ (scopeOf 4).maxRecords ∧
    (scopeOf 4).bounded = true ∧ (places (scopeOf 4)).Nodup ∧ ∃ result,
      compile scopeDigest (scopeOf 4) threeRoots noRelations = .ok result ∧
        (scopeOf 4).maxRecords < result.total := by
  refine ⟨by decide, rfl, by decide, ?_⟩
  obtain ⟨result, hresult, htotal⟩ : ∃ result, _ ∧ _ = 5 := result_of
    (compile scopeDigest (scopeOf 4) threeRoots noRelations) Result.total (by decide +kernel)
  refine ⟨result, hresult, ?_⟩
  rw [htotal]
  decide

end Traqen.CompileBudget
