-- What stays true of the records of a scope: the id sets, the index and the counts agree with the
-- arrays wherever a computation stops, and the records stay within the budget.
import Mathlib.Data.Finset.Card
import Mathlib.Data.Finset.Dedup
import Traqen.CompileBudget

open Js

namespace Traqen.CompileBudget

open FactIdentity Throwing Ledger

/-! ## One record -/

/-- What a call for one of the materials can add. -/
inductive Added (sha256 : String → String) (b : Budget) (ids : List String) : State → State → Prop
  | side (s : State) (pending : Fin 10 → List Json) (parentIds : List (String × String))
      (grown : ∀ i, s.pending i <+: pending i) :
      Added sha256 b ids s { s with pending, parentIds }
  | object {s u : State} {m : Material} {kind name objectId : String} {anchor : Anchor}
      (mem : m.materialId ∈ ids) (leaf : kind ≠ "MATERIAL")
      (id : createObjectId sha256 m.materialId kind anchor = .ok objectId)
      (new : OrderedMap.get? s.objectById objectId = none) (paid : charge b s = .ok u) :
      Added sha256 b ids s
        (pushObject m { objectId, materialId := m.materialId, kind, name, anchor } u)
  | evidence {s u : State} {e : Evidence} (new : e.evidenceId ∉ s.evidenceIdsSeen)
      (paid : charge b s = .ok u) :
      Added sha256 b ids s
        { u with evidenceIdsSeen := u.evidenceIdsSeen ++ [e.evidenceId]
                 evidence := u.evidence ++ [e] }
  | fact {s u : State} {f : Fact} (new : f.factId ∉ s.factIdsSeen) (paid : charge b s = .ok u) :
      Added sha256 b ids s
        { u with factIdsSeen := u.factIdsSeen ++ [f.factId], facts := u.facts ++ [f] }
  | gap {s u : State} {m : Material} {g : Gap} (mem : m.materialId ∈ ids)
      (material : g.materialId = some m.materialId)
      (id : createGapId sha256 g.origin g.materialId none g.capability g.code g.anchor g.reason =
        .ok g.gapId)
      (new : g.gapId ∉ s.gapIdsSeen) (paid : chargeGap b m s = .ok u) :
      Added sha256 b ids s
        { u with gapCounts := tally u.gapCounts g.materialId 1
                 gapIdsSeen := u.gapIdsSeen ++ [g.gapId], gaps := u.gaps ++ [g] }

section Steps

variable {sha256 : String → String} {b : Budget} {ids : List String} {m : Material}

theorem identified_ok {α : Type} {x : Except Failure α} {a : α} (h : identified x = .ok a) :
    x = .ok a := by
  unfold identified at h
  cases x with
  | error e => cases h
  | ok c =>
    cases h
    rfl

theorem addObject_within (hm : m.materialId ∈ ids) {kind : String} (hleaf : kind ≠ "MATERIAL")
    (name : String) (anchor : Anchor) :
    Within (Added sha256 b ids) (addObject sha256 b m kind name anchor) := by
  intro s
  unfold addObject
  cases hid : identified (createObjectId sha256 m.materialId kind anchor) with
  | error e => exact .refl
  | ok objectId =>
    dsimp only
    by_cases hfound : (OrderedMap.get? s.objectById objectId).isSome = true
    · rw [if_pos hfound]
    · rw [if_neg hfound, if_neg hleaf]
      cases hpaid : charge b s with
      | error e => exact .refl
      | ok u =>
        exact .single (.object hm hleaf (identified_ok hid) (by simpa using hfound) hpaid)

theorem addEvidence_within (anchor : Anchor) (evidenceKind : String) :
    Within (Added sha256 b ids) (addEvidence sha256 b m anchor evidenceKind) := by
  intro s
  unfold addEvidence
  cases identified (createEvidenceId sha256 m.materialId m.contentDigest anchor evidenceKind) with
  | error e => exact .refl
  | ok evidenceId =>
    dsimp only
    by_cases hseen : evidenceId ∈ s.evidenceIdsSeen
    · rw [if_pos hseen]
    · rw [if_neg hseen]
      cases hpaid : charge b s with
      | error e => exact .refl
      | ok u =>
        let e : Evidence := { evidenceId, materialId := m.materialId
                              contentDigest := m.contentDigest, anchor, evidenceKind }
        exact .single (.evidence (e := e) hseen hpaid)

theorem recordFact_within (input : FactInput) (evidenceId : String) :
    Within (Added sha256 b ids) (recordFact sha256 b m input evidenceId) := by
  intro s
  unfold recordFact
  dsimp only
  cases identified (createFactId sha256 input.subjectId input.predicate
      (if input.targetId.isSome then none else input.value) input.targetId input.basis [evidenceId]
      m.input.ruleRef input.premiseFactIds) with
  | error e => exact .refl
  | ok factId =>
    dsimp only
    by_cases hseen : factId ∈ s.factIdsSeen
    · rw [if_pos hseen]
    · rw [if_neg hseen]
      cases hpaid : charge b s with
      | error e => exact .refl
      | ok u => exact .single (.fact hseen hpaid)

theorem addFact_within (input : FactInput) :
    Within (Added sha256 b ids) (addFact sha256 b m input) :=
  within_andThen (addEvidence_within _ _) fun id => recordFact_within input id

theorem addGap_within (hm : m.materialId ∈ ids) (capability code : String) (anchor : Option Anchor)
    (extraReason : Anchor) :
    Within (Added sha256 b ids) (addGap sha256 b m capability code anchor extraReason) := by
  intro s
  unfold addGap
  dsimp only
  cases hid : identified (createGapId sha256 "F002" (some m.materialId) none capability code anchor
      (("category", .str code) :: extraReason)) with
  | error e => exact .refl
  | ok gapId =>
    dsimp only
    by_cases hseen : gapId ∈ s.gapIdsSeen
    · rw [if_pos hseen]
    · rw [if_neg hseen]
      cases hpaid : chargeGap b m s with
      | error e => exact .refl
      | ok u => exact .single (.gap hm rfl (identified_ok hid) hseen hpaid)

theorem exec_within (hm : m.materialId ∈ ids) {call : Call} (hleaf : call.isLeaf = true) :
    Within (Added sha256 b ids) (exec sha256 b m call) := by
  cases call with
  | object kind name anchor =>
    exact within_andThen (addObject_within hm (by simpa [Call.isLeaf] using hleaf) name anchor)
      fun _ => within_ret ()
  | parent objectId parentId =>
    exact within_modify fun s => .side s s.pending _ fun i => List.prefix_rfl
  | evidence anchor evidenceKind =>
    exact within_andThen (addEvidence_within anchor evidenceKind) fun _ => within_ret ()
  | fact input => exact addFact_within input
  | gap capability code anchor extraReason =>
    exact addGap_within hm capability code anchor extraReason
  | push array item =>
    refine within_modify fun s => .side s _ s.parentIds fun i => ?_
    by_cases hi : i = array
    · rw [if_pos hi]
      exact List.prefix_append _ _
    · rw [if_neg hi]
  | throw failure => exact within_lift _

theorem containChild_within (child : Object) :
    Within (Added sha256 b ids) (containChild sha256 b m child) := by
  intro s
  unfold containChild
  cases OrderedMap.get? s.parentIds child.objectId with
  | none => exact .refl
  | some parentId =>
    dsimp only
    cases OrderedMap.get? s.objectById parentId with
    | none => exact .refl
    | some subject => exact addFact_within _ s

theorem containChildren_within : Within (Added sha256 b ids) (containChildren sha256 b m) := by
  intro s
  unfold containChildren
  by_cases hstructured : m.isStructured = true
  · rw [if_pos hstructured]
    exact within_forEach (fun child _ => containChild_within child) s
  · rw [if_neg hstructured]

theorem extractMaterial_within {extract : Extractor} (hm : m.materialId ∈ ids)
    (hleaf : ∀ s m, ∀ call ∈ extract s m, call.isLeaf = true) :
    Within (Added sha256 b ids) (extractMaterial sha256 b extract m) := by
  intro s
  unfold extractMaterial
  cases refusal m with
  | some gap => exact addGap_within hm _ _ _ _ s
  | none =>
    exact within_andThen (within_forEach fun call hcall => exec_within hm (hleaf s m call hcall))
      (fun _ => containChildren_within) s

end Steps

/-! ## What stays true -/

/-- The id sets, the index of the objects and the counts of the gaps are those of the arrays. -/
structure Agree (s : State) : Prop where
  objects : Indexed (·.objectId) s.objects s.objectById
  evidence : Seen (·.evidenceId) s.evidence s.evidenceIdsSeen
  facts : Seen (·.factId) s.facts s.factIdsSeen
  gaps : Seen (·.gapId) s.gaps s.gapIdsSeen
  counts : Tallied (·.materialId) s.gaps s.gapCounts

/-- Records are added behind those that are there. -/
structure Extends (s t : State) : Prop where
  objects : s.objects <+: t.objects
  evidence : s.evidence <+: t.evidence
  facts : s.facts <+: t.facts
  gaps : s.gaps <+: t.gaps
  pending : ∀ i, s.pending i <+: t.pending i

def isRoot (o : Object) : Bool := o.kind = "MATERIAL"

/-- The materials that have a gap, of which the first is free. -/
def gapped (s : State) : Finset (Option String) := (s.gaps.map (·.materialId)).toFinset

/-- What was added besides the roots was charged, up to one gap of each material. -/
structure Counted (b : Budget) (s : State) : Prop where
  paid : (s.objects.filter fun o => !isRoot o).length + s.evidence.length + s.facts.length +
    s.gaps.length = s.extraRecords + (gapped s).card
  within : b.bounded = true → b.reserved ≤ b.recordLimit →
    s.extraRecords ≤ b.recordLimit - b.reserved

/-- The records are those of the materials `ids`, and no more of them are roots. -/
structure Kept (sha256 : String → String) (b : Budget) (ids : List String) (s : State) : Prop where
  agree : Agree s
  counted : Counted b s
  objectIds : ∀ o ∈ s.objects, o.materialId ∈ ids ∧
    createObjectId sha256 o.materialId o.kind o.anchor = .ok o.objectId
  gapIds : ∀ g ∈ s.gaps, (∃ id ∈ ids, g.materialId = some id) ∧
    createGapId sha256 g.origin g.materialId none g.capability g.code g.anchor g.reason =
      .ok g.gapId
  roots : (s.objects.filter isRoot).length ≤ ids.length

section Kept

variable {sha256 : String → String} {b : Budget} {ids : List String} {m : Material} {s t u : State}

theorem charge_ok (h : charge b s = .ok u) : u = { s with extraRecords := s.extraRecords + 1 } ∧
    (b.bounded = true → (s.extraRecords : Int) < b.recordLimit - b.reserved) := by
  unfold charge at h
  split at h
  · cases h
  rename_i hspent
  cases h
  exact ⟨rfl, fun hbounded => not_le.mp fun hle => hspent ⟨hbounded, hle⟩⟩

theorem chargeGap_ok (h : chargeGap b m s = .ok u) :
    countOf s.gapCounts (some m.materialId) = 0 ∧ u = s ∨
      countOf s.gapCounts (some m.materialId) ≠ 0 ∧ charge b s = .ok u := by
  unfold chargeGap at h
  by_cases hcount : countOf s.gapCounts (some m.materialId) ≠ 0
  · rw [if_pos hcount] at h
    exact .inr ⟨hcount, h⟩
  · rw [if_neg hcount] at h
    exact .inl ⟨not_not.mp hcount, (Except.ok.inj h).symm⟩

theorem Extends.refl : Extends s s :=
  ⟨List.prefix_rfl, List.prefix_rfl, List.prefix_rfl, List.prefix_rfl, fun _ => List.prefix_rfl⟩

theorem Extends.trans (h : Extends s t) (h' : Extends t u) : Extends s u :=
  ⟨h.objects.trans h'.objects, h.evidence.trans h'.evidence, h.facts.trans h'.facts,
    h.gaps.trans h'.gaps, fun i => (h.pending i).trans (h'.pending i)⟩

variable (h : Added sha256 b ids s t)
include h

theorem Added.extends : Extends s t := by
  cases h with
  | side pending parentIds grown =>
    exact ⟨List.prefix_rfl, List.prefix_rfl, List.prefix_rfl, List.prefix_rfl, grown⟩
  | object mem leaf id new paid =>
    obtain ⟨rfl, -⟩ := charge_ok paid
    exact ⟨List.prefix_append _ _, List.prefix_rfl, List.prefix_rfl, List.prefix_rfl,
      fun _ => List.prefix_rfl⟩
  | evidence new paid =>
    obtain ⟨rfl, -⟩ := charge_ok paid
    exact ⟨List.prefix_rfl, List.prefix_append _ _, List.prefix_rfl, List.prefix_rfl,
      fun _ => List.prefix_rfl⟩
  | fact new paid =>
    obtain ⟨rfl, -⟩ := charge_ok paid
    exact ⟨List.prefix_rfl, List.prefix_rfl, List.prefix_append _ _, List.prefix_rfl,
      fun _ => List.prefix_rfl⟩
  | gap mem material id new paid =>
    rcases chargeGap_ok paid with ⟨-, rfl⟩ | ⟨-, paid⟩
    · exact ⟨List.prefix_rfl, List.prefix_rfl, List.prefix_rfl, List.prefix_append _ _,
        fun _ => List.prefix_rfl⟩
    · obtain ⟨rfl, -⟩ := charge_ok paid
      exact ⟨List.prefix_rfl, List.prefix_rfl, List.prefix_rfl, List.prefix_append _ _,
        fun _ => List.prefix_rfl⟩

/-! ## Each bookkeeping -/

theorem Added.agree (hs : Agree s) : Agree t := by
  cases h with
  | side pending parentIds grown => exact ⟨hs.objects, hs.evidence, hs.facts, hs.gaps, hs.counts⟩
  | object mem leaf id new paid =>
    obtain ⟨rfl, -⟩ := charge_ok paid
    exact ⟨hs.objects.append new, hs.evidence, hs.facts, hs.gaps, hs.counts⟩
  | evidence new paid =>
    obtain ⟨rfl, -⟩ := charge_ok paid
    exact ⟨hs.objects, hs.evidence.append new, hs.facts, hs.gaps, hs.counts⟩
  | fact new paid =>
    obtain ⟨rfl, -⟩ := charge_ok paid
    exact ⟨hs.objects, hs.evidence, hs.facts.append new, hs.gaps, hs.counts⟩
  | gap mem material id new paid =>
    rcases chargeGap_ok paid with ⟨-, rfl⟩ | ⟨-, paid⟩
    · exact ⟨hs.objects, hs.evidence, hs.facts, hs.gaps.append new, hs.counts.append _⟩
    · obtain ⟨rfl, -⟩ := charge_ok paid
      exact ⟨hs.objects, hs.evidence, hs.facts, hs.gaps.append new, hs.counts.append _⟩

omit h in
/-- One more record that is charged. -/
theorem Counted.charge (h : Counted b s) (hbudget : b.bounded = true →
      (s.extraRecords : Int) < b.recordLimit - b.reserved)
    (hextra : t.extraRecords = s.extraRecords + 1) (hgapped : gapped t = gapped s)
    (hmore : (t.objects.filter fun o => !isRoot o).length + t.evidence.length + t.facts.length +
      t.gaps.length = (s.objects.filter fun o => !isRoot o).length + s.evidence.length +
        s.facts.length + s.gaps.length + 1) : Counted b t := by
  refine ⟨?_, fun hbounded hreserved => ?_⟩
  · rw [hmore, h.paid, hextra, hgapped]
    omega
  · have hlt := hbudget hbounded
    rw [hextra]
    omega

omit h in
theorem gapped_append (s : State) (g : Gap) (gaps : List Gap) (h : gaps = s.gaps ++ [g]) :
    (gaps.map (·.materialId)).toFinset = insert g.materialId (gapped s) := by
  subst h
  ext id
  simp [gapped, eq_comm]

theorem Added.counted (hs : Agree s) (hc : Counted b s) : Counted b t := by
  cases h with
  | side pending parentIds grown => exact ⟨hc.paid, hc.within⟩
  | object mem leaf id new paid =>
    obtain ⟨rfl, hbudget⟩ := charge_ok paid
    refine hc.charge hbudget rfl rfl ?_
    simp [pushObject, List.filter_append, isRoot, leaf]
    omega
  | evidence new paid =>
    obtain ⟨rfl, hbudget⟩ := charge_ok paid
    refine hc.charge hbudget rfl rfl ?_
    simp
    omega
  | fact new paid =>
    obtain ⟨rfl, hbudget⟩ := charge_ok paid
    refine hc.charge hbudget rfl rfl ?_
    simp
    omega
  | @gap u m g mem material id new paid =>
    have hzero := hs.counts.zero_iff (some m.materialId)
    rcases chargeGap_ok paid with ⟨hfree, rfl⟩ | ⟨hcharged, paid⟩
    · -- the first gap of the material
      have hnew : g.materialId ∉ gapped u := by
        rw [material, gapped, List.mem_toFinset]
        exact hzero.mp hfree
      refine ⟨?_, hc.within⟩
      have hpaid := hc.paid
      simp only [gapped, List.map_append, List.length_append, List.length_singleton]
      rw [← List.map_append, gapped_append u g _ rfl, Finset.card_insert_of_notMem hnew]
      omega
    · obtain ⟨rfl, hbudget⟩ := charge_ok paid
      have hold : g.materialId ∈ gapped s := by
        rw [material, gapped, List.mem_toFinset]
        exact not_not.mp fun hnot => hcharged (hzero.mpr hnot)
      refine hc.charge hbudget rfl ?_ ?_
      · exact (gapped_append s g _ rfl).trans (Finset.insert_eq_of_mem hold)
      · simp
        omega

/-- An object that is added is no root, and its id is that of its fields. -/
theorem Added.objects_eq : t.objects = s.objects ∨
    ∃ o, t.objects = s.objects ++ [o] ∧ isRoot o = false ∧ o.materialId ∈ ids ∧
      createObjectId sha256 o.materialId o.kind o.anchor = .ok o.objectId := by
  cases h with
  | side pending parentIds grown => exact .inl rfl
  | object mem leaf id new paid =>
    obtain ⟨rfl, -⟩ := charge_ok paid
    exact .inr ⟨_, rfl, decide_eq_false leaf, mem, id⟩
  | evidence new paid =>
    obtain ⟨rfl, -⟩ := charge_ok paid
    exact .inl rfl
  | fact new paid =>
    obtain ⟨rfl, -⟩ := charge_ok paid
    exact .inl rfl
  | gap mem material id new paid =>
    rcases chargeGap_ok paid with ⟨-, rfl⟩ | ⟨-, paid⟩
    · exact .inl rfl
    · obtain ⟨rfl, -⟩ := charge_ok paid
      exact .inl rfl

theorem Added.gaps_eq : t.gaps = s.gaps ∨
    ∃ g, t.gaps = s.gaps ++ [g] ∧ (∃ id ∈ ids, g.materialId = some id) ∧
      createGapId sha256 g.origin g.materialId none g.capability g.code g.anchor g.reason =
        .ok g.gapId := by
  cases h with
  | side pending parentIds grown => exact .inl rfl
  | object mem leaf id new paid =>
    obtain ⟨rfl, -⟩ := charge_ok paid
    exact .inl rfl
  | evidence new paid =>
    obtain ⟨rfl, -⟩ := charge_ok paid
    exact .inl rfl
  | fact new paid =>
    obtain ⟨rfl, -⟩ := charge_ok paid
    exact .inl rfl
  | @gap u m g mem material id new paid =>
    rcases chargeGap_ok paid with ⟨-, rfl⟩ | ⟨-, paid⟩
    · exact .inr ⟨g, rfl, ⟨m.materialId, mem, material⟩, id⟩
    · obtain ⟨rfl, -⟩ := charge_ok paid
      exact .inr ⟨g, rfl, ⟨m.materialId, mem, material⟩, id⟩

theorem Added.kept (hs : Kept sha256 b ids s) : Kept sha256 b ids t := by
  refine ⟨h.agree hs.agree, h.counted hs.agree hs.counted, ?_, ?_, ?_⟩
  · rcases h.objects_eq with heq | ⟨o, heq, -, hmem, hid⟩ <;> rw [heq]
    · exact hs.objectIds
    · rw [List.forall_mem_append]
      exact ⟨hs.objectIds, List.forall_mem_singleton.mpr ⟨hmem, hid⟩⟩
  · rcases h.gaps_eq with heq | ⟨g, heq, hmem, hid⟩ <;> rw [heq]
    · exact hs.gapIds
    · rw [List.forall_mem_append]
      exact ⟨hs.gapIds, List.forall_mem_singleton.mpr ⟨hmem, hid⟩⟩
  · rcases h.objects_eq with heq | ⟨o, heq, hleaf, -, -⟩ <;> rw [heq]
    · exact hs.roots
    · rw [List.filter_append, List.filter_singleton, hleaf, List.length_append]
      exact hs.roots

omit h

/-! ## Taking back -/

/-- The two states have the same records. -/
structure SameRecords (s t : State) : Prop where
  objects : t.objects = s.objects
  evidence : t.evidence = s.evidence
  facts : t.facts = s.facts
  gaps : t.gaps = s.gaps
  pending : t.pending = s.pending
  extraRecords : t.extraRecords = s.extraRecords

theorem rollback_same (h : Extends s t) : SameRecords s (rollback (snapshot s) t) :=
  ⟨(List.prefix_iff_eq_take.mp h.objects).symm, (List.prefix_iff_eq_take.mp h.evidence).symm,
    (List.prefix_iff_eq_take.mp h.facts).symm, (List.prefix_iff_eq_take.mp h.gaps).symm,
    funext fun i => (List.prefix_iff_eq_take.mp (h.pending i)).symm, rfl⟩

theorem rollback_agree (before : Snapshot) (h : Agree s) : Agree (rollback before s) := by
  refine ⟨?_, h.evidence.take _, h.facts.take _, h.gaps.take _, h.counts.take _⟩
  exact h.objects.take before.objects

theorem SameRecords.kept (h : SameRecords s t) (ht : Agree t) (hs : Kept sha256 b ids s) :
    Kept sha256 b ids t := by
  have hgapped : gapped t = gapped s := by rw [gapped, gapped, h.gaps]
  refine ⟨ht, ⟨?_, ?_⟩, ?_, ?_, ?_⟩
  · rw [h.objects, h.evidence, h.facts, h.gaps, h.extraRecords, hgapped]
    exact hs.counted.paid
  · rw [h.extraRecords]
    exact hs.counted.within
  · rw [h.objects]
    exact hs.objectIds
  · rw [h.gaps]
    exact hs.gapIds
  · rw [h.objects]
    exact hs.roots

/-! ## Neither lost nor twice -/

/-- What is added next stands exactly once, whether it was there before or not. -/
structure Once (sha256 : String → String) (b : Budget) (s : State) : Prop where
  object : ∀ {m kind name anchor id t}, addObject sha256 b m kind name anchor s = (.ok id, t) →
    (t.objects.filter fun o => o.objectId = id).length = 1
  evidence : ∀ {m anchor kind id t}, addEvidence sha256 b m anchor kind s = (.ok id, t) →
    (t.evidence.filter fun e => e.evidenceId = id).length = 1
  fact : ∀ {m input evidenceId id t}, createFactId sha256 input.subjectId input.predicate
      (if input.targetId.isSome then none else input.value) input.targetId input.basis [evidenceId]
      m.input.ruleRef input.premiseFactIds = .ok id →
    recordFact sha256 b m input evidenceId s = (.ok (), t) →
    (t.facts.filter fun f => f.factId = id).length = 1
  gap : ∀ {m capability code anchor extraReason id t}, createGapId sha256 "F002"
      (some m.materialId) none capability code anchor (("category", .str code) :: extraReason) =
        .ok id →
    addGap sha256 b m capability code anchor extraReason s = (.ok (), t) →
    (t.gaps.filter fun g => g.gapId = id).length = 1

theorem addObject_once (hs : Agree s) {kind name id : String} {anchor : Anchor}
    (h : addObject sha256 b m kind name anchor s = (.ok id, t)) :
    (t.objects.filter fun o => o.objectId = id).length = 1 := by
  unfold addObject at h
  split at h
  · cases h
  rename_i objectId hid
  by_cases hfound : (OrderedMap.get? s.objectById objectId).isSome = true
  · rw [if_pos hfound] at h
    cases h
    exact length_of_once hs.objects.once (hs.objects.mem hfound)
  · rw [if_neg hfound] at h
    split at h
    · cases h
    rename_i u hpaid
    cases h
    have hsame : u.objects = s.objects := by
      by_cases hkind : kind = "MATERIAL"
      · rw [if_pos hkind] at hpaid
        cases hpaid
        rfl
      · rw [if_neg hkind] at hpaid
        rw [(charge_ok hpaid).1]
    dsimp only [pushObject]
    rw [hsame]
    refine length_of_once (nodup_append_key hs.objects.once fun hmem => hfound ?_) (by simp)
    rw [hs.objects.get, List.find?_isSome]
    obtain ⟨o, ho, hkey⟩ := List.mem_map.mp hmem
    exact ⟨o, ho, decide_eq_true hkey⟩

theorem addEvidence_once (hs : Agree s) {kind id : String} {anchor : Anchor}
    (h : addEvidence sha256 b m anchor kind s = (.ok id, t)) :
    (t.evidence.filter fun e => e.evidenceId = id).length = 1 := by
  unfold addEvidence at h
  split at h
  · cases h
  rename_i evidenceId hid
  by_cases hseen : evidenceId ∈ s.evidenceIdsSeen
  · rw [if_pos hseen] at h
    cases h
    exact hs.evidence.length_seen hseen
  · rw [if_neg hseen] at h
    split at h
    · cases h
    rename_i u hpaid
    cases h
    obtain ⟨rfl, -⟩ := charge_ok hpaid
    exact hs.evidence.length_append hseen rfl

theorem recordFact_once (hs : Agree s) {input : FactInput} {evidenceId id : String}
    (hid : createFactId sha256 input.subjectId input.predicate
      (if input.targetId.isSome then none else input.value) input.targetId input.basis [evidenceId]
      m.input.ruleRef input.premiseFactIds = .ok id)
    (h : recordFact sha256 b m input evidenceId s = (.ok (), t)) :
    (t.facts.filter fun f => f.factId = id).length = 1 := by
  unfold recordFact at h
  dsimp only at h
  rw [hid] at h
  dsimp only [identified] at h
  by_cases hseen : id ∈ s.factIdsSeen
  · rw [if_pos hseen] at h
    cases h
    exact hs.facts.length_seen hseen
  · rw [if_neg hseen] at h
    split at h
    · cases h
    rename_i u hpaid
    cases h
    obtain ⟨rfl, -⟩ := charge_ok hpaid
    exact hs.facts.length_append hseen rfl

theorem addGap_once (hs : Agree s) {capability code id : String} {anchor : Option Anchor}
    {extraReason : Anchor} (hid : createGapId sha256 "F002" (some m.materialId) none capability code
      anchor (("category", .str code) :: extraReason) = .ok id)
    (h : addGap sha256 b m capability code anchor extraReason s = (.ok (), t)) :
    (t.gaps.filter fun g => g.gapId = id).length = 1 := by
  unfold addGap at h
  dsimp only at h
  rw [hid] at h
  dsimp only [identified] at h
  by_cases hseen : id ∈ s.gapIdsSeen
  · rw [if_pos hseen] at h
    cases h
    exact hs.gaps.length_seen hseen
  · rw [if_neg hseen] at h
    split at h
    · cases h
    rename_i u hpaid
    cases h
    have hsame : u.gaps = s.gaps := by
      rcases chargeGap_ok hpaid with ⟨-, rfl⟩ | ⟨-, hpaid⟩
      · rfl
      · rw [(charge_ok hpaid).1]
    dsimp only
    rw [hsame]
    exact hs.gaps.length_append hseen rfl

theorem Agree.once (hs : Agree s) : Once sha256 b s :=
  ⟨addObject_once hs, addEvidence_once hs, recordFact_once hs, addGap_once hs⟩

end Kept

end Traqen.CompileBudget
