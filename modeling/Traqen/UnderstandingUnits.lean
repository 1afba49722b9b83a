-- The work units of a plan, said through the shards: a leaf for each, a module for each locality
-- with a leaf that is no gap, and the project. Their ids tell them apart.
import Traqen.UnderstandingPlanner
import Traqen.Lib.Pairs

open Js

namespace Traqen.UnderstandingPlanner

/-! ## Units by shards -/

section Units

variable (sha256 : String → String) (versions : Versions)

/-- The unit that reads a shard. -/
def shardUnit (s : Shard) : WorkUnit := leafUnit sha256 (partitionOf sha256 versions s)

/-- The shards of a module that its synthesis depends on. -/
def leafShards (shards : List Shard) (locality : String) : List Shard :=
  shards.filter fun s => s.isLeaf && s.locality = locality

def leafIds (shards : List Shard) (locality : String) : List String :=
  sortTexts ((leafShards shards locality).map fun s => (shardUnit sha256 versions s).id)

/-- The modules with a leaf, in the order of their names. -/
def moduleLocalities (shards : List Shard) : List String :=
  (sortTexts ((shards.map (·.locality)).eraseDups)).filter fun locality =>
    !(leafShards shards locality).isEmpty

def moduleOf (shards : List Shard) (locality : String) : WorkUnit :=
  moduleUnit sha256 versions locality (leafIds sha256 versions shards locality)

def moduleIds (shards : List Shard) : List String :=
  sortTexts ((moduleLocalities shards).map fun locality =>
    (moduleOf sha256 versions shards locality).id)

def projectOf (shards : List Shard) : WorkUnit :=
  projectUnit sha256 versions (moduleIds sha256 versions shards)

/-- What the ids of the units of a plan are made from. -/
def unitIdentities (shards : List Shard) : List Json :=
  shards.map (fun s => leafIdentity (partitionId sha256 versions s)) ++
    (moduleLocalities shards).map
      (fun locality => moduleIdentity locality (leafIds sha256 versions shards locality)) ++
    [projectIdentity (moduleIds sha256 versions shards)]

/-- The texts hashed for the partitions and units of these plans have different digests. -/
structure DigestsApart (plans : List (List Shard)) : Prop where
  partitions : ∀ s ∈ plans.flatten, ∀ t ∈ plans.flatten,
    partitionId sha256 versions s = partitionId sha256 versions t →
    canonicalJson (partitionIdentity versions s) = canonicalJson (partitionIdentity versions t)
  units : ∀ v ∈ plans.flatMap (unitIdentities sha256 versions),
    ∀ w ∈ plans.flatMap (unitIdentities sha256 versions),
    contentId sha256 "UNDERSTANDING-WORK-UNIT" v = contentId sha256 "UNDERSTANDING-WORK-UNIT" w →
    canonicalJson v = canonicalJson w

end Units

/-! ## What an identity says -/

theorem str_of_sameValue {a b : String} (h : canonicalizeValue (.str a) = canonicalizeValue (.str b)) :
    a = b := by
  simpa only [canonicalizeValue, Json.str.injEq] using h

theorem canonical_texts (texts : List String) :
    canonicalizeValue (.arr (texts.map .str)) = .arr (texts.map .str) := by
  have hitems : canonicalizeItems (texts.map .str) = texts.map .str := by
    induction texts with
    | nil => rfl
    | cons t ts ih => simp only [List.map_cons, canonicalizeItems, canonicalizeValue, ih]
  simp only [canonicalizeValue, hitems]

theorem texts_of_sameValue {ts us : List String}
    (h : canonicalizeValue (.arr (ts.map .str)) = canonicalizeValue (.arr (us.map .str))) :
    ts = us := by
  rw [canonical_texts, canonical_texts, Json.arr.injEq] at h
  exact List.map_injective_iff.mpr (fun a b hab => Json.str.inj hab) h

theorem range_of_canonical {r q : ArtifactRange}
    (h : canonicalizeValue r.toJson = canonicalizeValue q.toJson) : r = q := by
  have htext : canonicalJson r.toJson = canonicalJson q.toJson := congrArg Json.stringify h
  obtain ⟨i, hi, hid⟩ := field_of_canonicalJson htext (k := "artifactId") (v := .str r.artifactId)
    (by simp)
  obtain ⟨d, hd, hdigest⟩ := field_of_canonicalJson htext (k := "contentDigest")
    (v := .str r.contentDigest) (by simp)
  obtain ⟨e, he, hend⟩ := field_of_canonicalJson htext (k := "endByte") (v := .num r.endByte)
    (by simp)
  simp at hi hd he
  subst hi hd he
  cases r
  cases q
  rw [ArtifactRange.mk.injEq]
  refine ⟨(str_of_sameValue hid).symm, (str_of_sameValue hdigest).symm, ?_⟩
  simpa only [canonicalizeValue, Json.num.injEq] using hend.symm

theorem ranges_of_canonical {rs qs : List ArtifactRange}
    (h : canonicalizeValue (.arr (rs.map (·.toJson))) =
      canonicalizeValue (.arr (qs.map (·.toJson)))) : rs = qs := by
  simp only [canonicalizeValue, Json.arr.injEq] at h
  induction rs generalizing qs with
  | nil =>
    cases qs with
    | nil => rfl
    | cons q qs => simp [canonicalizeItems] at h
  | cons r rs ih =>
    cases qs with
    | nil => simp [canonicalizeItems] at h
    | cons q qs =>
      simp only [List.map_cons, canonicalizeItems, List.cons.injEq] at h
      rw [range_of_canonical h.1, ih h.2]

variable {s t : Shard}

/-- The identity of a partition says all of its shard. -/
theorem shard_of_identity {versions : Versions}
    (h : canonicalJson (partitionIdentity versions s) =
      canonicalJson (partitionIdentity versions t)) : s = t := by
  obtain ⟨l, hl, hlane⟩ := field_of_canonicalJson h (k := "lane") (v := .str s.lane) (by simp)
  obtain ⟨m, hm, hlocality⟩ := field_of_canonicalJson h (k := "locality") (v := .str s.locality)
    (by simp)
  obtain ⟨n, hn, hshard⟩ := field_of_canonicalJson h (k := "shard")
    (v := .num (Number.ofNat s.shard)) (by simp)
  obtain ⟨r, hr, hranges⟩ := field_of_canonicalJson h (k := "artifactRanges")
    (v := .arr (s.artifactRanges.map (·.toJson))) (by simp)
  simp [Versions.fields] at hl hm hn hr
  subst hl hm hn hr
  have hnumber : s.shard = t.shard := by
    simp only [canonicalizeValue, Json.num.injEq] at hshard
    exact (Number.ofNat_injective hshard).symm
  cases s
  cases t
  rw [Shard.mk.injEq]
  exact ⟨(str_of_sameValue hlane).symm, (str_of_sameValue hlocality).symm, hnumber,
    (ranges_of_canonical hranges).symm⟩

/-- The kind is part of the identity, and the rest of it. -/
theorem leaf_of_identity {p q : String}
    (h : canonicalJson (leafIdentity p) = canonicalJson (leafIdentity q)) : p = q := by
  obtain ⟨i, hi, hid⟩ := field_of_canonicalJson h (k := "partitionId") (v := .str p) (by simp)
  simp at hi
  subst hi
  exact (str_of_sameValue hid).symm

theorem module_of_identity {l m : String} {ds es : List String}
    (h : canonicalJson (moduleIdentity l ds) = canonicalJson (moduleIdentity m es)) :
    l = m ∧ ds = es := by
  obtain ⟨i, hi, hlocality⟩ := field_of_canonicalJson h (k := "locality") (v := .str l) (by simp)
  obtain ⟨d, hd, hdependencies⟩ := field_of_canonicalJson h (k := "dependencies")
    (v := .arr (ds.map .str)) (by simp)
  simp at hi hd
  subst hi hd
  exact ⟨(str_of_sameValue hlocality).symm, (texts_of_sameValue hdependencies).symm⟩

theorem project_of_identity {ds es : List String}
    (h : canonicalJson (projectIdentity ds) = canonicalJson (projectIdentity es)) : ds = es := by
  obtain ⟨d, hd, hdependencies⟩ := field_of_canonicalJson h (k := "dependencies")
    (v := .arr (ds.map .str)) (by simp)
  simp at hd
  subst hd
  exact (texts_of_sameValue hdependencies).symm

theorem leaf_ne_module (p l : String) (ds : List String) :
    canonicalJson (leafIdentity p) ≠ canonicalJson (moduleIdentity l ds) := by
  intro h
  obtain ⟨k, hk, hkind⟩ := field_of_canonicalJson h (k := "kind") (v := .str "LEAF") (by simp)
  simp at hk
  subst hk
  simp [canonicalizeValue] at hkind

theorem leaf_ne_project (p : String) (ds : List String) :
    canonicalJson (leafIdentity p) ≠ canonicalJson (projectIdentity ds) := by
  intro h
  obtain ⟨k, hk, hkind⟩ := field_of_canonicalJson h (k := "kind") (v := .str "LEAF") (by simp)
  simp at hk
  subst hk
  simp [canonicalizeValue] at hkind

theorem module_ne_project (l : String) (ds es : List String) :
    canonicalJson (moduleIdentity l ds) ≠ canonicalJson (projectIdentity es) := by
  intro h
  obtain ⟨k, hk, hkind⟩ := field_of_canonicalJson h (k := "kind") (v := .str "MODULE_SYNTHESIS")
    (by simp)
  simp at hk
  subst hk
  simp [canonicalizeValue] at hkind

/-! ## The ids of two plans -/

section Ids

variable {sha256 : String → String} {versions : Versions} {plans : List (List Shard)}
  (hapart : DigestsApart sha256 versions plans) {A B : List Shard}

include hapart

variable (hA : A ∈ plans)
include hA

theorem partitionId_inj (hB : B ∈ plans) (hs : s ∈ A) (ht : t ∈ B)
    (h : partitionId sha256 versions s = partitionId sha256 versions t) : s = t :=
  shard_of_identity (hapart.partitions s (List.mem_flatten_of_mem hA hs) t
    (List.mem_flatten_of_mem hB ht) h)

omit hapart in
theorem leaf_mem_identities (hs : s ∈ A) :
    leafIdentity (partitionId sha256 versions s) ∈ plans.flatMap (unitIdentities sha256 versions) :=
  List.mem_flatMap.mpr ⟨A, hA, List.mem_append_left _ (List.mem_append_left _
    (List.mem_map.mpr ⟨s, hs, rfl⟩))⟩

omit hapart in
theorem module_mem_identities {l : String} (hl : l ∈ moduleLocalities A) :
    moduleIdentity l (leafIds sha256 versions A l) ∈
      plans.flatMap (unitIdentities sha256 versions) :=
  List.mem_flatMap.mpr ⟨A, hA, List.mem_append_left _ (List.mem_append_right _
    (List.mem_map.mpr ⟨l, hl, rfl⟩))⟩

omit hapart in
theorem project_mem_identities : projectIdentity (moduleIds sha256 versions A) ∈
      plans.flatMap (unitIdentities sha256 versions) :=
  List.mem_flatMap.mpr ⟨A, hA, List.mem_append_right _ (List.mem_singleton_self _)⟩

variable (hB : B ∈ plans)
include hB

theorem shardUnit_inj (hs : s ∈ A) (ht : t ∈ B)
    (h : (shardUnit sha256 versions s).id = (shardUnit sha256 versions t).id) : s = t :=
  partitionId_inj hapart hA hB hs ht (leaf_of_identity
    (hapart.units _ (leaf_mem_identities hA hs) _ (leaf_mem_identities hB ht) h))

theorem moduleOf_inj {l m : String} (hl : l ∈ moduleLocalities A) (hm : m ∈ moduleLocalities B)
    (h : (moduleOf sha256 versions A l).id = (moduleOf sha256 versions B m).id) :
    l = m ∧ leafIds sha256 versions A l = leafIds sha256 versions B m :=
  module_of_identity (hapart.units _ (module_mem_identities hA hl) _ (module_mem_identities hB hm) h)

theorem projectOf_inj (h : (projectOf sha256 versions A).id = (projectOf sha256 versions B).id) :
    moduleIds sha256 versions A = moduleIds sha256 versions B :=
  project_of_identity (hapart.units _ (project_mem_identities hA) _ (project_mem_identities hB) h)

theorem shardUnit_ne_moduleOf (hs : s ∈ A) {l : String} (hl : l ∈ moduleLocalities B) :
    (shardUnit sha256 versions s).id ≠ (moduleOf sha256 versions B l).id :=
  fun h => leaf_ne_module _ _ _
    (hapart.units _ (leaf_mem_identities hA hs) _ (module_mem_identities hB hl) h)

theorem shardUnit_ne_projectOf (hs : s ∈ A) :
    (shardUnit sha256 versions s).id ≠ (projectOf sha256 versions B).id :=
  fun h => leaf_ne_project _ _
    (hapart.units _ (leaf_mem_identities hA hs) _ (project_mem_identities hB) h)

theorem moduleOf_ne_projectOf {l : String} (hl : l ∈ moduleLocalities A) :
    (moduleOf sha256 versions A l).id ≠ (projectOf sha256 versions B).id :=
  fun h => module_ne_project _ _ _
    (hapart.units _ (module_mem_identities hA hl) _ (project_mem_identities hB) h)

omit hB

omit hA

end Ids

/-! ## The units of a plan -/

section Plan

variable {sha256 : String → String} {versions : Versions} {plans : List (List Shard)}
  {shards : List Shard}

theorem mem_leafShards {locality : String} :
    s ∈ leafShards shards locality ↔ s ∈ shards ∧ s.isLeaf = true ∧ s.locality = locality := by
  unfold leafShards
  rw [List.mem_filter, Bool.and_eq_true, decide_eq_true_eq]

theorem mem_moduleLocalities {locality : String} :
    locality ∈ moduleLocalities shards ↔ ∃ s, s ∈ leafShards shards locality := by
  unfold moduleLocalities
  rw [List.mem_filter, mem_sortTexts, List.mem_eraseDups, List.mem_map]
  constructor
  · rintro ⟨_, hne⟩
    apply List.exists_mem_of_ne_nil
    intro hnil
    rw [hnil] at hne
    cases hne
  · rintro ⟨s, hs⟩
    refine ⟨⟨s, (mem_leafShards.mp hs).1, (mem_leafShards.mp hs).2.2⟩, ?_⟩
    cases hleaf : leafShards shards locality with
    | nil => rw [hleaf] at hs; cases hs
    | cons t ts => rfl

theorem nodup_moduleLocalities (shards : List Shard) : (moduleLocalities shards).Nodup := by
  unfold moduleLocalities sortTexts
  apply List.Nodup.filter
  rw [(List.perm_insertionSort _ _).nodup_iff]
  exact OrderedMap.nodup_eraseDups _

variable (hapart : DigestsApart sha256 versions plans)
include hapart

/-- The partition of a shard's unit is found again. -/
theorem localityOf_shardUnit (hshards : shards ∈ plans) (hs : s ∈ shards) :
    localityOf (shards.map (partitionOf sha256 versions)) (shardUnit sha256 versions s) =
      some s.locality := by
  unfold localityOf
  have hsome : ((shards.map (partitionOf sha256 versions)).find? fun p =>
      some p.id = (shardUnit sha256 versions s).partitionId).isSome = true := by
    rw [List.find?_isSome]
    exact ⟨_, List.mem_map_of_mem hs, decide_eq_true rfl⟩
  obtain ⟨p, hp⟩ := Option.isSome_iff_exists.mp hsome
  obtain ⟨t, ht, rfl⟩ := List.mem_map.mp (List.mem_of_find?_eq_some hp)
  have hfound := List.find?_some hp
  have hid : some (partitionId sha256 versions t) = some (partitionId sha256 versions s) :=
    of_decide_eq_true hfound
  rw [hp, partitionId_inj hapart hshards hshards ht hs (Option.some.inj hid)]
  rfl

theorem moduleDependencies_eq (hshards : shards ∈ plans) (locality : String) :
    moduleDependencies (shards.map (partitionOf sha256 versions))
      ((shards.map (partitionOf sha256 versions)).map (leafUnit sha256)) locality =
      leafIds sha256 versions shards locality := by
  unfold moduleDependencies leafIds leafShards
  have hunits : (shards.map (partitionOf sha256 versions)).map (leafUnit sha256) =
      shards.map (shardUnit sha256 versions) := by
    rw [List.map_map]
    rfl
  rw [hunits, List.filter_map, List.map_map]
  congr 1
  congr 1
  apply List.filter_congr
  intro s hs
  simp only [Function.comp_apply, localityOf_shardUnit hapart hshards hs, Option.some_inj]
  rw [Bool.and_comm]
  congr 1
  unfold shardUnit leafUnit partitionOf Shard.isLeaf
  by_cases hgap : s.lane = "GAP"
  · simp [hgap]
  · simp [hgap]

omit hapart in
theorem leafIds_isEmpty (locality : String) : (leafIds sha256 versions shards locality).isEmpty =
    (leafShards shards locality).isEmpty := by
  unfold leafIds
  cases hleaf : leafShards shards locality with
  | nil => rfl
  | cons s ss =>
    have hmem : (shardUnit sha256 versions s).id ∈
        sortTexts ((s :: ss).map fun t => (shardUnit sha256 versions t).id) :=
      mem_sortTexts.mpr (List.mem_cons_self)
    cases hsorted : sortTexts ((s :: ss).map fun t => (shardUnit sha256 versions t).id) with
    | nil => rw [hsorted] at hmem; cases hmem
    | cons t ts => rfl

theorem moduleUnits_eq (hshards : shards ∈ plans) :
    moduleUnits sha256 versions (shards.map (partitionOf sha256 versions))
      ((shards.map (partitionOf sha256 versions)).map (leafUnit sha256)) =
      (moduleLocalities shards).map (moduleOf sha256 versions shards) := by
  unfold moduleUnits moduleLocalities
  have hlocalities : (shards.map (partitionOf sha256 versions)).map (·.locality) =
      shards.map (·.locality) := by
    rw [List.map_map]
    rfl
  rw [hlocalities]
  induction sortTexts ((shards.map (·.locality)).eraseDups) with
  | nil => rfl
  | cons locality localities ih =>
    rw [List.filterMap_cons, ih, moduleDependencies_eq hapart hshards]
    dsimp only
    rw [leafIds_isEmpty]
    cases hempty : (leafShards shards locality).isEmpty
    · rw [List.filter_cons_of_pos (by rw [hempty]; rfl)]
      rfl
    · rw [List.filter_cons_of_neg (by rw [hempty]; simp)]
      rfl

omit hapart in
theorem moduleIds_isEmpty : (moduleIds sha256 versions shards).isEmpty =
    (moduleLocalities shards).isEmpty := by
  unfold moduleIds
  cases hmodules : moduleLocalities shards with
  | nil => rfl
  | cons l ls =>
    have hmem : (moduleOf sha256 versions shards l).id ∈
        sortTexts ((l :: ls).map fun m => (moduleOf sha256 versions shards m).id) :=
      mem_sortTexts.mpr (List.mem_cons_self)
    cases hsorted : sortTexts ((l :: ls).map fun m => (moduleOf sha256 versions shards m).id) with
    | nil => rw [hsorted] at hmem; cases hmem
    | cons t ts => rfl

/-- The units of a plan: the leaves, the modules, and the project if there is a module. -/
theorem workUnitsOf_eq (hshards : shards ∈ plans) :
    workUnitsOf sha256 versions (shards.map (partitionOf sha256 versions)) =
      shards.map (shardUnit sha256 versions) ++
        (moduleLocalities shards).map (moduleOf sha256 versions shards) ++
        if (moduleLocalities shards).isEmpty then [] else [projectOf sha256 versions shards] := by
  unfold workUnitsOf projectUnits
  dsimp only
  rw [moduleUnits_eq hapart hshards]
  have hids : sortTexts (((moduleLocalities shards).map (moduleOf sha256 versions shards)).map
      (·.id)) = moduleIds sha256 versions shards := by
    rw [List.map_map]
    rfl
  rw [hids, moduleIds_isEmpty, List.map_map]
  rfl

theorem mem_workUnitsOf (hshards : shards ∈ plans) {u : WorkUnit} :
    u ∈ workUnitsOf sha256 versions (shards.map (partitionOf sha256 versions)) ↔
      (∃ s ∈ shards, u = shardUnit sha256 versions s) ∨
      (∃ l ∈ moduleLocalities shards, u = moduleOf sha256 versions shards l) ∨
      (∃ l, l ∈ moduleLocalities shards) ∧ u = projectOf sha256 versions shards := by
  rw [workUnitsOf_eq hapart hshards, List.mem_append, List.mem_append, List.mem_map, List.mem_map,
    or_assoc]
  have hproject : (u ∈ if (moduleLocalities shards).isEmpty then []
      else [projectOf sha256 versions shards]) ↔
      (∃ l, l ∈ moduleLocalities shards) ∧ u = projectOf sha256 versions shards := by
    cases hmodules : moduleLocalities shards with
    | nil => simp
    | cons l ls =>
      simp only [List.isEmpty_cons, Bool.false_eq_true, if_false, List.mem_singleton]
      exact ⟨fun h => ⟨⟨l, List.mem_cons_self⟩, h⟩, fun h => h.2⟩
  rw [hproject]
  simp only [eq_comm (a := u)]

omit hapart

end Plan

end Traqen.UnderstandingPlanner
