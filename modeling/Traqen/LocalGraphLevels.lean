-- How far the local graph reaches: each level is one step further along the relations, so what is
-- answered without the mark of truncation is all that the depth reaches, and nothing else.
import Traqen.Lib.BreadthFirst
import Traqen.LocalGraph
import Traqen.PublishedSets

open Js

namespace Traqen.LocalGraph

open RecordVerification

/-! ## Distances -/

/-- A relation fact leads from one object to another, either way. -/
def Linked (records : List Record) (a b : String) : Prop :=
  ∃ r ∈ records, isRelation r = true ∧
    (subjectOf r = a ∧ targetOf r = b ∨ subjectOf r = b ∧ targetOf r = a)

/-- The objects that the distances are measured from. -/
def Origin (records : List Record) (root : Record) (id : String) : Prop :=
  (root.kind = "OBJECT" ∧ id = root.id) ∨
    root.kind = "MATERIAL" ∧ ∃ object ∈ records, object.kind = "OBJECT" ∧
      object.payload.get? "materialId" = some (.str root.id) ∧ object.id = id

/-- An object is no further than so many relations. -/
def Within (records : List Record) (root : Record) (n : Nat) (id : String) : Prop :=
  ∃ origin, Origin records root origin ∧
    ∃ k ≤ n, BreadthFirst.Walk (Linked records) origin k id

/-- A relation has an end that is nearer. -/
def Reaches (records : List Record) (root : Record) (n : Nat) (relation : Record) : Prop :=
  ∃ k < n, Within records root k (subjectOf relation) ∨
    Within records root k (targetOf relation)

section Levels

variable {records : List Record} {root : Record} {limit n : Nat} {s s' : Drawn}
  {frontier : List String} {a b id : String} {relation : Record}

theorem Within.mono {m : Nat} (h : Within records root n id) (hle : n ≤ m) :
    Within records root m id := by
  obtain ⟨origin, horigin, k, hk, hwalk⟩ := h
  exact ⟨origin, horigin, k, hk.trans hle, hwalk⟩

theorem Within.step (h : Within records root n a) (hlinked : Linked records a b) :
    Within records root (n + 1) b := by
  obtain ⟨origin, horigin, k, hk, hwalk⟩ := h
  exact ⟨origin, horigin, k + 1, Nat.succ_le_succ hk, .step hwalk hlinked⟩

/-- The last step to an object. -/
theorem Within.cases_succ (h : Within records root (n + 1) b) :
    Within records root n b ∨ ∃ a, Within records root n a ∧ Linked records a b := by
  obtain ⟨origin, horigin, k, hk, hwalk⟩ := h
  cases hwalk with
  | start => exact Or.inl ⟨_, horigin, 0, Nat.zero_le n, .start⟩
  | step hwalk hlinked =>
    exact Or.inr ⟨_, ⟨origin, horigin, _, Nat.le_of_succ_le_succ hk, hwalk⟩, hlinked⟩

theorem Within.origin (h : Within records root 0 id) : Origin records root id := by
  obtain ⟨origin, horigin, k, hk, hwalk⟩ := h
  obtain rfl : k = 0 := by omega
  cases hwalk
  exact horigin

theorem linked_ends (hmem : relation ∈ records) (hrelation : isRelation relation = true) :
    Linked records (subjectOf relation) (targetOf relation) ∧
      Linked records (targetOf relation) (subjectOf relation) :=
  ⟨⟨relation, hmem, hrelation, Or.inl ⟨rfl, rfl⟩⟩, ⟨relation, hmem, hrelation, Or.inr ⟨rfl, rfl⟩⟩⟩

/-- What is drawn after so many levels, where nothing is left out. -/
structure Level (records : List Record) (root : Record) (n : Nat) (s : Drawn)
    (frontier : List String) : Prop where
  near : ∀ a ∈ frontier, Within records root n a
  far : ∀ a, Within records root n a → a ∈ frontier ∨ ∃ k < n, Within records root k a
  edges : ∀ e, e ∈ s.edges ↔ ∃ r ∈ records, isRelation r = true ∧ e = (r.id, edgeOf r) ∧
    Reaches records root n r
  objects : ∀ id, s.has ("OBJECT", id) = true ↔ Within records root n id

theorem mem_relationRows : relation ∈ relationRows records ↔
    relation ∈ records ∧ isRelation relation = true := by
  unfold relationRows
  rw [List.mem_insertionSort, List.mem_filter]

variable (h : Level records root n s frontier)
include h

/-- A relation that touches the frontier has a nearer end at the next level. -/
theorem Level.reaches : Reaches records root (n + 1) relation ↔
      Reaches records root n relation ∨ Touches frontier relation := by
  constructor
  · rintro ⟨k, hk, hends⟩
    have hcase : ∀ a, Within records root k a → a ∈ frontier ∨ ∃ k < n, Within records root k a :=
      fun a ha => h.far a (ha.mono (by omega))
    rcases hends with hsubject | htarget
    · rcases hcase _ hsubject with hmem | ⟨j, hj, hwithin⟩
      · exact Or.inr (Or.inl hmem)
      · exact Or.inl ⟨j, hj, Or.inl hwithin⟩
    · rcases hcase _ htarget with hmem | ⟨j, hj, hwithin⟩
      · exact Or.inr (Or.inr hmem)
      · exact Or.inl ⟨j, hj, Or.inr hwithin⟩
  · rintro (⟨k, hk, hends⟩ | hsubject | htarget)
    · exact ⟨k, by omega, hends⟩
    · exact ⟨n, by omega, Or.inl (h.near _ hsubject)⟩
    · exact ⟨n, by omega, Or.inr (h.near _ htarget)⟩

/-- The end of a relation that touches the frontier is one step further at most. -/
theorem Level.touched (hmem : relation ∈ records)
    (hrelation : isRelation relation = true) (htouch : Touches frontier relation) :
    Within records root (n + 1) (subjectOf relation) ∧
      Within records root (n + 1) (targetOf relation) := by
  obtain ⟨hforth, hback⟩ := linked_ends hmem hrelation
  rcases htouch with hsubject | htarget
  · exact ⟨(h.near _ hsubject).mono (by omega), (h.near _ hsubject).step hforth⟩
  · exact ⟨(h.near _ htarget).step hback, (h.near _ htarget).mono (by omega)⟩

/-- An object one step further is an end of a relation that touches the frontier. -/
theorem Level.far_step (hb : Within records root (n + 1) b) :
    Within records root n b ∨ ∃ r ∈ relationRows records, Touches frontier r ∧
      (b = subjectOf r ∨ b = targetOf r) := by
  rcases hb.cases_succ with hb | ⟨a, ha, r, hmem, hrelation, hends⟩
  · exact Or.inl hb
  · rcases h.far a ha with hfrontier | ⟨k, hk, hnear⟩
    · refine Or.inr ⟨r, mem_relationRows.mpr ⟨hmem, hrelation⟩, ?_⟩
      rcases hends with ⟨rfl, rfl⟩ | ⟨rfl, rfl⟩
      · exact ⟨Or.inl hfrontier, Or.inr rfl⟩
      · exact ⟨Or.inr hfrontier, Or.inl rfl⟩
    · exact Or.inl ((hnear.step ⟨r, hmem, hrelation, hends⟩).mono (by omega))

/-- One level leads to the next. -/
theorem Level.next {next : List String}
    (hdrawn : RelationsDrawn (relationRows records) frontier (s, []) (s', next)) :
    Level records root (n + 1) s' next where
  near b hb := by
    rcases (hdrawn.next b).mp hb with hb | ⟨r, hr, htouch, hends, -⟩
    · cases hb
    · obtain ⟨hmem, hrelation⟩ := mem_relationRows.mp hr
      obtain ⟨hsubject, htarget⟩ := h.touched hmem hrelation htouch
      rcases hends with rfl | rfl
      · exact hsubject
      · exact htarget
  far b hb := by
    rcases h.far_step hb with hb | ⟨r, hr, htouch, hends⟩
    · exact Or.inr ⟨n, by omega, hb⟩
    · by_cases hfrontier : b ∈ frontier
      · exact Or.inr ⟨n, by omega, h.near b hfrontier⟩
      · exact Or.inl ((hdrawn.next b).mpr (Or.inr ⟨r, hr, htouch, hends, hfrontier⟩))
  edges e := by
    rw [hdrawn.edges e, h.edges e]
    constructor
    · rintro (⟨r, hmem, hrelation, rfl, hreaches⟩ | ⟨r, hr, htouch, rfl⟩)
      · exact ⟨r, hmem, hrelation, rfl, h.reaches.mpr (Or.inl hreaches)⟩
      · obtain ⟨hmem, hrelation⟩ := mem_relationRows.mp hr
        exact ⟨r, hmem, hrelation, rfl, h.reaches.mpr (Or.inr htouch)⟩
    · rintro ⟨r, hmem, hrelation, rfl, hreaches⟩
      rcases h.reaches.mp hreaches with hreaches | htouch
      · exact Or.inl ⟨r, hmem, hrelation, rfl, hreaches⟩
      · exact Or.inr ⟨r, mem_relationRows.mpr ⟨hmem, hrelation⟩, htouch, rfl⟩
  objects id := by
    rw [hdrawn.nodes]
    constructor
    · rintro (hold | ⟨r, hr, htouch, hkey⟩)
      · exact ((h.objects id).mp hold).mono (by omega)
      · obtain ⟨hmem, hrelation⟩ := mem_relationRows.mp hr
        obtain ⟨hsubject, htarget⟩ := h.touched hmem hrelation htouch
        simp only [Prod.mk.injEq, String.reduceEq, false_and, true_and, false_or] at hkey
        rcases hkey with rfl | rfl
        · exact hsubject
        · exact htarget
    · intro hwithin
      rcases h.far_step hwithin with hold | ⟨r, hr, htouch, hends⟩
      · exact Or.inl ((h.objects id).mpr hold)
      · refine Or.inr ⟨r, hr, htouch, Or.inr ?_⟩
        rcases hends with rfl | rfl
        · exact Or.inl rfl
        · exact Or.inr rfl

omit h

/-- Both ends of every edge are among the nodes. -/
def Ended (s : Drawn) : Prop :=
  ∀ e ∈ s.edges, s.has ("OBJECT", e.2.subjectId) = true ∧
    s.has ("OBJECT", e.2.targetId) = true

theorem ended_drawn {state state' : Drawn × List String}
    (hdrawn : RelationsDrawn (relationRows records) frontier state state')
    (h : Ended state.1) : Ended state'.1 := by
  intro e he
  rcases (hdrawn.edges e).mp he with hold | ⟨r, hr, htouch, rfl⟩
  · obtain ⟨hsubject, htarget⟩ := h e hold
    exact ⟨(hdrawn.nodes _).mpr (Or.inl hsubject), (hdrawn.nodes _).mpr (Or.inl htarget)⟩
  · exact ⟨(hdrawn.nodes _).mpr (Or.inr ⟨r, hr, htouch, Or.inr (Or.inl rfl)⟩),
      (hdrawn.nodes _).mpr (Or.inr ⟨r, hr, htouch, Or.inr (Or.inr rfl)⟩)⟩

/-- An empty frontier draws nothing, so the loop may as well go on. -/
theorem drawLevels_succ (level : Nat) (s : Drawn) (frontier : List String) :
    drawLevels records limit (level + 1) s frontier =
      drawLevels records limit level
        ((relationRows records).foldl (drawRelation records limit frontier) (s, [])).1
        ((relationRows records).foldl (drawRelation records limit frontier) (s, [])).2 := by
  have hnone : ∀ rows : List Record,
      rows.foldl (drawRelation records limit []) (s, []) = (s, []) := by
    intro rows
    induction rows with
    | nil => rfl
    | cons r rows ih =>
      rw [List.foldl_cons]
      have hskip : drawRelation records limit [] (s, []) r = (s, []) := by simp [drawRelation]
      rw [hskip, ih]
  have hstay : ∀ level, drawLevels records limit level s [] = s := by
    intro level
    cases level <;> rfl
  cases frontier with
  | nil => rw [hnone, hstay, hstay]
  | cons a rest => rfl

theorem drawLevels_drawn (hclosed : Closed records) (level : Nat) (h : Sound records limit s)
    (frontier : List String) :
    let s' := drawLevels records limit level s frontier
    Sound records limit s' ∧ Extends s s' ∧
      (s'.truncated = false → (Ended s → Ended s') ∧
        (Level records root n s frontier →
          ∃ frontier', Level records root (n + level) s' frontier')) := by
  induction level generalizing s frontier n with
  | zero => exact ⟨h, extends_refl s, fun _ => ⟨fun hended => hended, fun hlevel => ⟨_, hlevel⟩⟩⟩
  | succ level ih =>
    rw [drawLevels_succ]
    obtain ⟨hsound, hextends, hdrawn⟩ := drawRelations hclosed frontier (relationRows records)
      (fun r hr => mem_relationRows.mp hr) (s, []) h
    obtain ⟨hrest, hrestExtends, hwhole⟩ := ih (n := n + 1) hsound
      (((relationRows records).foldl (drawRelation records limit frontier) (s, [])).2)
    refine ⟨hrest, hextends.trans hrestExtends, fun hflag => ?_⟩
    have hlevelDrawn := hdrawn (hrestExtends.truncated hflag)
    refine ⟨fun hended => (hwhole hflag).1 (ended_drawn hlevelDrawn hended), fun hlevel => ?_⟩
    obtain ⟨frontier', hfinal⟩ := (hwhole hflag).2 (hlevel.next hlevelDrawn)
    rw [Nat.add_right_comm] at hfinal
    exact ⟨frontier', hfinal⟩

end Levels

/-! ## The start -/

section Start

variable {records : List Record} {root : Record} {limit depth : Nat} {s s' t : Drawn} {id : String}
  {r : Record}

/-- What the start makes of a drawing: more nodes, the same edges. -/
structure Grows (records : List Record) (limit : Nat) (s s' : Drawn) : Prop where
  sound : Sound records limit s → Sound records limit s'
  extended : Extends s s'
  edges : s'.edges = s.edges

theorem grows_refl (s : Drawn) : Grows records limit s s := ⟨fun h => h, extends_refl s, rfl⟩

theorem Grows.trans (h : Grows records limit s s') (h' : Grows records limit s' t) :
    Grows records limit s t :=
  ⟨fun hs => h'.sound (h.sound hs), h.extended.trans h'.extended, h'.edges.trans h.edges⟩

/-- A loop whose turns grow the drawing grows it. -/
theorem grows_foldl {α σ : Type} (drawn : σ → Drawn) {f : σ → α → σ} {xs : List α}
    (h : ∀ state, ∀ x ∈ xs, Grows records limit (drawn state) (drawn (f state x))) (state : σ) :
    Grows records limit (drawn state) (drawn (xs.foldl f state)) := by
  induction xs generalizing state with
  | nil => exact grows_refl _
  | cons x xs ih =>
    have hrest := ih (fun state y hy => h state y (List.mem_cons_of_mem x hy)) (f state x)
    exact (h state x List.mem_cons_self).trans hrest

theorem addNode_grows (s : Drawn) (hr : r ∈ records) :
    Grows records limit s (addNode limit s r).1 := by
  rcases addNode_cases limit s r with ⟨-, heq⟩ | ⟨hroom, heq⟩ | ⟨-, heq⟩
  · rw [heq]
    exact grows_refl s
  · rw [heq]
    exact ⟨fun h => sound_put h hr (Or.inr hroom), extends_put s r, rfl⟩
  · rw [heq]
    exact ⟨sound_cut, extends_cut s, rfl⟩

theorem addToFrontier_grows (state : Drawn × List String) (hr : r ∈ records) :
    Grows records limit state.1 (addToFrontier limit state r).1 := by
  unfold addToFrontier
  exact addNode_grows state.1 hr

theorem addEnd_grows (state : Drawn × List String) (id : String) :
    Grows records limit state.1 (addEnd records limit state id).1 := by
  unfold addEnd
  cases hobject : objectOf records id with
  | none => exact grows_refl state.1
  | some object => exact addToFrontier_grows state (objectOf_some hobject).1

theorem addObjects_grows (s : Drawn) (ids : List String) :
    Grows records limit s (addObjects records limit s ids) := by
  apply grows_foldl (fun s => s)
  intro s id hid
  cases hobject : objectOf records id with
  | none => exact grows_refl s
  | some object => exact addNode_grows s (objectOf_some hobject).1

/-- The objects of a material, in the order of the records. -/
def objectsOf (records : List Record) (root : Record) : List Record :=
  (records.filter fun r => r.kind = "OBJECT" ∧
    r.payload.get? "materialId" = some (.str root.id)).insertionSort recordBefore

theorem mem_objectsOf : r ∈ objectsOf records root ↔ r ∈ records ∧ r.kind = "OBJECT" ∧
    r.payload.get? "materialId" = some (.str root.id) := by
  unfold objectsOf
  rw [List.mem_insertionSort, List.mem_filter, decide_eq_true_eq]

theorem startAt_grows (s : Drawn) :
    Grows records limit s (startAt records limit root depth s).1 := by
  unfold startAt
  extract_lets state started
  have hstarted : Grows records limit s started.1 := by
    by_cases hrelation : isRelation root = true
    · simp only [started, if_pos hrelation]
      exact grows_foldl Prod.fst (fun state id _ => addEnd_grows state id) state
    · simp only [started, if_neg hrelation]
      exact grows_refl s
  by_cases hmaterial : root.kind = "MATERIAL" ∧ depth > 0
  · rw [if_pos hmaterial]
    refine hstarted.trans (grows_foldl Prod.fst (fun state r hr => ?_) started)
    exact addToFrontier_grows state (mem_objectsOf.mp hr).1
  · rw [if_neg hmaterial]
    exact hstarted

/-- What is drawn of a list of objects where nothing is left out. -/
theorem addToFrontier_whole (rows : List Record) (state : Drawn × List String)
    (hrows : ∀ r ∈ rows, r ∈ records)
    (h : (rows.foldl (addToFrontier limit) state).1.truncated = false) :
    (∀ key, (rows.foldl (addToFrontier limit) state).1.has key = true ↔
      state.1.has key = true ∨ ∃ r ∈ rows, key = keyOf r) ∧
    ∀ b, b ∈ (rows.foldl (addToFrontier limit) state).2 ↔ b ∈ state.2 ∨ ∃ r ∈ rows, b = r.id := by
  induction rows generalizing state with
  | nil => simp
  | cons r rows ih =>
    rw [List.foldl_cons] at h ⊢
    have hmems : ∀ r ∈ rows, r ∈ records := fun r' hr' => hrows r' (List.mem_cons_of_mem r hr')
    obtain ⟨hnodes, hids⟩ := ih (addToFrontier limit state r) hmems h
    have hgrows : Grows records limit (addToFrontier limit state r).1 _ :=
      grows_foldl Prod.fst (fun state r hr => addToFrontier_grows state (hmems r hr))
        (addToFrontier limit state r)
    have hadd : (addNode limit state.1 r).2 = true ∧ ∀ key,
        (addNode limit state.1 r).1.has key = true ↔ key = keyOf r ∨ state.1.has key = true :=
      addNode_whole (hgrows.extended.truncated h)
    have hfrontier : addToFrontier limit state r =
        ((addNode limit state.1 r).1, addId state.2 r.id) := by
      unfold addToFrontier
      dsimp only
      rw [if_pos hadd.1]
    constructor
    · intro key
      rw [hnodes key, hfrontier, hadd.2 key]
      simp only [List.mem_cons, exists_eq_or_imp]
      tauto
    · intro b
      rw [hids b, hfrontier, mem_addId]
      simp only [List.mem_cons, exists_eq_or_imp, or_assoc]

theorem addObjects_whole (ids : List String) (s : Drawn)
    (h : (addObjects records limit s ids).truncated = false) (key : Key) :
    (addObjects records limit s ids).has key = true ↔
      s.has key = true ∨
        ∃ id ∈ ids, (objectOf records id).isSome = true ∧ key = ("OBJECT", id) := by
  induction ids generalizing s with
  | nil => simp [addObjects]
  | cons id ids ih =>
    cases hobject : objectOf records id with
    | none =>
      have hstep : addObjects records limit s (id :: ids) = addObjects records limit s ids := by
        unfold addObjects
        rw [List.foldl_cons, hobject]
      rw [hstep] at h ⊢
      rw [ih s h]
      simp [hobject]
    | some object =>
      have hstep : addObjects records limit s (id :: ids) =
          addObjects records limit (addNode limit s object).1 ids := by
        unfold addObjects
        rw [List.foldl_cons, hobject]
      rw [hstep] at h ⊢
      have hgrows : Grows records limit (addNode limit s object).1
          (addObjects records limit (addNode limit s object).1 ids) := addObjects_grows _ ids
      have hadd := (addNode_whole (hgrows.extended.truncated h)).2 key
      rw [ih _ h, hadd, (objectOf_some hobject).2]
      simp only [List.mem_cons, exists_eq_or_imp, hobject, Option.isSome_some, true_and]
      tauto

/-- The drawing that is started from: the root alone. -/
def rootAlone (root : Record) : Drawn :=
  { nodes := [(keyOf root, root)], edges := [], truncated := false }

theorem sound_rootAlone (hroot : root ∈ records) (hlimit : 1 ≤ limit) :
    Sound records limit (rootAlone root) := by
  refine ⟨List.nodup_singleton _, hlimit, ?_, List.nodup_nil, nofun⟩
  intro e he
  rw [List.mem_singleton.mp he]
  exact ⟨hroot, rfl⟩

theorem has_rootAlone {key : Key} : (rootAlone root).has key = true ↔ key = keyOf root := by
  rw [Drawn.has_iff]
  exact ⟨fun ⟨e, he, hkey⟩ => by rw [← hkey, List.mem_singleton.mp he],
    fun h => ⟨(keyOf root, root), List.mem_singleton_self _, h.symm⟩⟩

/-- The drawing before the first level. -/
def started (records : List Record) (limit : Nat) (root : Record) (depth : Nat) : Drawn :=
  addObjects records limit (startAt records limit root depth (rootAlone root)).1
    (startAt records limit root depth (rootAlone root)).2

theorem started_grows (records : List Record) (limit : Nat) (root : Record) (depth : Nat) :
    Grows records limit (rootAlone root) (started records limit root depth) :=
  (startAt_grows (rootAlone root)).trans (addObjects_grows _ _)

/-- The distances are measured from the objects that the start puts in front. -/
structure Front (records : List Record) (root : Record) (s : Drawn) (frontier : List String) :
    Prop where
  ids : ∀ id, id ∈ frontier ↔ Origin records root id
  objects : ∀ id, s.has ("OBJECT", id) = true ↔ Origin records root id

theorem front_object (hkind : root.kind = "OBJECT")
    (h : (started records limit root depth).truncated = false) :
    Front records root (started records limit root depth)
      (startAt records limit root depth (rootAlone root)).2 := by
  have hstart : startAt records limit root depth (rootAlone root) =
      (rootAlone root, [root.id]) := by
    unfold startAt isRelation
    simp [hkind]
  have horigin : ∀ id, Origin records root id ↔ id = root.id := by
    intro id
    simp [Origin, hkind]
  have hwhole := addObjects_whole _ _ h
  refine ⟨fun id => ?_, fun id => ?_⟩
  · rw [hstart, horigin, List.mem_singleton]
  · unfold started
    rw [hwhole, hstart, horigin, has_rootAlone]
    simp [keyOf, hkind]

theorem front_material (hclosed : Closed records) (hkind : root.kind = "MATERIAL")
    (hdepth : 0 < depth) (h : (started records limit root depth).truncated = false) :
    Front records root (started records limit root depth)
      (startAt records limit root depth (rootAlone root)).2 := by
  have hstart : startAt records limit root depth (rootAlone root) =
      (objectsOf records root).foldl (addToFrontier limit) (rootAlone root, []) := by
    unfold startAt isRelation objectsOf
    simp [hkind, hdepth]
  have hgrows : Grows records limit (startAt records limit root depth (rootAlone root)).1
      (started records limit root depth) := addObjects_grows _ _
  have hobjects := hgrows.extended.truncated h
  rw [hstart] at hobjects
  obtain ⟨hnodes, hids⟩ := addToFrontier_whole (objectsOf records root) _
    (fun r hr => (mem_objectsOf.mp hr).1) hobjects
  have horigin : ∀ id, Origin records root id ↔ ∃ r ∈ objectsOf records root, id = r.id := by
    intro id
    simp only [Origin, hkind, mem_objectsOf, true_and, and_assoc, eq_comm]
    simp
  have hwhole := addObjects_whole _ _ h
  refine ⟨fun id => ?_, fun id => ?_⟩
  · rw [hstart, hids, horigin]
    simp
  · unfold started
    rw [hwhole, horigin, hstart, hnodes, has_rootAlone]
    have hfound : ∀ r ∈ objectsOf records root, keyOf r = ("OBJECT", r.id) ∧
        (objectOf records r.id).isSome = true := by
      intro r hr
      obtain ⟨hmem, hobject, -⟩ := mem_objectsOf.mp hr
      rw [objectOf_eq hclosed hmem hobject]
      exact ⟨by simp [keyOf, hobject], rfl⟩
    constructor
    · rintro ((hkey | ⟨r, hr, hkey⟩) | ⟨other, hother, -, hkey⟩)
      · simp [keyOf, hkind] at hkey
      · exact ⟨r, hr, (Prod.mk.inj (hkey.trans (hfound r hr).1)).2⟩
      · obtain ⟨-, rfl⟩ := Prod.mk.inj hkey
        exact ((hids id).mp hother).resolve_left List.not_mem_nil
    · rintro ⟨r, hr, rfl⟩
      exact Or.inl (Or.inr ⟨r, hr, (hfound r hr).1.symm⟩)

/-- In front stand the objects that are at no distance. -/
theorem Front.level {frontier : List String} (h : Front records root s frontier)
    (hedges : s.edges = []) : Level records root 0 s frontier where
  near a ha := ⟨a, (h.ids a).mp ha, 0, Nat.le_refl 0, .start⟩
  far a ha := Or.inl ((h.ids a).mpr ha.origin)
  edges e := by
    rw [hedges]
    refine ⟨nofun, ?_⟩
    rintro ⟨r, -, -, -, k, hk, -⟩
    cases hk
  objects id := by
    rw [h.objects id]
    exact ⟨fun horigin => ⟨id, horigin, 0, Nat.le_refl 0, .start⟩, Within.origin⟩

end Start

/-! ## The law -/

section Law

variable {records : List Record} {root : Record} {limit depth : Nat}

/-- The roots that the distances are measured from. -/
def Measured (root : Record) (depth : Nat) : Prop :=
  root.kind = "OBJECT" ∨ root.kind = "MATERIAL" ∧ 0 < depth

def hasObject (nodes : List Record) (id : String) : Prop :=
  ∃ r ∈ nodes, r.kind = "OBJECT" ∧ r.id = id

/-- What an answer tells of the records, and how far what it leaves out is told. -/
structure Honest (records : List Record) (root : Record) (answer : GraphAnswer) : Prop where
  capped : answer.nodes.length ≤ answer.limit
  distinct : (answer.nodes.map keyOf).Nodup
  rooted : root ∈ answer.nodes
  listed : ∀ r ∈ answer.nodes, r ∈ records
  facts : ∀ e ∈ answer.edges, ∃ r ∈ answer.nodes, isRelation r = true ∧ e = edgeOf r
  ends : answer.truncated = false → ∀ e ∈ answer.edges,
    hasObject answer.nodes e.subjectId ∧ hasObject answer.nodes e.targetId
  edges : answer.truncated = false → Measured root answer.depth → ∀ e, e ∈ answer.edges ↔
    ∃ r ∈ records, isRelation r = true ∧ e = edgeOf r ∧ Reaches records root answer.depth r
  objects : answer.truncated = false → Measured root answer.depth → ∀ r ∈ records,
    r.kind = "OBJECT" → (r ∈ answer.nodes ↔ Within records root answer.depth r.id)
  alone : root.kind = "MATERIAL" → answer.depth = 0 →
    answer.nodes = [root] ∧ answer.edges = [] ∧ answer.truncated = false

/-- The drawing that is answered with. -/
def drawn (records : List Record) (limit : Nat) (root : Record) (depth : Nat) : Drawn :=
  drawLevels records limit depth (started records limit root depth)
    (startAt records limit root depth (rootAlone root)).2

theorem graph_eq (records : List Record) (limit : Nat) (root : Record) (depth : Nat) :
    graph records limit root depth =
      { root := keyOf root, depth, limit, truncated := (drawn records limit root depth).truncated
        nodes := ((drawn records limit root depth).nodes.map (·.2)).insertionSort recordBefore
        edges := ((drawn records limit root depth).edges.map (·.2)).insertionSort
          fun left right => left.factId ≤ right.factId } := rfl

theorem started_sound (hroot : root ∈ records) (hlimit : 1 ≤ limit) (depth : Nat) :
    Sound records limit (started records limit root depth) :=
  (started_grows records limit root depth).sound (sound_rootAlone hroot hlimit)

theorem drawn_drawn (hclosed : Closed records) (hroot : root ∈ records) (hlimit : 1 ≤ limit)
    (depth : Nat) :
    Sound records limit (drawn records limit root depth) ∧
      Extends (started records limit root depth) (drawn records limit root depth) ∧
      ((drawn records limit root depth).truncated = false →
        Ended (drawn records limit root depth) ∧ (Measured root depth →
          ∃ frontier, Level records root depth (drawn records limit root depth) frontier)) := by
  obtain ⟨hsound, hextends, hwhole⟩ := drawLevels_drawn (n := 0) hclosed depth
    (started_sound hroot hlimit depth)
    (startAt records limit root depth (rootAlone root)).2
  have hedges : (started records limit root depth).edges = [] :=
    (started_grows records limit root depth).edges
  refine ⟨hsound, hextends, fun hflag => ⟨(hwhole hflag).1 ?_, fun hmeasured => ?_⟩⟩
  · intro e he
    rw [hedges] at he
    cases he
  · have hstarted := hextends.truncated hflag
    have hfront : Front records root (started records limit root depth)
        (startAt records limit root depth (rootAlone root)).2 := by
      rcases hmeasured with hkind | ⟨hkind, hdepth⟩
      · exact front_object hkind hstarted
      · exact front_material hclosed hkind hdepth hstarted
    have hlevel := (hwhole hflag).2 (hfront.level hedges)
    rwa [Nat.zero_add] at hlevel

theorem mem_nodes {s : Drawn} {r : Record} (hsound : Sound records limit s) :
    r ∈ s.nodes.map (·.2) ↔ r ∈ records ∧ (keyOf r, r) ∈ s.nodes := by
  rw [List.mem_map]
  constructor
  · rintro ⟨⟨key, r⟩, he, rfl⟩
    obtain ⟨hmem, hkey⟩ := hsound.nodes _ he
    dsimp only at hmem hkey
    exact ⟨hmem, hkey ▸ he⟩
  · rintro ⟨-, he⟩
    exact ⟨_, he, rfl⟩

/-- A record of the set is among the nodes where its key is. -/
theorem mem_nodes_iff {s : Drawn} {r : Record} (hclosed : Closed records)
    (hsound : Sound records limit s) (hr : r ∈ records) :
    r ∈ s.nodes.map (·.2) ↔ s.has (keyOf r) = true := by
  rw [mem_nodes hsound, Drawn.has_iff]
  constructor
  · rintro ⟨-, he⟩
    exact ⟨_, he, rfl⟩
  · rintro ⟨e, he, hkey⟩
    obtain ⟨hmem, hown⟩ := hsound.nodes e he
    have hsame : e.2 = r := eq_of_key hclosed hmem hr (hown.symm.trans hkey)
    exact ⟨hr, by rw [← hkey, ← hsame]; exact he⟩

theorem hasObject_of_has {s : Drawn} {id : String} (hsound : Sound records limit s)
    (h : s.has ("OBJECT", id) = true) : ∃ r ∈ s.nodes.map (·.2), r.kind = "OBJECT" ∧ r.id = id := by
  obtain ⟨e, he, hkey⟩ := Drawn.has_iff.mp h
  obtain ⟨-, hown⟩ := hsound.nodes e he
  obtain ⟨hkind, hid⟩ := Prod.mk.inj (hown.symm.trans hkey)
  exact ⟨e.2, List.mem_map_of_mem he, hkind, hid⟩

theorem drawn_material (hkind : root.kind = "MATERIAL") :
    drawn records limit root 0 = rootAlone root := by
  have hstart : startAt records limit root 0 (rootAlone root) = (rootAlone root, []) := by
    unfold startAt isRelation
    simp [hkind]
  unfold drawn started
  rw [hstart]
  rfl

theorem graph_honest (hclosed : Closed records) (hroot : root ∈ records) (hlimit : 1 ≤ limit)
    (depth : Nat) : Honest records root (graph records limit root depth) := by
  obtain ⟨hsound, hextends, hwhole⟩ := drawn_drawn hclosed hroot hlimit depth
  have hkeys : (drawn records limit root depth).nodes.map (fun e => keyOf e.2) =
      (drawn records limit root depth).nodes.map (·.1) :=
    List.map_congr_left fun e he => (hsound.nodes e he).2.symm
  rw [graph_eq]
  refine ⟨?_, ?_, ?_, ?_, ?_, ?_, ?_, ?_, ?_⟩
  · rw [List.length_insertionSort, List.length_map]
    exact hsound.bound
  · refine (((List.perm_insertionSort _ _).map keyOf).nodup_iff).mpr ?_
    rw [List.map_map]
    exact hkeys ▸ hsound.keyed
  · rw [List.mem_insertionSort, mem_nodes_iff hclosed hsound hroot]
    apply hextends.nodes
    apply (started_grows records limit root depth).extended.nodes
    rw [has_rootAlone]
  · intro r hr
    rw [List.mem_insertionSort] at hr
    exact ((mem_nodes hsound).mp hr).1
  · intro e he
    rw [List.mem_insertionSort] at he
    obtain ⟨entry, hentry, rfl⟩ := List.mem_map.mp he
    obtain ⟨r, hr, hrelation, heq, hhas⟩ := hsound.edges entry hentry
    refine ⟨r, ?_, hrelation, by rw [heq]⟩
    rw [List.mem_insertionSort, mem_nodes_iff hclosed hsound hr]
    unfold keyOf
    rw [(isRelation_iff.mp hrelation).1]
    exact hhas
  · intro hflag e he
    rw [List.mem_insertionSort] at he
    obtain ⟨entry, hentry, rfl⟩ := List.mem_map.mp he
    obtain ⟨hsubject, htarget⟩ := (hwhole hflag).1 entry hentry
    unfold hasObject
    simp only [List.mem_insertionSort]
    exact ⟨hasObject_of_has hsound hsubject, hasObject_of_has hsound htarget⟩
  · intro hflag hmeasured e
    obtain ⟨frontier, hlevel⟩ := (hwhole hflag).2 hmeasured
    rw [List.mem_insertionSort, List.mem_map]
    constructor
    · rintro ⟨entry, hentry, rfl⟩
      obtain ⟨r, hr, hrelation, rfl, hreaches⟩ := (hlevel.edges entry).mp hentry
      exact ⟨r, hr, hrelation, rfl, hreaches⟩
    · rintro ⟨r, hr, hrelation, rfl, hreaches⟩
      exact ⟨(r.id, edgeOf r), (hlevel.edges _).mpr ⟨r, hr, hrelation, rfl, hreaches⟩, rfl⟩
  · intro hflag hmeasured r hr hobject
    obtain ⟨frontier, hlevel⟩ := (hwhole hflag).2 hmeasured
    rw [List.mem_insertionSort, mem_nodes_iff hclosed hsound hr]
    unfold keyOf
    rw [hobject, hlevel.objects]
  · rintro hkind hdepth
    dsimp only at hdepth
    subst hdepth
    rw [drawn_material hkind]
    exact ⟨rfl, rfl, rfl⟩

/-! ## Accepted sets -/

theorem parentChain_perm {out : List Record} {materialId id : String} (hperm : records.Perm out)
    (h : ParentChain out materialId id) : ParentChain records materialId id := by
  induction h with
  | top listed material last => exact .top (hperm.mem_iff.mpr listed) material last
  | child listed material parent _ ih => exact .child (hperm.mem_iff.mpr listed) material parent ih

/-- The order of the rows does not matter. -/
theorem closed_perm {out : List Record} (hperm : records.Perm out) (h : Closed out) :
    Closed records := by
  have hlisted : ∀ {kind id payload}, Listed records kind id payload ↔ Listed out kind id payload :=
    hperm.mem_iff
  have hresolves : ∀ {kind value}, Resolves out kind value → Resolves records kind value :=
    fun ⟨id, payload, hvalue, hout⟩ => ⟨id, payload, hvalue, hlisted.mpr hout⟩
  refine ⟨((hperm.map _).nodup_iff).mpr h.unique, fun hobject => ?_, fun hfact => ?_,
    fun hevidence => ?_, ?_⟩
  · obtain ⟨materialId, hmaterial, ⟨material, hknown⟩, hchain⟩ := h.parents (hlisted.mp hobject)
    exact ⟨materialId, hmaterial, ⟨material, hlisted.mpr hknown⟩, parentChain_perm hperm hchain⟩
  · have hout := h.facts (hlisted.mp hfact)
    exact ⟨hresolves hout.subject, fun hkind => hresolves (hout.target hkind),
      fun v hv => hresolves (hout.evidence v hv), fun v hv => hresolves (hout.premises v hv)⟩
  · obtain ⟨id, material, digest, hid, hknown, hrest⟩ := h.evidence (hlisted.mp hevidence)
    exact ⟨id, material, digest, hid, hlisted.mpr hknown, hrest⟩
  · have hpremise : PremiseOf records = PremiseOf out := by
      funext premise id
      unfold PremiseOf
      simp only [hlisted]
    rw [hpremise]
    exact h.wellFounded

/-- The id of an accepted record is a digest. -/
theorem accepted_id {sha256 : String → String} {rules : Rules} {context : Context}
    {raw : List Json} {out : List Record} {r : Record}
    (h : normalizeCanonicalRecords sha256 rules context raw = .ok out) (hr : r ∈ out) :
    ScopeLifecycle.isHexId r.id = true := by
  unfold normalizeCanonicalRecords at h
  obtain ⟨u, -, h⟩ := bind_ok h
  obtain ⟨u, -, h⟩ := bind_ok h
  obtain ⟨validated, hvalidated, h⟩ := bind_ok h
  obtain ⟨u, -, h⟩ := bind_ok h
  obtain ⟨u, -, h⟩ := bind_ok h
  cases h
  obtain ⟨record, -, hrecord⟩ := exists_source (mapM_ok hvalidated)
    ((List.mem_insertionSort recordBefore).mp hr)
  rw [(validateRecord_ok hrecord).1]
  unfold validateRecord at hrecord
  obtain ⟨u, -, hrecord⟩ := bind_ok hrecord
  obtain ⟨u, hid, -⟩ := bind_ok hrecord
  exact (checked_ok hid).2

theorem graphParameter_ok {value : Option Json} {fallback minimum maximum n : Nat}
    (h : graphParameter value fallback minimum maximum = .ok n) : minimum ≤ n ∧ n ≤ maximum := by
  unfold graphParameter at h
  obtain ⟨u, hchecked, h⟩ := bind_ok h
  obtain ⟨-, hlow, hhigh⟩ := checked_ok hchecked
  cases h
  omega

/-- For the records of an accepted set, in any order of the rows, each query within its bounds is
answered. The answer keeps to its limit, draws no relation without its fact, and where it is not
marked as truncated it is closed and is all that the depth reaches. -/
theorem queryGraph_honest {sha256 : String → String} {rules : Rules} {context : Context}
    {raw : List Json} {out : List Record}
    (haccepted : normalizeCanonicalRecords sha256 rules context raw = .ok out)
    (hrows : records.Perm out) (hroot : root ∈ records) {pick : List Record → Option Record}
    (hpick : pick (records.filter fun r => r.id = root.id) = some root)
    {graphVersionId depth limit : Option Json} {depthCount limitCount : Nat}
    (hversion : requireVersionId graphVersionId = .ok ())
    (hdepth : graphParameter depth 1 0 2 = .ok depthCount)
    (hlimit : graphParameter limit 100 1 200 = .ok limitCount) :
    ∃ answer, queryGraph records pick graphVersionId (some (.str root.id)) depth limit =
        .ok answer ∧
      answer.root = keyOf root ∧ answer.depth = depthCount ∧ answer.limit = limitCount ∧
      Honest records root answer := by
  have hclosed := closed_perm hrows (normalizeCanonicalRecords_ok haccepted).closed
  have hhex := accepted_id haccepted (hrows.mem_iff.mp hroot)
  have hrecord : recordId (some (.str root.id)) = .ok () := if_pos ⟨rfl, hhex⟩
  refine ⟨graph records limitCount root depthCount, ?_, rfl, rfl, rfl,
    graph_honest hclosed hroot (graphParameter_ok hlimit).1 depthCount⟩
  have hfound : pick (records.filter fun r => r.id = textOf (some (.str root.id))) = some root :=
    hpick
  unfold queryGraph
  simp only [hversion, hrecord, hdepth, hlimit, hfound, bind, Except.bind]

end Law

/-! ## Two objects and a relation -/

def hexOf (digit : Char) : String := String.ofList (List.replicate 64 digit)

/-- A digest that tells the texts below by their size. -/
def sizeDigest (text : String) : String := hexOf (Nat.digitChar (text.utf8ByteSize % 16))

def binary : Json := .obj [("kind", .str "BINARY"), ("digest", .null)]

def material : Record :=
  { kind := "MATERIAL", id := hexOf '4'
    payload := .obj [("materialId", .str (hexOf '4')), ("componentId", .str (hexOf '2')),
      ("pathBytes", .str "YQ"), ("mediaType", .str "text/javascript"),
      ("contentAvailable", .bool true), ("contentDigest", .str (hexOf '2')),
      ("kind", .str "FILE"), ("rootObjectId", .str (hexOf 'd'))] }

def object (digit : Char) (kind : String) : Record :=
  { kind := "OBJECT", id := hexOf digit
    payload := .obj [("objectId", .str (hexOf digit)), ("materialId", .str (hexOf '4')),
      ("kind", .str kind), ("name", .str "a"), ("anchor", binary)] }

def caller : Record := object 'd' "FILE"

def callee : Record := object '1' "FUNCTION"

def evidence : Record :=
  { kind := "EVIDENCE", id := hexOf '6'
    payload := .obj [("evidenceId", .str (hexOf '6')), ("materialId", .str (hexOf '4')),
      ("evidenceKind", .str "SOURCE"), ("contentDigest", .str (hexOf '2')), ("anchor", binary)] }

def uses : Record :=
  { kind := "FACT", id := hexOf '3'
    payload := .obj [("factId", .str (hexOf '3')), ("kind", .str "RELATION"),
      ("subjectId", .str (hexOf 'd')), ("predicate", .str "uses"),
      ("targetId", .str (hexOf '1')), ("basis", .str "SYNTAX"),
      ("evidenceIds", .arr [.str (hexOf '6')]), ("ruleRef", .obj []), ("premiseFactIds", .arr [])] }

/-- One material, two objects in it and a relation between them. -/
def usedRecords : List Record := [material, caller, callee, evidence, uses]

def usedContext : Context := { workspaceId := "w", bundleId := hexOf '1', profile := none }

theorem canonical_toJson (r : Record) : canonical r.toJson = r := by
  simp [canonical, normalizedPayload, Record.toJson, Json.get?, List.lookup, textOf]

theorem used_accepted : ∃ out, normalizeCanonicalRecords sizeDigest gapRules usedContext
    (usedRecords.map Record.toJson) = .ok out ∧ usedRecords.Perm out := by
  have hsome : (normalizeCanonicalRecords sizeDigest gapRules usedContext
      (usedRecords.map Record.toJson)).toOption.isSome = true := by decide +kernel
  cases h : normalizeCanonicalRecords sizeDigest gapRules usedContext
      (usedRecords.map Record.toJson) with
  | error e =>
    rw [h] at hsome
    cases hsome
  | ok out =>
    have hperm := (normalizeCanonicalRecords_ok h).perm
    have hsame : canonical ∘ Record.toJson = id := funext canonical_toJson
    rw [List.map_map, hsame, List.map_id] at hperm
    exact ⟨out, rfl, hperm.symm⟩

/-- The locator of the version. -/
def usedVersion : Option Json := some (.str (hexOf '5'))

def queryUsed (root : Record) (depth limit : Nat) : Except Thrown GraphAnswer :=
  queryGraph usedRecords List.head? usedVersion (some (.str root.id))
    (some (.num (Number.ofNat depth))) (some (.num (Number.ofNat limit)))

theorem version_required : requireVersionId usedVersion = .ok () := by
  have hhex : isText usedVersion = true ∧ ScopeLifecycle.isHexId (textOf usedVersion) = true := by
    decide +kernel
  unfold requireVersionId checked
  rw [if_pos hhex]

theorem caller_found :
    (usedRecords.filter fun r => r.id = caller.id).head? = some caller := by
  decide +kernel

theorem relation_honest : ∃ answer, queryUsed caller 1 4 = .ok answer ∧
    answer.root = keyOf caller ∧ Honest usedRecords caller answer := by
  obtain ⟨out, haccepted, hrows⟩ := used_accepted
  have hdepth : graphParameter (some (.num (Number.ofNat 1))) 1 0 2 = .ok 1 := rfl
  have hlimit : graphParameter (some (.num (Number.ofNat 4))) 100 1 200 = .ok 4 := rfl
  obtain ⟨answer, hanswer, hroot, -, -, hhonest⟩ := queryGraph_honest haccepted hrows
    (List.mem_cons_of_mem _ List.mem_cons_self) caller_found version_required hdepth hlimit
  exact ⟨answer, hanswer, hroot, hhonest⟩

/-- The target of an edge that is left out, and the object of a material that is not opened. -/
theorem left_out : (∃ out, normalizeCanonicalRecords sizeDigest gapRules usedContext
      (usedRecords.map Record.toJson) = .ok out ∧ usedRecords.Perm out) ∧
    (∃ answer, queryUsed caller 1 2 = .ok answer ∧
      ∃ e ∈ answer.edges, ¬ hasObject answer.nodes e.targetId) ∧
    ∃ answer, queryUsed material 0 100 = .ok answer ∧ answer.truncated = false ∧
      Within usedRecords material 0 caller.id ∧ caller ∉ answer.nodes := by
  refine ⟨used_accepted, ⟨graph usedRecords 2 caller 1, rfl, ?_⟩,
    ⟨graph usedRecords 100 material 0, rfl, ?_, ?_, ?_⟩⟩
  · have hany : ((graph usedRecords 2 caller 1).edges.any fun e =>
        !(graph usedRecords 2 caller 1).nodes.any fun r =>
          decide (r.kind = "OBJECT" ∧ r.id = e.targetId)) = true := by decide +kernel
    obtain ⟨e, he, hnone⟩ := List.any_eq_true.mp hany
    refine ⟨e, he, fun ⟨r, hr, hobject⟩ => ?_⟩
    have hfound : ((graph usedRecords 2 caller 1).nodes.any fun r =>
        decide (r.kind = "OBJECT" ∧ r.id = e.targetId)) = true :=
      List.any_eq_true.mpr ⟨r, hr, decide_eq_true hobject⟩
    rw [hfound] at hnone
    cases hnone
  · decide +kernel
  · refine ⟨caller.id, Or.inr ⟨rfl, caller, ?_, rfl, rfl, rfl⟩, 0, Nat.le_refl 0, .start⟩
    exact List.mem_cons_of_mem _ List.mem_cons_self
  · decide +kernel

end Traqen.LocalGraph
