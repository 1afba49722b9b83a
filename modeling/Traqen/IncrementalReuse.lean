-- When reuse is sound: a reused work unit has a prior result only if the previous plan has a
-- unit of its id. The change of a file moves the files behind it in their shards, so that a unit
-- without a changed file may still be a new one.
import Traqen.AffectedUnits
import Traqen.UnderstandingUnits

open Js

namespace Traqen.IncrementalUnderstanding

open UnderstandingPlanner

/-! ## What is affected, by the shards -/

section Condition

variable (sha256 : String → String) (versions : Versions) (previous current : List Shard)
  (changes : List Change) (revalidation : List String)

/-- The shard holds the artifact that was removed. -/
def holdsRemoved (change : Change) (s : Shard) : Bool :=
  s.artifactIds.any fun id => some id = change.beforeArtifactId

/-- The module loses a file. A module without a name is passed over. -/
def RemovedFrom (locality : String) : Prop :=
  locality ≠ "" ∧ ∃ c ∈ removals changes,
    (previous.find? (holdsRemoved c)).map (·.locality) = some locality

/-- The shard holds an added or modified file, or its unit is named for revalidation. -/
def Touched (s : Shard) : Prop :=
  (∃ id ∈ s.artifactIds, id ∈ changes.flatMap (·.artifactIds)) ∨
    (shardUnit sha256 versions s).id ∈ revalidation

/-- Nothing that the module synthesis depends on changes. -/
structure ModuleSpared (locality : String) : Prop where
  leaves : ∀ s ∈ leafShards current locality, ¬ Touched sha256 versions changes revalidation s
  notNamed : (moduleOf sha256 versions current locality).id ∉ revalidation
  notRemoved : ¬ RemovedFrom previous changes locality

structure ProjectSpared : Prop where
  modules : ∀ l ∈ moduleLocalities current,
    ModuleSpared sha256 versions previous current changes revalidation l
  notNamed : (projectOf sha256 versions current).id ∉ revalidation
  kept : ∀ l, RemovedFrom previous changes l → l ∈ moduleLocalities current

/-- What is not affected was there before: each such shard, the leaves of each such module, and
the modules, if none of them is affected. -/
structure ReuseJustified : Prop where
  shards : ∀ s ∈ current, ¬ Touched sha256 versions changes revalidation s → s ∈ previous
  modules : ∀ l ∈ moduleLocalities current,
    ModuleSpared sha256 versions previous current changes revalidation l →
    (leafShards previous l).Perm (leafShards current l)
  project : ProjectSpared sha256 versions previous current changes revalidation →
    (∃ l, l ∈ moduleLocalities current) →
    ∀ l ∈ moduleLocalities previous, l ∈ moduleLocalities current

end Condition

/-! ## Removals -/

variable {id l : String}

section Units

variable {sha256 : String → String} {versions : Versions} {previous current : List Shard}
  {changes : List Change} {revalidation : List String}

/-- The units of a plan that has these shards. -/
def unitsOf (sha256 : String → String) (versions : Versions) (shards : List Shard) :
    List WorkUnit :=
  workUnitsOf sha256 versions (shards.map (partitionOf sha256 versions))

variable (hapart : DigestsApart sha256 versions [previous, current])
include hapart

theorem previousUnitOf_eq (c : Change) : previousUnitOf (unitsOf sha256 versions previous) c =
      (previous.find? (holdsRemoved c)).map (shardUnit sha256 versions) := by
  unfold previousUnitOf unitsOf
  rw [workUnitsOf_eq hapart (by simp), List.append_assoc, List.find?_append, List.find?_map]
  have hrest : ((moduleLocalities previous).map (moduleOf sha256 versions previous) ++
      if (moduleLocalities previous).isEmpty then [] else [projectOf sha256 versions previous]).find?
        (fun u => u.artifactIds.any fun id => some id = c.beforeArtifactId) = none := by
    rw [List.find?_eq_none]
    intro u hu
    rcases List.mem_append.mp hu with hu | hu
    · obtain ⟨l, _, rfl⟩ := List.mem_map.mp hu
      simp [moduleOf, moduleUnit]
    · split at hu
      · cases hu
      · rw [List.mem_singleton.mp hu]
        simp [projectOf, projectUnit]
  rw [hrest, Option.or_none]
  rfl

variable {s : Shard}

omit hapart in
theorem localityById_eq {plans : List (List Shard)} {shards : List Shard}
    (hapart : DigestsApart sha256 versions plans) (hshards : shards ∈ plans)
    (hs : s ∈ shards) : localityById (shards.map (partitionOf sha256 versions))
      (shardUnit sha256 versions s).partitionId = some s.locality := by
  have hget : OrderedMap.get? (OrderedMap.ofList ((shards.map (partitionOf sha256 versions)).map
      fun p => (p.id, p))) (partitionId sha256 versions s) = some (partitionOf sha256 versions s) := by
    apply OrderedMap.get?_ofList_of_forall
    · exact ⟨_, List.mem_map_of_mem (List.mem_map_of_mem hs), rfl⟩
    · rintro e he hid
      obtain ⟨p, hp, rfl⟩ := List.mem_map.mp he
      obtain ⟨t, ht, rfl⟩ := List.mem_map.mp hp
      rw [partitionId_inj hapart hshards hshards ht hs hid]
  exact congrArg (Option.map (·.locality)) hget

theorem removedLocality_eq (c : Change) : removedLocality (unitsOf sha256 versions previous)
      (previous.map (partitionOf sha256 versions)) c =
      ((previous.find? (holdsRemoved c)).map (·.locality)).filter (· ≠ "") := by
  unfold removedLocality
  rw [previousUnitOf_eq hapart]
  cases hfind : previous.find? (holdsRemoved c) with
  | none => rfl
  | some s =>
    have hlocality := localityById_eq hapart (by simp) (List.mem_of_find?_eq_some hfind)
    rw [Option.map_some, Option.bind_some, hlocality]
    rfl

theorem unit_of_shardId (hs : s ∈ current) {u : WorkUnit} (hu : u ∈ unitsOf sha256 versions current)
    (hid : u.id = (shardUnit sha256 versions s).id) : u = shardUnit sha256 versions s := by
  rcases (mem_workUnitsOf hapart (by simp)).mp hu with ⟨t, ht, rfl⟩ | ⟨l, hl, rfl⟩ | ⟨_, rfl⟩
  · rw [shardUnit_inj hapart (by simp) (by simp) ht hs hid]
  · exact absurd hid.symm (shardUnit_ne_moduleOf hapart (by simp) (by simp) hs hl)
  · exact absurd hid.symm (shardUnit_ne_projectOf hapart (by simp) (by simp) hs)

theorem unit_of_moduleId
    (hl : l ∈ moduleLocalities current) {u : WorkUnit} (hu : u ∈ unitsOf sha256 versions current)
    (hid : u.id = (moduleOf sha256 versions current l).id) :
    u = moduleOf sha256 versions current l := by
  rcases (mem_workUnitsOf hapart (by simp)).mp hu with ⟨t, ht, rfl⟩ | ⟨m, hm, rfl⟩ | ⟨_, rfl⟩
  · exact absurd hid (shardUnit_ne_moduleOf hapart (by simp) (by simp) ht hl)
  · rw [(moduleOf_inj hapart (by simp) (by simp) hm hl hid).1]
  · exact absurd hid.symm (moduleOf_ne_projectOf hapart (by simp) (by simp) hl)

theorem unit_of_projectId {u : WorkUnit} (hu : u ∈ unitsOf sha256 versions current)
    (hid : u.id = (projectOf sha256 versions current).id) :
    u = projectOf sha256 versions current := by
  rcases (mem_workUnitsOf hapart (by simp)).mp hu with ⟨t, ht, rfl⟩ | ⟨m, hm, rfl⟩ | ⟨_, rfl⟩
  · exact absurd hid (shardUnit_ne_projectOf hapart (by simp) (by simp) ht)
  · exact absurd hid (moduleOf_ne_projectOf hapart (by simp) (by simp) hm)
  · rfl

theorem dependencyLocality_eq (hs : s ∈ current) :
    dependencyLocality (unitsOf sha256 versions current)
      (current.map (partitionOf sha256 versions)) (shardUnit sha256 versions s).id =
      some s.locality := by
  unfold dependencyLocality
  have hsome : ((unitsOf sha256 versions current).find? fun u =>
      u.id = (shardUnit sha256 versions s).id).isSome = true := by
    rw [List.find?_isSome]
    refine ⟨shardUnit sha256 versions s, ?_, decide_eq_true rfl⟩
    exact (mem_workUnitsOf hapart (by simp)).mpr (Or.inl ⟨s, hs, rfl⟩)
  obtain ⟨u, hu⟩ := Option.isSome_iff_exists.mp hsome
  have hfound := List.find?_some hu
  have hunit := unit_of_shardId hapart hs (List.mem_of_find?_eq_some hu)
    (of_decide_eq_true hfound)
  rw [hu, hunit]
  exact localityById_eq hapart (by simp) hs

omit hapart in
theorem mem_leafIds {shards : List Shard} :
    id ∈ leafIds sha256 versions shards l ↔
      ∃ s ∈ leafShards shards l, (shardUnit sha256 versions s).id = id := by
  unfold leafIds
  rw [mem_sortTexts, List.mem_map]

omit hapart in
theorem mem_moduleIds {shards : List Shard} :
    id ∈ moduleIds sha256 versions shards ↔
      ∃ l ∈ moduleLocalities shards, (moduleOf sha256 versions shards l).id = id := by
  unfold moduleIds
  rw [mem_sortTexts, List.mem_map]

/-- The synthesis of a module is found by the locality of its leaves. -/
theorem mem_matchingModules {u : WorkUnit} : u ∈ matchingModules (unitsOf sha256 versions current)
      (current.map (partitionOf sha256 versions)) l ↔
      l ∈ moduleLocalities current ∧ u = moduleOf sha256 versions current l := by
  have hdependency : ∀ m, ∀ id ∈ leafIds sha256 versions current m,
      dependencyLocality (unitsOf sha256 versions current)
        (current.map (partitionOf sha256 versions)) id = some m := by
    intro m id hid
    obtain ⟨s, hs, rfl⟩ := mem_leafIds.mp hid
    rw [dependencyLocality_eq hapart (mem_leafShards.mp hs).1, (mem_leafShards.mp hs).2.2]
  unfold matchingModules
  rw [List.mem_filter, Bool.and_eq_true, decide_eq_true_eq, List.any_eq_true]
  constructor
  · rintro ⟨hu, hkind, id, hid, hlocality⟩
    rcases (mem_workUnitsOf hapart (by simp)).mp hu with ⟨s, _, rfl⟩ | ⟨m, hm, rfl⟩ | ⟨_, rfl⟩
    · cases hid
    · have hml := (hdependency m id hid).symm.trans (of_decide_eq_true hlocality)
      rw [Option.some.inj hml] at hm ⊢
      exact ⟨hm, rfl⟩
    · cases hkind
  · rintro ⟨hl, rfl⟩
    obtain ⟨s, hs⟩ := mem_moduleLocalities.mp hl
    have hid : (shardUnit sha256 versions s).id ∈ leafIds sha256 versions current l :=
      mem_leafIds.mpr ⟨s, hs, rfl⟩
    refine ⟨(mem_workUnitsOf hapart (by simp)).mpr (Or.inr (Or.inl ⟨l, hl, rfl⟩)), rfl,
      (shardUnit sha256 versions s).id, hid, ?_⟩
    exact decide_eq_true (hdependency l _ hid)

/-! ## What is directly affected -/

/-- The set of directly affected units, where the results may be reused at all. -/
def directOf (sha256 : String → String) (versions : Versions) (previous current : List Shard)
    (changes : List Change) (revalidation : List String) : List String :=
  readersOf (unitsOf sha256 versions current) (changes.flatMap (·.artifactIds)) ++ revalidation ++
    (removals changes).flatMap (affectedByRemoval (unitsOf sha256 versions previous)
      (previous.map (partitionOf sha256 versions)) (unitsOf sha256 versions current)
      (current.map (partitionOf sha256 versions)))

/-- The units that read a changed artifact are those of shards. -/
theorem mem_readersOf {ids : List String} : id ∈ readersOf (unitsOf sha256 versions current) ids ↔
      ∃ s ∈ current, (∃ a ∈ s.artifactIds, a ∈ ids) ∧ id = (shardUnit sha256 versions s).id := by
  unfold readersOf
  rw [List.mem_map]
  constructor
  · rintro ⟨u, hu, rfl⟩
    obtain ⟨hu, hany⟩ := List.mem_filter.mp hu
    obtain ⟨a, ha, hchanged⟩ := List.any_eq_true.mp hany
    rcases (mem_workUnitsOf hapart (by simp)).mp hu with ⟨s, hs, rfl⟩ | ⟨l, _, rfl⟩ | ⟨_, rfl⟩
    · exact ⟨s, hs, ⟨a, ha, of_decide_eq_true hchanged⟩, rfl⟩
    · cases ha
    · cases ha
  · rintro ⟨s, hs, ⟨a, ha, hchanged⟩, rfl⟩
    refine ⟨shardUnit sha256 versions s, List.mem_filter.mpr ⟨?_, ?_⟩, rfl⟩
    · exact (mem_workUnitsOf hapart (by simp)).mpr (Or.inl ⟨s, hs, rfl⟩)
    · exact List.any_eq_true.mpr ⟨a, ha, decide_eq_true hchanged⟩

theorem matchingModules_isEmpty : (matchingModules (unitsOf sha256 versions current)
      (current.map (partitionOf sha256 versions)) l).isEmpty = true ↔
      l ∉ moduleLocalities current := by
  rw [List.isEmpty_iff, List.eq_nil_iff_forall_not_mem]
  constructor
  · intro h hl
    exact h _ ((mem_matchingModules hapart).mpr ⟨hl, rfl⟩)
  · intro h u hu
    exact h ((mem_matchingModules hapart).mp hu).1

/-- A removal affects the synthesis of its module, or of the project if the module is gone. -/
theorem mem_affectedByRemovals :
    id ∈ (removals changes).flatMap (affectedByRemoval (unitsOf sha256 versions previous)
      (previous.map (partitionOf sha256 versions)) (unitsOf sha256 versions current)
      (current.map (partitionOf sha256 versions))) ↔
      (∃ l ∈ moduleLocalities current, RemovedFrom previous changes l ∧
        id = (moduleOf sha256 versions current l).id) ∨
      (∃ l, l ∉ moduleLocalities current ∧ RemovedFrom previous changes l) ∧
        (∃ l, l ∈ moduleLocalities current) ∧ id = (projectOf sha256 versions current).id := by
  rw [List.mem_flatMap]
  constructor
  · rintro ⟨c, hc, hid⟩
    unfold affectedByRemoval at hid
    rw [removedLocality_eq hapart] at hid
    split at hid
    · cases hid
    · rename_i l hl
      obtain ⟨hl, hname⟩ := Option.filter_eq_some_iff.mp hl
      have hremoved : RemovedFrom previous changes l :=
        ⟨of_decide_eq_true hname, c, hc, hl⟩
      dsimp only at hid
      split at hid
      · rename_i hempty
        obtain ⟨u, hu, rfl⟩ := List.mem_map.mp hid
        obtain ⟨hu, hkind⟩ := List.mem_filter.mp hu
        rcases (mem_workUnitsOf hapart (by simp)).mp hu with ⟨s, _, rfl⟩ | ⟨m, _, rfl⟩ | ⟨hany, rfl⟩
        · have hnot := of_decide_eq_true hkind
          unfold shardUnit leafUnit at hnot
          dsimp only at hnot
          split at hnot <;> cases hnot
        · cases hkind
        · exact Or.inr ⟨⟨l, (matchingModules_isEmpty hapart).mp hempty, hremoved⟩, hany, rfl⟩
      · obtain ⟨u, hu, rfl⟩ := List.mem_map.mp hid
        obtain ⟨hl, rfl⟩ := (mem_matchingModules hapart).mp hu
        exact Or.inl ⟨l, hl, hremoved, rfl⟩
  · have hlocality : ∀ {l : String}, RemovedFrom previous changes l → ∃ c ∈ removals changes,
        removedLocality (unitsOf sha256 versions previous)
          (previous.map (partitionOf sha256 versions)) c = some l := by
      rintro l ⟨hname, c, hc, hl⟩
      refine ⟨c, hc, ?_⟩
      rw [removedLocality_eq hapart, hl]
      exact Option.filter_eq_some_iff.mpr ⟨rfl, decide_eq_true hname⟩
    rintro (⟨l, hl, hremoved, rfl⟩ | ⟨⟨l, hl, hremoved⟩, hany, rfl⟩)
    · obtain ⟨c, hc, hcl⟩ := hlocality hremoved
      refine ⟨c, hc, ?_⟩
      unfold affectedByRemoval
      rw [hcl]
      dsimp only
      rw [if_neg (fun hempty => (matchingModules_isEmpty hapart).mp hempty hl)]
      exact List.mem_map_of_mem ((mem_matchingModules hapart).mpr ⟨hl, rfl⟩)
    · obtain ⟨c, hc, hcl⟩ := hlocality hremoved
      refine ⟨c, hc, ?_⟩
      unfold affectedByRemoval
      rw [hcl]
      dsimp only
      rw [if_pos ((matchingModules_isEmpty hapart).mpr hl)]
      refine List.mem_map_of_mem (List.mem_filter.mpr ⟨?_, rfl⟩)
      exact (mem_workUnitsOf hapart (by simp)).mpr (Or.inr (Or.inr ⟨hany, rfl⟩))

theorem mem_directOf : id ∈ directOf sha256 versions previous current changes revalidation ↔
      (∃ s ∈ current, (∃ a ∈ s.artifactIds, a ∈ changes.flatMap (·.artifactIds)) ∧
        id = (shardUnit sha256 versions s).id) ∨ id ∈ revalidation ∨
      (∃ l ∈ moduleLocalities current, RemovedFrom previous changes l ∧
        id = (moduleOf sha256 versions current l).id) ∨
      (∃ l, l ∉ moduleLocalities current ∧ RemovedFrom previous changes l) ∧
        (∃ l, l ∈ moduleLocalities current) ∧ id = (projectOf sha256 versions current).id := by
  unfold directOf
  rw [List.mem_append, List.mem_append, mem_readersOf hapart, mem_affectedByRemovals hapart,
    or_assoc]

theorem shard_direct (hs : s ∈ current) : (shardUnit sha256 versions s).id ∈
      directOf sha256 versions previous current changes revalidation ↔
      Touched sha256 versions changes revalidation s := by
  rw [mem_directOf hapart]
  unfold Touched
  constructor
  · rintro (⟨t, ht, hchanged, hid⟩ | hnamed | ⟨l, hl, _, hid⟩ | ⟨_, _, hid⟩)
    · rw [shardUnit_inj hapart (by simp) (by simp) hs ht hid]
      exact Or.inl hchanged
    · exact Or.inr hnamed
    · exact absurd hid (shardUnit_ne_moduleOf hapart (by simp) (by simp) hs hl)
    · exact absurd hid (shardUnit_ne_projectOf hapart (by simp) (by simp) hs)
  · rintro (hchanged | hnamed)
    · exact Or.inl ⟨s, hs, hchanged, rfl⟩
    · exact Or.inr (Or.inl hnamed)

theorem module_direct (hl : l ∈ moduleLocalities current) :
    (moduleOf sha256 versions current l).id ∈
      directOf sha256 versions previous current changes revalidation ↔
      (moduleOf sha256 versions current l).id ∈ revalidation ∨ RemovedFrom previous changes l := by
  rw [mem_directOf hapart]
  constructor
  · rintro (⟨t, ht, _, hid⟩ | hnamed | ⟨m, hm, hremoved, hid⟩ | ⟨_, _, hid⟩)
    · exact absurd hid.symm (shardUnit_ne_moduleOf hapart (by simp) (by simp) ht hl)
    · exact Or.inl hnamed
    · rw [(moduleOf_inj hapart (by simp) (by simp) hl hm hid).1]
      exact Or.inr hremoved
    · exact absurd hid (moduleOf_ne_projectOf hapart (by simp) (by simp) hl)
  · rintro (hnamed | hremoved)
    · exact Or.inr (Or.inl hnamed)
    · exact Or.inr (Or.inr (Or.inl ⟨l, hl, hremoved, rfl⟩))

theorem project_direct (hany : ∃ l, l ∈ moduleLocalities current) :
    (projectOf sha256 versions current).id ∈
      directOf sha256 versions previous current changes revalidation ↔
      (projectOf sha256 versions current).id ∈ revalidation ∨
        ∃ l, l ∉ moduleLocalities current ∧ RemovedFrom previous changes l := by
  rw [mem_directOf hapart]
  constructor
  · rintro (⟨t, ht, _, hid⟩ | hnamed | ⟨m, hm, _, hid⟩ | ⟨hremoved, _, _⟩)
    · exact absurd hid.symm (shardUnit_ne_projectOf hapart (by simp) (by simp) ht)
    · exact Or.inl hnamed
    · exact absurd hid.symm (moduleOf_ne_projectOf hapart (by simp) (by simp) hm)
    · exact Or.inr hremoved
  · rintro (hnamed | hremoved)
    · exact Or.inr (Or.inl hnamed)
    · exact Or.inr (Or.inr (Or.inr ⟨hremoved, hany, rfl⟩))

/-! ## What is affected in the end -/

/-- What is affected in the end, where the results may be reused at all. -/
def affectedOf (sha256 : String → String) (versions : Versions) (previous current : List Shard)
    (changes : List Change) (revalidation : List String) : List String :=
  affectedClosure (unitsOf sha256 versions current)
    (directOf sha256 versions previous current changes revalidation).eraseDups

omit hapart in
theorem affectedOf_iff {y : String} :
    y ∈ affectedOf sha256 versions previous current changes revalidation ↔
      y ∈ directOf sha256 versions previous current changes revalidation ∨
      ∃ x ∈ affectedOf sha256 versions previous current changes revalidation,
        ∃ u ∈ unitsOf sha256 versions current, x ∈ u.dependencies ∧ u.id = y := by
  unfold affectedOf
  rw [affected_iff, List.mem_eraseDups]

theorem shard_affected (hs : s ∈ current) : (shardUnit sha256 versions s).id ∈
      affectedOf sha256 versions previous current changes revalidation ↔
      Touched sha256 versions changes revalidation s := by
  rw [affectedOf_iff, shard_direct hapart hs]
  constructor
  · rintro (h | ⟨x, _, u, hu, hx, hid⟩)
    · exact h
    · rw [unit_of_shardId hapart hs hu hid] at hx
      cases hx
  · exact Or.inl

theorem module_spared
    (hl : l ∈ moduleLocalities current) : (moduleOf sha256 versions current l).id ∉
      affectedOf sha256 versions previous current changes revalidation ↔
      ModuleSpared sha256 versions previous current changes revalidation l := by
  rw [affectedOf_iff, module_direct hapart hl]
  constructor
  · intro h
    refine ⟨?_, fun hnamed => h (Or.inl (Or.inl hnamed)),
      fun hremoved => h (Or.inl (Or.inr hremoved))⟩
    intro s hs htouched
    apply h
    right
    refine ⟨(shardUnit sha256 versions s).id,
      (shard_affected hapart (mem_leafShards.mp hs).1).mpr htouched,
      moduleOf sha256 versions current l, ?_, ?_, rfl⟩
    · exact (mem_workUnitsOf hapart (by simp)).mpr (Or.inr (Or.inl ⟨l, hl, rfl⟩))
    · exact mem_leafIds.mpr ⟨s, hs, rfl⟩
  · rintro h ((hnamed | hremoved) | ⟨x, hx, u, hu, hdependency, hid⟩)
    · exact h.notNamed hnamed
    · exact h.notRemoved hremoved
    · rw [unit_of_moduleId hapart hl hu hid] at hdependency
      obtain ⟨s, hs, rfl⟩ := mem_leafIds.mp hdependency
      exact h.leaves s hs ((shard_affected hapart (mem_leafShards.mp hs).1).mp hx)

theorem project_spared
    (hany : ∃ l, l ∈ moduleLocalities current) : (projectOf sha256 versions current).id ∉
      affectedOf sha256 versions previous current changes revalidation ↔
      ProjectSpared sha256 versions previous current changes revalidation := by
  rw [affectedOf_iff, project_direct hapart hany]
  constructor
  · intro h
    refine ⟨?_, fun hnamed => h (Or.inl (Or.inl hnamed)), ?_⟩
    · intro l hl
      apply (module_spared hapart hl).mp
      intro haffected
      apply h
      right
      refine ⟨_, haffected, projectOf sha256 versions current, ?_, ?_, rfl⟩
      · exact (mem_workUnitsOf hapart (by simp)).mpr (Or.inr (Or.inr ⟨hany, rfl⟩))
      · exact mem_moduleIds.mpr ⟨l, hl, rfl⟩
    · intro l hremoved
      by_cases hl : l ∈ moduleLocalities current
      · exact hl
      · exact absurd (Or.inl (Or.inr ⟨l, hl, hremoved⟩)) h
  · rintro h ((hnamed | ⟨l, hl, hremoved⟩) | ⟨x, hx, u, hu, hdependency, hid⟩)
    · exact h.notNamed hnamed
    · exact hl (h.kept l hremoved)
    · rw [unit_of_projectId hapart hu hid] at hdependency
      obtain ⟨l, hl, rfl⟩ := mem_moduleIds.mp hdependency
      exact (module_spared hapart hl).mpr (h.modules l hl) hx

/-! ## What the previous plan has -/

theorem shard_known (hs : s ∈ current) :
    (∃ u ∈ unitsOf sha256 versions previous, u.id = (shardUnit sha256 versions s).id) ↔
      s ∈ previous := by
  constructor
  · rintro ⟨u, hu, hid⟩
    rcases (mem_workUnitsOf hapart (by simp)).mp hu with ⟨t, ht, rfl⟩ | ⟨l, hl, rfl⟩ | ⟨_, rfl⟩
    · rw [← shardUnit_inj hapart (by simp) (by simp) ht hs hid]
      exact ht
    · exact absurd hid.symm (shardUnit_ne_moduleOf hapart (by simp) (by simp) hs hl)
    · exact absurd hid.symm (shardUnit_ne_projectOf hapart (by simp) (by simp) hs)
  · intro h
    exact ⟨_, (mem_workUnitsOf hapart (by simp)).mpr (Or.inl ⟨s, h, rfl⟩), rfl⟩

theorem leafIds_eq_iff : leafIds sha256 versions previous l = leafIds sha256 versions current l ↔
      (leafShards previous l).Perm (leafShards current l) := by
  unfold leafIds
  constructor
  · intro h
    refine perm_of_map ?_ (perm_of_sortTexts h)
    intro s hs t ht hid
    exact shardUnit_inj hapart (by simp) (by simp) (mem_leafShards.mp hs).1 (mem_leafShards.mp ht).1
      hid
  · intro h
    exact sortTexts_perm (h.map _)

theorem module_known (hl : l ∈ moduleLocalities current) :
    (∃ u ∈ unitsOf sha256 versions previous, u.id = (moduleOf sha256 versions current l).id) ↔
      (leafShards previous l).Perm (leafShards current l) := by
  constructor
  · rintro ⟨u, hu, hid⟩
    rcases (mem_workUnitsOf hapart (by simp)).mp hu with ⟨t, ht, rfl⟩ | ⟨m, hm, rfl⟩ | ⟨_, rfl⟩
    · exact absurd hid (shardUnit_ne_moduleOf hapart (by simp) (by simp) ht hl)
    · obtain ⟨rfl, hids⟩ := moduleOf_inj hapart (by simp) (by simp) hm hl hid
      exact (leafIds_eq_iff hapart).mp hids
    · exact absurd hid.symm (moduleOf_ne_projectOf hapart (by simp) (by simp) hl)
  · intro h
    obtain ⟨s, hs⟩ := mem_moduleLocalities.mp hl
    have hprevious : l ∈ moduleLocalities previous :=
      mem_moduleLocalities.mpr ⟨s, h.mem_iff.mpr hs⟩
    refine ⟨_, (mem_workUnitsOf hapart (by simp)).mpr (Or.inr (Or.inl ⟨l, hprevious, rfl⟩)), ?_⟩
    unfold moduleOf
    rw [(leafIds_eq_iff hapart).mpr h]

theorem project_known (hany : ∃ l, l ∈ moduleLocalities current) :
    (∃ u ∈ unitsOf sha256 versions previous, u.id = (projectOf sha256 versions current).id) ↔
      moduleIds sha256 versions previous = moduleIds sha256 versions current := by
  constructor
  · rintro ⟨u, hu, hid⟩
    rcases (mem_workUnitsOf hapart (by simp)).mp hu with ⟨t, ht, rfl⟩ | ⟨m, hm, rfl⟩ | ⟨_, rfl⟩
    · exact absurd hid (shardUnit_ne_projectOf hapart (by simp) (by simp) ht)
    · exact absurd hid (moduleOf_ne_projectOf hapart (by simp) (by simp) hm)
    · exact projectOf_inj hapart (by simp) (by simp) hid
  · intro h
    obtain ⟨l, hl⟩ := hany
    have hmem : (moduleOf sha256 versions current l).id ∈ moduleIds sha256 versions previous := by
      rw [h]
      exact mem_moduleIds.mpr ⟨l, hl, rfl⟩
    obtain ⟨m, hm, _⟩ := mem_moduleIds.mp hmem
    refine ⟨_, (mem_workUnitsOf hapart (by simp)).mpr (Or.inr (Or.inr ⟨⟨m, hm⟩, rfl⟩)), ?_⟩
    unfold projectOf
    rw [h]

/-- Both plans have the same modules, each with the same leaves. -/
theorem moduleIds_eq (hcurrent : ∀ l ∈ moduleLocalities current,
      (leafShards previous l).Perm (leafShards current l))
    (hprevious : ∀ l ∈ moduleLocalities previous, l ∈ moduleLocalities current) :
    moduleIds sha256 versions previous = moduleIds sha256 versions current := by
  have hperm : (moduleLocalities previous).Perm (moduleLocalities current) := by
    rw [List.perm_ext_iff_of_nodup (nodup_moduleLocalities _) (nodup_moduleLocalities _)]
    intro l
    refine ⟨hprevious l, ?_⟩
    intro hl
    obtain ⟨s, hs⟩ := mem_moduleLocalities.mp hl
    exact mem_moduleLocalities.mpr ⟨s, (hcurrent l hl).mem_iff.mpr hs⟩
  have hsame : (moduleLocalities previous).map (fun l => (moduleOf sha256 versions previous l).id) =
      (moduleLocalities previous).map fun l => (moduleOf sha256 versions current l).id := by
    apply List.map_congr_left
    intro l hl
    unfold moduleOf
    rw [(leafIds_eq_iff hapart).mpr (hcurrent l (hprevious l hl))]
  unfold moduleIds
  rw [hsame]
  exact sortTexts_perm (hperm.map _)

/-- Every unit that is not affected is in the previous plan, exactly when reuse is justified. -/
theorem unaffected_known_iff : (∀ u ∈ unitsOf sha256 versions current,
      u.id ∉ affectedOf sha256 versions previous current changes revalidation →
      ∃ v ∈ unitsOf sha256 versions previous, v.id = u.id) ↔
      ReuseJustified sha256 versions previous current changes revalidation := by
  have hunits := @mem_workUnitsOf sha256 versions [previous, current] current hapart (by simp)
  constructor
  · intro h
    refine ⟨?_, ?_, ?_⟩
    · intro s hs htouched
      apply (shard_known hapart hs).mp
      exact h _ (hunits.mpr (Or.inl ⟨s, hs, rfl⟩))
        (fun haffected => htouched ((shard_affected hapart hs).mp haffected))
    · intro l hl hspared
      apply (module_known hapart hl).mp
      exact h _ (hunits.mpr (Or.inr (Or.inl ⟨l, hl, rfl⟩))) ((module_spared hapart hl).mpr hspared)
    · intro hspared hany l hl
      have hknown := h _ (hunits.mpr (Or.inr (Or.inr ⟨hany, rfl⟩)))
        ((project_spared hapart hany).mpr hspared)
      have hmem : (moduleOf sha256 versions previous l).id ∈ moduleIds sha256 versions current := by
        rw [← (project_known hapart hany).mp hknown]
        exact mem_moduleIds.mpr ⟨l, hl, rfl⟩
      obtain ⟨m, hm, hid⟩ := mem_moduleIds.mp hmem
      rw [← (moduleOf_inj hapart (by simp) (by simp) hm hl hid).1]
      exact hm
  · intro h u hu hunaffected
    rcases hunits.mp hu with ⟨s, hs, rfl⟩ | ⟨l, hl, rfl⟩ | ⟨hany, rfl⟩
    · apply (shard_known hapart hs).mpr
      exact h.shards s hs (fun htouched => hunaffected ((shard_affected hapart hs).mpr htouched))
    · exact (module_known hapart hl).mpr (h.modules l hl ((module_spared hapart hl).mp hunaffected))
    · have hspared := (project_spared hapart hany).mp hunaffected
      apply (project_known hapart hany).mpr
      exact moduleIds_eq hapart (fun l hl => h.modules l hl (hspared.modules l hl))
        (h.project hspared hany)

omit hapart

end Units

/-! ## The law -/

section Law

variable {sha256 : String → String} {localeCompare : String → String → Ordering}

/-- The partitions and units of a plan are those of the shards of its inventory. -/
theorem plan_shards {clock : Instant} {input : PlanInput} {inventory : Inventory}
    {plan : UnderstandingPlan} {versions : Versions} {maxArtifacts : Nat}
    (hversions : requireVersions input = .ok versions)
    (hmax : maxArtifactsOf input.maxArtifactsPerPartition = .ok maxArtifacts)
    (h : createUnderstandingPlan sha256 localeCompare clock
      { input with inventory := some inventory } = .ok plan) :
    plan.partitions = (shardsOf localeCompare maxArtifacts inventory.artifacts).map
        (partitionOf sha256 versions) ∧
      plan.workUnits = unitsOf sha256 versions
        (shardsOf localeCompare maxArtifacts inventory.artifacts) := by
  unfold createUnderstandingPlan at h
  split at h
  · cases h
  · rename_i given hgiven
    obtain ⟨hgiven, _⟩ := Option.filter_eq_some_iff.mp hgiven
    cases hgiven
    obtain ⟨versions', hversions', h⟩ := bind_ok h
    have hsame : requireVersions input = .ok versions' := hversions'
    cases hversions.symm.trans hsame
    split at h
    · cases h
    · obtain ⟨maxArtifacts', hmax', h⟩ := bind_ok h
      cases hmax.symm.trans hmax'
      dsimp only at h
      split at h
      · cases h
      · cases h
        exact ⟨rfl, rfl⟩

theorem revalidationIds_ok {units : List WorkUnit} {value : Option Json} {ids : List String}
    (h : revalidationIds units value = .ok ids) : ids = textsOf (itemsOf value) := by
  unfold revalidationIds typeError at h
  split at h
  · rename_i items hitems
    dsimp only at h
    split at h
    · cases h
      congr 1
      unfold nullish at hitems
      split at hitems
      · cases hitems
        rfl
      · cases hitems
        rfl
      · rw [hitems]
        rfl
    · cases h
  · cases h

/-- A reused unit is a unit of the previous plan too, with the same input. -/
def ReuseSound (previous current : UnderstandingPlan) (plan : IncrementalPlan) : Prop :=
  ∀ u ∈ current.workUnits, u.id ∈ plan.reusedWorkUnitIds →
    ∃ v ∈ previous.workUnits, v.id = u.id ∧ v.inputDigest = u.inputDigest

/-- Units of two plans with one id are one unit. -/
theorem same_unit {versions : Versions} {previous current : List Shard}
    (hapart : DigestsApart sha256 versions [previous, current]) {u v : WorkUnit}
    (hu : u ∈ unitsOf sha256 versions current) (hv : v ∈ unitsOf sha256 versions previous)
    (hid : v.id = u.id) : v = u := by
  rcases (mem_workUnitsOf hapart (by simp)).mp hu with ⟨s, hs, rfl⟩ | ⟨l, hl, rfl⟩ | ⟨hany, rfl⟩
  · have hprevious := (shard_known hapart hs).mp ⟨v, hv, hid⟩
    rcases (mem_workUnitsOf hapart (by simp)).mp hv with ⟨t, ht, rfl⟩ | ⟨m, hm, rfl⟩ | ⟨_, rfl⟩
    · rw [shardUnit_inj hapart (by simp) (by simp) ht hs hid]
    · exact absurd hid.symm (shardUnit_ne_moduleOf hapart (by simp) (by simp) hs hm)
    · exact absurd hid.symm (shardUnit_ne_projectOf hapart (by simp) (by simp) hs)
  · rcases (mem_workUnitsOf hapart (by simp)).mp hv with ⟨t, ht, rfl⟩ | ⟨m, hm, rfl⟩ | ⟨_, rfl⟩
    · exact absurd hid (shardUnit_ne_moduleOf hapart (by simp) (by simp) ht hl)
    · obtain ⟨rfl, hids⟩ := moduleOf_inj hapart (by simp) (by simp) hm hl hid
      unfold moduleOf
      rw [hids]
    · exact absurd hid.symm (moduleOf_ne_projectOf hapart (by simp) (by simp) hl)
  · rcases (mem_workUnitsOf hapart (by simp)).mp hv with ⟨t, ht, rfl⟩ | ⟨m, hm, rfl⟩ | ⟨_, rfl⟩
    · exact absurd hid (shardUnit_ne_projectOf hapart (by simp) (by simp) ht)
    · exact absurd hid (moduleOf_ne_projectOf hapart (by simp) (by simp) hm)
    · unfold projectOf
      rw [projectOf_inj hapart (by simp) (by simp) hid]

/-- The results of the previous run are declared unfit. -/
def declaredIncompatible (input : IncrementalInput) : Bool :=
  strictEq (field input.reuseCompatibility "compatible") (some (.bool false))

theorem mem_reused {input : IncrementalInput} {revalidation : List String} :
    id ∈ (decideReuse input .INCREMENTAL revalidation sha256).reusedWorkUnitIds ↔
      id ∈ input.current.plan.workUnits.map (·.id) ∧
      id ∉ affectedClosure input.current.plan.workUnits (directlyAffected input .INCREMENTAL
        revalidation (changesOf .INCREMENTAL input.previous input.current)) := by
  unfold decideReuse
  dsimp only
  rw [List.mem_filter, decide_eq_true_eq, List.mem_filter, decide_eq_true_eq]
  constructor
  · rintro ⟨hid, hnot⟩
    exact ⟨hid, fun haffected => hnot ⟨hid, haffected⟩⟩
  · rintro ⟨hid, hnot⟩
    exact ⟨hid, fun h => hnot h.2⟩

theorem incompatible_reuses_none {input : IncrementalInput} {revalidation : List String}
    (h : declaredIncompatible input = true) :
    id ∉ (decideReuse input .INCREMENTAL revalidation sha256).reusedWorkUnitIds := by
  intro hreused
  obtain ⟨hid, hnot⟩ := mem_reused.mp hreused
  apply hnot
  apply affected_iff.mpr
  left
  unfold directlyAffected
  have hincompatible : incompatible input .INCREMENTAL = true := by
    unfold incompatible
    rw [Bool.and_eq_true]
    exact ⟨rfl, h⟩
  dsimp only
  rw [List.mem_eraseDups, if_pos hincompatible]
  exact List.mem_append_left _ (List.mem_append_right _ hid)

/-- Between two sealed inventories, planned alike, exactly the units that the previous plan has
are reused if and only if reuse is justified: the shards without a touched file are as they
were, and so are the modules and the project that nothing touches. -/
theorem reuse_sound_iff_justified {planInput : PlanInput} {versions : Versions}
    {maxArtifacts : Nat} (hversions : requireVersions planInput = .ok versions)
    (hmax : maxArtifactsOf planInput.maxArtifactsPerPartition = .ok maxArtifacts)
    {previousClock currentClock : Instant} {previous current : Snapshot}
    (hprevious : createUnderstandingPlan sha256 localeCompare previousClock
      { planInput with inventory := some previous.inventory } = .ok previous.plan)
    (hcurrent : createUnderstandingPlan sha256 localeCompare currentClock
      { planInput with inventory := some current.inventory } = .ok current.plan)
    {input : IncrementalInput} (hfrom : input.previous = some previous)
    (hto : input.current = current) {plan : IncrementalPlan}
    (h : planIncrementalUnderstanding sha256 input = .ok plan) (hmode : plan.mode = .INCREMENTAL)
    (hapart : DigestsApart sha256 versions
      [shardsOf localeCompare maxArtifacts previous.inventory.artifacts,
        shardsOf localeCompare maxArtifacts current.inventory.artifacts]) :
    ReuseSound previous.plan current.plan plan ↔
      declaredIncompatible input = true ∨
      ReuseJustified sha256 versions
        (shardsOf localeCompare maxArtifacts previous.inventory.artifacts)
        (shardsOf localeCompare maxArtifacts current.inventory.artifacts)
        (compareUnderstandingSnapshots previous.inventory.artifacts current.inventory.artifacts)
        (textsOf (itemsOf input.revalidationWorkUnitIds)) := by
  obtain ⟨hpreviousPartitions, hpreviousUnits⟩ := plan_shards hversions hmax hprevious
  obtain ⟨hcurrentPartitions, hcurrentUnits⟩ := plan_shards hversions hmax hcurrent
  unfold planIncrementalUnderstanding at h
  obtain ⟨mode, _, h⟩ := bind_ok h
  obtain ⟨revalidation, hrevalidation, h⟩ := bind_ok h
  cases h
  have hincremental : mode = .INCREMENTAL := hmode
  subst hincremental hto
  rw [← revalidationIds_ok hrevalidation]
  by_cases hincompatible : declaredIncompatible input = true
  · refine iff_of_true ?_ (Or.inl hincompatible)
    intro u _ hreused
    exact absurd hreused (incompatible_reuses_none hincompatible)
  · rw [or_iff_right hincompatible, ← unaffected_known_iff hapart]
    have hdirect : directlyAffected input .INCREMENTAL revalidation
        (changesOf .INCREMENTAL input.previous input.current) =
        (directOf sha256 versions (shardsOf localeCompare maxArtifacts previous.inventory.artifacts)
          (shardsOf localeCompare maxArtifacts input.current.inventory.artifacts)
          (compareUnderstandingSnapshots previous.inventory.artifacts
            input.current.inventory.artifacts) revalidation).eraseDups := by
      have hnot : ¬ incompatible input .INCREMENTAL = true := by
        unfold incompatible
        rw [Bool.and_eq_true]
        exact fun hboth => hincompatible hboth.2
      unfold directlyAffected directOf previousUnits previousPartitions changesOf
      dsimp only
      rw [if_neg hnot, List.append_nil, hfrom, hcurrentUnits, hcurrentPartitions]
      simp only [Option.map_some, Option.getD_some]
      rw [hpreviousUnits, hpreviousPartitions]
    unfold ReuseSound
    constructor
    · intro hsound u hu hunaffected
      rw [← hcurrentUnits] at hu
      have hreused : u.id ∈ (decideReuse input .INCREMENTAL revalidation sha256).reusedWorkUnitIds := by
        refine mem_reused.mpr ⟨List.mem_map_of_mem hu, ?_⟩
        rw [hdirect, hcurrentUnits]
        exact hunaffected
      obtain ⟨v, hv, hid, _⟩ := hsound u hu hreused
      rw [hpreviousUnits] at hv
      exact ⟨v, hv, hid⟩
    · intro hknown u hu hreused
      have hnot := (mem_reused.mp hreused).2
      rw [hdirect, hcurrentUnits] at hnot
      rw [hcurrentUnits] at hu
      obtain ⟨v, hv, hid⟩ := hknown u hu hnot
      refine ⟨v, hpreviousUnits ▸ hv, hid, ?_⟩
      rw [same_unit hapart hu hv hid]


end Law

/-! ## A file of two is removed -/

/-- SHA-256 on the texts of the two plans, each told by the sum of its bytes. -/
def libDigests : List (Nat × String) :=
  [(37519, "c6f7074fbbc68578d2e1607e1125a992712a1a6457172f1b5cf5cd6382105c4e"),
    (6005, "124b92257dfc6fb667cbf317f308ba1bc4cb802fd88ac84b69823a401c7e0ead"),
    (8664, "750cb06d194e6de76ffe1d824959f5e12cffe47011c97a9dde865dc7332da444"),
    (13172, "c35d62012ebee456b08e2ccd83c6456dfd05e45c45e0c852cc8260b6f8cce1a8"),
    (7383, "5192d3c4dfb8e94139ea6c50ab14179f3be7fa649098cd28d61df0b1bd17b969"),
    (11810, "479f6fa878d0b7c09ab0ec8e687e3d13c97d8ad7f044eaf0772f3f674a8a7aa9"),
    (93502, "da19891cde3ea4284836b08cb9e2d2804857953705c0b8f48309effc93be89ee"),
    (104426, "94d458364a68d4a3d4b02a72263043de0f668872fe9a703cf9f3bb1970ec691f"),
    (24966, "c4f5ac6eb36d01862530857fa25d129bbea5eb63c3427acc51bc7aaa3de722bf"),
    (5946, "41372231a082bcd1f6174237f49b3a8cea23c542c84eb0629d0d1b72ea83c567"),
    (8450, "7e057b5be0b28e20dd8d450df8301ab2cb77942b006c511602456d08aaa498de"),
    (12958, "77cb7973c2ffc14f292e51667d0d191e2586a4fb5e217f158c06b02103628174"),
    (7367, "e544b3ce654872d466402652f2e51779c160e474e15483af230f0668414d64cc"),
    (11794, "5768a5c30d2034aed6b7d65e0917307882352f69f21bad8142f97ed0ee57b0d4"),
    (87428, "adbba6fa04374f31755c1ac70c179a85811d9cd11e504276608530d257964b66"),
    (97984, "707a3a655d25a17dd40b9aa5bb219df9fb68dd4d25790d03533bfa79edcb6d16"),
    (13024, "df86a40691b7bc835b7abb5240735dd9080dd7c9995c2bbf08194d504f4516a6")]

def libDigest (text : String) : String :=
  (libDigests.lookup (text.toUTF8.data.toList.map UInt8.toNat).sum).getD ""

/-- The names here are of small letters, where a locale has the order of the characters. -/
def libCompare (a b : String) : Ordering :=
  if a = b then .eq else if textGt a b then .gt else .lt

def moduleA : Artifact where
  id := "ARTIFACT-ddf1e6560a3cb976089a0f8a"
  relativePath := "lib/a.js"
  artifactKinds := ["SOURCE"]
  mediaType := "text/javascript"
  language := .str "javascript"
  sizeBytes := Number.ofNat 20
  contentDigest := "sha256:037ecd1db38c230c248787e60fd7bfc0cb0101b187b59535b6e7483be762d350"
  disposition := "INCLUDED"
  reasonCode := none
  inside := by decide

def moduleB : Artifact where
  id := "ARTIFACT-502a7bd48b54a2f3ba4433ca"
  relativePath := "lib/b.js"
  artifactKinds := ["SOURCE"]
  mediaType := "text/javascript"
  language := .str "javascript"
  sizeBytes := Number.ofNat 20
  contentDigest := "sha256:b5d546753d33709dff508a6f2c2e547f432267fbb05b68d3da74fa5f7bda9f7a"
  disposition := "INCLUDED"
  reasonCode := none
  inside := by decide

def libClock : Instant := { time := 1784116800000, iso := "2026-07-15T12:00:00.000Z" }

def bothModules : Inventory where
  id := "INVENTORY-1"
  projectId := "PROJECT"
  snapshotManifestId := "SNAPSHOT-1"
  sourceDigest := "sha256:abababababababababababababababababababababababababababababababab"
  scannerVersion := "1"
  isSealed := true
  artifacts := [moduleA, moduleB]
  createdAt := libClock.iso
  uniqueIds := by decide
  uniquePaths := by decide

def secondModule : Inventory where
  id := "INVENTORY-2"
  projectId := "PROJECT"
  snapshotManifestId := "SNAPSHOT-2"
  sourceDigest := "sha256:cdcdcdcdcdcdcdcdcdcdcdcdcdcdcdcdcdcdcdcdcdcdcdcdcdcdcdcdcdcdcdcd"
  scannerVersion := "1"
  isSealed := true
  artifacts := [moduleB]
  createdAt := libClock.iso
  uniqueIds := by decide
  uniquePaths := by decide

def libPlanInput : PlanInput where
  inventory := none
  plannerVersion := some (.str "1")
  conventionVersion := some (.str "1")
  executionPolicyDigest := some (.str "P")
  truthSetDigest := none
  truthSet := none
  truthSetAnswers := none
  maxArtifactsPerPartition := none

def libPlan (inventory : Inventory) : Except Failure UnderstandingPlan :=
  createUnderstandingPlan libDigest libCompare libClock
    { libPlanInput with inventory := some inventory }

theorem libPlan_bothModules : (libPlan bothModules).toOption.isSome = true := by
  decide +kernel

theorem libPlan_secondModule : (libPlan secondModule).toOption.isSome = true := by
  decide +kernel

/-- The two plans of the sample, before and after `lib/a.js` is removed. -/
def libBefore : Snapshot := ⟨bothModules, (libPlan bothModules).toOption.get libPlan_bothModules⟩

def libAfter : Snapshot := ⟨secondModule, (libPlan secondModule).toOption.get libPlan_secondModule⟩

def libIncrement : IncrementalInput where
  requestedMode := some (.str "INCREMENTAL")
  currentGraphHead := some (.obj [("graphRevisionId", .str "G1")])
  previous := some libBefore
  current := libAfter
  reuseCompatibility := none
  revalidationWorkUnitIds := none

theorem libIncrement_planned :
    (planIncrementalUnderstanding libDigest libIncrement).toOption.isSome = true := by
  decide +kernel

def libReuse : IncrementalPlan :=
  (planIncrementalUnderstanding libDigest libIncrement).toOption.get libIncrement_planned

theorem removed_file_reuse_sound_iff :
    ReuseSound libBefore.plan libAfter.plan libReuse ↔
      declaredIncompatible libIncrement = true ∨
      ReuseJustified libDigest ⟨"1", "1", "P"⟩
        (shardsOf libCompare 32 bothModules.artifacts)
        (shardsOf libCompare 32 secondModule.artifacts)
        (compareUnderstandingSnapshots bothModules.artifacts secondModule.artifacts)
        (textsOf (itemsOf libIncrement.revalidationWorkUnitIds)) := by
  have hversions : requireVersions libPlanInput = .ok ⟨"1", "1", "P"⟩ := by decide +kernel
  have hmax : maxArtifactsOf libPlanInput.maxArtifactsPerPartition = .ok 32 := by decide +kernel
  have hmode : libReuse.mode = .INCREMENTAL := by decide +kernel
  have hapart : DigestsApart libDigest ⟨"1", "1", "P"⟩
      [shardsOf libCompare 32 bothModules.artifacts,
        shardsOf libCompare 32 secondModule.artifacts] :=
    ⟨by decide +kernel, by decide +kernel⟩
  have hprevious : createUnderstandingPlan libDigest libCompare libClock
      { libPlanInput with inventory := some libBefore.inventory } = .ok libBefore.plan :=
    ok_get libPlan_bothModules
  have hcurrent : createUnderstandingPlan libDigest libCompare libClock
      { libPlanInput with inventory := some libAfter.inventory } = .ok libAfter.plan :=
    ok_get libPlan_secondModule
  have hfrom : libIncrement.previous = some libBefore := rfl
  have hto : libIncrement.current = libAfter := rfl
  have hplan : planIncrementalUnderstanding libDigest libIncrement = .ok libReuse :=
    ok_get libIncrement_planned
  exact reuse_sound_iff_justified hversions hmax hprevious hcurrent hfrom hto hplan hmode hapart

/-- The leaf that lost `lib/a.js` is a new unit, and it is reused. -/
theorem removed_file_leaves_a_new_unit_reused :
    libPlan bothModules = .ok libBefore.plan ∧ libPlan secondModule = .ok libAfter.plan ∧
      planIncrementalUnderstanding libDigest libIncrement = .ok libReuse ∧
      libReuse.mode = .INCREMENTAL ∧ ¬ ReuseSound libBefore.plan libAfter.plan libReuse := by
  refine ⟨ok_get libPlan_bothModules, ok_get libPlan_secondModule, ok_get libIncrement_planned,
    ?_, ?_⟩
  · decide +kernel
  · unfold ReuseSound
    decide +kernel

end Traqen.IncrementalUnderstanding
