-- What an incremental run does again (`application/incremental-understanding.js`): the loop over
-- the dependents ends with the least set of units that contains the directly affected ones and
-- every unit that depends on a member.
import Traqen.IncrementalUnderstanding

open Js

namespace Traqen.IncrementalUnderstanding

open UnderstandingPlanner

/-! ## The loop over the dependents -/

theorem mem_dependents {units : List WorkUnit} {x y : String} :
    y ∈ dependents units x ↔ ∃ u ∈ units, x ∈ u.dependencies ∧ u.id = y := by
  unfold dependents
  rw [List.mem_flatMap]
  constructor
  · rintro ⟨u, hu, hy⟩
    obtain ⟨d, hd, rfl⟩ := List.mem_map.mp hy
    obtain ⟨hd, hx⟩ := List.mem_filter.mp hd
    rw [← of_decide_eq_true hx]
    exact ⟨u, hu, hd, rfl⟩
  · rintro ⟨u, hu, hx, rfl⟩
    refine ⟨u, hu, List.mem_map.mpr ⟨x, ?_, rfl⟩⟩
    exact List.mem_filter.mpr ⟨hx, decide_eq_true rfl⟩

/-- There is fuel for every unit that the queue can take. -/
theorem propagation_ends (units : List WorkUnit) (direct : List String) :
    ∃ r, Worklist.collect (dependents units) (direct.length + units.length) (direct, direct) =
      some r := by
  have hnext : ∀ x, ∀ z ∈ dependents units x, z ∈ units.map (·.id) := by
    intro x z hz
    obtain ⟨u, hu, _, rfl⟩ := mem_dependents.mp hz
    exact List.mem_map_of_mem hu
  have hfuel : direct.length + Worklist.missing (units.map (·.id)) direct ≤
      direct.length + units.length := by
    have hle := List.length_filter_le (fun x => x ∉ direct) (units.map (·.id))
    rw [List.length_map] at hle
    exact Nat.add_le_add_left hle _
  exact Worklist.collect_ends (dependents units) hnext _ direct direct hfuel

theorem mem_affectedClosure {units : List WorkUnit} {direct : List String} {y : String} :
    y ∈ affectedClosure units direct ↔
      ∃ x ∈ direct, Relation.ReflTransGen (Worklist.Follows (dependents units)) x y := by
  obtain ⟨r, hr⟩ := propagation_ends units direct
  unfold affectedClosure
  rw [hr]
  exact Worklist.mem_collect hr

/-- A unit is affected directly, or by a dependency that is. -/
theorem affected_iff {units : List WorkUnit} {direct : List String} {y : String} :
    y ∈ affectedClosure units direct ↔ y ∈ direct ∨
      ∃ x ∈ affectedClosure units direct, ∃ u ∈ units, x ∈ u.dependencies ∧ u.id = y := by
  constructor
  · intro h
    obtain ⟨x, hx, hreach⟩ := mem_affectedClosure.mp h
    rcases hreach.cases_tail with rfl | ⟨z, hreach, hstep⟩
    · exact Or.inl hx
    · exact Or.inr ⟨z, mem_affectedClosure.mpr ⟨x, hx, hreach⟩, mem_dependents.mp hstep⟩
  · rintro (h | ⟨x, hx, hstep⟩)
    · exact mem_affectedClosure.mpr ⟨y, h, Relation.ReflTransGen.refl⟩
    · obtain ⟨s, hs, hreach⟩ := mem_affectedClosure.mp hx
      exact mem_affectedClosure.mpr ⟨s, hs, hreach.tail (mem_dependents.mpr hstep)⟩

/-! ## The least set -/

/-- The set has the directly affected units, and every unit that depends on a member. -/
structure ClosedUnder (units : List WorkUnit) (direct : List String) (S : Set String) : Prop where
  direct : ∀ id ∈ direct, id ∈ S
  dependents : ∀ u ∈ units, ∀ d ∈ u.dependencies, d ∈ S → u.id ∈ S

/-- The unit of the first id depends on the second. -/
def DependsOn (units : List WorkUnit) (x y : String) : Prop :=
  ∃ u ∈ units, u.id = x ∧ y ∈ u.dependencies

theorem closure_closed (units : List WorkUnit) (direct : List String) :
    ClosedUnder units direct {id | id ∈ affectedClosure units direct} := by
  refine ⟨fun id hid => affected_iff.mpr (.inl hid), fun u hu d hd hmem => ?_⟩
  exact affected_iff.mpr (.inr ⟨d, hmem, u, hu, hd, rfl⟩)

theorem closure_least {units : List WorkUnit} {direct : List String} {S : Set String}
    (hS : ClosedUnder units direct S) {id : String} (h : id ∈ affectedClosure units direct) :
    id ∈ S := by
  obtain ⟨x, hx, hreach⟩ := mem_affectedClosure.mp h
  induction hreach with
  | refl => exact hS.direct x hx
  | tail hbefore hlast ih =>
    obtain ⟨u, hu, hd, rfl⟩ := mem_dependents.mp hlast
    exact hS.dependents u hu _ hd (ih (mem_affectedClosure.mpr ⟨x, hx, hbefore⟩))

/-- The affected ids are those of units, where the directly affected ones are. -/
theorem closure_units {units : List WorkUnit} {direct : List String}
    (hdirect : ∀ id ∈ direct, id ∈ units.map (·.id)) {id : String}
    (h : id ∈ affectedClosure units direct) : id ∈ units.map (·.id) := by
  rcases affected_iff.mp h with h | ⟨_, _, u, hu, _, rfl⟩
  · exact hdirect id h
  · exact List.mem_map_of_mem hu

/-! ## The directly affected units -/

theorem revalidationIds_units {units : List WorkUnit} {value : Option Json} {ids : List String}
    (h : revalidationIds units value = .ok ids) : ∀ id ∈ ids, id ∈ units.map (·.id) := by
  unfold revalidationIds at h
  cases hvalue : nullish value (.arr []) with
  | arr items =>
    rw [hvalue] at h
    dsimp only at h
    by_cases hcheck : ((textsOf items).length = items.length &&
        (textsOf items).all (fun id => id ∈ units.map (·.id)) &&
          decide (textsOf items).Nodup) = true
    · rw [if_pos hcheck] at h
      cases h
      rw [Bool.and_eq_true, Bool.and_eq_true] at hcheck
      intro id hid
      exact of_decide_eq_true (List.all_eq_true.mp hcheck.1.2 id hid)
    · rw [if_neg hcheck] at h
      cases h
  | _ =>
    rw [hvalue] at h
    cases h

theorem affectedByRemoval_units {previousUnits : List WorkUnit}
    {previousPartitions : List Partition} {units : List WorkUnit} {partitions : List Partition} {change : Change} {id : String}
    (h : id ∈ affectedByRemoval previousUnits previousPartitions units partitions change) :
    id ∈ units.map (·.id) := by
  unfold affectedByRemoval at h
  cases hlocality : removedLocality previousUnits previousPartitions change with
  | none =>
    rw [hlocality] at h
    cases h
  | some locality =>
    rw [hlocality] at h
    dsimp only at h
    by_cases hnone : (matchingModules units partitions locality).isEmpty = true
    · rw [if_pos hnone] at h
      exact List.map_subset _ (List.filter_subset_self _) h
    · rw [if_neg hnone] at h
      exact List.map_subset _ (List.filter_subset_self _) h

theorem directlyAffected_units {input : IncrementalInput} {mode : Mode} {revalidation : List String}
    {changes : List Change}
    (hnamed : ∀ id ∈ revalidation, id ∈ input.current.plan.workUnits.map (·.id)) :
    ∀ id ∈ directlyAffected input mode revalidation changes,
      id ∈ input.current.plan.workUnits.map (·.id) := by
  intro id hid
  unfold directlyAffected at hid
  dsimp only at hid
  rw [List.mem_eraseDups, List.mem_append, List.mem_append, List.mem_append] at hid
  rcases hid with ((hid | hid) | hid) | hid
  · exact List.map_subset _ (List.filter_subset_self _) hid
  · exact hnamed id hid
  · by_cases hall : incompatible input mode = true
    · rw [if_pos hall] at hid
      exact hid
    · rw [if_neg hall] at hid
      cases hid
  · obtain ⟨change, -, hid⟩ := List.mem_flatMap.mp hid
    exact affectedByRemoval_units hid

/-! ## The plan -/

/-- What depends on a member of a closed set is in it. -/
theorem ClosedUnder.transitive {units : List WorkUnit} {direct : List String} {S : Set String}
    (hS : ClosedUnder units direct S) {x y : String}
    (h : Relation.TransGen (DependsOn units) x y) (hy : y ∈ S) : x ∈ S := by
  have hstep : ∀ {a b}, DependsOn units a b → b ∈ S → a ∈ S := by
    rintro a b ⟨u, hu, rfl, hb⟩ hmem
    exact hS.dependents u hu b hb hmem
  induction h with
  | single hxy => exact hstep hxy hy
  | tail _ hlast ih => exact ih (hstep hlast hy)

/-- The ids of the units, split by a set of them. -/
theorem split_ids {ids affected : List String} :
    (ids.filter (· ∈ affected) ++ ids.filter (· ∉ ids.filter (· ∈ affected))).Perm ids := by
  have hsame : ids.filter (· ∉ ids.filter (· ∈ affected)) =
      ids.filter (fun id => !(id ∈ affected)) := by
    apply List.filter_congr
    intro id hid
    simp [hid]
  rw [hsame]
  exact List.filter_append_perm _ _

/-- The propagation ends with the least set that is closed under what depends on a member, and what
is affected and what is reused are all units, each of them one of both. -/
theorem affected_is_least {sha256 : String → String} {input : IncrementalInput}
    {plan : IncrementalPlan} (h : planIncrementalUnderstanding sha256 input = .ok plan) :
    ∃ revalidation,
      revalidationIds input.current.plan.workUnits input.revalidationWorkUnitIds =
        .ok revalidation ∧
      let units := input.current.plan.workUnits
      let direct := directlyAffected input plan.mode revalidation plan.changes
      (∃ r, Worklist.collect (dependents units) (direct.length + units.length) (direct, direct) =
        some r ∧ ∀ id, id ∈ plan.affectedWorkUnitIds ↔ id ∈ r) ∧
      (∀ id ∈ plan.affectedWorkUnitIds, id ∈ units.map (·.id)) ∧
      ClosedUnder units direct {id | id ∈ plan.affectedWorkUnitIds} ∧
      (∀ S, ClosedUnder units direct S → ∀ id ∈ plan.affectedWorkUnitIds, id ∈ S) ∧
      (plan.affectedWorkUnitIds ++ plan.reusedWorkUnitIds).Perm (units.map (·.id)) ∧
      (∀ id ∈ plan.affectedWorkUnitIds, id ∉ plan.reusedWorkUnitIds) ∧
      ∀ x ∈ plan.reusedWorkUnitIds, ∀ y ∈ plan.affectedWorkUnitIds,
        ¬ Relation.TransGen (DependsOn units) x y := by
  obtain ⟨mode, -, h⟩ := bind_ok h
  obtain ⟨revalidation, hrevalidation, h⟩ := bind_ok h
  cases h
  refine ⟨revalidation, hrevalidation, ?_⟩
  unfold decideReuse
  dsimp only
  let units := input.current.plan.workUnits
  let direct := directlyAffected input mode revalidation
    (changesOf mode input.previous input.current)
  have hdirect : ∀ id ∈ direct, id ∈ units.map (·.id) :=
    directlyAffected_units (revalidationIds_units hrevalidation)
  have hmem : ∀ id, id ∈ (units.map (·.id)).filter (· ∈ affectedClosure units direct) ↔
      id ∈ affectedClosure units direct := by
    intro id
    rw [List.mem_filter, decide_eq_true_eq]
    exact ⟨And.right, fun hid => ⟨closure_units hdirect hid, hid⟩⟩
  have hclosed : ClosedUnder units direct
      {id | id ∈ (units.map (·.id)).filter (· ∈ affectedClosure units direct)} := by
    simp only [hmem]
    exact closure_closed units direct
  have hdisjoint : ∀ id ∈ (units.map (·.id)).filter (· ∈ affectedClosure units direct),
      id ∉ (units.map (·.id)).filter
        (· ∉ (units.map (·.id)).filter (· ∈ affectedClosure units direct)) := by
    intro id hid hnot
    exact of_decide_eq_true (List.mem_filter.mp hnot).2 hid
  obtain ⟨r, hr⟩ := propagation_ends units direct
  refine ⟨⟨r, hr, fun id => ?_⟩, fun id hid => ?_, hclosed, fun S hS id hid => ?_, split_ids,
    hdisjoint, fun x hx y hy hdepends => ?_⟩
  · rw [Worklist.mem_collect hr, ← mem_affectedClosure]
    exact hmem id
  · exact (List.mem_filter.mp hid).1
  · exact closure_least hS ((hmem id).mp hid)
  · exact hdisjoint x (hclosed.transitive hdepends hy) hx

/-! ## Two units that depend on each other -/

def unitOf (id : String) (dependencies : List String) : WorkUnit where
  id
  partitionId := none
  kind := .LEAF
  dependencies
  artifactIds := []
  inputDigest := "sha256:" ++ id

/-- `a` and `b` depend on each other, `b` on no unit of the plan either, and `c` on nothing. -/
def ringPlan : UnderstandingPlan where
  id := "PLAN-1"
  projectId := "PROJECT"
  snapshotManifestId := "SNAPSHOT-1"
  inventoryId := "INVENTORY-1"
  versions := ⟨"1", "1", "P"⟩
  partitions := []
  workUnits := [unitOf "a" ["b"], unitOf "b" ["a", "gone"], unitOf "c" []]
  artifactCount := 0
  assignedCount := 0
  unassignedCount := 0
  planDigest := "sha256:plan"
  createdAt := ""

def noArtifacts : Inventory where
  id := "INVENTORY-1"
  projectId := "PROJECT"
  snapshotManifestId := "SNAPSHOT-1"
  sourceDigest := "sha256:source"
  scannerVersion := "1"
  isSealed := true
  artifacts := []
  createdAt := ""
  uniqueIds := List.nodup_nil
  uniquePaths := List.nodup_nil

def ringIncrement : IncrementalInput where
  requestedMode := some (.str "FULL")
  currentGraphHead := none
  previous := none
  current := ⟨noArtifacts, ringPlan⟩
  reuseCompatibility := none
  revalidationWorkUnitIds := some (.arr [.str "b"])

theorem ringIncrement_planned :
    (planIncrementalUnderstanding id ringIncrement).toOption.isSome = true := by
  decide +kernel

def ringReuse : IncrementalPlan :=
  (planIncrementalUnderstanding id ringIncrement).toOption.get ringIncrement_planned

theorem ring_affected : ringReuse.affectedWorkUnitIds = ["a", "b"] ∧
    ∀ x ∈ ringReuse.reusedWorkUnitIds, ∀ y ∈ ringReuse.affectedWorkUnitIds,
      ¬ Relation.TransGen (DependsOn ringPlan.workUnits) x y := by
  obtain ⟨_, _, _, _, _, _, _, _, hapart⟩ := affected_is_least (ok_get ringIncrement_planned)
  exact ⟨by decide +kernel, hapart⟩

end Traqen.IncrementalUnderstanding
