-- The mapping of a claim version on one snapshot, as three places of
-- `application/traceability-application.js` choose it: the current mapping of
-- `getFeatureTraceability`, the conformance that it hands to `evaluateTraceChain`, and the mapping
-- of `generateTestSpecDraft`. They are one exactly where no reanalysis has left a second mapping.
import Traqen.Lib.CodeUnits
import Traqen.Lib.FirstMaximum

open Js FirstMaximum

namespace Traqen.CurrentMapping

/-! ## Records -/

inductive ImplementationMappingStatus where
  | ACTIVE
  | STALE
deriving DecidableEq

structure Claim where
  id : String
  version : Nat

/-- What is read of a mapping. -/
structure ImplementationMapping where
  id : String
  claimId : String
  claimVersion : Nat
  snapshotManifestId : String
  status : ImplementationMappingStatus
  createdAt : String
deriving DecidableEq

/-- What is read of a conformance. -/
structure ImplementationConformance where
  id : String
  claimId : String
  claimVersion : Nat
  snapshotManifestId : String
  mappingId : String
  computedAt : String

/-- The records of `getFeatureBaseline` in the order of the store, which keys the mappings by id. -/
structure Baseline where
  implementationMappings : List ImplementationMapping
  conformances : List ImplementationConformance
  distinct : (implementationMappings.map (·.id)).Nodup

/-! ## The choices -/

section Choices

/- `localeCompare` compares the collation keys of two texts. -/
variable {β : Type} [LinearOrder β] (collationKey : String → β)
  (b : Baseline) (claim : Claim) (snapshotManifestId : String)

/-- `currentMapping` of `getFeatureTraceability`. -/
def currentMapping : Option ImplementationMapping :=
  let mappings := b.implementationMappings.filter fun m =>
    m.claimId = claim.id ∧ m.claimVersion = claim.version
  (rising (fun m => collationKey m.createdAt) mappings).find? fun m =>
    m.snapshotManifestId = snapshotManifestId ∧ m.status = .ACTIVE

/-- `latestConformance` of `getFeatureTraceability`. -/
def latestConformance : Option ImplementationConformance :=
  let conformances := rising (fun c => collationKey c.computedAt) (b.conformances.filter fun c =>
    c.claimId = claim.id ∧ c.claimVersion = claim.version)
  let currentConformance :=
    (conformances.filter fun c => c.snapshotManifestId = snapshotManifestId).getLast?
  currentConformance.or conformances.getLast?

/-- `mapping` of `generateTestSpecDraft`. -/
def draftMapping : Option ImplementationMapping :=
  (rising (fun m => collationKey m.createdAt) (b.implementationMappings.filter fun m =>
    m.claimId = claim.id ∧ m.claimVersion = claim.version ∧
      m.snapshotManifestId = snapshotManifestId ∧ m.status = .ACTIVE)).getLast?

/-- The three choices are of one mapping. -/
def OneMapping : Prop :=
  ∃ m, currentMapping collationKey b claim snapshotManifestId = some m ∧
    draftMapping collationKey b claim snapshotManifestId = some m ∧
    ∃ c, latestConformance collationKey b claim snapshotManifestId = some c ∧ c.mappingId = m.id

/-! ## When they agree -/

/-- The ACTIVE mappings of the claim version that are bound to the snapshot. -/
def activeMappings : List ImplementationMapping :=
  b.implementationMappings.filter fun m => m.claimId = claim.id ∧ m.claimVersion = claim.version ∧
    m.snapshotManifestId = snapshotManifestId ∧ m.status = .ACTIVE

/-- Its conformances for the snapshot. -/
def snapshotConformances : List ImplementationConformance :=
  b.conformances.filter fun c => c.claimId = claim.id ∧ c.claimVersion = claim.version ∧
    c.snapshotManifestId = snapshotManifestId

/-- There is one such mapping only, and the conformance that was computed last (the last stored of
those of one time) is of that mapping. -/
def NoSecondMapping : Prop :=
  ∃ m, activeMappings b claim snapshotManifestId = [m] ∧
    ∃ c, FirstMax (fun c => collationKey c.computedAt)
      (snapshotConformances b claim snapshotManifestId).reverse c ∧ c.mappingId = m.id

end Choices

section Agreement

variable {β : Type} [LinearOrder β] {collationKey : String → β} {b : Baseline} {claim : Claim}
  {snapshotManifestId : String}

theorem filter_both {α : Type} {p q r : α → Bool} (h : ∀ x, (p x && q x) = r x) (items : List α) :
    (items.filter p).filter q = items.filter r := by
  rw [List.filter_filter]
  exact List.filter_congr fun x _ => by rw [← h x, Bool.and_comm]

/-- The current mapping is the first ACTIVE one, in the order of creation. -/
theorem currentMapping_eq : currentMapping collationKey b claim snapshotManifestId =
    (rising (fun m => collationKey m.createdAt)
      (activeMappings b claim snapshotManifestId)).head? := by
  unfold currentMapping activeMappings
  rw [← List.head?_filter, filter_rising, filter_both]
  intro m
  simp [Bool.and_assoc]

/-- The latest conformance is the last computed one of the snapshot, where there is one. -/
theorem latestConformance_eq (h : snapshotConformances b claim snapshotManifestId ≠ []) :
    latestConformance collationKey b claim snapshotManifestId =
      firstMax? (fun c => collationKey c.computedAt)
        (snapshotConformances b claim snapshotManifestId).reverse := by
  have hexists : ∃ c, FirstMax (fun c : ImplementationConformance => collationKey c.computedAt)
      (snapshotConformances b claim snapshotManifestId).reverse c :=
    firstMax_exists (List.reverse_ne_nil_iff.mpr h)
  obtain ⟨c, hc⟩ := hexists
  rw [← firstMax?_eq_some, ← getLast?_rising] at hc
  unfold latestConformance
  dsimp only
  rw [filter_rising, filter_both (r := fun c => c.claimId = claim.id ∧
    c.claimVersion = claim.version ∧ c.snapshotManifestId = snapshotManifestId)
    (fun c => by simp [Bool.and_assoc])]
  unfold snapshotConformances at hc ⊢
  rw [← getLast?_rising, hc]
  rfl

/-- The first and the last of distinct items are one where there is one item. -/
theorem eq_singleton {α : Type} {items : List α} {x : α} (h : items.Nodup)
    (hhead : items.head? = some x) (hlast : items.getLast? = some x) : items = [x] := by
  cases items with
  | nil => cases hhead
  | cons y rest =>
    obtain rfl : y = x := by simpa using hhead
    cases rest with
    | nil => rfl
    | cons z rest =>
      rw [List.getLast?_cons_cons] at hlast
      exact absurd (List.mem_of_getLast? hlast) (List.nodup_cons.mp h).1

/-- The three places choose one mapping exactly where there is no second one. -/
theorem oneMapping_iff (hconformance : snapshotConformances b claim snapshotManifestId ≠ []) :
    OneMapping collationKey b claim snapshotManifestId ↔
      NoSecondMapping collationKey b claim snapshotManifestId := by
  have hnodup : (activeMappings b claim snapshotManifestId).Nodup :=
    (List.Nodup.of_map _ b.distinct).filter _
  have hperm : (rising (fun m => collationKey m.createdAt)
      (activeMappings b claim snapshotManifestId)).Perm
      (activeMappings b claim snapshotManifestId) := List.perm_insertionSort _ _
  unfold OneMapping NoSecondMapping
  rw [latestConformance_eq hconformance, currentMapping_eq]
  constructor
  · rintro ⟨m, hcurrent, hdraft, c, hc, hmapping⟩
    have hone := eq_singleton (hperm.nodup_iff.mpr hnodup) hcurrent hdraft
    rw [hone] at hperm
    exact ⟨m, (List.perm_singleton.mp hperm.symm), c, firstMax?_eq_some.mp hc, hmapping⟩
  · rintro ⟨m, hone, c, hc, hmapping⟩
    refine ⟨m, ?_, ?_, c, firstMax?_eq_some.mpr hc, hmapping⟩
    · rw [hone]
      rfl
    · unfold draftMapping
      unfold activeMappings at hone
      rw [hone]
      rfl

end Agreement

/-! ## One analysis, and a reanalysis -/

def analyzedAt (id createdAt : String) : ImplementationMapping where
  id := id
  claimId := "CLAIM-1"
  claimVersion := 1
  snapshotManifestId := "SNAPSHOT-1"
  status := .ACTIVE
  createdAt := createdAt

def conformanceOf (mapping : ImplementationMapping) : ImplementationConformance where
  id := "CONFORMANCE-" ++ mapping.id
  claimId := mapping.claimId
  claimVersion := mapping.claimVersion
  snapshotManifestId := mapping.snapshotManifestId
  mappingId := mapping.id
  computedAt := mapping.createdAt

def firstAnalysis : ImplementationMapping := analyzedAt "MAPPING-1" "2026-07-15T00:00:00.000Z"

def reanalysis : ImplementationMapping := analyzedAt "MAPPING-2" "2026-07-16T00:00:00.000Z"

def baselineOf (mappings : List ImplementationMapping) (h : (mappings.map (·.id)).Nodup) :
    Baseline where
  implementationMappings := mappings
  conformances := mappings.map conformanceOf
  distinct := h

theorem first_analysis_is_chosen :
    OneMapping codeUnits (baselineOf [firstAnalysis] (by decide)) ⟨"CLAIM-1", 1⟩ "SNAPSHOT-1" :=
  (oneMapping_iff (by decide)).mpr
    ⟨firstAnalysis, by decide, conformanceOf firstAnalysis, ⟨[], [], rfl, by simp, by simp⟩, rfl⟩

/-- After a reanalysis the trace shows the old mapping beside the new conformance. -/
theorem reanalysis_is_not_current :
    let b := baselineOf [firstAnalysis, reanalysis] (by decide)
    let claim : Claim := ⟨"CLAIM-1", 1⟩
    activeMappings b claim "SNAPSHOT-1" ≠ [] ∧ snapshotConformances b claim "SNAPSHOT-1" ≠ [] ∧
      ¬ OneMapping codeUnits b claim "SNAPSHOT-1" := by
  intro b claim
  refine ⟨by decide, by decide, ?_⟩
  rintro ⟨m, hcurrent, hdraft, -⟩
  have hfirst : currentMapping codeUnits b claim "SNAPSHOT-1" = some firstAnalysis := by decide
  have hlast : draftMapping codeUnits b claim "SNAPSHOT-1" = some reanalysis := by decide
  rw [hfirst] at hcurrent
  rw [hlast, ← hcurrent] at hdraft
  exact absurd hdraft (by decide)

end Traqen.CurrentMapping
