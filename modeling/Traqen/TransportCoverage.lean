-- The transport coverage of a graph (`business-knowledge/semantic-graph.js`): the bytes of a
-- material that were given to a child task or a supplement, as the intervals of their union. It
-- says what was transported, not what was understood.
import Traqen.BusinessGraph
import Traqen.Lib.Intervals

open Js

namespace Traqen.TransportCoverage

open BusinessGraph Intervals

/-! ## What was given -/

/-- The task is one whose input was supplied to a child. -/
def Supplies (task : Json) : Prop :=
  isChildTask (nullish (field (some task) "taskKey") (.str "")).toText = true

/-- The range is among the source ranges of such a task. -/
def Given (process : List Json) (range : Json) : Prop :=
  ∃ task ∈ process, Supplies task ∧
    ∃ ranges, field (some task) "sourceRanges" = some (.arr ranges) ∧ range ∈ ranges

/-- The range is one of this material, and lies within its bytes. -/
structure ValidRange (id : Option Json) (length : Nat) (range : Json) (a : Span) : Prop where
  material : strictEq (field (some range) "materialId") id = true
  start : safeInteger (field (some range) "byteStart") = some (a.1 : Int)
  stop : safeInteger (field (some range) "byteEnd") = some (a.2 : Int)
  proper : a.1 ≤ a.2
  within : a.2 ≤ length

/-- A valid range of the material that was given. -/
def Supplied (process : List Json) (id : Option Json) (length : Nat) (a : Span) : Prop :=
  ∃ range, Given process range ∧ ValidRange id length range a

/-- Some ranges were given, of whatever material. -/
def Offered (process : List Json) : Prop :=
  ∃ task ∈ process, Supplies task ∧ ∃ ranges, field (some task) "sourceRanges" = some (.arr ranges)

def byteLengthOf (material : Json) : Nat := Utf8.byteLength (materialText material)

/-! ## What is measured -/

/-- The measure of a material: the intervals of the union of what was supplied, on the scale where
a range without bytes is a position, and what they are of the whole. -/
structure Measures (offered : Prop) (supplied : Span → Prop) (length : Nat) (measure : Json)
    (ranges : List Span) : Prop where
  listed : field (some measure) "suppliedByteRanges" = some (.arr (ranges.map rangeJson))
  separated : Separated 2 ranges
  union : ∀ point, Covered 2 ranges point ↔ ∃ a, supplied a ∧ Covers 2 a point
  full : field (some measure) "status" = some (.str "FULLY_SUPPLIED") ↔
    (∃ a, supplied a) ∧ ∀ byte < length, ∃ a, supplied a ∧ a.1 ≤ byte ∧ byte < a.2
  partly : field (some measure) "status" = some (.str "PARTIALLY_SUPPLIED") ↔
    (∃ a, supplied a) ∧ ∃ byte < length, ∀ a, supplied a → ¬ (a.1 ≤ byte ∧ byte < a.2)
  nothing : (¬ ∃ a, supplied a) →
    offered ∧ field (some measure) "status" = some (.str "NOT_SUPPLIED") ∨
      ¬ offered ∧ field (some measure) "status" = some (.str "UNKNOWN")

/-- The task with its ranges in another order. -/
def SameTask (task task' : Json) : Prop :=
  field (some task) "taskKey" = field (some task') "taskKey" ∧
    (field (some task) "sourceRanges" = field (some task') "sourceRanges" ∨
      ∃ ranges ranges', field (some task) "sourceRanges" = some (.arr ranges) ∧
        field (some task') "sourceRanges" = some (.arr ranges') ∧ ranges.Perm ranges')

/-- The tasks in another order, with their ranges in another order. -/
def Reordered (process process' : List Json) : Prop :=
  ∃ tasks, process.Perm tasks ∧ List.Forall₂ SameTask tasks process'

/-! ## The merge -/

section Merge

/-- The accumulator holds what is merged so far, the last interval first. -/
theorem mergeRanges_cons (last : Span) (merged ranges : List Span) :
    mergeRanges (last :: merged) ranges =
      merged.reverse ++ mergeFrom (· ≤ ·) last ranges := by
  induction ranges generalizing last merged with
  | nil => simp [mergeRanges, mergeFrom]
  | cons a ranges ih =>
    unfold mergeRanges mergeFrom
    split
    · exact ih _ _
    · rw [ih]
      simp

theorem mergeRanges_eq (ranges : List Span) :
    mergeRanges [] ranges = merge (· ≤ ·) ranges := by
  cases ranges with
  | nil => simp [mergeRanges, merge]
  | cons a ranges =>
    unfold mergeRanges merge
    rw [mergeRanges_cons]
    rfl

/-- Ranges that touch are near on the scale of positions and bytes. -/
theorem near_two : Near 2 (· ≤ ·) := by
  intro start stop
  omega

/-- A byte is the point between its position and the next. -/
theorem covers_byte (a : Span) (byte : Nat) :
    Covers 2 a (2 * byte + 1) ↔ a.1 ≤ byte ∧ byte < a.2 := by
  unfold Covers
  omega

end Merge

/-! ## One material -/

section Material

variable {process : List Json} {children : List (List Json)}

theorem testText_ok {accepts : String → Bool} {v : Json} {b : Bool}
    (h : testText accepts v = .ok b) : accepts v.toText = b := by
  unfold testText at h
  split at h
  · cases h
  · exact Except.ok.inj h

theorem childInput_mem {task : Json} {here : List (List Json)} (ranges : List Json) (h : (do
      notNull task
      let child ← testText isChildTask (nullish (field (some task) "taskKey") (.str ""))
      match field (some task) "sourceRanges" with
      | some (.arr ranges) => return if child = true then [ranges] else []
      | _ => return [] : Except Thrown (List (List Json))) = .ok here) :
    ranges ∈ here ↔ Supplies task ∧ field (some task) "sourceRanges" = some (.arr ranges) := by
  obtain ⟨-, -, h⟩ := bind_ok h
  obtain ⟨child, hchild, h⟩ := bind_ok h
  have htask : Supplies task ↔ child = true := by
    rw [← testText_ok hchild]
    exact Iff.rfl
  rw [htask]
  split at h
  · next own hown =>
    cases h
    rw [hown]
    by_cases hyes : child = true
    · simp [hyes, eq_comm]
    · simp [hyes]
  · next hother =>
    cases h
    refine iff_of_false List.not_mem_nil fun hran => hother ranges hran.2

/-- The children's ranges are those that were given. -/
theorem childInputs_mem (h : childInputs process = .ok children) (ranges : List Json) :
    ranges ∈ children ↔ ∃ task ∈ process, Supplies task ∧
      field (some task) "sourceRanges" = some (.arr ranges) := by
  obtain ⟨found, hfound, h⟩ := bind_ok h
  cases h
  have hall := mapM_ok hfound
  constructor
  · intro hmem
    obtain ⟨here, hhere, hin⟩ := List.mem_flatten.mp hmem
    obtain ⟨task, htask, hran⟩ := exists_source hall hhere
    exact ⟨task, htask, (childInput_mem ranges hran).mp hin⟩
  · rintro ⟨task, htask, hsupplies, hranges⟩
    obtain ⟨here, hhere, hran⟩ := exists_of_mem hall htask
    exact List.mem_flatten.mpr ⟨here, hhere, (childInput_mem ranges hran).mpr ⟨hsupplies, hranges⟩⟩

theorem suppliedRange_iff {id : Option Json} {length : Nat} {range : Json} {found : Option Span}
    (h : suppliedRange id length range = .ok found) (a : Span) :
    found = some a ↔ ValidRange id length range a := by
  obtain ⟨-, -, h⟩ := bind_ok h
  constructor
  · rintro rfl
    split at h
    · next first last hfirst hlast =>
      by_cases hvalid : strictEq (field (some range) "materialId") id = true ∧ 0 ≤ first ∧
          first ≤ last ∧ last ≤ length
      · rw [if_pos hvalid] at h
        obtain ⟨hid, hpos, hle, hwithin⟩ := hvalid
        cases h
        refine ⟨hid, ?_, ?_, ?_, ?_⟩
        · rw [hfirst, Int.toNat_of_nonneg hpos]
        · rw [hlast, Int.toNat_of_nonneg (hpos.trans hle)]
        · show first.toNat ≤ last.toNat
          omega
        · show last.toNat ≤ length
          omega
      · rw [if_neg hvalid] at h
        cases h
    · cases h
  · rintro ⟨hid, hstart, hstop, hproper, hwithin⟩
    rw [hstart, hstop] at h
    have hvalid : strictEq (field (some range) "materialId") id = true ∧ 0 ≤ (a.1 : Int) ∧
        (a.1 : Int) ≤ a.2 ∧ (a.2 : Int) ≤ length := ⟨hid, by omega, by omega, by omega⟩
    dsimp only at h
    rw [if_pos hvalid] at h
    exact (Except.ok.inj h).symm

/-- The ranges that are merged are those that were supplied. -/
theorem actual_mem {id : Option Json} {length : Nat} {actual : List (Option Span)}
    (hchildren : childInputs process = .ok children)
    (h : children.flatten.mapM (suppliedRange id length) = .ok actual) (a : Span) :
    a ∈ actual.filterMap (fun r => r) ↔ Supplied process id length a := by
  have hall := mapM_ok h
  have hgiven : ∀ range, range ∈ children.flatten ↔ Given process range := by
    intro range
    rw [List.mem_flatten]
    constructor
    · rintro ⟨ranges, hmem, hrange⟩
      obtain ⟨task, htask, hsupplies, hranges⟩ := (childInputs_mem hchildren ranges).mp hmem
      exact ⟨task, htask, hsupplies, ranges, hranges, hrange⟩
    · rintro ⟨task, htask, hsupplies, ranges, hranges, hrange⟩
      exact ⟨ranges, (childInputs_mem hchildren ranges).mpr ⟨task, htask, hsupplies, hranges⟩,
        hrange⟩
  constructor
  · intro hmem
    obtain ⟨found, hfound, rfl⟩ := List.mem_filterMap.mp hmem
    obtain ⟨range, hrange, hran⟩ := exists_source hall hfound
    exact ⟨range, (hgiven range).mp hrange, (suppliedRange_iff hran a).mp rfl⟩
  · rintro ⟨range, hrange, hvalid⟩
    obtain ⟨found, hfound, hran⟩ := exists_of_mem hall ((hgiven range).mpr hrange)
    exact List.mem_filterMap.mpr ⟨found, hfound, (suppliedRange_iff hran a).mpr hvalid⟩

/-- The material with this id, which is the only one. -/
theorem materialOf_eq {input material : Json} (hmem : material ∈ listOf input "materials")
    (hunique : ((listOf input "materials").map fun m => field (some m) "id").Nodup)
    (htext : text 256 (field (some material) "id") = true) :
    materialOf input (field (some material) "id") = some material := by
  obtain ⟨s, hs, -⟩ := text_some htext
  cases hfound : materialOf input (field (some material) "id") with
  | none =>
    have hentry : (field (some material) "id", material) ∈
        ((listOf input "materials").map fun m => (field (some m) "id", m)).reverse :=
      List.mem_reverse.mpr (List.mem_map.mpr ⟨material, hmem, rfl⟩)
    have hdiffers := List.find?_eq_none.mp (Option.map_eq_none_iff.mp hfound) _ hentry
    refine absurd ?_ hdiffers
    dsimp only
    rw [hs]
    exact (strictEq_str _ _).mpr rfl
  | some m =>
    obtain ⟨m', hm', heq⟩ := List.mem_map.mp (lastEntry_some hfound)
    obtain ⟨hid, rfl⟩ := Prod.mk.inj heq
    rw [List.inj_on_of_nodup_map hunique hm' hmem hid]

end Material

/-! ## The measure of a material -/

section Measure

variable {input material measure : Json} {process : List Json} {children : List (List Json)}
  {pending : List Json} {id : Option Json} {length : Nat}

/-- What is measured, in terms of the ranges that are merged. -/
structure Merged (children : List (List Json)) (length : Nat) (known : Bool) (spans : List Span)
    (measure : Json) : Prop where
  listed : field (some measure) "suppliedByteRanges" = some (.arr (spans.map rangeJson))
  status : field (some measure) "status" = some (.str (
    if known = false then "NOT_SUPPLIED"
    else if children.isEmpty = true then "UNKNOWN"
    else if spans.isEmpty = true then "NOT_SUPPLIED"
    else if size spans = length then "FULLY_SUPPLIED"
    else "PARTIALLY_SUPPLIED"))

variable (hchildren : childInputs process = .ok children)
include hchildren

/-- The spans that are listed for an id: those of what was supplied, in the order of their starts
and merged. -/
theorem modelInput_merged (h : modelInput input children pending id = .ok measure) :
    ∃ actual : List Span,
      (∀ a, a ∈ actual ↔ Supplied process id
        (((materialOf input id).map byteLengthOf).getD 0) a) ∧
      Merged children (((materialOf input id).map byteLengthOf).getD 0) (isMaterial input id)
        (merge (· ≤ ·) (sorted actual)) measure := by
  obtain ⟨actual, hactual, h⟩ := bind_ok h
  obtain ⟨waiting, -, h⟩ := bind_ok h
  cases h
  refine ⟨actual.filterMap fun r => r, actual_mem hchildren hactual, ?_, ?_⟩
  · rw [mergeRanges_eq]
    rfl
  · rw [mergeRanges_eq]
    rfl

omit hchildren in
theorem proper_of_supplied {a : Span} (h : Supplied process id length a) : a.1 ≤ a.2 := by
  obtain ⟨range, -, hvalid⟩ := h
  exact hvalid.proper

omit hchildren in
theorem within_of_supplied {a : Span} (h : Supplied process id length a) : a.2 ≤ length := by
  obtain ⟨range, -, hvalid⟩ := h
  exact hvalid.within

/-- A range can only be supplied by a child. -/
theorem children_of_supplied {a : Span}
    (h : Supplied process id length a) : children.isEmpty = false := by
  obtain ⟨range, ⟨task, htask, hsupplies, ranges, hranges, -⟩, -⟩ := h
  have hmem := (childInputs_mem hchildren ranges).mpr ⟨task, htask, hsupplies, hranges⟩
  cases children with
  | nil => cases hmem
  | cons first rest => rfl

theorem isEmpty_children : children.isEmpty = true ↔ ¬ Offered process := by
  rw [List.isEmpty_iff, List.eq_nil_iff_forall_not_mem]
  simp only [childInputs_mem hchildren]
  unfold Offered
  grind

omit hchildren in
/-- The merged spans fill the material exactly where what was supplied covers its bytes. -/
theorem size_eq_iff {spans actual : List Span}
    (hactual : ∀ a, a ∈ actual ↔ Supplied process id length a) (hapart : Separated 2 spans)
    (hunion : ∀ point, Covered 2 spans point ↔ Covered 2 actual point) :
    size spans = length ↔
      ∀ byte < length, ∃ a, Supplied process id length a ∧ a.1 ≤ byte ∧ byte < a.2 := by
  have hend : ∀ b ∈ spans, b.2 ≤ length := by
    intro b hb
    have hproper := hapart.proper b hb
    obtain ⟨a, ha, -, hhigh⟩ := (hunion (2 * b.2)).mp ⟨b, hb, by omega, Nat.le_refl _⟩
    have hwithin := within_of_supplied ((hactual a).mp ha)
    omega
  have hcounted := size_le hapart.proper (hapart.apart.imp fun hab => by omega)
    (fun b _ => Nat.zero_le b.1) hend (Nat.zero_le length)
  rw [Nat.sub_zero] at hcounted
  rw [hcounted.2]
  have hbyte : ∀ byte, (∃ a ∈ spans, a.1 ≤ byte ∧ byte < a.2) ↔
      ∃ a, Supplied process id length a ∧ a.1 ≤ byte ∧ byte < a.2 := by
    intro byte
    have hpoint := hunion (2 * byte + 1)
    unfold Covered at hpoint
    simp only [covers_byte, hactual] at hpoint
    exact hpoint
  constructor
  · intro hall byte hless
    exact (hbyte byte).mp (hall byte (Nat.zero_le _) hless)
  · intro hall byte _ hless
    exact (hbyte byte).mpr (hall byte hless)

omit hchildren in
/-- No span is listed only where nothing was supplied. -/
theorem isEmpty_merge (spans : List Span) :
    (merge (· ≤ ·) (sorted spans)).isEmpty = true ↔ spans = [] := by
  rw [List.isEmpty_iff]
  constructor
  · intro hnone
    have hsorted : sorted spans = [] := by
      cases hspans : sorted spans with
      | nil => rfl
      | cons a rest =>
        obtain ⟨stop, more, heq, -⟩ := @mergeFrom_head (· ≤ ·) _ a rest
        rw [hspans, merge, heq] at hnone
        cases hnone
    exact List.perm_nil.mp (hsorted ▸ (sorted_perm spans).symm)
  · rintro rfl
    rfl

/-- The status of a material that is known. -/
theorem status_cases {actual : List Span}
    (hactual : ∀ a, a ∈ actual ↔ Supplied process id length a)
    (h : Merged children length true (merge (· ≤ ·) (sorted actual)) measure) :
    (∃ a, Supplied process id length a) ∧ field (some measure) "status" = some (.str
        (if size (merge (· ≤ ·) (sorted actual)) = length then "FULLY_SUPPLIED"
        else "PARTIALLY_SUPPLIED")) ∨
      (¬ ∃ a, Supplied process id length a) ∧
        (Offered process ∧ field (some measure) "status" = some (.str "NOT_SUPPLIED") ∨
          ¬ Offered process ∧ field (some measure) "status" = some (.str "UNKNOWN")) := by
  have hstatus := h.status
  rw [if_neg (by decide)] at hstatus
  by_cases hnone : actual = []
  · right
    refine ⟨fun ⟨a, ha⟩ => List.not_mem_nil (hnone ▸ (hactual a).mpr ha), ?_⟩
    rw [if_pos ((isEmpty_merge actual).mpr hnone)] at hstatus
    by_cases hchild : children.isEmpty = true
    · rw [if_pos hchild] at hstatus
      exact Or.inr ⟨(isEmpty_children hchildren).mp hchild, hstatus⟩
    · rw [if_neg hchild] at hstatus
      exact Or.inl ⟨of_not_not (mt (isEmpty_children hchildren).mpr hchild), hstatus⟩
  · left
    obtain ⟨a, ha⟩ := List.exists_mem_of_ne_nil actual hnone
    have hsupplied := (hactual a).mp ha
    refine ⟨⟨a, hsupplied⟩, ?_⟩
    rw [if_neg (by rw [children_of_supplied hchildren hsupplied]; decide),
      if_neg (fun hempty => hnone ((isEmpty_merge actual).mp hempty))] at hstatus
    exact hstatus

theorem status_iff {actual : List Span} (hactual : ∀ a, a ∈ actual ↔ Supplied process id length a)
    (h : Merged children length true (merge (· ≤ ·) (sorted actual)) measure) :
    (field (some measure) "status" = some (.str "FULLY_SUPPLIED") ↔
      (∃ a, Supplied process id length a) ∧ size (merge (· ≤ ·) (sorted actual)) = length) ∧
    (field (some measure) "status" = some (.str "PARTIALLY_SUPPLIED") ↔
      (∃ a, Supplied process id length a) ∧ size (merge (· ≤ ·) (sorted actual)) ≠ length) := by
  rcases status_cases hchildren hactual h with ⟨hsome, hstatus⟩ | ⟨hnone, hstatus⟩
  · rw [hstatus]
    by_cases hfull : size (merge (· ≤ ·) (sorted actual)) = length
    · simp only [if_pos hfull]
      exact ⟨iff_of_true trivial ⟨hsome, hfull⟩,
        iff_of_false (by decide) fun hpart => hpart.2 hfull⟩
    · simp only [if_neg hfull]
      exact ⟨iff_of_false (by decide) fun hall => hfull hall.2,
        iff_of_true trivial ⟨hsome, hfull⟩⟩
  · rcases hstatus with ⟨-, hstatus⟩ | ⟨-, hstatus⟩ <;> simp [hstatus, hnone]

theorem modelInput_measures (hmaterial : materialOf input id = some material)
    (h : modelInput input children pending id = .ok measure) :
    ∃ ranges, Measures (Offered process) (Supplied process id (byteLengthOf material))
      (byteLengthOf material) measure ranges := by
  obtain ⟨actual, hactual, hmerged⟩ := modelInput_merged hchildren h
  have hknown : isMaterial input id = true := by
    unfold isMaterial
    rw [hmaterial]
    rfl
  rw [hmaterial, Option.map_some, Option.getD_some] at hactual hmerged
  rw [hknown] at hmerged
  obtain ⟨hapart, hunion⟩ := merge_sorted near_two fun a ha =>
    proper_of_supplied ((hactual a).mp ha)
  have hfills := size_eq_iff hactual hapart hunion
  obtain ⟨hfull, hpartly⟩ := status_iff hchildren hactual hmerged
  refine ⟨_, hmerged.listed, hapart, fun point => ?_, ?_, ?_, fun hnone => ?_⟩
  · rw [hunion]
    unfold Covered
    simp only [hactual]
  · rw [hfull, hfills]
  · rw [hpartly, Ne, hfills]
    push Not
    rfl
  · rcases status_cases hchildren hactual hmerged with ⟨hsome, -⟩ | ⟨-, hstatus⟩
    · exact absurd hsome hnone
    · exact hstatus

omit hchildren

end Measure

/-! ## The coverage of a graph -/

section Coverage

variable {sha256 : String → String} {positiveText : String → Bool} {input graph : Json}

/-- The measure in the coverage of an entry. -/
theorem coverageOf_measure {children : List (List Json)} {pending : List Json}
    {associated : List (Option Json)} {entry covered : Json}
    (h : coverageOf input children pending associated entry = .ok covered) :
    ∃ measure, field (some covered) "modelInput" = some measure ∧
      modelInput input children pending (field (some entry) "materialId") = .ok measure := by
  obtain ⟨-, -, h⟩ := bind_ok h
  obtain ⟨fields, -, h⟩ := bind_ok h
  obtain ⟨measure, hmeasure, h⟩ := bind_ok h
  cases h
  refine ⟨measure, ?_, hmeasure⟩
  set entries := fields ++ _ with hentries
  have hkeyed : OrderedMap.Keyed (fromEntries (OrderedMap.ofList entries)) := by
    have hperm := (fromEntries_perm (OrderedMap.ofList entries)).map (·.1)
    exact hperm.nodup_iff.mpr (OrderedMap.keyed_ofList entries)
  have hget : OrderedMap.get? (OrderedMap.ofList entries) "modelInput" = some measure := by
    rw [hentries, OrderedMap.get?_ofList_append]
    rfl
  have hmem := (fromEntries_perm _).mem_iff.mpr (OrderedMap.get?_mem hget)
  show (fromEntries (OrderedMap.ofList entries)).lookup "modelInput" = some measure
  rw [OrderedMap.lookup_eq_get?]
  exact OrderedMap.get?_of_mem hkeyed hmem

theorem require_ok {condition : Prop} [Decidable condition] {code message : String} {status : Nat}
    {u : Unit} (h : requireF003 condition code message status = .ok u) : condition := by
  unfold requireF003 at h
  split at h
  · assumption
  · cases h

theorem arrayOf_ok {v : Option Json} {items : List Json} (h : arrayOf v = .ok items) :
    items = itemsOf v := by
  unfold arrayOf at h
  split at h <;> cases h <;> rfl

/-- The coverage that a returned graph lists, one for each entry of the inventory. -/
theorem build_coverage (h : buildBusinessGraph sha256 positiveText input = .ok graph) :
    ∃ children pending associated,
      childInputs (listOf input "process") = .ok children ∧
      ((listOf input "materials").map fun m => field (some m) "id").Nodup ∧
      (∀ m ∈ listOf input "materials", text 256 (field (some m) "id") = true) ∧
      List.Forall₂ (fun entry covered =>
          coverageOf input children pending associated entry = .ok covered)
        (listOf input "inventory") (listOf graph "coverage") := by
  obtain ⟨_, hcheck, h⟩ := bind_ok h
  obtain ⟨⟨candidates, quarantine⟩, -, h⟩ := bind_ok h
  obtain ⟨⟨assessed, after⟩, -, h⟩ := bind_ok h
  obtain ⟨process, hprocess, h⟩ := bind_ok h
  obtain ⟨children, hchildren, h⟩ := bind_ok h
  obtain ⟨pending, -, h⟩ := bind_ok h
  obtain ⟨coverage, hcoverage, h⟩ := bind_ok h
  cases h
  obtain ⟨-, -, hcheck⟩ := bind_ok hcheck
  obtain ⟨-, -, hcheck⟩ := bind_ok hcheck
  obtain ⟨-, -, hcheck⟩ := bind_ok hcheck
  obtain ⟨hunique, htexts⟩ := require_ok hcheck
  refine ⟨children, pending, _, ?_, hunique, fun m hm => ?_, mapM_ok hcoverage⟩
  · rwa [arrayOf_ok hprocess] at hchildren
  · have hall := List.all_eq_true.mp htexts m hm
    simp only [Bool.and_eq_true] at hall
    exact hall.1.1

/-- In the coverage of the graph stands a measure of the material, with these ranges. -/
def MeasuredIn (input material covered : Json) : Prop :=
  ∃ measure ranges, field (some covered) "modelInput" = some measure ∧
    Measures (Offered (listOf input "process"))
      (Supplied (listOf input "process") (field (some material) "id") (byteLengthOf material))
      (byteLengthOf material) measure ranges

/-- The measures of a graph, one for each entry of the inventory that names a material. -/
theorem build_measures (h : buildBusinessGraph sha256 positiveText input = .ok graph) :
    List.Forall₂ (fun entry covered => ∀ material ∈ listOf input "materials",
        field (some entry) "materialId" = field (some material) "id" →
          MeasuredIn input material covered)
      (listOf input "inventory") (listOf graph "coverage") := by
  obtain ⟨children, pending, associated, hchildren, hunique, htexts, hall⟩ := build_coverage h
  refine hall.imp fun {entry covered} hcovered material hmem hid => ?_
  obtain ⟨measure, hmeasure, hrun⟩ := coverageOf_measure hcovered
  rw [hid] at hrun
  obtain ⟨ranges, hmeasures⟩ := modelInput_measures hchildren
    (materialOf_eq hmem hunique (htexts material hmem)) hrun
  exact ⟨measure, ranges, hmeasure, hmeasures⟩

end Coverage

/-! ## The order -/

section Order

variable {process process' : List Json} {id : Option Json} {length : Nat}

theorem SameTask.symm {task task' : Json} (h : SameTask task task') : SameTask task' task := by
  obtain ⟨hkey, hsame | ⟨ranges, ranges', hranges, hranges', hperm⟩⟩ := h
  · exact ⟨hkey.symm, Or.inl hsame.symm⟩
  · exact ⟨hkey.symm, Or.inr ⟨ranges', ranges, hranges', hranges, hperm.symm⟩⟩

theorem SameTask.given {task task' range : Json} (h : SameTask task task')
    (hgiven : Given [task] range) : Given [task'] range := by
  obtain ⟨hkey, hsame⟩ := h
  obtain ⟨only, honly, hsupplies, ranges, hranges, hrange⟩ := hgiven
  obtain rfl := List.mem_singleton.mp honly
  refine ⟨task', List.mem_singleton_self _, ?_, ?_⟩
  · unfold Supplies at hsupplies ⊢
    rwa [← hkey]
  · rcases hsame with hsame | ⟨listed, listed', hlisted, hlisted', hperm⟩
    · exact ⟨ranges, hsame ▸ hranges, hrange⟩
    · obtain rfl : listed = ranges := by
        rw [hlisted] at hranges
        injection hranges with hranges
        injection hranges
      exact ⟨listed', hlisted', hperm.mem_iff.mp hrange⟩

theorem given_iff {range : Json} :
    Given process range ↔ ∃ task ∈ process, Given [task] range := by
  simp [Given]

/-- What was given does not depend on the order. -/
theorem Reordered.given (h : Reordered process process') (range : Json) :
    Given process range ↔ Given process' range := by
  obtain ⟨tasks, hperm, hall⟩ := h
  rw [given_iff, given_iff]
  constructor
  · rintro ⟨task, htask, hgiven⟩
    obtain ⟨task', htask', hsame⟩ := exists_of_mem hall (hperm.mem_iff.mp htask)
    exact ⟨task', htask', hsame.given hgiven⟩
  · rintro ⟨task', htask', hgiven⟩
    obtain ⟨task, htask, hsame⟩ := exists_source hall htask'
    exact ⟨task, hperm.mem_iff.mpr htask, hsame.symm.given hgiven⟩

theorem Reordered.supplied (h : Reordered process process') (a : Span) :
    Supplied process id length a ↔ Supplied process' id length a := by
  unfold Supplied
  simp only [h.given]

theorem Reordered.offered (h : Reordered process process') :
    Offered process ↔ Offered process' := by
  obtain ⟨tasks, hperm, hall⟩ := h
  have hone : ∀ {task task' : Json}, SameTask task task' → Supplies task →
      (∃ ranges, field (some task) "sourceRanges" = some (.arr ranges)) →
      Supplies task' ∧ ∃ ranges, field (some task') "sourceRanges" = some (.arr ranges) := by
    rintro task task' ⟨hkey, hsame⟩ hsupplies ⟨ranges, hranges⟩
    constructor
    · unfold Supplies at hsupplies ⊢
      rwa [← hkey]
    · rcases hsame with hsame | ⟨-, listed', -, hlisted', -⟩
      · exact ⟨ranges, hsame ▸ hranges⟩
      · exact ⟨listed', hlisted'⟩
  constructor
  · rintro ⟨task, htask, hsupplies, hranges⟩
    obtain ⟨task', htask', hsame⟩ := exists_of_mem hall (hperm.mem_iff.mp htask)
    exact ⟨task', htask', hone hsame hsupplies hranges⟩
  · rintro ⟨task', htask', hsupplies, hranges⟩
    obtain ⟨task, htask, hsame⟩ := exists_source hall htask'
    exact ⟨task, hperm.mem_iff.mpr htask, hone hsame.symm hsupplies hranges⟩

/-- What is measured is determined by what was supplied. -/
theorem Measures.unique {offered offered' : Prop} {supplied supplied' : Span → Prop} {length : Nat}
    {measure measure' : Json} {ranges ranges' : List Span}
    (h : Measures offered supplied length measure ranges)
    (h' : Measures offered' supplied' length measure' ranges')
    (hoffered : offered ↔ offered') (hsupplied : ∀ a, supplied a ↔ supplied' a) :
    field (some measure) "suppliedByteRanges" = field (some measure') "suppliedByteRanges" ∧
      field (some measure) "status" = field (some measure') "status" := by
  obtain rfl : supplied = supplied' := funext fun a => propext (hsupplied a)
  obtain rfl : offered = offered' := propext hoffered
  constructor
  · have hranges : ranges = ranges' := by
      apply h.separated.ext h'.separated Nat.two_pos
      intro point
      rw [h.union, h'.union]
    rw [h.listed, h'.listed, hranges]
  · by_cases hsome : ∃ a, supplied a
    · by_cases hall : ∀ byte < length, ∃ a, supplied a ∧ a.1 ≤ byte ∧ byte < a.2
      · rw [h.full.mpr ⟨hsome, hall⟩, h'.full.mpr ⟨hsome, hall⟩]
      · push Not at hall
        have hpart : ∃ byte < length, ∀ a, supplied a → ¬ (a.1 ≤ byte ∧ byte < a.2) := by
          obtain ⟨byte, hless, hno⟩ := hall
          exact ⟨byte, hless, fun a ha hin => absurd hin.2 (Nat.not_lt.mpr (hno a ha hin.1))⟩
        rw [h.partly.mpr ⟨hsome, hpart⟩, h'.partly.mpr ⟨hsome, hpart⟩]
    · rcases h.nothing hsome with ⟨hyes, hstatus⟩ | ⟨hno, hstatus⟩
      · rcases h'.nothing hsome with ⟨-, hstatus'⟩ | ⟨hno, -⟩
        · rw [hstatus, hstatus']
        · exact absurd hyes hno
      · rcases h'.nothing hsome with ⟨hyes, -⟩ | ⟨-, hstatus'⟩
        · exact absurd hyes hno
        · rw [hstatus, hstatus']

end Order

/-! ## Transport coverage -/

/-- The two measures list the same ranges and have the same status. -/
def SameMeasure (covered covered' : Json) : Prop :=
  field (field (some covered) "modelInput") "suppliedByteRanges" =
      field (field (some covered') "modelInput") "suppliedByteRanges" ∧
    field (field (some covered) "modelInput") "status" =
      field (field (some covered') "modelInput") "status"

section Graphs

variable {sha256 : String → String} {positiveText : String → Bool} {input graph : Json}

/-- Each entry of the inventory that names a material is measured exactly, and a graph that is
built from the same tasks in another order has the same measure of the material. -/
theorem transport_coverage (h : buildBusinessGraph sha256 positiveText input = .ok graph) :
    List.Forall₂ (fun entry covered => ∀ material ∈ listOf input "materials",
        field (some entry) "materialId" = field (some material) "id" →
          MeasuredIn input material covered)
      (listOf input "inventory") (listOf graph "coverage") ∧
    ∀ input' graph', buildBusinessGraph sha256 positiveText input' = .ok graph' →
      Reordered (listOf input "process") (listOf input' "process") →
      ∀ material ∈ listOf input "materials", material ∈ listOf input' "materials" →
      ∀ e ∈ (listOf input "inventory").zip (listOf graph "coverage"),
      ∀ e' ∈ (listOf input' "inventory").zip (listOf graph' "coverage"),
        field (some e.1) "materialId" = field (some material) "id" →
        field (some e'.1) "materialId" = field (some material) "id" →
          SameMeasure e.2 e'.2 := by
  refine ⟨build_measures h, fun input' graph' h' horder material hmem hmem' e he e' he' hid hid' =>
    ?_⟩
  obtain ⟨measure, ranges, hmeasure, hmeasures⟩ :=
    List.forall₂_zip (build_measures h) he material hmem hid
  obtain ⟨measure', ranges', hmeasure', hmeasures'⟩ :=
    List.forall₂_zip (build_measures h') he' material hmem' hid'
  unfold SameMeasure
  rw [hmeasure, hmeasure']
  exact hmeasures.unique hmeasures' horder.offered fun a => horder.supplied a

end Graphs

/-! ## Two orders of one run -/

def rangeOf (material : String) (first last : Nat) : Json :=
  .obj [("materialId", .str material), ("byteStart", .num (Number.ofNat first)),
    ("byteEnd", .num (Number.ofNat last))]

def taskOf (key : String) (ranges : List Json) : Json :=
  .obj [("taskKey", .str key), ("sourceRanges", .arr ranges)]

/-- A material of six bytes, and the tasks of a run. -/
def notesInput (process : List Json) : Json :=
  .obj [("workspaceId", .str "shop"), ("investigationId", .str "run-1"),
    ("sourceBundleId", .str "bundle-1"), ("profileId", .str "profile-1"),
    ("adoptedVersionIds", .arr []),
    ("materials", .arr [.obj [("id", .str "notes"),
      ("sourceMaterial", .obj [("id", .str "notes")]), ("text", .str "orders")]]),
    ("inventory", .arr [.obj [("materialId", .str "notes")]]),
    ("candidates", .arr []), ("relations", .arr []), ("reviews", .arr []),
    ("allowedFactIds", .arr []), ("process", .arr process)]

/-- Two ranges that touch and one of another material, one of no child, and one apart. -/
def tasks : List Json :=
  [taskOf "child-1" [rangeOf "notes" 0 2, rangeOf "mail" 0 9, rangeOf "notes" 2 4],
    taskOf "review" [rangeOf "notes" 4 6], taskOf "supplement" [rangeOf "notes" 5 6]]

def tasks' : List Json :=
  [taskOf "supplement" [rangeOf "notes" 5 6],
    taskOf "child-1" [rangeOf "notes" 2 4, rangeOf "notes" 0 2, rangeOf "mail" 0 9],
    taskOf "review" [rangeOf "notes" 4 6]]

/-- Digests of the two graphs, each told by the sum of its first bytes. -/
def runDigest (t : String) : String :=
  ([(59874, "842bbf6c593366fd237a97f377de157b35d634f2be3ca8d6e3b8a34f6cef5b59"),
    (60144, "dd14f5cd29a10b2c7c9fe05c3c7828f0770b31e1e137d0f5b8582eeb1af17346")].lookup
      ((t.toUTF8.data.toList.map UInt8.toNat).take 700).sum).getD
        (String.ofList (List.replicate 64 '0'))

/-- The ranges and the status that the first entry is measured with. -/
def measureOf (graph : Json) : List (Option Json × Option Json) :=
  (listOf graph "coverage").map fun covered =>
    (field (field (some covered) "modelInput") "suppliedByteRanges",
      field (field (some covered) "modelInput") "status")

theorem tasks_reordered : Reordered tasks tasks' := by
  refine ⟨[taskOf "supplement" [rangeOf "notes" 5 6],
    taskOf "child-1" [rangeOf "notes" 0 2, rangeOf "mail" 0 9, rangeOf "notes" 2 4],
    taskOf "review" [rangeOf "notes" 4 6]], ?_, .cons ⟨rfl, Or.inl rfl⟩ (.cons ⟨rfl, Or.inr ?_⟩
      (.cons ⟨rfl, Or.inl rfl⟩ .nil))⟩
  · exact @List.perm_append_comm _ (tasks.take 2) _
  · exact ⟨_, _, rfl, rfl,
      @List.perm_append_comm _ [rangeOf "notes" 0 2, rangeOf "mail" 0 9] _⟩

theorem notes_are_partly_supplied :
    ∃ graph graph', buildBusinessGraph runDigest (fun _ => false) (notesInput tasks) = .ok graph ∧
      buildBusinessGraph runDigest (fun _ => false) (notesInput tasks') = .ok graph' ∧
      measureOf graph = [(some (.arr [rangeJson (0, 4), rangeJson (5, 6)]),
        some (.str "PARTIALLY_SUPPLIED"))] ∧
      (∀ e ∈ (listOf (notesInput tasks) "inventory").zip (listOf graph "coverage"),
        ∀ e' ∈ (listOf (notesInput tasks') "inventory").zip (listOf graph' "coverage"),
          SameMeasure e.2 e'.2) := by
  have hmeasure : ((buildBusinessGraph runDigest (fun _ => false)
      (notesInput tasks)).toOption.map measureOf) =
        some [(some (.arr [rangeJson (0, 4), rangeJson (5, 6)]),
          some (.str "PARTIALLY_SUPPLIED"))] := by
    decide +kernel
  have hother : ((buildBusinessGraph runDigest (fun _ => false)
      (notesInput tasks')).toOption.isSome) = true := by
    decide +kernel
  cases hbuild : buildBusinessGraph runDigest (fun _ => false) (notesInput tasks) with
  | error e =>
    rw [hbuild] at hmeasure
    cases hmeasure
  | ok graph =>
    cases hbuild' : buildBusinessGraph runDigest (fun _ => false) (notesInput tasks') with
    | error e =>
      rw [hbuild'] at hother
      cases hother
    | ok graph' =>
      rw [hbuild] at hmeasure
      refine ⟨graph, graph', rfl, rfl, Option.some.inj hmeasure, fun e he e' he' => ?_⟩
      have horder : Reordered (listOf (notesInput tasks) "process")
          (listOf (notesInput tasks') "process") := tasks_reordered
      refine (transport_coverage hbuild).2 _ graph' hbuild' horder _ List.mem_cons_self
        List.mem_cons_self e he e' he' ?_ ?_
      · rw [List.mem_singleton.mp (List.of_mem_zip he).1]
        rfl
      · rw [List.mem_singleton.mp (List.of_mem_zip he').1]
        rfl

end Traqen.TransportCoverage
