-- Intervals that are merged where they touch. Points are counted on a scale: on the scale of one an
-- interval is the integers from its start to its stop, on the scale of two the even points are the
-- positions and the odd ones what lies between two positions.
import Mathlib.Data.List.Sort
import Mathlib.Tactic.Ring

namespace Intervals

/-- An interval with its ends. -/
abbrev Span := Nat × Nat

/-- The point lies in the interval. -/
def Covers (scale : Nat) (a : Span) (point : Nat) : Prop :=
  scale * a.1 ≤ point ∧ point ≤ scale * a.2

/-- The point lies in one of them. -/
def Covered (scale : Nat) (spans : List Span) (point : Nat) : Prop :=
  ∃ a ∈ spans, Covers scale a point

/-- A start is near the stop before it. -/
def Near (scale : Nat) (near : Nat → Nat → Prop) : Prop :=
  ∀ start stop, near start stop ↔ scale * start ≤ scale * stop + 1

section Merge

variable (near : Nat → Nat → Prop) [DecidableRel near]

/-- The last interval so far, and those that follow. -/
def mergeFrom : Span → List Span → List Span
  | last, [] => [last]
  | last, a :: spans =>
    if near a.1 last.2 then mergeFrom (last.1, max last.2 a.2) spans
    else last :: mergeFrom a spans

def merge : List Span → List Span
  | [] => []
  | a :: spans => mergeFrom near a spans

/-- The intervals in the order of their starts. -/
def sorted (spans : List Span) : List Span := spans.insertionSort fun a b => a.1 ≤ b.1

end Merge

/-- In order, with a gap before each next one. -/
structure Separated (scale : Nat) (spans : List Span) : Prop where
  proper : ∀ a ∈ spans, a.1 ≤ a.2
  apart : spans.Pairwise fun a b => scale * a.2 + 1 < scale * b.1

def Ordered (spans : List Span) : Prop := spans.Pairwise fun a b => a.1 ≤ b.1

theorem ordered_sorted (spans : List Span) : Ordered (sorted spans) := by
  have : IsTrans Span fun a b => a.1 ≤ b.1 := ⟨fun _ _ _ hab hbc => Nat.le_trans hab hbc⟩
  have : Std.Total fun a b : Span => a.1 ≤ b.1 := ⟨fun a b => Nat.le_total a.1 b.1⟩
  exact List.pairwise_insertionSort _ spans

theorem sorted_perm (spans : List Span) : (sorted spans).Perm spans := List.perm_insertionSort _ _

theorem mem_sorted {spans : List Span} {a : Span} : a ∈ sorted spans ↔ a ∈ spans :=
  (sorted_perm spans).mem_iff

theorem covered_congr {scale : Nat} {spans spans' : List Span} (h : ∀ a, a ∈ spans ↔ a ∈ spans')
    (point : Nat) : Covered scale spans point ↔ Covered scale spans' point := by
  unfold Covered
  simp only [h]

section Laws

variable {scale : Nat} {near : Nat → Nat → Prop} [DecidableRel near] {spans : List Span}
  {last : Span}

/-- What is merged starts with the first and covers what the intervals do. -/
theorem mergeFrom_head (last : Span) (spans : List Span) :
    ∃ stop rest, mergeFrom near last spans = (last.1, stop) :: rest ∧ last.2 ≤ stop := by
  induction spans generalizing last with
  | nil => exact ⟨last.2, [], rfl, Nat.le_refl _⟩
  | cons a spans ih =>
    unfold mergeFrom
    split
    · obtain ⟨stop, rest, heq, hle⟩ := ih (last.1, max last.2 a.2)
      exact ⟨stop, rest, heq, (Nat.le_max_left _ _).trans hle⟩
    · exact ⟨last.2, _, rfl, Nat.le_refl _⟩

attribute [local simp] mergeFrom

theorem covered_mergeFrom (hnear : Near scale near) (hlast : last.1 ≤ last.2)
    (hproper : ∀ a ∈ spans, a.1 ≤ a.2) (hordered : Ordered (last :: spans)) (point : Nat) :
    Covered scale (mergeFrom near last spans) point ↔
      Covers scale last point ∨ Covered scale spans point := by
  induction spans generalizing last with
  | nil => simp [mergeFrom, Covered]
  | cons a spans ih =>
    obtain ⟨hfirst, htail⟩ := List.pairwise_cons.mp hordered
    obtain ⟨hnext, hrest⟩ := List.pairwise_cons.mp htail
    have hle : last.1 ≤ a.1 := hfirst a List.mem_cons_self
    have ha : a.1 ≤ a.2 := hproper a List.mem_cons_self
    have hcons : Covered scale (a :: spans) point ↔
        Covers scale a point ∨ Covered scale spans point := by
      simp [Covered]
    rw [hcons]
    unfold mergeFrom
    split
    · next htouch =>
      have hordered' : Ordered ((last.1, max last.2 a.2) :: spans) :=
        List.pairwise_cons.mpr ⟨fun b hb => hfirst b (List.mem_cons_of_mem a hb), hrest⟩
      have hlast' : last.1 ≤ max last.2 a.2 := hlast.trans (Nat.le_max_left _ _)
      rw [@ih (last.1, max last.2 a.2) hlast' (fun b hb => hproper b (List.mem_cons_of_mem a hb))
        hordered', ← or_assoc]
      refine or_congr_left ?_
      -- nothing lies between an interval and one that is near it
      have hgap := (hnear a.1 last.2).mp htouch
      have hstarts : scale * last.1 ≤ scale * a.1 := Nat.mul_le_mul_left scale hle
      have hmax : scale * max last.2 a.2 = max (scale * last.2) (scale * a.2) :=
        Nat.mul_max_mul_left scale last.2 a.2 |>.symm
      unfold Covers
      dsimp only
      rw [hmax]
      omega
    · rw [show Covered scale (last :: mergeFrom near a spans) point ↔ Covers scale last point ∨
          Covered scale (mergeFrom near a spans) point from by simp [Covered],
        ih ha (fun b hb => hproper b (List.mem_cons_of_mem a hb)) htail]

theorem separated_mergeFrom (hnear : Near scale near) (hlast : last.1 ≤ last.2)
    (hproper : ∀ a ∈ spans, a.1 ≤ a.2) (hordered : Ordered (last :: spans)) :
    Separated scale (mergeFrom near last spans) ∧
      ∀ b ∈ mergeFrom near last spans, last.1 ≤ b.1 := by
  induction spans generalizing last with
  | nil =>
    refine ⟨⟨?_, List.pairwise_singleton _ _⟩, ?_⟩
    · simpa [mergeFrom] using hlast
    · simp [mergeFrom]
  | cons a spans ih =>
    obtain ⟨hfirst, htail⟩ := List.pairwise_cons.mp hordered
    obtain ⟨hnext, hrest⟩ := List.pairwise_cons.mp htail
    have hproper' : ∀ b ∈ spans, b.1 ≤ b.2 := fun b hb => hproper b (List.mem_cons_of_mem a hb)
    unfold mergeFrom
    split
    · have hordered' : Ordered ((last.1, max last.2 a.2) :: spans) :=
        List.pairwise_cons.mpr ⟨fun b hb => hfirst b (List.mem_cons_of_mem a hb), hrest⟩
      exact ih (hlast.trans (Nat.le_max_left _ _)) hproper' hordered'
    · next hfar =>
      obtain ⟨⟨hall, hapart⟩, hstarts⟩ := ih (hproper a List.mem_cons_self) hproper' htail
      have hle : last.1 ≤ a.1 := hfirst a List.mem_cons_self
      have hgap : scale * last.2 + 1 < scale * a.1 := by
        rw [hnear] at hfar
        omega
      refine ⟨⟨?_, List.pairwise_cons.mpr ⟨fun b hb => ?_, hapart⟩⟩, ?_⟩
      · intro b hb
        rcases List.mem_cons.mp hb with rfl | hb
        · exact hlast
        · exact hall b hb
      · exact hgap.trans_le (Nat.mul_le_mul_left scale (hstarts b hb))
      · intro b hb
        rcases List.mem_cons.mp hb with rfl | hb
        · exact Nat.le_refl _
        · exact hle.trans (hstarts b hb)

theorem covered_merge (hnear : Near scale near) (hproper : ∀ a ∈ spans, a.1 ≤ a.2)
    (hordered : Ordered spans) (point : Nat) :
    Covered scale (merge near spans) point ↔ Covered scale spans point := by
  cases spans with
  | nil => exact Iff.rfl
  | cons a spans =>
    have hcons : Covered scale (a :: spans) point ↔
        Covers scale a point ∨ Covered scale spans point := by
      simp [Covered]
    rw [merge, hcons]
    exact covered_mergeFrom hnear (hproper a List.mem_cons_self)
      (fun b hb => hproper b (List.mem_cons_of_mem a hb)) hordered point

theorem separated_merge (hnear : Near scale near) (hproper : ∀ a ∈ spans, a.1 ≤ a.2)
    (hordered : Ordered spans) : Separated scale (merge near spans) := by
  cases spans with
  | nil => exact ⟨nofun, List.Pairwise.nil⟩
  | cons a spans =>
    exact (separated_mergeFrom hnear (hproper a List.mem_cons_self)
      (fun b hb => hproper b (List.mem_cons_of_mem a hb)) hordered).1

theorem Separated.either {b c : Span} (h : Separated scale spans) (hb : b ∈ spans) (hc : c ∈ spans)
    (hne : b ≠ c) : scale * b.2 + 1 < scale * c.1 ∨ scale * c.2 + 1 < scale * b.1 := by
  obtain ⟨-, hapart⟩ := h
  induction spans with
  | nil => cases hb
  | cons a spans ih =>
    obtain ⟨hfirst, hrest⟩ := List.pairwise_cons.mp hapart
    rcases List.mem_cons.mp hb with heq | hb'
    · rcases List.mem_cons.mp hc with heq' | hc'
      · exact absurd (heq.trans heq'.symm) hne
      · exact Or.inl (heq ▸ hfirst c hc')
    · rcases List.mem_cons.mp hc with heq' | hc'
      · exact Or.inr (heq' ▸ hfirst b hb')
      · exact ih hb' hc' hrest

/-- Where the whole of an interval is covered, separated intervals have one that holds it. -/
theorem Separated.holds {a : Span} (h : Separated scale spans) (hscale : 0 < scale)
    (hproper : a.1 ≤ a.2) (hcovered : ∀ point, Covers scale a point → Covered scale spans point) :
    ∃ b ∈ spans, b.1 ≤ a.1 ∧ a.2 ≤ b.2 := by
  obtain ⟨b, hb, hlow, hhigh⟩ := hcovered (scale * a.1)
    ⟨Nat.le_refl _, Nat.mul_le_mul_left scale hproper⟩
  refine ⟨b, hb, Nat.le_of_mul_le_mul_left hlow hscale, ?_⟩
  by_contra hless
  have hshort : scale * b.2 < scale * a.2 := Nat.mul_lt_mul_of_pos_left (Nat.not_le.mp hless) hscale
  -- the point behind the interval is covered by no other one
  obtain ⟨c, hc, hclow, hchigh⟩ := hcovered (scale * b.2 + 1) ⟨by omega, by omega⟩
  have hne : b ≠ c := by
    rintro rfl
    omega
  rcases h.either hb hc hne with hbc | hcb
  · omega
  · have hproperB : scale * b.1 ≤ scale * b.2 := Nat.mul_le_mul_left scale (h.proper b hb)
    omega

/-- Separated intervals are told by what they cover. -/
theorem Separated.ext {spans' : List Span} (h : Separated scale spans)
    (h' : Separated scale spans') (hscale : 0 < scale)
    (hcovered : ∀ point, Covered scale spans point ↔ Covered scale spans' point) :
    spans = spans' := by
  have hmem : ∀ {l l' : List Span}, Separated scale l → Separated scale l' →
      (∀ point, Covered scale l point ↔ Covered scale l' point) → ∀ a ∈ l, a ∈ l' := by
    intro l l' hl hl' hcovered a ha
    obtain ⟨b, hb, hlow, hhigh⟩ := hl'.holds hscale (hl.proper a ha)
      fun point hpoint => (hcovered point).mp ⟨a, ha, hpoint⟩
    obtain ⟨c, hc, hclow, hchigh⟩ := hl.holds hscale (hl'.proper b hb)
      fun point hpoint => (hcovered point).mpr ⟨b, hb, hpoint⟩
    have hsame : a = c := by
      by_contra hne
      have ha' := Nat.mul_le_mul_left scale (hl.proper a ha)
      have hlow' := Nat.mul_le_mul_left scale (hclow.trans hlow)
      have hhigh' := Nat.mul_le_mul_left scale (hhigh.trans hchigh)
      rcases hl.either ha hc hne with hac | hca
      · omega
      · omega
    subst hsame
    have heq : b = a := Prod.ext (Nat.le_antisymm hlow hclow) (Nat.le_antisymm hchigh hhigh)
    rwa [heq] at hb
  have hstrict : ∀ {l : List Span}, Separated scale l → l.Pairwise fun a b => a.1 < b.1 := by
    intro l hl
    refine hl.apart.imp_of_mem fun ha hb hab => ?_
    have hproper := Nat.mul_le_mul_left scale (hl.proper _ ha)
    exact lt_of_mul_lt_mul_left (by omega : scale * _ < scale * _) (Nat.zero_le scale)
  have hnodup : ∀ {l : List Span}, Separated scale l → l.Nodup := fun hl =>
    (hstrict hl).imp fun {a b} (hab : a.1 < b.1) heq =>
      absurd hab (by rw [heq]; exact Nat.lt_irrefl _)
  have hperm : spans.Perm spans' := (List.perm_ext_iff_of_nodup (hnodup h) (hnodup h')).mpr
    fun a => ⟨hmem h h' hcovered a, hmem h' h (fun point => (hcovered point).symm) a⟩
  exact hperm.eq_of_pairwise (fun a b _ _ hab hba => absurd (hab.trans hba) (Nat.lt_irrefl _))
    (hstrict h) (hstrict h')

/-! ## Sorted and merged -/

/-- The intervals, merged in order, are separated and cover the same. -/
theorem merge_sorted (hnear : Near scale near) (hproper : ∀ a ∈ spans, a.1 ≤ a.2) :
    Separated scale (merge near (sorted spans)) ∧
      ∀ point, Covered scale (merge near (sorted spans)) point ↔ Covered scale spans point := by
  have hsorted : ∀ a ∈ sorted spans, a.1 ≤ a.2 := fun a ha => hproper a (mem_sorted.mp ha)
  refine ⟨separated_merge hnear hsorted (ordered_sorted spans), fun point => ?_⟩
  rw [covered_merge hnear hsorted (ordered_sorted spans)]
  exact covered_congr (fun a => mem_sorted) point

/-! ## Lengths -/

/-- The sum of the lengths. -/
def size (spans : List Span) : Nat := (spans.map fun a => a.2 - a.1).sum

/-- Between two bounds there is room for the bytes of separated intervals, and they fill it exactly
where they cover every byte. -/
theorem size_le {low high : Nat} (hproper : ∀ a ∈ spans, a.1 ≤ a.2)
    (hapart : spans.Pairwise fun a b => a.2 ≤ b.1) (hlow : ∀ a ∈ spans, low ≤ a.1)
    (hhigh : ∀ a ∈ spans, a.2 ≤ high) (hbounds : low ≤ high) :
    size spans ≤ high - low ∧
      (size spans = high - low ↔
        ∀ byte, low ≤ byte → byte < high → ∃ a ∈ spans, a.1 ≤ byte ∧ byte < a.2) := by
  induction spans generalizing low with
  | nil =>
    refine ⟨Nat.zero_le _, fun h byte hlow hhigh => ?_, fun h => ?_⟩
    · simp only [size, List.map_nil, List.sum_nil] at h
      omega
    · by_contra hne
      obtain ⟨a, ha, -⟩ := h low (Nat.le_refl _) (by simp [size] at hne; omega)
      cases ha
  | cons a spans ih =>
    obtain ⟨hfirst, hrest⟩ := List.pairwise_cons.mp hapart
    have ha := hproper a List.mem_cons_self
    have hstart := hlow a List.mem_cons_self
    have hstop := hhigh a List.mem_cons_self
    obtain ⟨hsize, hfull⟩ := ih (fun b hb => hproper b (List.mem_cons_of_mem a hb)) hrest hfirst
      (fun b hb => hhigh b (List.mem_cons_of_mem a hb)) hstop
    have hcons : size (a :: spans) = (a.2 - a.1) + size spans := by simp [size]
    rw [hcons]
    refine ⟨by omega, fun h byte hbyte hless => ?_, fun h => ?_⟩
    · by_cases hin : byte < a.2
      · exact ⟨a, List.mem_cons_self, by omega, hin⟩
      · obtain ⟨b, hb, hcovers⟩ := hfull.mp (by omega) byte (Nat.not_lt.mp hin) hless
        exact ⟨b, List.mem_cons_of_mem a hb, hcovers⟩
    · have hrestFull : size spans = high - a.2 := by
        refine hfull.mpr fun byte hbyte hless => ?_
        obtain ⟨b, hb, hcovers⟩ := h byte (by omega) hless
        rcases List.mem_cons.mp hb with rfl | hb
        · omega
        · exact ⟨b, hb, hcovers⟩
      have hfromLow : low < high → a.1 = low := by
        intro hless
        obtain ⟨b, hb, hcovers⟩ := h low (Nat.le_refl _) hless
        rcases List.mem_cons.mp hb with rfl | hb
        · omega
        · have hbehind := hfirst b hb
          omega
      omega

end Laws

end Intervals
