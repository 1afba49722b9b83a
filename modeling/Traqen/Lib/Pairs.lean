-- The pairs of a list, each item with every one behind it: the two loops
-- `for left … for right = left + 1 …`.
import Mathlib.Data.List.Basic
import Mathlib.Data.List.Permutation

namespace Js

variable {α : Type*}

def pairs : List α → List (α × α)
  | [] => []
  | x :: xs => xs.map (fun y => (x, y)) ++ pairs xs

theorem mem_pairs {items : List α} {x y : α} : (x, y) ∈ pairs items ↔ [x, y].Sublist items := by
  induction items with
  | nil => simp [pairs]
  | cons z zs ih =>
    unfold pairs
    rw [List.mem_append, List.mem_map, ih]
    constructor
    · rintro (⟨w, hw, heq⟩ | h)
      · cases heq
        exact List.Sublist.cons_cons x (List.singleton_sublist.mpr hw)
      · exact h.cons z
    · intro h
      cases h with
      | cons _ h => exact Or.inr h
      | cons_cons _ h => exact Or.inl ⟨y, List.singleton_sublist.mp h, rfl⟩

theorem pairs_mem {items : List α} {x y : α} (h : (x, y) ∈ pairs items) : x ∈ items ∧ y ∈ items := by
  have hsub := (mem_pairs.mp h).subset
  exact ⟨hsub (by simp), hsub (by simp)⟩

/-- Two different items make a pair, in one order or the other. -/
theorem pair_of_ne {items : List α} {x y : α} (hx : x ∈ items) (hy : y ∈ items) (hne : x ≠ y) :
    (x, y) ∈ pairs items ∨ (y, x) ∈ pairs items := by
  induction items with
  | nil => cases hx
  | cons z zs ih =>
    unfold pairs
    simp only [List.mem_append, List.mem_map]
    rcases List.mem_cons.mp hx with rfl | hx'
    · rcases List.mem_cons.mp hy with rfl | hy'
      · exact absurd rfl hne
      · exact Or.inl (Or.inl ⟨y, hy', rfl⟩)
    · rcases List.mem_cons.mp hy with rfl | hy'
      · exact Or.inr (Or.inl ⟨x, hx', rfl⟩)
      · rcases ih hx' hy' with h | h
        · exact Or.inl (Or.inr h)
        · exact Or.inr (Or.inr h)

/-- Another order of the items has the same pairs, up to the order inside a pair. -/
theorem pairs_of_perm {items items' : List α} (h : items.Perm items') {x y : α}
    (hmem : (x, y) ∈ pairs items) : (x, y) ∈ pairs items' ∨ (y, x) ∈ pairs items' := by
  obtain ⟨two, hperm, hsub⟩ := (mem_pairs.mp hmem).subperm.trans h.subperm
  rcases List.perm_pair.mp hperm with rfl | rfl
  · exact Or.inl (mem_pairs.mpr hsub)
  · exact Or.inr (mem_pairs.mpr hsub)

/-- What a function keeps apart is permuted if its values are. -/
theorem perm_of_map {β : Type*} {f : α → β} {xs ys : List α}
    (hinj : ∀ x ∈ xs, ∀ y ∈ ys, f x = f y → x = y) (h : (xs.map f).Perm (ys.map f)) :
    xs.Perm ys := by
  induction xs generalizing ys with
  | nil =>
    rw [List.map_nil, List.nil_perm, List.map_eq_nil_iff] at h
    rw [h]
  | cons x xs ih =>
    have hmem : f x ∈ ys.map f := h.mem_iff.mp (by simp)
    obtain ⟨y, hy, heq⟩ := List.mem_map.mp hmem
    have hxy : x = y := hinj x (by simp) y hy heq.symm
    subst hxy
    obtain ⟨front, back, rfl⟩ := List.append_of_mem hy
    have hrest : (xs.map f).Perm ((front ++ back).map f) := by
      rw [List.map_append, List.map_cons] at h
      rw [List.map_append]
      exact (h.trans List.perm_middle).cons_inv
    have hinj' : ∀ a ∈ xs, ∀ b ∈ front ++ back, f a = f b → a = b := by
      intro a ha b hb
      refine hinj a (List.mem_cons_of_mem x ha) b ?_
      rcases List.mem_append.mp hb with hb | hb
      · exact List.mem_append_left _ hb
      · exact List.mem_append_right _ (List.mem_cons_of_mem x hb)
    exact ((ih hinj' hrest).cons x).trans List.perm_middle.symm

end Js
