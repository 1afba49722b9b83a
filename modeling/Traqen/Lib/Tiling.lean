-- Pieces that tile a line: each begins where the one before it ends. A list that tiles is in the order
-- of its offsets, a piece that is put at its end keeps it so, and what is after a place where a piece
-- ends is told by the offsets.
import Mathlib

namespace Tiling

variable {α : Type*} (offset size : α → Nat)

/-- From the place on, each piece begins where the one before it ends, and none is empty. -/
def Tiles : Nat → List α → Prop
  | _, [] => True
  | place, x :: xs => offset x = place ∧ 0 < size x ∧ Tiles (place + size x) xs

/-- What the pieces cover. -/
def total (xs : List α) : Nat := (xs.map size).sum

variable {offset size} {place : Nat} {xs ys : List α} {x : α}

@[simp] theorem total_nil : total size [] = 0 := rfl

@[simp] theorem total_cons : total size (x :: xs) = size x + total size xs := by
  simp [total]

@[simp] theorem total_append : total size (xs ++ ys) = total size xs + total size ys := by
  simp [total]

theorem tiles_append : Tiles offset size place (xs ++ ys) ↔
    Tiles offset size place xs ∧ Tiles offset size (place + total size xs) ys := by
  induction xs generalizing place with
  | nil => simp [Tiles]
  | cons x xs ih =>
    rw [List.cons_append, Tiles, Tiles, ih, total_cons, Nat.add_assoc]
    simp only [and_assoc]

variable (h : Tiles offset size place xs)
include h

/-- A piece at the end of what is covered. -/
theorem tiles_concat (hoffset : offset x = place + total size xs)
    (hsize : 0 < size x) : Tiles offset size place (xs ++ [x]) :=
  tiles_append.mpr ⟨h, hoffset, hsize, trivial⟩

theorem le_offset : ∀ x ∈ xs, place ≤ offset x := by
  induction xs generalizing place with
  | nil => exact fun _ hx => by cases hx
  | cons y ys ih =>
    obtain ⟨hy, -, hys⟩ := h
    intro x hx
    rcases List.mem_cons.mp hx with rfl | hx
    · exact hy.ge
    · have hle := ih hys x hx
      omega

/-- A piece ends within what is covered. -/
theorem end_le : ∀ x ∈ xs, offset x + size x ≤ place + total size xs := by
  induction xs generalizing place with
  | nil => exact fun _ hx => by cases hx
  | cons y ys ih =>
    obtain ⟨hy, -, hys⟩ := h
    intro x hx
    rw [total_cons]
    rcases List.mem_cons.mp hx with rfl | hx
    · omega
    · have hle := ih hys x hx
      omega

/-- The last piece ends where the cover ends. -/
theorem exists_last (hne : xs ≠ []) : ∃ x ∈ xs, offset x + size x = place + total size xs := by
  refine ⟨xs.getLast hne, List.getLast_mem hne, ?_⟩
  rw [← List.dropLast_append_getLast hne] at h
  obtain ⟨-, hlast, -⟩ := tiles_append.mp h
  rw [hlast]
  conv_rhs => rw [← List.dropLast_append_getLast hne]
  rw [total_append, total_cons, total_nil]
  omega

/-- Pieces that tile are in the order of their offsets, and no two have one offset. -/
theorem tiles_sorted : xs.Pairwise fun x y => offset x < offset y := by
  induction xs generalizing place with
  | nil => exact List.Pairwise.nil
  | cons y ys ih =>
    obtain ⟨hy, hsize, hys⟩ := h
    refine List.Pairwise.cons ?_ (ih hys)
    intro x hx
    have hle := le_offset hys x hx
    omega

theorem tiles_take (n : Nat) : Tiles offset size place (xs.take n) := by
  rw [← List.take_append_drop n xs] at h
  exact (tiles_append.mp h).1

omit h

/-- The pieces after a place are those whose offsets are not less than it. -/
theorem filter_from (h : Tiles offset size place (xs ++ ys)) :
    ((xs ++ ys).filter fun x => place + total size xs ≤ offset x) = ys := by
  obtain ⟨hfront, hback⟩ := tiles_append.mp h
  have hnone : (xs.filter fun x => place + total size xs ≤ offset x) = [] := by
    rw [List.filter_eq_nil_iff]
    intro x hx
    have hle := end_le hfront x hx
    have hsize : 0 < size x := by
      obtain ⟨before, after, rfl⟩ := List.append_of_mem hx
      exact (tiles_append.mp hfront).2.2.1
    simp only [decide_eq_true_eq]
    omega
  have hall : (ys.filter fun x => place + total size xs ≤ offset x) = ys := by
    rw [List.filter_eq_self]
    intro x hx
    simpa using le_offset hback x hx
  rw [List.filter_append, hnone, hall, List.nil_append]

end Tiling
