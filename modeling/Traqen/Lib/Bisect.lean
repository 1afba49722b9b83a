-- Binary search: in an ascending list, the last place whose key is not above a bound.
import Mathlib.Data.List.Basic
import Mathlib.Data.List.GetD

namespace Bisect

/-- The place between `low`, whose key is within the bound, and `high`, which is beyond. -/
def search (keys : List Nat) (bound low high : Nat) : Nat :=
  if low + 1 < high then
    let middle := (low + high) / 2
    if keys.getD middle 0 ≤ bound then search keys bound middle high
    else search keys bound low middle
  else low
termination_by high - low
decreasing_by all_goals omega

variable {keys : List Nat} {bound low high : Nat}

/-- The place is within the bound, and the next one is beyond it or is the end. -/
theorem search_spec (hlow : keys.getD low 0 ≤ bound) (hle : low < high)
    (hhigh : high = keys.length ∨ bound < keys.getD high 0) :
    keys.getD (search keys bound low high) 0 ≤ bound ∧ low ≤ search keys bound low high ∧
      search keys bound low high < high ∧
      (search keys bound low high + 1 = keys.length ∨
        bound < keys.getD (search keys bound low high + 1) 0) := by
  fun_induction search keys bound low high with
  | case1 low high hgap middle hwithin ih =>
    obtain ⟨hkey, hmiddle, hlt, hnext⟩ := ih hwithin (by omega) hhigh
    exact ⟨hkey, by omega, hlt, hnext⟩
  | case2 low high hgap middle hbeyond ih =>
    obtain ⟨hkey, hmiddle, hlt, hnext⟩ := ih hlow (by omega) (Or.inr (by omega))
    exact ⟨hkey, hmiddle, by omega, hnext⟩
  | case3 low high hgap =>
    have hnext : low + 1 = high := by omega
    exact ⟨hlow, Nat.le_refl _, hle, hnext ▸ hhigh⟩

/-- In an ascending list, what is within the bound stands up to the place. -/
theorem filter_search (hsorted : keys.Pairwise (· < ·)) (hfirst : keys.getD 0 0 ≤ bound)
    (hne : keys ≠ []) :
    keys.filter (· ≤ bound) = keys.take (search keys bound 0 keys.length + 1) := by
  have hpos := List.length_pos_of_ne_nil hne
  obtain ⟨hkey, -, hlt, hnext⟩ := @search_spec keys bound 0 _ hfirst hpos (Or.inl rfl)
  generalize search keys bound 0 keys.length = place at *
  conv_lhs => rw [← List.take_append_drop (place + 1) keys]
  rw [List.filter_append]
  have hget : ∀ i j (hi : i < keys.length) (hj : j < keys.length), i ≤ j → keys[i] ≤ keys[j] := by
    intro i j hi hj hij
    rcases Nat.eq_or_lt_of_le hij with rfl | hij
    · exact Nat.le_refl _
    · exact Nat.le_of_lt (List.pairwise_iff_getElem.mp hsorted i j hi hj hij)
  have hbefore : (keys.take (place + 1)).filter (· ≤ bound) = keys.take (place + 1) := by
    rw [List.filter_eq_self]
    intro k hk
    obtain ⟨i, hi, rfl⟩ := List.mem_iff_getElem.mp hk
    rw [List.length_take] at hi
    rw [List.getD_eq_getElem _ _ hlt] at hkey
    have hle := hget i place (by omega) hlt (by omega)
    rw [List.getElem_take]
    exact decide_eq_true (Nat.le_trans hle hkey)
  have hbehind : (keys.drop (place + 1)).filter (· ≤ bound) = [] := by
    rw [List.filter_eq_nil_iff]
    intro k hk hwithin
    obtain ⟨i, hi, rfl⟩ := List.mem_iff_getElem.mp hk
    rw [List.length_drop] at hi
    rw [List.getElem_drop, decide_eq_true_eq] at hwithin
    rcases hnext with hend | hbeyond
    · omega
    · rw [List.getD_eq_getElem _ _ (by omega)] at hbeyond
      have hle := hget (place + 1) (place + 1 + i) (by omega) (by omega) (by omega)
      omega
  rw [hbefore, hbehind, List.append_nil]

end Bisect
