-- An array of records beside what is kept of it: the set of its keys, an index, a tally. An append
-- brings them on, a truncation takes back what the records behind the cut had brought.
import Mathlib.Data.List.Nodup
import Traqen.Lib.OrderedMap

open Js

namespace Ledger

open OrderedMap (get? get?_of_set)

variable {α κ : Type} [DecidableEq κ]

/-! ## Keys -/

/-- No key stands twice, and the keys that were seen are those of the array. -/
structure Seen (key : α → κ) (items : List α) (seen : List κ) : Prop where
  once : (items.map key).Nodup
  mem : ∀ k, k ∈ seen ↔ k ∈ items.map key

omit [DecidableEq κ] in
theorem seen_nil (key : α → κ) : Seen key [] [] := ⟨List.nodup_nil, fun _ => Iff.rfl⟩

variable {key : α → κ} {items : List α}

omit [DecidableEq κ] in
theorem nodup_append_key {x : α} (h : (items.map key).Nodup)
    (hx : key x ∉ items.map key) : ((items ++ [x]).map key).Nodup := by
  rw [List.map_append, List.map_singleton, List.nodup_append]
  refine ⟨h, List.nodup_singleton _, ?_⟩
  rintro k hk j hj rfl
  rw [List.mem_singleton] at hj
  exact hx (hj ▸ hk)

variable {seen : List κ}

omit [DecidableEq κ] in
theorem Seen.append (h : Seen key items seen) {x : α}
    (hx : key x ∉ seen) : Seen key (items ++ [x]) (seen ++ [key x]) := by
  refine ⟨nodup_append_key h.once fun hmem => hx ((h.mem _).mpr hmem), fun k => ?_⟩
  rw [List.map_append, List.mem_append, List.mem_append, h.mem, List.map_singleton]

/-- A key that is there stands once. -/
theorem length_of_once (h : (items.map key).Nodup) {k : κ}
    (hk : k ∈ items.map key) : (items.filter fun x => key x = k).length = 1 := by
  have hcount := List.count_eq_one_of_mem h hk
  rw [List.count, List.countP_map, List.countP_eq_length_filter] at hcount
  rw [← hcount]
  congr 1

theorem Seen.length_append (h : Seen key items seen)
    {k : κ} (hk : k ∉ seen) {x : α} (hx : key x = k) :
    ((items ++ [x]).filter fun y => key y = k).length = 1 :=
  length_of_once (h.append (hx ▸ hk)).once (List.mem_map.mpr ⟨x, by simp, hx⟩)

theorem Seen.length_seen (h : Seen key items seen)
    {k : κ} (hk : k ∈ seen) : (items.filter fun y => key y = k).length = 1 :=
  length_of_once h.once ((h.mem k).mp hk)

omit [DecidableEq κ] in
/-- A key is before the cut exactly when it is there and not behind the cut. -/
theorem mem_take_iff {ks : List κ} (h : ks.Nodup) (n : Nat) (k : κ) :
    k ∈ ks.take n ↔ k ∈ ks ∧ k ∉ ks.drop n := by
  have hsplit := h
  rw [← List.take_append_drop n ks] at hsplit
  constructor
  · intro hk
    exact ⟨List.mem_of_mem_take hk, fun hdrop => (List.nodup_append.mp hsplit).2.2 k hk k hdrop rfl⟩
  · rintro ⟨hk, hdrop⟩
    rw [← List.take_append_drop n ks] at hk
    exact (List.mem_append.mp hk).resolve_right hdrop

theorem Seen.take (h : Seen key items seen)
    (n : Nat) : Seen key (items.take n) (seen.filter fun k => k ∉ (items.drop n).map key) := by
  refine ⟨?_, fun k => ?_⟩
  · rw [List.map_take]
    exact h.once.sublist (List.take_sublist n _)
  · rw [List.mem_filter, decide_eq_true_eq, h.mem, List.map_take, List.map_drop,
      mem_take_iff h.once]

/-! ## Indexes -/

/-- No key stands twice, and the index gives the record of a key. -/
structure Indexed (key : α → κ) (items : List α) (index : List (κ × α)) : Prop where
  once : (items.map key).Nodup
  get : ∀ k, get? index k = items.find? fun x => key x = k

theorem indexed_nil (key : α → κ) : Indexed key ([] : List α) [] :=
  ⟨List.nodup_nil, fun _ => rfl⟩

variable {index : List (κ × α)}

theorem Indexed.append (h : Indexed key items index) {x : α} (hx : get? index (key x) = none) :
    Indexed key (items ++ [x]) (OrderedMap.set index (key x) x) := by
  have hnone := hx
  rw [h.get, List.find?_eq_none] at hnone
  refine ⟨nodup_append_key h.once ?_, fun k => ?_⟩
  · rw [List.mem_map]
    rintro ⟨y, hy, hkey⟩
    exact hnone y hy (by simpa using hkey)
  · rw [get?_of_set, List.find?_append, h.get]
    by_cases hk : k = key x
    · subst hk
      rw [if_pos rfl, List.find?_eq_none.mpr hnone]
      simp
    · rw [if_neg hk]
      cases items.find? fun y => key y = k with
      | none => simp [Ne.symm hk]
      | some y => rfl

theorem Indexed.mem (h : Indexed key items index) {k : κ} (hk : (get? index k).isSome = true) :
    k ∈ items.map key := by
  rw [h.get, List.find?_isSome] at hk
  obtain ⟨x, hx, hkey⟩ := hk
  exact List.mem_map.mpr ⟨x, hx, by simpa using hkey⟩

theorem get?_of_deletes {ν : Type} (index : List (κ × ν)) (ks : List κ) (k : κ) :
    get? (ks.foldl OrderedMap.delete index) k =
      if k ∈ ks then none else get? index k := by
  induction ks generalizing index with
  | nil => simp
  | cons j ks ih =>
    rw [List.foldl_cons, ih, OrderedMap.get?_of_delete]
    by_cases hk : k ∈ ks
    · simp [hk]
    · by_cases hkj : k = j
      · simp [hkj]
      · simp [hk, hkj]

theorem Indexed.take (h : Indexed key items index) (n : Nat) : Indexed key (items.take n)
      (((items.drop n).reverse.map key).foldl OrderedMap.delete index) := by
  refine ⟨?_, fun k => ?_⟩
  · rw [List.map_take]
    exact h.once.sublist (List.take_sublist n _)
  · rw [get?_of_deletes, h.get]
    have hmem : k ∈ (items.drop n).reverse.map key ↔ k ∈ (items.drop n).map key := by simp
    by_cases hk : k ∈ (items.drop n).map key
    · rw [if_pos (hmem.mpr hk), eq_comm, List.find?_eq_none]
      intro x hx heq
      have hbefore : k ∈ (items.map key).take n := by
        rw [← List.map_take]
        exact List.mem_map.mpr ⟨x, hx, by simpa using heq⟩
      rw [List.map_drop] at hk
      exact ((mem_take_iff h.once n k).mp hbefore).2 hk
    · rw [if_neg fun h => hk (hmem.mp h)]
      have hbehind : (items.drop n).find? (fun x => key x = k) = none := by
        rw [List.find?_eq_none]
        exact fun x hx heq => hk (List.mem_map.mpr ⟨x, hx, by simpa using heq⟩)
      conv_lhs => rw [← List.take_append_drop n items]
      rw [List.find?_append, hbehind, Option.or_none]

/-! ## Tallies -/

/-- One more of the key, or `n` more. -/
def tally (counts : List (κ × Int)) (k : κ) (n : Int) : List (κ × Int) :=
  OrderedMap.set counts k ((get? counts k).getD 0 + n)

def countOf (counts : List (κ × Int)) (k : κ) : Int := (get? counts k).getD 0

/-- The tally counts the records of each key. -/
def Tallied (key : α → κ) (items : List α) (counts : List (κ × Int)) : Prop :=
  ∀ k, countOf counts k = (items.filter fun x => key x = k).length

theorem countOf_tally (counts : List (κ × Int)) (k j : κ) (n : Int) :
    countOf (tally counts k n) j = countOf counts j + if j = k then n else 0 := by
  unfold countOf tally
  rw [get?_of_set]
  by_cases hj : j = k
  · rw [if_pos hj, if_pos hj, hj]
    rfl
  · rw [if_neg hj, if_neg hj, Int.add_zero]

variable {counts : List (κ × Int)}

theorem Tallied.append (h : Tallied key items counts) (x : α) :
    Tallied key (items ++ [x]) (tally counts (key x) 1) := by
  intro k
  rw [countOf_tally, h k, List.filter_append, List.length_append]
  by_cases hk : k = key x
  · simp [hk]
  · simp [hk, Ne.symm hk]

/-- Nothing is counted of a key that no record has. -/
theorem Tallied.zero_iff
    (h : Tallied key items counts) (k : κ) : countOf counts k = 0 ↔ k ∉ items.map key := by
  rw [h k, Int.natCast_eq_zero, List.length_eq_zero_iff, List.filter_eq_nil_iff, List.mem_map]
  constructor
  · rintro hnone ⟨x, hx, rfl⟩
    exact hnone x hx (by simp)
  · intro hnone x hx hkey
    exact hnone ⟨x, hx, by simpa using hkey⟩

theorem countOf_untallied (key : α → κ) (items : List α) (counts : List (κ × Int)) (k : κ) :
    countOf (items.foldl (fun counts x => tally counts (key x) (-1)) counts) k =
      countOf counts k - (items.filter fun x => key x = k).length := by
  induction items generalizing counts with
  | nil => simp
  | cons x items ih =>
    rw [List.foldl_cons, ih, countOf_tally]
    by_cases hk : k = key x
    · simp [hk]
      omega
    · simp [hk, Ne.symm hk]

theorem Tallied.take (h : Tallied key items counts) (n : Nat) : Tallied key (items.take n)
      ((items.drop n).foldl (fun counts x => tally counts (key x) (-1)) counts) := by
  intro k
  rw [countOf_untallied, h k]
  have hsplit : (items.filter fun x => key x = k).length =
      ((items.take n).filter fun x => key x = k).length +
        ((items.drop n).filter fun x => key x = k).length := by
    rw [← List.length_append, ← List.filter_append, List.take_append_drop]
  omega

end Ledger
