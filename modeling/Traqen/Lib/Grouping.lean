-- Items grouped by a key, in a map from each key to its items: the keys stand in the order of
-- their first items, and the items of a group in the order of the list.
import Mathlib.Data.List.Basic
import Traqen.Lib.OrderedMap

namespace Js.Grouping

variable {α κ : Type*} [DecidableEq κ]

/-- `current = m.get(key) ?? []; current.push(item); m.set(key, current)`. -/
def push (key : α → κ) (m : List (κ × List α)) (x : α) : List (κ × List α) :=
  OrderedMap.set m (key x) ((OrderedMap.get? m (key x)).getD [] ++ [x])

def groupsOf (key : α → κ) (items : List α) : List (κ × List α) := items.foldl (push key) []

theorem groupsOf_append (key : α → κ) (items : List α) (x : α) :
    groupsOf key (items ++ [x]) = push key (groupsOf key items) x := by
  unfold groupsOf
  rw [List.foldl_append]
  rfl

/-- The group of a key, or none for no item. -/
theorem get?_groupsOf (key : α → κ) (items : List α) (k : κ) :
    OrderedMap.get? (groupsOf key items) k =
      if items.filter (fun x => key x = k) = [] then none
      else some (items.filter fun x => key x = k) := by
  induction items using List.reverseRecOn with
  | nil => rfl
  | append_singleton items x ih =>
    rw [groupsOf_append, push, OrderedMap.get?_of_set, List.filter_append]
    by_cases hk : k = key x
    · subst hk
      rw [if_pos rfl, ih]
      by_cases hnone : items.filter (fun y => key y = key x) = []
      · simp [hnone]
      · simp [hnone]
    · have hx : ¬ key x = k := fun h => hk h.symm
      rw [if_neg hk, ih]
      simp [hx]

theorem keyed_groupsOf (key : α → κ) (items : List α) : OrderedMap.Keyed (groupsOf key items) := by
  induction items using List.reverseRecOn with
  | nil => exact OrderedMap.keyed_nil
  | append_singleton items x ih =>
    rw [groupsOf_append]
    exact OrderedMap.keyed_set ih _ _

/-- The groups are the items of each key that has one. -/
theorem mem_groupsOf {key : α → κ} {items : List α} {k : κ} {xs : List α} :
    (k, xs) ∈ groupsOf key items ↔ xs = items.filter (fun x => key x = k) ∧ xs ≠ [] := by
  constructor
  · intro h
    have hget := OrderedMap.get?_of_mem (keyed_groupsOf key items) h
    rw [get?_groupsOf] at hget
    split at hget
    · cases hget
    · cases hget
      exact ⟨rfl, by assumption⟩
  · rintro ⟨rfl, hne⟩
    apply OrderedMap.get?_mem
    rw [get?_groupsOf, if_neg hne]

theorem group_of_mem (key : α → κ) {items : List α} {x : α} (hx : x ∈ items) :
    (key x, items.filter fun y => key y = key x) ∈ groupsOf key items :=
  mem_groupsOf.mpr ⟨rfl, List.ne_nil_of_mem (List.mem_filter.mpr ⟨hx, by simp⟩)⟩

/-- Where the first item of the group stands. -/
def rank (key : α → κ) (items : List α) (k : κ) : Nat := (items.map key).idxOf k

theorem key_mem_groupsOf (key : α → κ) (items : List α) (k : κ) :
    (∃ e ∈ groupsOf key items, e.1 = k) ↔ ∃ x ∈ items, key x = k := by
  constructor
  · rintro ⟨e, he, rfl⟩
    obtain ⟨hxs, hne⟩ := mem_groupsOf.mp he
    obtain ⟨x, hx⟩ := List.exists_mem_of_ne_nil _ hne
    rw [hxs, List.mem_filter, decide_eq_true_eq] at hx
    exact ⟨x, hx.1, hx.2⟩
  · rintro ⟨x, hx, rfl⟩
    exact ⟨_, group_of_mem key hx, rfl⟩

/-- The groups stand in the order of their first items. -/
theorem groupsOf_ordered (key : α → κ) (items : List α) :
    (groupsOf key items).Pairwise fun e f => rank key items e.1 < rank key items f.1 := by
  induction items using List.reverseRecOn with
  | nil => exact List.Pairwise.nil
  | append_singleton items x ih =>
    have hold : ∀ e ∈ groupsOf key items, rank key (items ++ [x]) e.1 = rank key items e.1 ∧
        rank key items e.1 < items.length := by
      intro e he
      obtain ⟨y, hy, hk⟩ := (key_mem_groupsOf key items e.1).mp ⟨e, he, rfl⟩
      have hmem : e.1 ∈ items.map key := hk ▸ List.mem_map_of_mem hy
      unfold rank
      rw [List.map_append, List.idxOf_append_of_mem hmem]
      refine ⟨rfl, ?_⟩
      have hlt := List.idxOf_lt_length_of_mem hmem
      rwa [List.length_map] at hlt
    have hkeep : (groupsOf key items).Pairwise fun e f =>
        rank key (items ++ [x]) e.1 < rank key (items ++ [x]) f.1 := by
      refine ih.imp_of_mem ?_
      intro e f he hf hlt
      rwa [(hold e he).1, (hold f hf).1]
    rw [groupsOf_append]
    unfold push OrderedMap.set
    split
    · rw [List.pairwise_map]
      refine hkeep.imp ?_
      intro e f hlt
      split <;> split <;> simp_all
    · rename_i hnew
      rw [List.pairwise_append]
      refine ⟨hkeep, List.pairwise_singleton _ _, ?_⟩
      intro e he f hf
      rw [List.mem_singleton.mp hf, (hold e he).1]
      have hnot : key x ∉ items.map key := by
        intro hmem
        obtain ⟨y, hy, hk⟩ := List.mem_map.mp hmem
        obtain ⟨e', he', hk'⟩ := (key_mem_groupsOf key items (key x)).mpr ⟨y, hy, hk⟩
        exact hnew (List.any_eq_true.mpr ⟨e', he', by simpa using hk'⟩)
      have hrank : rank key (items ++ [x]) (key x) = items.length := by
        unfold rank
        rw [List.map_append, List.idxOf_append_of_notMem hnot]
        simp
      rw [hrank]
      exact (hold e he).2

end Js.Grouping
