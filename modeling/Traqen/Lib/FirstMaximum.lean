-- The first greatest item of a list, and two ways to find it for each group of the items: to
-- sort the list in falling order and keep what comes first, and to walk through the list and
-- replace what is kept by a greater item.
import Mathlib.Data.List.Sort
import Mathlib.Data.List.Induction
import Traqen.Lib.OrderedMap

open Js

namespace FirstMaximum

open OrderedMap (get? get?_of_set keyed_set mem_set keyed_nil get?_mem)

variable {α κ β : Type*} [LinearOrder β]

/-- Every item in front of it is less, and no item behind it is greater. -/
def FirstMax (rank : α → β) (items : List α) (b : α) : Prop :=
  ∃ front back, items = front ++ b :: back ∧ (∀ x ∈ front, rank x < rank b) ∧
    ∀ x ∈ back, rank x ≤ rank b

def firstMax? (rank : α → β) : List α → Option α
  | [] => none
  | x :: xs =>
    match firstMax? rank xs with
    | none => some x
    | some b => if rank b ≤ rank x then some x else some b

section Search

variable {rank : α → β} {items : List α} {b : α}

attribute [local simp] firstMax?

theorem firstMax?_mem (h : firstMax? rank items = some b) : b ∈ items := by
  induction items generalizing b with
  | nil => cases h
  | cons x xs ih =>
    unfold firstMax? at h
    split at h
    · cases h
      exact List.mem_cons_self
    · rename_i c hc
      split at h
      · cases h
        exact List.mem_cons_self
      · cases h
        exact List.mem_cons_of_mem _ (ih hc)

theorem firstMax?_isSome (x : α) (xs : List α) : ∃ b, firstMax? rank (x :: xs) = some b := by
  unfold firstMax?
  split
  · exact ⟨x, rfl⟩
  · split
    · exact ⟨x, rfl⟩
    · exact ⟨_, rfl⟩

/-- The search decides the notion. -/
theorem firstMax?_eq_some : firstMax? rank items = some b ↔ FirstMax rank items b := by
  constructor
  · intro h
    induction items generalizing b with
    | nil => cases h
    | cons x xs ih =>
      unfold firstMax? at h
      split at h
      · rename_i hnone
        cases h
        cases xs with
        | nil => exact ⟨[], [], rfl, by simp, by simp⟩
        | cons y ys =>
          have hsome : ∃ c, firstMax? rank (y :: ys) = some c := firstMax?_isSome y ys
          obtain ⟨c, hc⟩ := hsome
          rw [hc] at hnone
          cases hnone
      · rename_i c hc
        obtain ⟨front, back, rfl, hfront, hback⟩ := ih hc
        split at h
        · rename_i hle
          cases h
          refine ⟨[], front ++ c :: back, rfl, by simp, ?_⟩
          intro y hy
          rcases List.mem_append.mp hy with hy | hy
          · exact (hfront y hy).le.trans hle
          · rcases List.mem_cons.mp hy with rfl | hy
            · exact hle
            · exact (hback y hy).trans hle
        · rename_i hlt
          cases h
          refine ⟨x :: front, back, rfl, ?_, hback⟩
          intro y hy
          rcases List.mem_cons.mp hy with rfl | hy
          · exact lt_of_not_ge hlt
          · exact hfront y hy
  · rintro ⟨front, back, rfl, hfront, hback⟩
    induction front with
    | nil =>
      rw [List.nil_append, firstMax?]
      split
      · rfl
      · rename_i c hc
        rw [if_pos (hback c (firstMax?_mem hc))]
    | cons x front ih =>
      have hrest := ih fun y hy => hfront y (List.mem_cons_of_mem _ hy)
      rw [List.cons_append, firstMax?, hrest]
      exact if_neg (not_le_of_gt (hfront x List.mem_cons_self))

theorem firstMax_unique {c : α} (hb : FirstMax rank items b) (hc : FirstMax rank items c) :
    b = c := by
  have hsome := firstMax?_eq_some.mpr hb
  rw [firstMax?_eq_some.mpr hc] at hsome
  exact (Option.some.inj hsome).symm

theorem firstMax_exists (h : items ≠ []) : ∃ b, FirstMax rank items b := by
  cases items with
  | nil => exact absurd rfl h
  | cons x xs =>
    have hsome : ∃ b, firstMax? rank (x :: xs) = some b := firstMax?_isSome x xs
    obtain ⟨b, hb⟩ := hsome
    exact ⟨b, firstMax?_eq_some.mp hb⟩

/-- No item is greater than the first greatest one. -/
theorem FirstMax.le (h : FirstMax rank items b) {x : α} (hx : x ∈ items) : rank x ≤ rank b := by
  obtain ⟨front, back, rfl, hfront, hback⟩ := h
  rcases List.mem_append.mp hx with hx | hx
  · exact (hfront x hx).le
  · rcases List.mem_cons.mp hx with rfl | hx
    · exact le_rfl
    · exact hback x hx

theorem FirstMax.mem (h : FirstMax rank items b) : b ∈ items :=
  firstMax?_mem (firstMax?_eq_some.mpr h)

/-- A new item at the end takes the place of a lesser one only. -/
theorem firstMax?_append_singleton (items : List α) (x : α) :
    firstMax? rank (items ++ [x]) =
      match firstMax? rank items with
      | none => some x
      | some c => if rank c < rank x then some x else some c := by
  induction items with
  | nil => rfl
  | cons y ys ih =>
    rw [List.cons_append, firstMax?, ih, firstMax?]
    cases firstMax? rank ys with
    | none => grind
    | some c => grind

end Search

/-! ## Sorting -/

variable {rank : α → β}

/-- In a list in falling order the first item with a property is the first greatest one. -/
theorem find?_orderedInsert (p : α → Bool) (a : α) {items : List α}
    (h : items.Pairwise fun x y => rank y ≤ rank x) :
    (items.orderedInsert (fun x y => rank y ≤ rank x) a).find? p =
      if p a then
        match items.find? p with
        | none => some a
        | some b => if rank b ≤ rank a then some a else some b
      else items.find? p := by
  induction items with
  | nil => by_cases hp : p a <;> simp [hp]
  | cons x xs ih =>
    obtain ⟨hx, hxs⟩ := List.pairwise_cons.mp h
    rw [List.orderedInsert_cons]
    by_cases hle : rank x ≤ rank a
    · rw [if_pos hle, List.find?_cons]
      by_cases hp : p a
      · -- every item of the list is at most as great as the new one
        rw [hp, if_pos rfl]
        cases hfind : (x :: xs).find? p with
        | none => rfl
        | some b =>
          have hb : rank b ≤ rank a := by
            rcases List.mem_cons.mp (List.mem_of_find?_eq_some hfind) with rfl | hb
            · exact hle
            · exact (hx b hb).trans hle
          exact (if_pos hb).symm
      · simp [hp]
    · rw [if_neg hle, List.find?_cons, List.find?_cons]
      by_cases hpx : p x
      · simp [hpx, hle]
      · simpa [hpx] using ih hxs

theorem find?_insertionSort (p : α → Bool) (items : List α) :
    (items.insertionSort fun x y => rank y ≤ rank x).find? p =
      firstMax? rank (items.filter p) := by
  induction items with
  | nil => rfl
  | cons a items ih =>
    have htotal : Std.Total fun x y : α => rank y ≤ rank x := ⟨fun x y => le_total _ _⟩
    have htrans : IsTrans α fun x y => rank y ≤ rank x := ⟨fun x y z h h' => h'.trans h⟩
    have hsorted := List.pairwise_insertionSort (fun x y : α => rank y ≤ rank x) items
    rw [List.insertionSort_cons, find?_orderedInsert p a hsorted, ih]
    by_cases hp : p a
    · rw [if_pos hp, List.filter_cons_of_pos hp, firstMax?]
    · rw [if_neg hp, List.filter_cons_of_neg hp]

section Rising

variable (items : List α)

/-- In rising order, the items of one rank as they came. -/
def rising (rank : α → β) (items : List α) : List α :=
  items.insertionSort fun x y => rank x ≤ rank y

theorem rising_sorted (rank : α → β) : (rising rank items).Pairwise fun x y => rank x ≤ rank y := by
  have htotal : Std.Total fun x y : α => rank x ≤ rank y := ⟨fun x y => le_total _ _⟩
  have htrans : IsTrans α fun x y => rank x ≤ rank y := ⟨fun x y z h h' => h.trans h'⟩
  exact List.pairwise_insertionSort _ items

theorem rising_cons (a : α) :
    rising rank (a :: items) = (rising rank items).orderedInsert (fun x y => rank x ≤ rank y) a :=
  List.insertionSort_cons ..

variable {items}

theorem filter_orderedInsert (p : α → Bool) (a : α)
    (h : items.Pairwise fun x y => rank x ≤ rank y) :
    (items.orderedInsert (fun x y => rank x ≤ rank y) a).filter p =
      if p a then (items.filter p).orderedInsert (fun x y => rank x ≤ rank y) a
      else items.filter p := by
  induction items with
  | nil => by_cases hp : p a <;> simp [hp]
  | cons x xs ih =>
    obtain ⟨hx, hxs⟩ := List.pairwise_cons.mp h
    rw [List.orderedInsert_cons]
    by_cases hle : rank a ≤ rank x
    · rw [if_pos hle]
      by_cases hp : p a
      · rw [if_pos hp, List.filter_cons_of_pos hp]
        cases hkept : (x :: xs).filter p with
        | nil => rfl
        | cons y kept =>
          have hy : y ∈ x :: xs := List.mem_of_mem_filter (hkept ▸ List.mem_cons_self)
          rw [List.orderedInsert_cons, if_pos]
          rcases List.mem_cons.mp hy with rfl | hy
          · exact hle
          · exact hle.trans (hx y hy)
      · rw [if_neg hp, List.filter_cons_of_neg hp]
    · by_cases hpx : p x <;> by_cases hp : p a <;> simp [hle, hpx, hp, ih hxs]

/-- To sort and to choose is to choose and to sort. -/
theorem filter_rising (p : α → Bool) (items : List α) :
    (rising rank items).filter p = rising rank (items.filter p) := by
  induction items with
  | nil => rfl
  | cons a items ih =>
    rw [rising_cons, filter_orderedInsert p a (rising_sorted items rank), ih]
    by_cases hp : p a
    · rw [if_pos hp, List.filter_cons_of_pos hp, rising_cons]
    · rw [if_neg hp, List.filter_cons_of_neg hp]

theorem getLast?_orderedInsert (a : α) (h : items.Pairwise fun x y => rank x ≤ rank y) :
    (items.orderedInsert (fun x y => rank x ≤ rank y) a).getLast? =
      match items.getLast? with
      | none => some a
      | some c => if rank c < rank a then some a else some c := by
  induction items with
  | nil => rfl
  | cons x xs ih =>
    obtain ⟨hx, hxs⟩ := List.pairwise_cons.mp h
    rw [List.orderedInsert_cons]
    by_cases hle : rank a ≤ rank x
    · rw [if_pos hle, List.getLast?_cons_cons]
      cases hlast : (x :: xs).getLast? with
      | none => simp at hlast
      | some c =>
        have hc : rank a ≤ rank c := by
          rcases List.mem_cons.mp (List.mem_of_getLast? hlast) with rfl | hc
          · exact hle
          · exact hle.trans (hx c hc)
        exact (if_neg (not_lt.mpr hc)).symm
    · rw [if_neg hle, List.getLast?_cons, ih hxs, List.getLast?_cons]
      cases xs.getLast? with
      | none => simp [not_le.mp hle]
      | some c => by_cases hc : rank c < rank a <;> simp [hc]

/-- The last in rising order is the first greatest one from the end. -/
theorem getLast?_rising (items : List α) :
    (rising rank items).getLast? = firstMax? rank items.reverse := by
  induction items with
  | nil => rfl
  | cons a items ih =>
    rw [rising_cons, getLast?_orderedInsert a (rising_sorted items rank), ih, List.reverse_cons,
      firstMax?_append_singleton]

end Rising

/-! ## One item for each group -/

variable [DecidableEq κ]

/-- `if (!m.has(key)) m.set(key, item)`, for one item after the other. -/
def keepFirst (key : α → κ) (items : List α) : List (κ × α) :=
  items.foldl (fun m x =>
    if (get? m (key x)).isSome then m else OrderedMap.set m (key x) x) []

/-- The walk that replaces the item of a group by a greater one. -/
def keepGreatest (greater : α → α → Bool) (key : α → κ) (items : List α) : List (κ × α) :=
  items.foldl (fun m x =>
    if (get? m (key x)).all (greater x) then OrderedMap.set m (key x) x else m) []

theorem keepFirst_append (key : α → κ) (items : List α) (x : α) :
    keepFirst key (items ++ [x]) =
      if (get? (keepFirst key items) (key x)).isSome then keepFirst key items
      else OrderedMap.set (keepFirst key items) (key x) x := by
  unfold keepFirst
  rw [List.foldl_append]
  rfl

theorem keepGreatest_append (greater : α → α → Bool) (key : α → κ) (items : List α) (x : α) :
    keepGreatest greater key (items ++ [x]) =
      if (get? (keepGreatest greater key items) (key x)).all (greater x) then
        OrderedMap.set (keepGreatest greater key items) (key x) x
      else keepGreatest greater key items := by
  unfold keepGreatest
  rw [List.foldl_append]
  rfl

theorem get?_keepFirst (key : α → κ) (items : List α) (k : κ) :
    get? (keepFirst key items) k = items.find? fun x => key x = k := by
  induction items using List.reverseRecOn with
  | nil => rfl
  | append_singleton items x ih =>
    rw [keepFirst_append, List.find?_append, ← ih]
    by_cases hk : key x = k
    · subst hk
      cases hfound : get? (keepFirst key items) (key x) with
      | none => simp [get?_of_set]
      | some c => simp [hfound]
    · have hne : ¬ k = key x := fun h => hk h.symm
      by_cases hold : (get? (keepFirst key items) (key x)).isSome
      · simp [hold, hk]
      · simp [hold, hk, hne, get?_of_set]

theorem get?_keepGreatest {greater : α → α → Bool}
    (hgreater : ∀ x y, greater x y = true ↔ rank y < rank x) (key : α → κ) (items : List α)
    (k : κ) :
    get? (keepGreatest greater key items) k =
      firstMax? rank (items.filter fun x => key x = k) := by
  induction items using List.reverseRecOn with
  | nil => rfl
  | append_singleton items x ih =>
    rw [keepGreatest_append, List.filter_append]
    by_cases hk : key x = k
    · subst hk
      rw [List.filter_cons_of_pos (by simp), List.filter_nil, firstMax?_append_singleton, ← ih]
      cases hfound : get? (keepGreatest greater key items) (key x) with
      | none => simp [get?_of_set]
      | some c =>
        by_cases hlt : rank c < rank x
        · simp [(hgreater x c).mpr hlt, hlt, get?_of_set]
        · have hnot : greater x c = false := Bool.eq_false_iff.mpr fun h => hlt ((hgreater x c).mp h)
          simp [hnot, hlt, hfound]
    · have hne : ¬ k = key x := fun h => hk h.symm
      rw [List.filter_cons_of_neg (by simpa using hk), List.filter_nil, List.append_nil, ← ih]
      split
      · rw [get?_of_set, if_neg hne]
      · rfl

/-- The map of a walk: each item that is kept stands under its own key. -/
structure Kept (key : α → κ) (m : List (κ × α)) : Prop where
  keyed : OrderedMap.Keyed m
  own : ∀ e ∈ m, key e.2 = e.1

theorem kept_set {key : α → κ} {m : List (κ × α)} (h : Kept key m) (x : α) :
    Kept key (OrderedMap.set m (key x) x) := by
  refine ⟨keyed_set h.keyed _ _, ?_⟩
  intro e he
  rcases mem_set he with rfl | he
  · rfl
  · exact h.own e he

omit [DecidableEq κ] in
theorem kept_nil (key : α → κ) : Kept key [] :=
  ⟨keyed_nil, fun _ he => absurd he List.not_mem_nil⟩

theorem kept_keepFirst (key : α → κ) (items : List α) : Kept key (keepFirst key items) := by
  induction items using List.reverseRecOn with
  | nil => exact kept_nil key
  | append_singleton items x ih =>
    rw [keepFirst_append]
    split
    · exact ih
    · exact kept_set ih x

theorem kept_keepGreatest (greater : α → α → Bool) (key : α → κ) (items : List α) :
    Kept key (keepGreatest greater key items) := by
  induction items using List.reverseRecOn with
  | nil => exact kept_nil key
  | append_singleton items x ih =>
    rw [keepGreatest_append]
    split
    · exact kept_set ih x
    · exact ih

/-- An item is kept when it is what its key leads to. -/
theorem Kept.mem_iff {key : α → κ} {m : List (κ × α)} (h : Kept key m) (x : α) :
    x ∈ m.map (·.2) ↔ get? m (key x) = some x := by
  constructor
  · intro hx
    obtain ⟨e, he, rfl⟩ := List.mem_map.mp hx
    rw [h.own e he]
    exact OrderedMap.get?_of_mem h.keyed he
  · intro hx
    exact List.mem_map.mpr ⟨_, get?_mem hx, rfl⟩

end FirstMaximum
