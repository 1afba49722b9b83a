-- Two keyed collections, compared key by key: what is in one of them only, and what is in both
-- but not the same. The comparison is empty where the collections hold the same, and the one the
-- other way round is its mirror image.
import Mathlib.Data.List.Nodup
import Mathlib.Data.List.Perm.Subperm
import Traqen.Lib.OrderedMap

namespace Js.KeyedDiff

open OrderedMap (get? ofList)

variable {κ α : Type*} [DecidableEq κ]

/-- A key with what is there before and what is there after. -/
structure Difference (κ α : Type*) where
  key : κ
  before : Option α
  after : Option α

def Difference.swap (d : Difference κ α) : Difference κ α :=
  { key := d.key, before := d.after, after := d.before }

section Maps

variable (same : α → α → Bool) (before after : List (κ × α))

/-- What there is to say about a key. -/
def difference (key : κ) : Option (Difference κ α) :=
  match get? before key, get? after key with
  | none, none => none
  | none, some y => some { key, before := none, after := some y }
  | some x, none => some { key, before := some x, after := none }
  | some x, some y => if same x y then none else some { key, before := some x, after := some y }

/-- Each key once: those from before first. -/
def unionKeys : List κ := (before.map (·.1) ++ after.map (·.1)).eraseDups

def diff : List (Difference κ α) :=
  (unionKeys before after).filterMap (difference same before after)

end Maps

section Laws

variable {same : α → α → Bool} {before after : List (κ × α)} {key : κ} {d : Difference κ α}

theorem difference_key (h : difference same before after key = some d) : d.key = key := by
  unfold difference at h
  split at h
  · cases h
  · cases h
    rfl
  · cases h
    rfl
  · split at h
    · cases h
    · cases h
      rfl

theorem difference_none (hbefore : get? before key = none) (hafter : get? after key = none) :
    difference same before after key = none := by
  simp [difference, hbefore, hafter]

theorem mem_unionKeys : key ∈ unionKeys before after ↔
    get? before key ≠ none ∨ get? after key ≠ none := by
  unfold unionKeys
  rw [List.mem_eraseDups, List.mem_append, List.mem_map, List.mem_map, Ne, Ne,
    OrderedMap.get?_eq_none, OrderedMap.get?_eq_none]
  simp

/-- A difference is listed exactly where it is one. -/
theorem mem_diff : d ∈ diff same before after ↔
    difference same before after d.key = some d := by
  unfold diff
  rw [List.mem_filterMap]
  constructor
  · rintro ⟨key, -, h⟩
    rw [difference_key h]
    exact h
  · intro h
    refine ⟨d.key, mem_unionKeys.mpr ?_, h⟩
    by_contra hnone
    rw [not_or, not_not, not_not] at hnone
    rw [difference_none hnone.1 hnone.2] at h
    cases h

/-- No key is reported twice. -/
theorem nodup_keys : ((diff same before after).map (·.key)).Nodup := by
  have hsub : ∀ keys : List κ,
      ((keys.filterMap (difference same before after)).map (·.key)).Sublist keys := by
    intro keys
    induction keys with
    | nil => exact .slnil
    | cons key keys ih =>
      cases h : difference same before after key with
      | none =>
        rw [List.filterMap_cons_none h]
        exact ih.cons key
      | some d =>
        rw [List.filterMap_cons_some h, List.map_cons, difference_key h]
        exact ih.cons_cons key
  exact (OrderedMap.nodup_eraseDups _).sublist (hsub _)

theorem difference_swap (hsymm : ∀ x y, same x y = same y x) (key : κ) :
    difference same after before key =
      (difference same before after key).map Difference.swap := by
  unfold difference
  cases get? before key with
  | none =>
    cases get? after key with
    | none => rfl
    | some y => rfl
  | some x =>
    cases get? after key with
    | none => rfl
    | some y =>
      simp only [hsymm y x]
      split
      · rfl
      · rfl

/-- The comparison the other way round. -/
theorem diff_swap (hsymm : ∀ x y, same x y = same y x) (before after : List (κ × α)) :
    (diff same after before).Perm ((diff same before after).map Difference.swap) := by
  have hkeys : (unionKeys after before).Perm (unionKeys before after) := by
    refine (List.perm_ext_iff_of_nodup (OrderedMap.nodup_eraseDups _)
      (OrderedMap.nodup_eraseDups _)).mpr fun key => ?_
    exact mem_unionKeys.trans (or_comm.trans mem_unionKeys.symm)
  have hfun : difference same after before =
      fun key => (difference same before after key).map Difference.swap :=
    funext (difference_swap hsymm)
  unfold diff
  rw [List.map_filterMap, ← hfun]
  exact hkeys.filterMap _

theorem diff_eq_nil : diff same before after = [] ↔
    ∀ key, difference same before after key = none := by
  constructor
  · intro h key
    cases hd : difference same before after key with
    | none => rfl
    | some d =>
      have hmem : d ∈ diff same before after := mem_diff.mpr (by rw [difference_key hd, hd])
      rw [h] at hmem
      cases hmem
  · intro h
    exact List.filterMap_eq_nil_iff.mpr fun key _ => h key

end Laws

/-! ## Collections of one item for each key -/

section Unique

variable {key : α → κ} {same : α → α → Bool} {xs ys : List α} {k : κ} {x : α}

/-- The items under their keys. -/
def index (key : α → κ) (xs : List α) : List (κ × α) := ofList (xs.map fun x => (key x, x))

theorem get?_index (hunique : (xs.map key).Nodup) :
    get? (index key xs) k = some x ↔ x ∈ xs ∧ key x = k := by
  unfold index
  constructor
  · intro h
    have hmem := OrderedMap.mem_of_mem_ofList (OrderedMap.get?_mem h)
    obtain ⟨y, hy, heq⟩ := List.mem_map.mp hmem
    cases heq
    exact ⟨hy, rfl⟩
  · rintro ⟨hx, rfl⟩
    refine OrderedMap.get?_ofList_of_forall ?_ ?_
    · exact ⟨(key x, x), List.mem_map_of_mem hx, rfl⟩
    · intro e he hkey
      obtain ⟨y, hy, rfl⟩ := List.mem_map.mp he
      exact List.inj_on_of_nodup_map hunique hy hx hkey

theorem get?_index_none (hunique : (xs.map key).Nodup) :
    get? (index key xs) k = none ↔ ∀ x ∈ xs, key x ≠ k := by
  rw [Option.eq_none_iff_forall_ne_some]
  constructor
  · intro h x hx hkey
    exact h x ((get?_index hunique).mpr ⟨hx, hkey⟩)
  · intro h x hget
    obtain ⟨hx, hkey⟩ := (get?_index hunique).mp hget
    exact h x hx hkey

/-- One collection matches another up to the order of its items. -/
def Matches (R : α → α → Prop) (xs ys : List α) : Prop :=
  ∃ zs, ys.Perm zs ∧ List.Forall₂ R xs zs

theorem partner {R : α → α → Prop} (h : List.Forall₂ R xs ys) (hx : x ∈ xs) :
    ∃ y ∈ ys, R x y := by
  induction h with
  | nil => cases hx
  | cons hxy _ ih =>
    rcases List.mem_cons.mp hx with rfl | hx
    · exact ⟨_, List.mem_cons_self, hxy⟩
    · obtain ⟨y, hy, hr⟩ := ih hx
      exact ⟨y, List.mem_cons_of_mem _ hy, hr⟩

variable (hxs : (xs.map key).Nodup) (hys : (ys.map key).Nodup)
  (hkey : ∀ x y, same x y = true → key x = key y)

include hxs hys hkey in
/-- Nothing differs exactly where the collections match. -/
theorem diff_nil_iff : diff same (index key xs) (index key ys) = [] ↔
    Matches (fun x y => same x y = true) xs ys := by
  rw [diff_eq_nil]
  constructor
  · intro h
    have hfound : ∀ x ∈ xs, ∃ y, get? (index key ys) (key x) = some y ∧ same x y = true := by
      intro x hx
      have hnone := h (key x)
      have hget := (get?_index hxs).mpr ⟨hx, rfl⟩
      unfold difference at hnone
      rw [hget] at hnone
      cases hother : get? (index key ys) (key x) with
      | none => simp [hother] at hnone
      | some y => exact ⟨y, rfl, by simpa [hother] using hnone⟩
    have hzs : List.Forall₂ (fun x y => same x y = true) xs
        (xs.filterMap fun x => get? (index key ys) (key x)) := by
      clear h hxs
      induction xs with
      | nil => exact .nil
      | cons x xs ih =>
        obtain ⟨y, hget, hsame⟩ := hfound x List.mem_cons_self
        rw [List.filterMap_cons_some (f := fun x => get? (index key ys) (key x)) hget]
        exact .cons hsame (ih fun z hz => hfound z (List.mem_cons_of_mem x hz))
    refine ⟨_, ?_, hzs⟩
    have hkeys : (xs.filterMap fun x => get? (index key ys) (key x)).map key = xs.map key := by
      have hmap := hzs.imp fun x y hsame => hkey x y hsame
      rw [eq_comm, ← List.forall₂_eq_eq_eq, List.forall₂_map_left_iff, List.forall₂_map_right_iff]
      exact hmap
    rw [List.perm_ext_iff_of_nodup hys.of_map (List.Nodup.of_map key (hkeys ▸ hxs))]
    intro y
    rw [List.mem_filterMap]
    constructor
    · intro hy
      have hnone := h (key y)
      have hget := (get?_index hys).mpr ⟨hy, rfl⟩
      unfold difference at hnone
      rw [hget] at hnone
      cases hother : get? (index key xs) (key y) with
      | none => simp [hother] at hnone
      | some x =>
        obtain ⟨hx, hkeyx⟩ := (get?_index hxs).mp hother
        exact ⟨x, hx, by rw [hkeyx, hget]⟩
    · rintro ⟨x, -, hget⟩
      exact ((get?_index hys).mp hget).1
  · rintro ⟨zs, hperm, hzs⟩ k
    unfold difference
    cases hbefore : get? (index key xs) k with
    | none =>
      cases hafter : get? (index key ys) k with
      | none => rfl
      | some y =>
        obtain ⟨hy, rfl⟩ := (get?_index hys).mp hafter
        obtain ⟨x, hx, hsame⟩ := partner hzs.flip (hperm.mem_iff.mp hy)
        exact absurd (hkey x y hsame) ((get?_index_none hxs).mp hbefore x hx)
    | some x =>
      obtain ⟨hx, rfl⟩ := (get?_index hxs).mp hbefore
      obtain ⟨y, hy, hsame⟩ := partner hzs hx
      have hafter : get? (index key ys) (key x) = some y :=
        (get?_index hys).mpr ⟨hperm.mem_iff.mpr hy, (hkey x y hsame).symm⟩
      simp [hafter, hsame]

/-- What has changed from one collection to another. -/
inductive Differs (key : α → κ) (same : α → α → Bool) (xs ys : List α) :
    Difference κ α → Prop where
  | added {y : α} : y ∈ ys → (∀ x ∈ xs, key x ≠ key y) →
      Differs key same xs ys ⟨key y, none, some y⟩
  | removed {x : α} : x ∈ xs → (∀ y ∈ ys, key y ≠ key x) →
      Differs key same xs ys ⟨key x, some x, none⟩
  | modified {x y : α} : x ∈ xs → y ∈ ys → key x = key y → same x y = false →
      Differs key same xs ys ⟨key x, some x, some y⟩

omit hkey in
include hxs hys in
theorem mem_diff_index {d : Difference κ α} :
    d ∈ diff same (index key xs) (index key ys) ↔ Differs key same xs ys d := by
  rw [mem_diff]
  constructor
  · intro h
    unfold difference at h
    split at h
    · cases h
    · next y hbefore hafter =>
      obtain ⟨hy, heq⟩ := (get?_index hys).mp hafter
      rw [← heq] at h hbefore
      cases h
      exact .added hy ((get?_index_none hxs).mp hbefore)
    · next x hbefore hafter =>
      obtain ⟨hx, heq⟩ := (get?_index hxs).mp hbefore
      rw [← heq] at h hafter
      cases h
      exact .removed hx ((get?_index_none hys).mp hafter)
    · next x y hbefore hafter =>
      obtain ⟨hx, heq⟩ := (get?_index hxs).mp hbefore
      obtain ⟨hy, hother⟩ := (get?_index hys).mp hafter
      split at h
      · cases h
      · next hsame =>
        rw [← heq] at h hother
        cases h
        exact .modified hx hy hother.symm (by simpa using hsame)
  · rintro (⟨hy, hnone⟩ | ⟨hx, hnone⟩ | ⟨hx, hy, hkeys, hsame⟩)
    · simp only [difference, (get?_index_none hxs).mpr hnone, (get?_index hys).mpr ⟨hy, rfl⟩]
    · simp only [difference, (get?_index_none hys).mpr hnone, (get?_index hxs).mpr ⟨hx, rfl⟩]
    · simp only [difference, (get?_index hxs).mpr ⟨hx, rfl⟩,
        (get?_index hys).mpr ⟨hy, hkeys.symm⟩, hsame, Bool.false_eq_true, if_false]

end Unique

end Js.KeyedDiff
