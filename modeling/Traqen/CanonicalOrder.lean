-- Two values have one canonical text exactly where they are one value up to the order of their
-- keys, and then so are their fields.
import Traqen.CanonicalText
import Traqen.Lib.OrderedMap
import Traqen.SourceIdentity

open Js

namespace Traqen

open SourceIdentity

theorem keyLe_iff (a b : String × Json) : keyLe a b ↔ keyBefore a b := by
  unfold keyLe keyBefore
  rw [← not_lt, ← Bool.not_eq_true, List.lex_eq_true_iff_lt]

/-- The keys of a canonical value are sorted as those of an identity are. -/
theorem insertionSort_keyLe (entries : List (String × Json)) :
    entries.insertionSort keyLe = sortedByKey entries := by
  have hinsert : ∀ (e : String × Json) (sorted : List (String × Json)),
      sorted.orderedInsert keyLe e = sorted.orderedInsert keyBefore e := by
    intro e sorted
    induction sorted with
    | nil => rfl
    | cons f rest ih =>
      rw [List.orderedInsert_cons, List.orderedInsert_cons, ih]
      by_cases h : keyBefore e f
      · rw [if_pos h, if_pos ((keyLe_iff e f).mpr h)]
      · rw [if_neg h, if_neg fun hle => h ((keyLe_iff e f).mp hle)]
  unfold sortedByKey
  induction entries with
  | nil => rfl
  | cons e entries ih => rw [List.insertionSort_cons, List.insertionSort_cons, ih, hinsert]

theorem canonicalizeValue_obj (fields : List (String × Json)) :
    canonicalizeValue (.obj fields) =
      .obj (fromEntries (sortedByKey (fields.map fun e => (e.1, canonicalizeValue e.2)))) := by
  rw [canonicalizeValue, insertionSort_keyLe, canonicalizeFields_eq]

theorem canonicalizeItems_eq (items : List Json) :
    canonicalizeItems items = items.map canonicalizeValue := by
  induction items with
  | nil => rfl
  | cons v vs ih => rw [canonicalizeItems, List.map_cons, ih]

/-- The canonical value does not depend on the order of keys. -/
theorem canonicalizeValue_same {v w : Json} (h : SameUpToOrder v w) :
    canonicalizeValue v = canonicalizeValue w := by
  induction h with
  | refl v => rfl
  | symm _ ih => exact ih.symm
  | trans _ _ ih₁ ih₂ => exact ih₁.trans ih₂
  | keys hdistinct horder =>
    rw [canonicalizeValue_obj, canonicalizeValue_obj]
    rw [sortedByKey_perm (by rw [List.map_map]; exact hdistinct) (horder.map _)]
  | item before after _ ih =>
    simp only [canonicalizeValue, canonicalizeItems_eq, List.map_append, List.map_cons, ih]
  | field key before after _ ih =>
    simp only [canonicalizeValue_obj, List.map_append, List.map_cons, ih]

mutual

/-- A value of distinct keys is its canonical value, up to their order. -/
theorem same_canonicalizeValue : ∀ v, DistinctKeys v → SameUpToOrder v (canonicalizeValue v)
  | .null, _ => .refl _
  | .bool _, _ => .refl _
  | .num _, _ => .refl _
  | .str _, _ => .refl _
  | .arr items, h => by
    simp only [DistinctKeys] at h
    simp only [canonicalizeValue]
    exact same_items [] (same_canonicalizeItems items h)
  | .obj fields, h => by
    simp only [DistinctKeys] at h
    have hvalues : SameUpToOrder (.obj fields) (.obj (canonicalizeFields fields)) :=
      same_fields [] (same_canonicalizeFields fields h.2)
    rw [canonicalizeValue_obj, ← canonicalizeFields_eq]
    refine hvalues.trans (.keys ?_ ?_)
    · rw [canonicalizeFields_eq, List.map_map]
      exact h.1
    · exact ((fromEntries_perm _).trans (sortedByKey_perm_self _)).symm

theorem same_canonicalizeItems : ∀ items, DistinctItems items →
    List.Forall₂ SameUpToOrder items (canonicalizeItems items)
  | [], _ => .nil
  | v :: vs, h => by
    simp only [DistinctItems] at h
    exact .cons (same_canonicalizeValue v h.1) (same_canonicalizeItems vs h.2)

theorem same_canonicalizeFields : ∀ fields, DistinctFields fields →
    List.Forall₂ (fun e f => e.1 = f.1 ∧ SameUpToOrder e.2 f.2) fields
      (canonicalizeFields fields)
  | [], _ => .nil
  | (key, value) :: rest, h => by
    simp only [DistinctFields] at h
    exact .cons ⟨rfl, same_canonicalizeValue value h.1⟩ (same_canonicalizeFields rest h.2)

end

/-- One canonical text, one value up to the order of keys. -/
theorem canonicalJson_eq_iff {v w : Json} (hv : DistinctKeys v) (hw : DistinctKeys w) :
    canonicalJson v = canonicalJson w ↔ SameUpToOrder v w := by
  unfold canonicalJson
  rw [Json.stringify_injective.eq_iff]
  constructor
  · intro h
    have hleft := same_canonicalizeValue v hv
    rw [h] at hleft
    exact hleft.trans (same_canonicalizeValue w hw).symm
  · exact canonicalizeValue_same

/-- Two values that may be undefined. -/
def SameField : Option Json → Option Json → Prop := Option.Rel SameUpToOrder

theorem sameField_refl (v : Option Json) : SameField v v := by
  cases v with
  | none => exact .none
  | some v => exact .some (.refl v)

theorem sameField_symm {v w : Option Json} (h : SameField v w) : SameField w v := by
  cases h with
  | some h => exact .some h.symm
  | none => exact .none

theorem sameField_trans {u v w : Option Json} (huv : SameField u v) (hvw : SameField v w) :
    SameField u w := by
  cases huv with
  | some huv =>
    cases hvw with
    | some hvw => exact .some (huv.trans hvw)
  | none =>
    cases hvw with
    | none => exact .none

theorem lookup_perm {fs gs : List (String × Json)} (hdistinct : (fs.map (·.1)).Nodup)
    (h : fs.Perm gs) (key : String) : fs.lookup key = gs.lookup key := by
  have hgs : (gs.map (·.1)).Nodup := (h.map _).nodup_iff.mp hdistinct
  have hmem : ∀ {xs : List (String × Json)}, (xs.map (·.1)).Nodup → ∀ v,
      xs.lookup key = some v ↔ (key, v) ∈ xs := by
    intro xs hxs v
    rw [OrderedMap.lookup_eq_get?]
    exact ⟨OrderedMap.get?_mem, OrderedMap.get?_of_mem hxs⟩
  apply Option.ext
  intro v
  rw [hmem hdistinct, hmem hgs, h.mem_iff]

/-- Values that are one up to order have fields that are. -/
theorem same_get {v w : Json} (h : SameUpToOrder v w) (key : String) :
    SameField (v.get? key) (w.get? key) := by
  induction h with
  | refl v => exact sameField_refl _
  | symm _ ih => exact sameField_symm ih
  | trans _ _ ih₁ ih₂ => exact sameField_trans ih₁ ih₂
  | keys hdistinct horder =>
    simp only [Json.get?]
    rw [lookup_perm hdistinct horder]
    exact sameField_refl _
  | item before after _ _ => exact .none
  | @field v w name before after h _ =>
    simp only [Json.get?, List.lookup_append, List.lookup_cons]
    cases before.lookup key with
    | some u => exact sameField_refl _
    | none =>
      cases hkey : key == name with
      | true => exact .some h
      | false => exact sameField_refl _

end Traqen
