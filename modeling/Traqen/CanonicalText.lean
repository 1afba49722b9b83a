-- What one canonical text says about two values: the same fields, each with one canonical
-- value.
import Traqen.CanonicalJson
import Traqen.Lib.JsonText

open Js

namespace Traqen

theorem canonicalizeFields_eq (fields : List (String × Json)) :
    canonicalizeFields fields = fields.map fun f => (f.1, canonicalizeValue f.2) := by
  induction fields with
  | nil => rfl
  | cons f fields ih => simp [canonicalizeFields, ih]

theorem mem_fromEntries {entries : List (String × Json)} {e : String × Json} :
    e ∈ fromEntries entries ↔ e ∈ entries := by
  unfold fromEntries
  rw [List.mem_append, List.mem_insertionSort, List.mem_filter, List.mem_filter]
  cases h : arrayIndex? e.1 <;> simp

theorem mem_canonicalFields {fields : List (String × Json)} {e : String × Json} :
    e ∈ fromEntries ((canonicalizeFields fields).insertionSort keyLe) ↔
      ∃ f ∈ fields, (f.1, canonicalizeValue f.2) = e := by
  rw [mem_fromEntries, List.mem_insertionSort, canonicalizeFields_eq, List.mem_map]

/-- Objects with one canonical text have the same fields, up to the canonical values. -/
theorem field_of_canonicalJson {fs gs : List (String × Json)}
    (h : canonicalJson (.obj fs) = canonicalJson (.obj gs)) {k : String} {v : Json}
    (hv : (k, v) ∈ fs) : ∃ w, (k, w) ∈ gs ∧ canonicalizeValue w = canonicalizeValue v := by
  have hvalue := Json.stringify_injective h
  simp only [canonicalizeValue, Json.obj.injEq] at hvalue
  have hmem := mem_canonicalFields.mpr ⟨(k, v), hv, rfl⟩
  rw [hvalue] at hmem
  obtain ⟨⟨j, w⟩, hw, heq⟩ := mem_canonicalFields.mp hmem
  simp only [Prod.mk.injEq] at heq
  exact ⟨w, heq.1 ▸ hw, heq.2⟩

end Traqen
