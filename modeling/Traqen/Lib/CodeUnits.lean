-- The UTF-16 code units of a text tell the text: a surrogate pair stands for one character,
-- and no character is a surrogate.
import Mathlib.Data.List.Lex
import Traqen.Lib.Json

namespace Js

/-- The code units of one character. -/
def unitsOf (c : Char) : List Nat :=
  if c.toNat < 0x10000 then [c.toNat]
  else [0xD800 + (c.toNat - 0x10000) / 0x400, 0xDC00 + (c.toNat - 0x10000) % 0x400]

/-- A character is no surrogate. -/
theorem toNat_valid (c : Char) : c.toNat < 0xD800 ∨ 0xDFFF < c.toNat ∧ c.toNat < 0x110000 :=
  c.valid

theorem flatMap_unitsOf_injective {cs ds : List Char}
    (h : cs.flatMap unitsOf = ds.flatMap unitsOf) : cs = ds := by
  induction cs generalizing ds with
  | nil =>
    cases ds with
    | nil => rfl
    | cons d ds =>
      rw [List.flatMap_nil, List.flatMap_cons] at h
      unfold unitsOf at h
      split at h <;> simp at h
  | cons c cs ih =>
    cases ds with
    | nil =>
      rw [List.flatMap_nil, List.flatMap_cons] at h
      unfold unitsOf at h
      split at h <;> simp at h
    | cons d ds =>
      rw [List.flatMap_cons, List.flatMap_cons] at h
      have hc := toNat_valid c
      have hd := toNat_valid d
      by_cases hsmall : c.toNat < 0x10000
      · by_cases hsmall' : d.toNat < 0x10000
        · simp only [unitsOf, hsmall, hsmall', if_true, List.cons_append, List.nil_append,
            List.cons.injEq] at h
          rw [Char.toNat_inj.mp h.1, ih h.2]
        · simp only [unitsOf, hsmall, hsmall', if_true, if_false, List.cons_append,
            List.nil_append, List.cons.injEq] at h
          omega
      · by_cases hsmall' : d.toNat < 0x10000
        · simp only [unitsOf, hsmall, hsmall', if_true, if_false, List.cons_append,
            List.nil_append, List.cons.injEq] at h
          omega
        · simp only [unitsOf, hsmall, hsmall', if_false, List.cons_append, List.nil_append,
            List.cons.injEq] at h
          have hcd : c.toNat = d.toNat := by omega
          rw [Char.toNat_inj.mp hcd, ih h.2.2]

theorem codeUnits_injective {a b : String} (h : codeUnits a = codeUnits b) : a = b :=
  String.toList_inj.mp (flatMap_unitsOf_injective h)

/-- `a > b` for texts: by UTF-16 code units. -/
def textGt (a b : String) : Bool := decide (codeUnits b < codeUnits a)

/-- The default `sort` of texts, by UTF-16 code units. -/
def sortTexts (texts : List String) : List String :=
  texts.insertionSort fun a b => codeUnits a ≤ codeUnits b

theorem mem_sortTexts {texts : List String} {s : String} : s ∈ sortTexts texts ↔ s ∈ texts :=
  List.mem_insertionSort _

/-- The sorted texts do not depend on the order they came in. -/
theorem sortTexts_perm {texts texts' : List String} (h : texts.Perm texts') :
    sortTexts texts = sortTexts texts' := by
  have hsorted : ∀ ts : List String,
      (sortTexts ts).Pairwise fun a b => codeUnits a ≤ codeUnits b := by
    intro ts
    have : Std.Total fun a b : String => codeUnits a ≤ codeUnits b := ⟨fun a b => le_total _ _⟩
    have : IsTrans String fun a b => codeUnits a ≤ codeUnits b :=
      ⟨fun a b c hab hbc => le_trans hab hbc⟩
    exact List.pairwise_insertionSort _ ts
  have hperm : (sortTexts texts).Perm (sortTexts texts') :=
    ((List.perm_insertionSort _ texts).trans h).trans (List.perm_insertionSort _ texts').symm
  refine List.Perm.eq_of_pairwise ?_ (hsorted texts) (hsorted texts') hperm
  intro a b _ _ hab hba
  exact codeUnits_injective (le_antisymm hab hba)

theorem perm_of_sortTexts {texts texts' : List String} (h : sortTexts texts = sortTexts texts') :
    texts.Perm texts' := by
  have hperm : (sortTexts texts).Perm texts' := h ▸ List.perm_insertionSort _ texts'
  exact (List.perm_insertionSort _ texts).symm.trans hperm

end Js
