-- JSON pointers: the pointer of a path of keys is told back by taking its segments apart, so no two
-- paths have one pointer.
import Mathlib.Data.List.Basic
import Traqen.JsonSyntax

namespace Traqen.JsonSyntax

/-- The pointer of the node at a path. -/
def pointerOf (path : List (List Nat)) : List Nat :=
  path.flatMap fun key => slash :: escapeJsonPointer key

/-- A segment, with `~1` for `/` and `~0` for `~`. -/
def unescapeSegment : List Nat → List Nat
  | [] => []
  | [c] => [c]
  | c :: d :: rest =>
    if c = tilde ∧ d = 0x31 then slash :: unescapeSegment rest
    else if c = tilde ∧ d = 0x30 then tilde :: unescapeSegment rest
    else c :: unescapeSegment (d :: rest)

/-- The path that a pointer stands for: its segments, each behind a slash. -/
def pathOf : List Nat → Option (List (List Nat))
  | [] => some []
  | c :: cs => if c = slash then some ((cs.splitOn slash).map unescapeSegment) else none

theorem pointerOf_concat (path : List (List Nat)) (key : List Nat) :
    pointerOf (path ++ [key]) = pointerOf path ++ slash :: escapeJsonPointer key := by
  unfold pointerOf
  rw [List.flatMap_append, List.flatMap_singleton]

/-- The two replacements at once. -/
def escapedUnits (c : Nat) : List Nat :=
  if c = tilde then [tilde, 0x30] else if c = slash then [tilde, 0x31] else [c]

theorem escapeJsonPointer_cons (c : Nat) (key : List Nat) :
    escapeJsonPointer (c :: key) = escapedUnits c ++ escapeJsonPointer key := by
  unfold escapeJsonPointer escapedUnits
  rw [List.flatMap_cons, List.flatMap_append]
  congr 1
  by_cases htilde : c = tilde
  · rw [if_pos htilde, if_pos htilde]
    rfl
  · rw [if_neg htilde, if_neg htilde, List.flatMap_singleton]

theorem slash_not_mem_escape (key : List Nat) : slash ∉ escapeJsonPointer key := by
  induction key with
  | nil => exact List.not_mem_nil
  | cons c key ih =>
    rw [escapeJsonPointer_cons, List.mem_append, not_or]
    refine ⟨?_, ih⟩
    unfold escapedUnits
    split_ifs with htilde hslash
    · decide
    · decide
    · rw [List.mem_singleton]
      exact fun h => hslash h.symm

theorem unescapeSegment_plain {c : Nat} (h : c ≠ tilde) (rest : List Nat) :
    unescapeSegment (c :: rest) = c :: unescapeSegment rest := by
  cases rest with
  | nil => rfl
  | cons d rest =>
    rw [unescapeSegment, if_neg fun hc => h hc.1, if_neg fun hc => h hc.1]

theorem unescapeSegment_escape (key : List Nat) :
    unescapeSegment (escapeJsonPointer key) = key := by
  induction key with
  | nil => rfl
  | cons c key ih =>
    rw [escapeJsonPointer_cons]
    unfold escapedUnits
    split_ifs with htilde hslash
    · rw [List.cons_append, List.singleton_append, unescapeSegment, if_neg (by decide),
        if_pos ⟨rfl, rfl⟩, ih, htilde]
    · rw [List.cons_append, List.singleton_append, unescapeSegment, if_pos ⟨rfl, rfl⟩, ih, hslash]
    · rw [List.singleton_append, unescapeSegment_plain htilde, ih]

/-- The segments of a pointer are the keys of its path. -/
theorem pathOf_pointerOf (path : List (List Nat)) : pathOf (pointerOf path) = some path := by
  cases path with
  | nil => rfl
  | cons key path =>
    have hjoined : pointerOf (key :: path) =
        slash :: [slash].intercalate ((key :: path).map escapeJsonPointer) := by
      unfold pointerOf
      induction path generalizing key with
      | nil => simp [List.intercalate]
      | cons next path ih =>
        rw [List.flatMap_cons, ih next]
        simp [List.intercalate]
    have hslash : ∀ segment ∈ (key :: path).map escapeJsonPointer, slash ∉ segment := by
      intro segment hin
      obtain ⟨k, -, rfl⟩ := List.mem_map.mp hin
      exact slash_not_mem_escape k
    rw [hjoined, pathOf, if_pos rfl,
      List.splitOn_intercalate slash hslash (by simp), List.map_map]
    congr 1
    conv_rhs => rw [← List.map_id (key :: path)]
    exact List.map_congr_left fun k _ => unescapeSegment_escape k

theorem pointerOf_injective {path path' : List (List Nat)} (h : pointerOf path = pointerOf path') :
    path = path' := by
  have hpath := congrArg pathOf h
  rw [pathOf_pointerOf, pathOf_pointerOf] at hpath
  exact Option.some.inj hpath

end Traqen.JsonSyntax
