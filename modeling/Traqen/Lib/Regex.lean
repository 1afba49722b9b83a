-- Backtracking patterns and the scan of a text with one. A pattern lists what it can
-- leave of a text in the order in which a matcher tries it, so the first of the list is
-- what the matcher takes; `scan` cuts a text into the parts that a global search finds and
-- the items between them.
import Mathlib.Data.List.Basic
import Mathlib.Data.List.TakeWhile

namespace Regex

/-! ## Patterns -/

/-- `many` is the greedy repetition of one class of items. -/
inductive Pattern (α : Type*) where
  | empty
  | one (accepts : α → Bool)
  | seq (first second : Pattern α)
  | alt (first second : Pattern α)
  | opt (first : Pattern α)
  | many (accepts : α → Bool)

variable {α β : Type*}

/-- The rests of a greedy repetition, the shortest first. -/
def manyRests (accepts : α → Bool) : List α → List (List α)
  | [] => [[]]
  | a :: as => if accepts a then manyRests accepts as ++ [a :: as] else [a :: as]

/-- What is left of the text, in the order in which the matcher tries it. -/
def rests : Pattern α → List α → List (List α)
  | .empty, xs => [xs]
  | .one _, [] => []
  | .one accepts, a :: as => if accepts a then [as] else []
  | .seq p q, xs => (rests p xs).flatMap (rests q)
  | .alt p q, xs => rests p xs ++ rests q xs
  | .opt p, xs => rests p xs ++ [xs]
  | .many accepts, xs => manyRests accepts xs

/-- How many items the matcher takes at the start of the text. -/
def matchLength (p : Pattern α) (xs : List α) : Option Nat :=
  (rests p xs).head?.map fun rest => xs.length - rest.length

/-- The pattern of a list of classes, one after the other. -/
def word (classes : List (α → Bool)) : Pattern α :=
  classes.foldr (fun accepts p => .seq (.one accepts) p) .empty

@[simp] theorem rests_empty (xs : List α) : rests .empty xs = [xs] := rfl

@[simp] theorem rests_one_nil (accepts : α → Bool) : rests (.one accepts) [] = [] := rfl

@[simp] theorem rests_one_cons (accepts : α → Bool) (a : α) (as : List α) :
    rests (.one accepts) (a :: as) = if accepts a then [as] else [] := rfl

@[simp] theorem rests_seq (p q : Pattern α) (xs : List α) :
    rests (.seq p q) xs = (rests p xs).flatMap (rests q) := rfl

@[simp] theorem rests_alt (p q : Pattern α) (xs : List α) :
    rests (.alt p q) xs = rests p xs ++ rests q xs := rfl

@[simp] theorem rests_opt (p : Pattern α) (xs : List α) : rests (.opt p) xs = rests p xs ++ [xs] :=
  rfl

/-- A repetition gives items back to what follows it only where that can begin with one. -/
theorem rests_many_seq {accepts : α → Bool} {q : Pattern α}
    (h : ∀ a as, accepts a = true → rests q (a :: as) = []) (xs : List α) :
    rests (.seq (.many accepts) q) xs = rests q (xs.dropWhile accepts) := by
  show (manyRests accepts xs).flatMap (rests q) = _
  induction xs with
  | nil => simp [manyRests]
  | cons a as ih =>
    unfold manyRests
    by_cases ha : accepts a = true
    · rw [if_pos ha, List.flatMap_append, ih, List.dropWhile_cons_of_pos ha]
      simp [h a as ha]
    · rw [if_neg ha, List.dropWhile_cons_of_neg ha]
      simp

/-- The text after an optional item. -/
def skipOne (accepts : α → Bool) : List α → List α
  | [] => []
  | a :: as => if accepts a then as else a :: as

/-- An optional item is left out only where what follows it can begin with one. -/
theorem rests_opt_one_seq {accepts : α → Bool} {q : Pattern α}
    (h : ∀ a as, accepts a = true → rests q (a :: as) = []) (xs : List α) :
    rests (.seq (.opt (.one accepts)) q) xs =
      rests q (skipOne accepts xs) := by
  cases xs with
  | nil => simp [skipOne]
  | cons a as =>
    by_cases ha : accepts a = true
    · simp [skipOne, ha, h a as ha]
    · simp [skipOne, ha]

/-- The greedy repetition takes all that it can. -/
theorem head_manyRests (accepts : α → Bool) (xs : List α) :
    (manyRests accepts xs).head? = some (xs.dropWhile accepts) := by
  induction xs with
  | nil => rfl
  | cons a as ih =>
    unfold manyRests
    by_cases ha : accepts a = true
    · rw [if_pos ha, List.dropWhile_cons_of_pos ha, List.head?_append, ih]
      rfl
    · rw [if_neg ha, List.dropWhile_cons_of_neg ha]
      rfl

variable {rest xs : List α}

/-- A matcher takes a list of classes item by item. -/
theorem mem_rests_word {classes : List (α → Bool)} :
    rest ∈ rests (word classes) xs ↔
      ∃ ys, List.Forall₂ (fun accepts y => accepts y = true) classes ys ∧ xs = ys ++ rest := by
  induction classes generalizing xs with
  | nil =>
    constructor
    · intro h
      exact ⟨[], .nil, (List.mem_singleton.mp h).symm⟩
    · rintro ⟨ys, hys, rfl⟩
      cases hys
      simp [word]
  | cons accepts classes ih =>
    have hword : word (accepts :: classes) = .seq (.one accepts) (word classes) := rfl
    rw [hword, rests_seq]
    constructor
    · intro h
      obtain ⟨mid, hmid, hrest⟩ := List.mem_flatMap.mp h
      cases xs with
      | nil => simp at hmid
      | cons a as =>
        rw [rests_one_cons] at hmid
        split at hmid
        · rename_i ha
          rw [List.mem_singleton.mp hmid] at hrest
          obtain ⟨ys, hys, rfl⟩ := ih.mp hrest
          exact ⟨a :: ys, .cons ha hys, rfl⟩
        · simp at hmid
    · rintro ⟨ys, hys, rfl⟩
      cases hys with
      | cons ha hys =>
        refine List.mem_flatMap.mpr ⟨_, ?_, ih.mpr ⟨_, hys, rfl⟩⟩
        simp [ha]

theorem mem_rests_many {accepts : α → Bool}
    (h : rest ∈ rests (.many accepts) xs) :
    ∃ ys, (∀ y ∈ ys, accepts y = true) ∧ xs = ys ++ rest := by
  replace h : rest ∈ manyRests accepts xs := h
  induction xs with
  | nil => exact ⟨[], by simp, by simpa [manyRests, eq_comm] using h⟩
  | cons a as ih =>
    unfold manyRests at h
    split at h
    · rename_i ha
      rcases List.mem_append.mp h with h | h
      · obtain ⟨ys, hys, rfl⟩ := ih h
        refine ⟨a :: ys, ?_, rfl⟩
        intro y hy
        rcases List.mem_cons.mp hy with rfl | hy
        · exact ha
        · exact hys y hy
      · exact ⟨[], by simp, (List.mem_singleton.mp h).symm⟩
    · exact ⟨[], by simp, (List.mem_singleton.mp h).symm⟩

/-- Where every way through the first pattern leaves the same rest, the second one decides. -/
theorem head_rests_seq {p q : Pattern α} (hmem : rest ∈ rests p xs)
    (hall : ∀ r ∈ rests p xs, r = rest) :
    (rests (.seq p q) xs).head? = (rests q rest).head? := by
  rw [rests_seq]
  cases h : rests p xs with
  | nil => simp [h] at hmem
  | cons r rs =>
    have hr : r = rest := hall r (by simp [h])
    have hrs : ∀ x ∈ rs, x = rest := fun x hx => hall x (by simp [h, hx])
    clear h hmem hall
    subst hr
    rw [List.flatMap_cons, List.head?_append]
    cases hq : (rests q r).head? with
    | some _ => rfl
    | none =>
      have hnil : rests q r = [] := List.head?_eq_none_iff.mp hq
      have hflat : rs.flatMap (rests q) = [] := by
        rw [List.flatMap_eq_nil_iff]
        intro x hx
        rw [hrs x hx, hnil]
      rw [hflat]
      rfl

/-! ## The scan -/

inductive Piece (α : Type*) where
  | kept (a : α)
  | found (xs : List α)
deriving DecidableEq

def Piece.text : Piece α → List α
  | .kept a => [a]
  | .found xs => xs

def Piece.map (f : α → β) : Piece α → Piece β
  | .kept a => .kept (f a)
  | .found xs => .found (xs.map f)

/-- The text of a list of pieces. -/
def textOf (pieces : List (Piece α)) : List α := pieces.flatMap Piece.text

/-- The global search with fuel: `len` tells how many items are taken at a place. -/
def scanFrom (len : List α → Option Nat) : Nat → List α → List (Piece α)
  | 0, _ => []
  | _ + 1, [] => []
  | n + 1, a :: as =>
    match len (a :: as) with
    | some (k + 1) => .found ((a :: as).take (k + 1)) :: scanFrom len n (as.drop k)
    | _ => .kept a :: scanFrom len n as

def scan (len : List α → Option Nat) (xs : List α) : List (Piece α) := scanFrom len xs.length xs

/-- `text.replace(pattern, replacement)` for a pattern with the flag `g`. -/
def replaceAll (len : List α → Option Nat) (replacement : List α → List α) (xs : List α) :
    List α :=
  (scan len xs).flatMap fun
    | .kept a => [a]
    | .found m => replacement m

@[simp] theorem textOf_nil : textOf ([] : List (Piece α)) = [] := rfl

@[simp] theorem textOf_cons (p : Piece α) (ps : List (Piece α)) :
    textOf (p :: ps) = p.text ++ textOf ps := rfl

@[simp] theorem textOf_append (ps qs : List (Piece α)) :
    textOf (ps ++ qs) = textOf ps ++ textOf qs := List.flatMap_append

theorem textOf_map_kept (xs : List α) : textOf (xs.map .kept) = xs := by
  induction xs with
  | nil => rfl
  | cons a as ih => rw [List.map_cons, textOf_cons, ih]; rfl

section Scan

variable {len : List α → Option Nat}

/-- Any fuel for the whole text is enough. -/
theorem scanFrom_fuel {n : Nat} (h : xs.length ≤ n) :
    scanFrom len n xs = scan len xs := by
  have hany : ∀ n k (xs : List α), xs.length ≤ n → xs.length ≤ k →
      scanFrom len n xs = scanFrom len k xs := by
    intro n
    induction n with
    | zero =>
      intro k xs hn _
      obtain rfl : xs = [] := List.length_eq_zero_iff.mp (by omega)
      cases k <;> rfl
    | succ n ih =>
      intro k xs hn hk
      cases xs with
      | nil => cases k <;> rfl
      | cons a as =>
        obtain ⟨k, rfl⟩ : ∃ j, k = j + 1 := ⟨k - 1, by simp at hk; omega⟩
        simp only [List.length_cons] at hn hk
        unfold scanFrom
        split
        · rw [ih k _ (by simp; omega) (by simp; omega)]
        · rw [ih k as (by omega) (by omega)]
  exact hany n _ xs h le_rfl

@[simp] theorem scan_nil : scan len [] = [] := rfl

attribute [local simp] scanFrom

theorem scan_found {k : Nat} (h : len xs = some (k + 1)) (hne : xs ≠ []) :
    scan len xs = .found (xs.take (k + 1)) :: scan len (xs.drop (k + 1)) := by
  obtain ⟨a, as, rfl⟩ := List.exists_cons_of_ne_nil hne
  rw [scan, List.length_cons, scanFrom, h]
  simp only [List.drop_succ_cons]
  rw [scanFrom_fuel (by simp)]

theorem scan_kept {a : α} {as : List α} (h : len (a :: as) = none) :
    scan len (a :: as) = .kept a :: scan len as := by
  rw [scan, List.length_cons, scanFrom, h]
  rfl

/-- One step of the scan, for a search that finds no empty part. -/
theorem scan_cases (hpos : ∀ xs, len xs ≠ some 0) (a : α) (as : List α) :
    (len (a :: as) = none ∧ scan len (a :: as) = .kept a :: scan len as) ∨
      ∃ k, len (a :: as) = some (k + 1) ∧
        scan len (a :: as) = .found ((a :: as).take (k + 1)) :: scan len (as.drop k) := by
  cases h : len (a :: as) with
  | none => exact Or.inl ⟨rfl, scan_kept h⟩
  | some n =>
    cases n with
    | zero => exact absurd h (hpos _)
    | succ k => exact Or.inr ⟨k, rfl, by rw [scan_found h (by simp), List.drop_succ_cons]⟩

/-- The pieces are the text, cut. -/
theorem textOf_scan (hpos : ∀ xs, len xs ≠ some 0) (xs : List α) : textOf (scan len xs) = xs := by
  generalize hn : xs.length = n
  induction n using Nat.strong_induction_on generalizing xs with
  | _ n ih =>
    cases xs with
    | nil => rfl
    | cons a as =>
      simp only [List.length_cons] at hn
      rcases scan_cases hpos a as with ⟨_, hscan⟩ | ⟨k, _, hscan⟩
      · rw [hscan, textOf_cons, ih as.length (by omega) as rfl]
        rfl
      · rw [hscan, textOf_cons, ih (as.drop k).length (by simp; omega) _ rfl]
        simp [Piece.text]

/-- The scan begins anew after each piece. -/
theorem scan_textOf (hpos : ∀ xs, len xs ≠ some 0) {ps qs : List (Piece α)}
    (h : scan len xs = ps ++ qs) : scan len (textOf qs) = qs := by
  induction ps generalizing xs with
  | nil =>
    rw [List.nil_append] at h
    rw [← h, textOf_scan hpos]
  | cons p ps ih =>
    cases xs with
    | nil => simp at h
    | cons a as =>
      rcases scan_cases hpos a as with ⟨_, hscan⟩ | ⟨k, _, hscan⟩
      · rw [hscan, List.cons_append] at h
        exact ih (List.cons.inj h).2
      · rw [hscan, List.cons_append] at h
        exact ih (List.cons.inj h).2

/-- A search that looks at an image of the items finds the same parts in the image. -/
theorem scan_map {len : List β → Option Nat} (f : α → β) (xs : List α) :
    scan len (xs.map f) = (scan (fun ys => len (ys.map f)) xs).map (Piece.map f) := by
  have hfuel : ∀ n (xs : List α), scanFrom len n (xs.map f) =
      (scanFrom (fun ys => len (ys.map f)) n xs).map (Piece.map f) := by
    intro n
    induction n with
    | zero => intro xs; rfl
    | succ n ih =>
      intro xs
      cases xs with
      | nil => rfl
      | cons a as =>
        simp only [List.map_cons, scanFrom]
        split
        · rw [List.map_cons, ← ih, List.map_drop]
          simp [Piece.map]
        · rw [List.map_cons, ← ih]
          rfl
  rw [scan, scan, List.length_map]
  exact hfuel _ xs

/-- Pieces are determined by their text and by an image of them. -/
theorem pieces_eq {f : α → β} {ps qs : List (Piece α)} (htext : textOf ps = textOf qs)
    (hmap : ps.map (Piece.map f) = qs.map (Piece.map f)) : ps = qs := by
  induction ps generalizing qs with
  | nil =>
    cases qs with
    | nil => rfl
    | cons q qs => simp at hmap
  | cons p ps ih =>
    cases qs with
    | nil => simp at hmap
    | cons q qs =>
      obtain ⟨hpq, hrest⟩ := List.cons.inj hmap
      rw [textOf_cons, textOf_cons] at htext
      have hlen : p.text.length = q.text.length := by
        cases p with
        | kept a =>
          cases q with
          | kept b => rfl
          | found ys => cases hpq
        | found xs =>
          cases q with
          | kept b => cases hpq
          | found ys => simpa [Piece.text] using congrArg List.length (Piece.found.inj hpq)
      obtain ⟨hhead, htail⟩ := List.append_inj htext hlen
      have hp : p = q := by
        cases p with
        | kept a =>
          cases q with
          | kept b => rw [(List.cons.inj hhead).1]
          | found ys => cases hpq
        | found xs =>
          cases q with
          | kept b => cases hpq
          | found ys => exact congrArg Piece.found hhead
      rw [hp, ih htail hrest]

/-- A search through an image of the items: what it finds in the image, cut out of the text. -/
theorem scan_eq_of_map {len : List β → Option Nat} (hpos : ∀ xs, len xs ≠ some 0) {f : α → β}
    {ps : List (Piece α)} (h : ps.map (Piece.map f) = scan len ((textOf ps).map f)) :
    scan (fun ys => len (ys.map f)) (textOf ps) = ps := by
  refine pieces_eq (f := f) (textOf_scan (fun xs => hpos _) _) ?_
  rw [h, scan_map]

end Scan

end Regex
