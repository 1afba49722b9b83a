-- The places of a text (`deterministic-facts/extraction/text-anchor.js`): tables of the bytes and
-- the code points in front of each index and of the line breaks, read by a binary search, against
-- what a place is by itself.
import Traqen.Lib.Bisect
import Traqen.Lib.Utf16

namespace Traqen.TextAnchor

open Utf16

/-! ## The tables -/

structure Index where
  bytes : List Nat
  points : List Nat
  breaks : List Nat
  starts : List Nat

/-- One turn of the loop of `indexText`. -/
def indexUnit (text : List Nat) (t : Index) (i : Nat) : Index :=
  let code := text.getD i 0
  let previous := if i = 0 then 0 else text.getD (i - 1) 0
  let pairedLow := isLow code && isHigh previous
  { bytes := t.bytes ++ [t.bytes.getD i 0 +
      if pairedLow then 1 else if code < 0x80 then 1 else if code < 0x800 then 2 else 3]
    points := t.points ++ [t.points.getD i 0 + if pairedLow then 0 else 1]
    breaks :=
      if code = 13 then t.breaks ++ [i + 1]
      else if code = 10 ∧ previous ≠ 13 then t.breaks ++ [i + 1] else t.breaks
    starts :=
      if code = 13 then t.starts ++ [i + if text[i + 1]? = some 10 then 2 else 1]
      else if code = 10 ∧ previous ≠ 13 then t.starts ++ [i + 1] else t.starts }

def emptyIndex : Index := { bytes := [0], points := [0], breaks := [0], starts := [0] }

def indexText (text : List Nat) : Index :=
  (List.range text.length).foldl (indexUnit text) emptyIndex

structure Position where
  line : Nat
  column : Nat
  deriving DecidableEq

def position (t : Index) (index : Nat) : Position :=
  let low := Bisect.search t.breaks index 0 t.breaks.length
  let start := min (t.starts.getD low 0) index
  { line := low + 1, column := t.points.getD index 0 - t.points.getD start 0 + 1 }

/-- An anchor of kind `TEXT`. -/
structure Anchor where
  byteStart : Nat
  byteEnd : Nat
  lineStart : Nat
  columnStart : Nat
  lineEnd : Nat
  columnEnd : Nat
  deriving DecidableEq

/-- `createTextAnchor(text)(start, end)`. -/
def createTextAnchor (text : List Nat) (start end_ : Nat) : Anchor :=
  let t := indexText text
  let first := position t start
  let last := position t end_
  { byteStart := t.bytes.getD start 0, byteEnd := t.bytes.getD end_ 0
    lineStart := first.line, columnStart := first.column
    lineEnd := last.line, columnEnd := last.column }

/-! ## A place by itself -/

/-- A line break: CR, or LF that is not behind a CR. -/
def isBreak (text : List Nat) (i : Nat) : Bool :=
  decide (text[i]? = some 13) ||
    (decide (text[i]? = some 10) && decide (i = 0 ∨ text[i - 1]? ≠ some 13))

/-- The line breaks that end at the index or before. -/
def breaksBefore (text : List Nat) (index : Nat) : List Nat :=
  (List.range text.length).filter fun i => isBreak text i && decide (i + 1 ≤ index)

def lineAt (text : List Nat) (index : Nat) : Nat := 1 + (breaksBefore text index).length

/-- Where the line behind a break begins. -/
def behind (text : List Nat) (i : Nat) : Nat :=
  if text[i]? = some 13 ∧ text[i + 1]? = some 10 then i + 2 else i + 1

def lineBegin (text : List Nat) (index : Nat) : Nat :=
  ((breaksBefore text index).getLast?.map (behind text)).getD 0

/-- Counted from the begin of the line, or from the index where that is between CR and LF. -/
def columnAt (text : List Nat) (index : Nat) : Nat :=
  1 + codePoints (slice text (min (lineBegin text index) index) index)

/-- The anchor of a slice, each field for itself. -/
def anchorOf (text : List Nat) (start end_ : Nat) : Anchor :=
  { byteStart := byteLength (text.take start), byteEnd := byteLength (text.take end_)
    lineStart := lineAt text start, columnStart := columnAt text start
    lineEnd := lineAt text end_, columnEnd := columnAt text end_ }

/-! ## What the tables hold -/

/-- The breaks among the first units. -/
def breaksUpTo (text : List Nat) (k : Nat) : List Nat := (List.range k).filter (isBreak text)

/-- The tables behind `k` turns. -/
structure Indexed (text : List Nat) (k : Nat) (t : Index) : Prop where
  bytes : t.bytes = (List.range (k + 1)).map fun i => byteLength (text.take i)
  points : t.points = (List.range (k + 1)).map fun i => codePoints (text.take i)
  breaks : t.breaks = 0 :: (breaksUpTo text k).map (· + 1)
  starts : t.starts = 0 :: (breaksUpTo text k).map (behind text)

section Tables

variable {text : List Nat} {k : Nat} {t : Index}

theorem getD_map_range {f : Nat → Nat} {n i : Nat} (h : i < n) :
    ((List.range n).map f).getD i 0 = f i := by
  rw [List.getD_eq_getElem _ _ (by simpa using h)]
  simp

theorem take_succ_getD (h : k < text.length) :
    text.take (k + 1) = text.take k ++ [text.getD k 0] := by
  rw [List.take_add_one, List.getElem?_eq_getElem h, List.getD_eq_getElem _ _ h]
  rfl

/-- The last unit in front of an index. -/
theorem getLast?_take (h : k ≤ text.length) :
    (text.take k).getLast? = if k = 0 then none else text[k - 1]? := by
  split_ifs with hk
  · rw [hk]
    rfl
  · rw [List.getLast?_eq_getElem?, List.length_take, Nat.min_eq_left h, List.getElem?_take,
      if_pos (by omega)]

/-- The turn meets the second half of a pair. -/
def pairedAt (text : List Nat) (k : Nat) : Bool :=
  isLow (text.getD k 0) && isHigh (if k = 0 then 0 else text.getD (k - 1) 0)

/-- One more unit, in front of an index. -/
theorem weigh_take_succ {single : Nat → Nat} {pair : Nat} (h : k < text.length) :
    (pairedAt text k = false → weigh single pair (text.take (k + 1)) =
      weigh single pair (text.take k) + single (text.getD k 0)) ∧
    (pairedAt text k = true → weigh single pair (text.take (k + 1)) +
      single (text.getD (k - 1) 0) = weigh single pair (text.take k) + pair ∧
        isHigh (text.getD (k - 1) 0) = true) := by
  rw [take_succ_getD h]
  constructor
  · intro hpaired
    apply weigh_unit
    intro a ha b hb hboth
    obtain rfl := Option.some.inj hb
    rw [getLast?_take (Nat.le_of_lt h)] at ha
    unfold pairedAt at hpaired
    split_ifs at ha with hk
    · cases ha
    · rw [if_neg hk, hboth.2, Bool.true_and, List.getD_eq_getElem?_getD, ha] at hpaired
      rw [Option.getD_some, hboth.1] at hpaired
      cases hpaired
  · intro hpaired
    unfold pairedAt at hpaired
    rw [Bool.and_eq_true] at hpaired
    obtain ⟨hlow, hhigh⟩ := hpaired
    have hk : k ≠ 0 := by
      rintro rfl
      rw [if_pos rfl] at hhigh
      cases hhigh
    rw [if_neg hk] at hhigh
    have hfront : text.take k = text.take (k - 1) ++ [text.getD (k - 1) 0] := by
      have hsucc := @take_succ_getD text (k - 1) (by omega)
      rwa [Nat.sub_add_cancel (Nat.pos_of_ne_zero hk)] at hsucc
    rw [hfront]
    exact ⟨weigh_pair hhigh hlow, hhigh⟩

theorem unitBytes_of_high {c : Nat} (h : isHigh c = true) : unitBytes c = 3 := by
  have hhigh := of_decide_eq_true h
  unfold unitBytes
  rw [if_neg (by omega), if_neg (by omega)]

theorem byteLength_take_succ (h : k < text.length) : byteLength (text.take (k + 1)) =
    byteLength (text.take k) + if pairedAt text k then 1 else unitBytes (text.getD k 0) := by
  rw [byteLength_eq_weigh, byteLength_eq_weigh]
  obtain ⟨hunit, hpair⟩ := @weigh_take_succ text k unitBytes 4 h
  cases hpaired : pairedAt text k with
  | false => rw [hunit hpaired, if_neg (by simp)]
  | true =>
    obtain ⟨hsum, hhigh⟩ := hpair hpaired
    rw [unitBytes_of_high hhigh] at hsum
    rw [if_pos rfl]
    omega

theorem codePoints_take_succ (h : k < text.length) : codePoints (text.take (k + 1)) =
    codePoints (text.take k) + if pairedAt text k then 0 else 1 := by
  unfold codePoints
  obtain ⟨hunit, hpair⟩ := @weigh_take_succ text k (fun _ => 1) 1 h
  cases hpaired : pairedAt text k with
  | false => rw [hunit hpaired, if_neg (by simp)]
  | true =>
    obtain ⟨hsum, -⟩ := hpair hpaired
    rw [if_pos rfl]
    omega

/-- The turn meets a line break. -/
theorem isBreak_iff (h : k < text.length) : isBreak text k = true ↔ text.getD k 0 = 13 ∨
    text.getD k 0 = 10 ∧ (if k = 0 then 0 else text.getD (k - 1) 0) ≠ 13 := by
  have hprevious : (k = 0 ∨ text[k - 1]? ≠ some 13) ↔
      (if k = 0 then 0 else text.getD (k - 1) 0) ≠ 13 := by
    by_cases hk : k = 0
    · simp [hk]
    · rw [if_neg hk, List.getElem?_eq_getElem (by omega), List.getD_eq_getElem _ _ (by omega)]
      simp [hk]
  unfold isBreak
  rw [Bool.or_eq_true, Bool.and_eq_true, decide_eq_true_eq, decide_eq_true_eq, decide_eq_true_eq,
    hprevious, List.getElem?_eq_getElem h, List.getD_eq_getElem _ _ h]
  simp

theorem breaksUpTo_succ : breaksUpTo text (k + 1) =
    if isBreak text k = true then breaksUpTo text k ++ [k] else breaksUpTo text k := by
  unfold breaksUpTo
  rw [List.range_succ, List.filter_append]
  split_ifs with hbreak
  · rw [List.filter_cons_of_pos hbreak]
    rfl
  · rw [List.filter_cons_of_neg hbreak, List.filter_nil, List.append_nil]

theorem behind_of_cr (h : k < text.length) (hcode : text.getD k 0 = 13) :
    behind text k = k + if text[k + 1]? = some 10 then 2 else 1 := by
  unfold behind
  rw [List.getElem?_eq_getElem h, ← List.getD_eq_getElem _ 0 h, hcode]
  split_ifs <;> simp_all

theorem behind_of_lf (h : k < text.length) (hcode : text.getD k 0 ≠ 13) :
    behind text k = k + 1 := by
  unfold behind
  rw [List.getElem?_eq_getElem h, ← List.getD_eq_getElem _ 0 h, if_neg]
  exact fun hboth => hcode (Option.some.inj hboth.1)

theorem indexUnit_indexed (h : k < text.length) (ht : Indexed text k t) :
    Indexed text (k + 1) (indexUnit text t k) := by
  have hbytes : t.bytes.getD k 0 = byteLength (text.take k) := by
    rw [ht.bytes, getD_map_range (Nat.lt_succ_self k)]
  have hpoints : t.points.getD k 0 = codePoints (text.take k) := by
    rw [ht.points, getD_map_range (Nat.lt_succ_self k)]
  have hbreak := isBreak_iff h
  refine ⟨?_, ?_, ?_, ?_⟩
  · rw [List.range_succ, List.map_append, ← ht.bytes, List.map_singleton, byteLength_take_succ h,
      ← hbytes]
    rfl
  · rw [List.range_succ, List.map_append, ← ht.points, List.map_singleton, codePoints_take_succ h,
      ← hpoints]
    rfl
  · rw [breaksUpTo_succ]
    dsimp only [indexUnit]
    rw [ht.breaks]
    by_cases hcr : text.getD k 0 = 13
    · rw [if_pos hcr, if_pos (hbreak.mpr (Or.inl hcr)), List.map_append]
      rfl
    · rw [if_neg hcr]
      by_cases hlf : text.getD k 0 = 10 ∧ (if k = 0 then 0 else text.getD (k - 1) 0) ≠ 13
      · rw [if_pos hlf, if_pos (hbreak.mpr (Or.inr hlf)), List.map_append]
        rfl
      · rw [if_neg hlf, if_neg fun hyes => (hbreak.mp hyes).elim hcr hlf]
  · rw [breaksUpTo_succ]
    dsimp only [indexUnit]
    rw [ht.starts]
    by_cases hcr : text.getD k 0 = 13
    · rw [if_pos hcr, if_pos (hbreak.mpr (Or.inl hcr)), List.map_append, List.map_singleton,
        behind_of_cr h hcr]
      rfl
    · rw [if_neg hcr]
      by_cases hlf : text.getD k 0 = 10 ∧ (if k = 0 then 0 else text.getD (k - 1) 0) ≠ 13
      · rw [if_pos hlf, if_pos (hbreak.mpr (Or.inr hlf)), List.map_append, List.map_singleton,
          behind_of_lf h hcr]
        rfl
      · rw [if_neg hlf, if_neg fun hyes => (hbreak.mp hyes).elim hcr hlf]

/-- The tables of the whole text. -/
theorem indexText_indexed (text : List Nat) : Indexed text text.length (indexText text) := by
  have hturns : ∀ k ≤ text.length,
      Indexed text k ((List.range k).foldl (indexUnit text) emptyIndex) := by
    intro k hk
    induction k with
    | zero => exact ⟨rfl, rfl, rfl, rfl⟩
    | succ k ih =>
      rw [List.range_succ, List.foldl_append]
      exact indexUnit_indexed (by omega) (ih (by omega))
  exact hturns text.length (Nat.le_refl _)

end Tables

/-! ## Positions -/

section Positions

variable {text : List Nat} {index : Nat}

theorem breaksBefore_eq (text : List Nat) (index : Nat) : breaksBefore text index =
    (breaksUpTo text text.length).filter fun i => decide (i + 1 ≤ index) := by
  unfold breaksBefore breaksUpTo
  rw [List.filter_filter]
  congr 1
  funext i
  rw [Bool.and_comm]

/-- The breaks that the search leaves behind it. -/
theorem take_search (text : List Nat) (index : Nat) :
    breaksBefore text index = (breaksUpTo text text.length).take
      (Bisect.search (indexText text).breaks index 0 (indexText text).breaks.length) := by
  have hbreaks := (indexText_indexed text).breaks
  have hsorted : (indexText text).breaks.Pairwise (· < ·) := by
    rw [hbreaks, List.pairwise_cons, List.pairwise_map]
    refine ⟨by simp, ?_⟩
    exact (List.pairwise_lt_range.filter _).imp fun h => Nat.succ_lt_succ h
  have hfirst : (indexText text).breaks.getD 0 0 ≤ index := by
    rw [hbreaks]
    exact Nat.zero_le _
  have hfilter := Bisect.filter_search hsorted hfirst (by rw [hbreaks]; exact List.cons_ne_nil _ _)
  rw [breaksBefore_eq]
  generalize Bisect.search (indexText text).breaks index 0 (indexText text).breaks.length = low at *
  rw [hbreaks, List.filter_cons_of_pos (by simp), List.take_succ_cons] at hfilter
  have hmap := (List.cons.inj hfilter).2
  rw [← List.map_take, List.filter_map] at hmap
  exact List.map_injective_iff.mpr (fun _ _ h => Nat.succ.inj h) hmap

theorem search_lt (text : List Nat) (index : Nat) :
    Bisect.search (indexText text).breaks index 0 (indexText text).breaks.length <
      (breaksUpTo text text.length).length + 1 := by
  have hbreaks := (indexText_indexed text).breaks
  have hlength : (indexText text).breaks.length = (breaksUpTo text text.length).length + 1 := by
    rw [hbreaks, List.length_cons, List.length_map]
  have hfirst : (indexText text).breaks.getD 0 0 ≤ index := by
    rw [hbreaks]
    exact Nat.zero_le _
  rw [← hlength]
  exact (Bisect.search_spec hfirst (by omega) (Or.inl rfl)).2.2.1

theorem length_breaksBefore (text : List Nat) (index : Nat) :
    (breaksBefore text index).length =
      Bisect.search (indexText text).breaks index 0 (indexText text).breaks.length := by
  have hlt := search_lt text index
  rw [take_search, List.length_take]
  omega

/-- The begin of the line is what stands beside the break that was found. -/
theorem starts_search (text : List Nat) (index : Nat) :
    (indexText text).starts.getD (Bisect.search (indexText text).breaks index 0
      (indexText text).breaks.length) 0 = lineBegin text index := by
  have hlt := search_lt text index
  unfold lineBegin
  rw [take_search, (indexText_indexed text).starts]
  generalize Bisect.search (indexText text).breaks index 0 (indexText text).breaks.length = low at *
  cases low with
  | zero => rfl
  | succ n =>
    rw [List.getD_cons_succ, List.getLast?_eq_getElem?, List.length_take,
      Nat.min_eq_left (by omega), Nat.add_sub_cancel, List.getElem?_take, if_pos (by omega),
      List.getD_eq_getElem?_getD, List.getElem?_map]

/-- A line does not begin within a pair. -/
theorem apart_lineBegin (h : index ≤ text.length) :
    Apart (text.take (min (lineBegin text index) index))
      (slice text (min (lineBegin text index) index) index) := by
  rcases Nat.le_total index (lineBegin text index) with hle | hle
  · rw [Nat.min_eq_right hle, slice_eq, Nat.sub_self]
    intro a _ b hb
    cases hb
  · rw [Nat.min_eq_left hle]
    intro a ha b _ hboth
    rw [getLast?_take (by omega)] at ha
    unfold lineBegin at ha
    cases hlast : (breaksBefore text index).getLast? with
    | none =>
      rw [hlast] at ha
      cases ha
    | some i =>
      rw [hlast, Option.map_some, Option.getD_some] at ha
      have hmem := List.mem_of_getLast? hlast
      unfold breaksBefore at hmem
      obtain ⟨hrange, hbreak⟩ := List.mem_filter.mp hmem
      have hi := List.mem_range.mp hrange
      rw [Bool.and_eq_true] at hbreak
      have hunit : a = 13 ∨ a = 10 := by
        unfold behind at ha
        by_cases hcrlf : text[i]? = some 13 ∧ text[i + 1]? = some 10
        · rw [if_pos hcrlf, if_neg (by omega)] at ha
          change text[i + 1]? = some a at ha
          rw [hcrlf.2] at ha
          exact Or.inr (Option.some.inj ha).symm
        · rw [if_neg hcrlf, if_neg (by omega)] at ha
          change text[i]? = some a at ha
          unfold isBreak at hbreak
          rw [ha] at hbreak
          simp only [Bool.or_eq_true, Bool.and_eq_true, decide_eq_true_eq,
            Option.some.injEq] at hbreak
          exact hbreak.1.imp_right And.left
      rcases hunit with rfl | rfl
      · exact absurd hboth.1 (by decide)
      · exact absurd hboth.1 (by decide)

theorem position_eq (h : index ≤ text.length) : position (indexText text) index =
    { line := lineAt text index, column := columnAt text index } := by
  have hpoints : ∀ i ≤ text.length, (indexText text).points.getD i 0 =
      codePoints (text.take i) := by
    intro i hi
    rw [(indexText_indexed text).points, getD_map_range (by omega)]
  have hsplit : text.take index = text.take (min (lineBegin text index) index) ++
      slice text (min (lineBegin text index) index) index := by
    unfold slice
    conv_lhs => rw [← List.take_append_drop (min (lineBegin text index) index) (text.take index)]
    rw [List.take_take, Nat.min_eq_left (Nat.min_le_right _ _)]
  unfold position lineAt columnAt
  dsimp only
  rw [starts_search, hpoints index h, hpoints _ (by omega), length_breaksBefore]
  have hsum : codePoints (text.take index) = codePoints (text.take (min (lineBegin text index)
      index)) + codePoints (slice text (min (lineBegin text index) index) index) := by
    conv_lhs => rw [hsplit]
    exact weigh_append (apart_lineBegin h)
  rw [hsum, Nat.add_sub_cancel_left, Nat.add_comm _ 1, Nat.add_comm _ 1]

end Positions

/-! ## Anchors -/

/-- The anchor is what the bytes, the lines and the columns are by themselves. -/
theorem createTextAnchor_eq (text : List Nat) {start end_ : Nat} (hstart : start ≤ end_)
    (hend : end_ ≤ text.length) : createTextAnchor text start end_ = anchorOf text start end_ := by
  have hbytes : ∀ i ≤ text.length, (indexText text).bytes.getD i 0 = byteLength (text.take i) := by
    intro i hi
    rw [(indexText_indexed text).bytes, getD_map_range (by omega)]
  unfold createTextAnchor anchorOf
  dsimp only
  rw [position_eq (Nat.le_trans hstart hend), position_eq hend, hbytes start (by omega),
    hbytes end_ hend]

/-- Between CR and LF, and within a pair: `"é\r\n😀"` from 2 to 4. -/
theorem anchor_within_pair : 2 ≤ 4 ∧ createTextAnchor [0xE9, 13, 10, 0xD83D, 0xDE00] 2 4 =
    { byteStart := 3, byteEnd := 7, lineStart := 2, columnStart := 1, lineEnd := 2
      columnEnd := 2 } :=
  ⟨by decide, (createTextAnchor_eq _ (by decide) (by decide)).trans (by decide)⟩

end Traqen.TextAnchor
