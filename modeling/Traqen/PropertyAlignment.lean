-- Where property declarations follow Java: the logical lines of both are the same, unless a line
-- goes on while it is still empty and the next is blank or a comment. There Java begins anew.
import Traqen.JavaLines

namespace Traqen.PropertiesStructure

open Utf16 (hexDigit unicodeUnit unicodeUnit_some)
open JavaProperties (pair load)

/-! ## The condition -/

/-- There is a unit to begin with, or the input ends behind one character that ends the line. -/
def resumes (ending : List Nat) : List Natural → Bool
  | [] => true
  | next :: later =>
    !isIdle (strip next.units) || decide (next :: later = [⟨[], []⟩] ∧ ending.length = 1)

/-- No logical line goes on into a blank line or a comment while it is still empty. -/
def neverEmpty : Option (List Nat) → List Natural → Bool
  | _, [] => true
  | pending, line :: rest =>
    let body := strip line.units
    if pending = none ∧ isIdle body = true then neverEmpty none rest
    else
      let units := pending.getD [] ++ body
      if escapedAfter body then
        (decide (units.dropLast ≠ []) || resumes line.ending rest) &&
          neverEmpty (some units.dropLast) rest
      else neverEmpty none rest

def NoEmptyContinuation (text : List Nat) : Prop := neverEmpty none (naturals text) = true

instance (text : List Nat) : Decidable (NoEmptyContinuation text) := by
  unfold NoEmptyContinuation
  exact inferInstance

/-! ## The logical lines side by side -/

def Signed (units : List Nat) : Prop := ∃ c cs, units = c :: cs ∧ (c = hash ∨ c = bang)

/-- Java has only the end of a line: what is before it, it took for a comment. -/
structure Cut (front line rest : List Nat) : Prop where
  whole : line = front ++ rest
  signed : Signed front
  closed : escapedAfter front = false
  begun : ¬ Signed rest

/-- The logical lines here, those of Java, and whether they are the same. -/
inductive Aligned : List (List Nat) → List (List Nat) → Bool → Prop
  | nil : Aligned [] [] true
  | same {lines java : List (List Nat)} {all : Bool} (line : List Nat)
      (h : Aligned lines java all) : Aligned (line :: lines) (line :: java) all
  | missing {lines java : List (List Nat)} {all : Bool} (line : List Nat)
      (h : Aligned lines java all) : Aligned (line :: lines) java false
  | cut {lines java : List (List Nat)} {all : Bool} {front line rest : List Nat}
      (hcut : Cut front line rest) (h : Aligned lines java all) :
      Aligned (line :: lines) (rest :: java) false

/-- The units of the logical lines. -/
def unitsOfLines (pending : Option (List Nat × Nat)) (p : Nat) (lines : List Natural) :
    List (List Nat) := (logicalLines pending p lines).map (·.units)

variable {key units value xs ys : List Nat}

theorem dropLast_joined {body : List Nat} (h : escapedAfter body = true) :
    ∃ front, body = front ++ [backslash] ∧ escapedAfter front = false ∧
      (units ++ body).dropLast = units ++ front := by
  obtain ⟨front, rfl, hfront⟩ := continued_end h
  exact ⟨front, rfl, hfront, by rw [← List.append_assoc, List.dropLast_concat]⟩

theorem isIdle_iff {body : List Nat} : isIdle body = true ↔ body = [] ∨ Signed body := by
  unfold isIdle Signed
  cases body with
  | nil => simp
  | cons c cs => simp

variable {c p : Nat}

theorem unitsOfLines_skip {line : Natural} {rest : List Natural}
    (h : isIdle (strip line.units) = true) :
    unitsOfLines none p (line :: rest) =
      unitsOfLines none (p + line.units.length + line.ending.length) rest := by
  unfold unitsOfLines
  rw [logicalLines, if_pos ⟨rfl, h⟩]

variable {pending : Option (List Nat × Nat)}

theorem unitsOfLines_goes {line : Natural}
    {rest : List Natural} (hactive : ¬ (pending = none ∧ isIdle (strip line.units) = true))
    (h : escapedAfter (strip line.units) = true) :
    unitsOfLines pending p (line :: rest) =
      unitsOfLines (some (((pending.getD ([], p)).1 ++ strip line.units).dropLast,
        (pending.getD ([], p)).2)) (p + line.units.length + line.ending.length) rest := by
  unfold unitsOfLines
  rw [logicalLines, if_neg hactive]
  simp only [h, if_true]

theorem unitsOfLines_ends {line : Natural}
    {rest : List Natural} (hactive : ¬ (pending = none ∧ isIdle (strip line.units) = true))
    (h : escapedAfter (strip line.units) = false) :
    unitsOfLines pending p (line :: rest) = ((pending.getD ([], p)).1 ++ strip line.units) ::
      unitsOfLines none (p + line.units.length + line.ending.length) rest := by
  unfold unitsOfLines
  rw [logicalLines, if_neg hactive]
  simp only [h, Bool.false_eq_true, if_false, List.map_cons]

/-- The first of the natural lines has a unit to begin with. -/
def begins : List Natural → Bool
  | [] => true
  | line :: _ => !isIdle (strip line.units)

/-- The logical lines side by side: between two of them, within one, within one that is still empty,
and within one of which Java has only the end. -/
structure Alignments (lines : List Natural) : Prop where
  idle : ∀ p, Closed false lines →
    Aligned (unitsOfLines none p lines) (returned [] lines) (neverEmpty none lines)
  going : ∀ p units start, units ≠ [] → Closed true lines →
    Aligned (unitsOfLines (some (units, start)) p lines) (returned units lines)
      (neverEmpty (some units) lines)
  empty : ∀ p start, Closed true lines →
    Aligned (unitsOfLines (some ([], start)) p lines) (returned [] lines)
      (begins lines && neverEmpty (some []) lines)
  cut : ∀ p start front units, Signed front → escapedAfter front = false → ¬ Signed units →
    Closed true lines → lines ≠ [] →
    Aligned (unitsOfLines (some (front ++ units, start)) p lines) (returned units lines) false

theorem alignments_nil : Alignments [] :=
  ⟨fun _ _ => .nil, fun _ _ _ _ _ => .nil, fun _ _ _ => .nil,
    fun _ _ _ _ _ _ _ _ hne => absurd rfl hne⟩

variable {line : Natural} {rest : List Natural}

theorem resumes_begins (h : ¬ (rest = [⟨[], []⟩] ∧ line.ending.length = 1)) :
    resumes line.ending rest = begins rest := by
  cases rest with
  | nil => rfl
  | cons next later =>
    rw [resumes, begins, decide_eq_false h, Bool.or_false]

/-- A natural line that both take up in the same way. -/
theorem aligned_taken (ih : Alignments rest)
    (hactive : ¬ ((pending.getD ([], p)).1 = [] ∧ isIdle (strip line.units) = true))
    (hclosed : Closed pending.isSome (line :: rest)) :
    Aligned (unitsOfLines pending p (line :: rest))
      (returned (pending.getD ([], p)).1 (line :: rest))
      (neverEmpty (pending.map (·.1)) (line :: rest)) := by
  have hpending : ¬ (pending = none ∧ isIdle (strip line.units) = true) := by
    rintro ⟨rfl, hidle⟩
    exact hactive ⟨rfl, hidle⟩
  have hmap : ¬ (pending.map (·.1) = none ∧ isIdle (strip line.units) = true) := by
    rw [Option.map_eq_none_iff]
    exact hpending
  have hsome : ¬ (pending.isSome = false ∧ isIdle (strip line.units) = true) := by
    rw [Option.isSome_eq_false_iff, Option.isNone_iff_eq_none]
    exact hpending
  have hunits : (pending.map (·.1)).getD [] = (pending.getD ([], p)).1 := by
    cases pending <;> rfl
  rw [Closed, if_neg hsome] at hclosed
  rw [returned, if_neg hactive, neverEmpty, if_neg hmap, hunits]
  by_cases hgoes : escapedAfter (strip line.units) = true
  · rw [if_pos hgoes] at hclosed
    obtain ⟨hmore, hclosed⟩ := hclosed
    rw [if_neg hmore, if_pos hgoes, if_pos hgoes, unitsOfLines_goes hpending hgoes]
    generalize (pending.getD ([], p)).2 = start
    generalize ((pending.getD ([], p)).1 ++ strip line.units).dropLast = units
    by_cases hend : rest = [⟨[], []⟩] ∧ line.ending.length = 1
    · rw [if_pos hend]
      obtain ⟨rfl, hlength⟩ := hend
      have hresumes : resumes line.ending [⟨[], []⟩] = true := by
        rw [resumes, decide_eq_true ⟨rfl, hlength⟩, Bool.or_true]
      have hever : neverEmpty (some units) [⟨[], []⟩] = true := by
        rw [neverEmpty, if_neg (by simp), if_neg (by decide)]
        rfl
      have hlines : ∀ q, unitsOfLines (some (units, start)) q [⟨[], []⟩] = [units] := by
        intro q
        rw [unitsOfLines_ends (by simp) rfl]
        simp [strip, unitsOfLines, logicalLines]
      rw [hresumes, hever, Bool.or_true, hlines]
      exact .same units .nil
    · rw [if_neg hend, resumes_begins hend]
      by_cases hunits' : units = []
      · subst hunits'
        exact ih.empty _ start hclosed
      · rw [decide_eq_true hunits', Bool.true_or, Bool.true_and]
        exact ih.going _ units start hunits' hclosed
  · have hends := Bool.eq_false_iff.mpr hgoes
    rw [if_neg hgoes] at hclosed
    rw [if_neg hgoes, if_neg hgoes, unitsOfLines_ends hpending hends]
    by_cases hlast : rest = []
    · subst hlast
      have hadded : added (strip line.units) = strip line.units := by
        rw [added, if_neg hgoes]
      rw [if_pos rfl, hadded]
      exact .same _ .nil
    · rw [if_neg hlast]
      exact .same _ (ih.idle _ hclosed)

theorem Signed.append (h : Signed units) (more : List Nat) : Signed (units ++ more) := by
  obtain ⟨c, cs, rfl, hc⟩ := h
  exact ⟨c, cs ++ more, rfl, hc⟩

theorem signed_of_append {more : List Nat} (h : Signed (units ++ more)) :
    Signed units ∨ units = [] ∧ Signed more := by
  cases units with
  | nil => exact .inr ⟨rfl, h⟩
  | cons d ds =>
    obtain ⟨c, cs, hunits, hc⟩ := h
    cases hunits
    exact .inl ⟨d, ds, rfl, hc⟩

theorem not_signed_nil : ¬ Signed [] := by
  rintro ⟨_, _, h, _⟩
  cases h

theorem not_signed_backslash : ¬ Signed [backslash] := by
  rintro ⟨c, cs, hunits, hc⟩
  cases hunits
  revert hc
  decide

/-- A natural line behind what Java took for a comment. -/
theorem aligned_cut (ih : Alignments rest) {start : Nat} {front : List Nat}
    (hsigned : Signed front) (hfront : escapedAfter front = false) (hbegun : ¬ Signed units)
    (hclosed : Closed true (line :: rest)) :
    Aligned (unitsOfLines (some (front ++ units, start)) p (line :: rest))
      (returned units (line :: rest)) false := by
  have hpending : ¬ (some (front ++ units, start) = none ∧ isIdle (strip line.units) = true) := by
    simp
  rw [Closed, if_neg (by simp)] at hclosed
  by_cases hgoes : escapedAfter (strip line.units) = true
  · rw [if_pos hgoes] at hclosed
    obtain ⟨hmore, hclosed⟩ := hclosed
    obtain ⟨body, hbody, hend, hjoined⟩ := @dropLast_joined (front ++ units) _ hgoes
    rw [unitsOfLines_goes hpending hgoes, Option.getD_some, hjoined, returned]
    by_cases hskip : units = [] ∧ isIdle (strip line.units) = true
    · rw [if_pos hskip, hskip.1, List.append_nil]
      have hclosed' : escapedAfter (front ++ body) = false := by
        rw [escapedAfter_append _ _ hfront, hend]
      have hall := ih.cut (p + line.units.length + line.ending.length) start (front ++ body) []
        (hsigned.append body) hclosed' not_signed_nil hclosed hmore
      rw [List.append_nil] at hall
      exact hall
    · have hnot : ¬ Signed (units ++ body) := by
        intro h
        rcases signed_of_append h with h | ⟨hunits, h⟩
        · exact hbegun h
        · refine hskip ⟨hunits, isIdle_iff.mpr (.inr ?_)⟩
          rw [hbody]
          exact h.append _
      have hlast : (units ++ strip line.units).dropLast = units ++ body := by
        rw [hbody, ← List.append_assoc, List.dropLast_concat]
      rw [if_neg hskip, if_neg hmore, if_pos hgoes, hlast, List.append_assoc]
      by_cases hquirk : rest = [⟨[], []⟩] ∧ line.ending.length = 1
      · rw [if_pos hquirk, hquirk.1, unitsOfLines_ends (by simp) rfl]
        have hempty : strip ([] : List Nat) = [] := rfl
        rw [Option.getD_some, hempty, List.append_nil]
        exact .cut ⟨rfl, hsigned, hfront, hnot⟩ .nil
      · rw [if_neg hquirk]
        exact ih.cut _ start front (units ++ body) hsigned hfront hnot hclosed hmore
  · have hends := Bool.eq_false_iff.mpr hgoes
    rw [if_neg hgoes] at hclosed
    rw [unitsOfLines_ends hpending hends, Option.getD_some, returned]
    by_cases hskip : units = [] ∧ isIdle (strip line.units) = true
    · rw [if_pos hskip]
      exact .missing _ (ih.idle _ hclosed)
    · have hnot : ¬ Signed (units ++ strip line.units) := by
        intro h
        rcases signed_of_append h with h | ⟨hunits, h⟩
        · exact hbegun h
        · exact hskip ⟨hunits, isIdle_iff.mpr (.inr h)⟩
      have hcut : Cut front (front ++ units ++ strip line.units) (units ++ strip line.units) :=
        ⟨List.append_assoc _ _ _, hsigned, hfront, hnot⟩
      rw [if_neg hskip, if_neg hgoes]
      by_cases hlast : rest = []
      · subst hlast
        have hadded : added (strip line.units) = strip line.units := by
          rw [added, if_neg hgoes]
        rw [if_pos rfl, hadded]
        exact .cut hcut .nil
      · rw [if_neg hlast]
        exact .cut hcut (ih.idle _ hclosed)

/-- A natural line that Java takes for blank or a comment, within a line that is still empty. -/
theorem aligned_empty (ih : Alignments rest) {start : Nat}
    (hidle : isIdle (strip line.units) = true) (hclosed : Closed true (line :: rest)) :
    Aligned (unitsOfLines (some ([], start)) p (line :: rest)) (returned [] (line :: rest))
      false := by
  have hpending : ¬ (some (([] : List Nat), start) = none ∧
      isIdle (strip line.units) = true) := by
    simp
  rw [Closed, if_neg (by simp)] at hclosed
  rw [returned, if_pos ⟨rfl, hidle⟩]
  by_cases hgoes : escapedAfter (strip line.units) = true
  · rw [if_pos hgoes] at hclosed
    obtain ⟨hmore, hclosed⟩ := hclosed
    obtain ⟨body, hbody, hend, hjoined⟩ := @dropLast_joined [] _ hgoes
    rw [unitsOfLines_goes hpending hgoes, Option.getD_some, hjoined, List.nil_append]
    have hsigned : Signed body := by
      rcases isIdle_iff.mp hidle with hnone | hsigned
      · rw [hnone] at hgoes
        cases hgoes
      · rw [hbody] at hsigned
        rcases signed_of_append hsigned with h | ⟨-, h⟩
        · exact h
        · exact absurd h not_signed_backslash
    have hall := ih.cut (p + line.units.length + line.ending.length) start body [] hsigned hend
      not_signed_nil hclosed hmore
    rw [List.append_nil] at hall
    exact hall
  · have hends := Bool.eq_false_iff.mpr hgoes
    rw [if_neg hgoes] at hclosed
    rw [unitsOfLines_ends hpending hends]
    exact .missing _ (ih.idle _ hclosed)

theorem alignments (lines : List Natural) : Alignments lines := by
  induction lines with
  | nil => exact alignments_nil
  | cons line rest ih =>
    refine ⟨fun p hclosed => ?_, fun p units start hunits hclosed => ?_, fun p start hclosed => ?_,
      fun p start front units hsigned hfront hbegun hclosed _ =>
        aligned_cut ih hsigned hfront hbegun hclosed⟩
    · by_cases hidle : isIdle (strip line.units) = true
      · rw [Closed, if_pos ⟨rfl, hidle⟩] at hclosed
        rw [unitsOfLines_skip hidle, returned, if_pos ⟨rfl, hidle⟩, neverEmpty,
          if_pos ⟨rfl, hidle⟩]
        exact ih.idle _ hclosed
      · exact @aligned_taken p none line rest ih (fun h => hidle h.2) hclosed
    · exact @aligned_taken p (some (units, start)) line rest ih (fun h => hunits h.1) hclosed
    · by_cases hidle : isIdle (strip line.units) = true
      · have hno : begins (line :: rest) = false := by
          rw [begins, hidle]
          rfl
        rw [hno, Bool.false_and]
        exact aligned_empty ih hidle hclosed
      · have hyes : begins (line :: rest) = true := by
          rw [begins, Bool.eq_false_iff.mpr hidle]
          rfl
        rw [hyes, Bool.true_and]
        exact @aligned_taken p (some ([], start)) line rest ih (fun h => hidle h.2) hclosed

/-! ## A line that is cut has another pair -/

theorem escapedAfter_cons (h : c ≠ backslash) (cs : List Nat) :
    escapedAfter (c :: cs) = escapedAfter cs := by
  have hflip : flip false c = false := by simp [flip, h]
  rw [escapedAfter, List.foldl_cons, hflip]
  rfl

theorem escapedAfter_escape (e : Nat) (rest : List Nat) :
    escapedAfter (backslash :: e :: rest) = escapedAfter rest := by
  have hflip : flip (flip false backslash) e = false := by simp [flip]
  rw [escapedAfter, List.foldl_cons, List.foldl_cons, hflip]
  rfl

theorem not_backslash_of_hex (h : (hexDigit c).isSome = true) : c ≠ backslash := by
  rintro rfl
  cases h

/-- No escape goes on behind a unit that is no hexadecimal digit. -/
theorem unescape_cut {rest : List Nat}
    (hshort : ∀ (x y z w : Nat) (more : List Nat), rest = x :: y :: z :: w :: more → False)
    (hplain : ∀ c, ys.head? = some c → hexDigit c = none)
    (h : unescape (backslash :: 0x75 :: (rest ++ ys)) = some value) : False := by
  have hlong : ∃ (x y z w : Nat) (more : List Nat), rest ++ ys = x :: y :: z :: w :: more := by
    by_contra hnone
    rw [unescape_short fun x y z w more heq => hnone ⟨x, y, z, w, more, heq⟩] at h
    cases h
  obtain ⟨x, y, z, w, more, hunits⟩ := hlong
  rw [hunits, unescape_unicode] at h
  obtain ⟨unit, hunit, -⟩ := Option.bind_eq_some_iff.mp h
  obtain ⟨hx, hy, hz, hw⟩ := unicodeUnit_some hunit
  have hhead : ∀ c, ys.head? = some c → (hexDigit c).isSome = true → False := by
    intro c hc hsome
    rw [hplain c hc] at hsome
    cases hsome
  rcases rest with _ | ⟨a, _ | ⟨b, _ | ⟨c, _ | ⟨d, tail⟩⟩⟩⟩
  · exact hhead x (by rw [← List.nil_append ys, hunits]; rfl) hx
  · simp only [List.cons_append, List.nil_append, List.cons.injEq] at hunits
    exact hhead y (by rw [hunits.2]; rfl) hy
  · simp only [List.cons_append, List.nil_append, List.cons.injEq] at hunits
    exact hhead z (by rw [hunits.2.2]; rfl) hz
  · simp only [List.cons_append, List.nil_append, List.cons.injEq] at hunits
    exact hhead w (by rw [hunits.2.2.2]; rfl) hw
  · exact hshort a b c d tail rfl

/-- Decoding goes through a place that is not within an escape. -/
theorem unescape_append (hclosed : escapedAfter xs = false)
    (hplain : ∀ c, ys.head? = some c → hexDigit c = none)
    (h : unescape (xs ++ ys) = some value) :
    ∃ front back, unescape xs = some front ∧ unescape ys = some back ∧
      value = front ++ back := by
  induction xs using unescape.induct generalizing value with
  | case1 => exact ⟨[], value, rfl, h, rfl⟩
  | case2 c cs hc ih =>
    rw [escapedAfter_cons hc] at hclosed
    rw [List.cons_append, unescape_plain hc] at h
    obtain ⟨units, hunits, rfl⟩ := Option.map_eq_some_iff.mp h
    obtain ⟨front, back, hfront, hback, rfl⟩ := ih hclosed hunits
    exact ⟨c :: front, back, by rw [unescape_plain hc, hfront]; rfl, hback, rfl⟩
  | case3 c hc =>
    rw [not_not.mp hc] at hclosed
    cases hclosed
  | case4 c hc e cs he ih =>
    rw [not_not.mp hc] at hclosed h ⊢
    rw [escapedAfter_escape] at hclosed
    rw [List.cons_append, List.cons_append, unescape_escape he] at h
    obtain ⟨units, hunits, rfl⟩ := Option.map_eq_some_iff.mp h
    obtain ⟨front, back, hfront, hback, rfl⟩ := ih hclosed hunits
    exact ⟨escapedUnit e :: front, back, by rw [unescape_escape he, hfront]; rfl, hback, rfl⟩
  | case5 c hc e he x y z w more ih =>
    rw [not_not.mp hc, not_not.mp he] at hclosed h ⊢
    simp only [List.cons_append] at h
    rw [unescape_unicode] at h
    obtain ⟨unit, hunit, h⟩ := Option.bind_eq_some_iff.mp h
    obtain ⟨units, hunits, rfl⟩ := Option.map_eq_some_iff.mp h
    obtain ⟨hx, hy, hz, hw⟩ := unicodeUnit_some hunit
    rw [escapedAfter_escape, escapedAfter_cons (not_backslash_of_hex hx),
      escapedAfter_cons (not_backslash_of_hex hy), escapedAfter_cons (not_backslash_of_hex hz),
      escapedAfter_cons (not_backslash_of_hex hw)] at hclosed
    obtain ⟨front, back, hfront, hback, rfl⟩ := ih hclosed hunits
    refine ⟨unit :: front, back, ?_, hback, rfl⟩
    rw [unescape_unicode, hunit, hfront]
    rfl
  | case6 c hc e rest he hshort =>
    rw [not_not.mp hc, not_not.mp he] at h
    exact (unescape_cut hshort hplain h).elim

theorem unescape_ne_nil (hunits : units ≠ []) (h : unescape units = some value) : value ≠ [] := by
  rintro rfl
  induction units using unescape.induct with
  | case1 => exact hunits rfl
  | case2 c cs hc _ =>
    rw [unescape_plain hc] at h
    obtain ⟨_, _, heq⟩ := Option.map_eq_some_iff.mp h
    cases heq
  | case3 c hc =>
    rw [not_not.mp hc] at h
    cases h
  | case4 c hc e cs he _ =>
    rw [not_not.mp hc, unescape_escape he] at h
    obtain ⟨_, _, heq⟩ := Option.map_eq_some_iff.mp h
    cases heq
  | case5 c hc e he x y z w more _ =>
    rw [not_not.mp hc, not_not.mp he, unescape_unicode] at h
    obtain ⟨_, _, h⟩ := Option.bind_eq_some_iff.mp h
    obtain ⟨_, _, heq⟩ := Option.map_eq_some_iff.mp h
    cases heq
  | case6 c hc e rest he hshort =>
    rw [not_not.mp hc, not_not.mp he, unescape_short hshort] at h
    cases h

/-- Where nothing is escaped, decoding changes nothing. -/
theorem unescape_front (hplain : ∀ c ∈ xs, c ≠ backslash)
    (h : unescape (xs ++ ys) = some value) : ∃ back, unescape ys = some back ∧
      value = xs ++ back := by
  induction xs generalizing value with
  | nil => exact ⟨value, h, rfl⟩
  | cons c cs ih =>
    rw [List.cons_append, unescape_plain (hplain c List.mem_cons_self)] at h
    obtain ⟨units, hunits, rfl⟩ := Option.map_eq_some_iff.mp h
    obtain ⟨back, hback, rfl⟩ := ih (fun d hd => hplain d (List.mem_cons_of_mem c hd)) hunits
    exact ⟨back, hback, rfl⟩

/-! ### Keys of lines put together -/

variable {all escaped : Bool}

theorem keyLength_stop (cs : List Nat)
    (h : escaped = false ∧ (whitespace c = true ∨ separator c = true)) :
    keyLength escaped (c :: cs) = 0 := by
  unfold keyLength
  rw [if_pos h]

theorem keyLength_go (cs : List Nat)
    (h : ¬ (escaped = false ∧ (whitespace c = true ∨ separator c = true))) :
    keyLength escaped (c :: cs) = keyLength (flip escaped c) cs + 1 := by
  rw [keyLength, if_neg h, Nat.add_comm]
  rfl

theorem keyLength_append (ys : List Nat) (h : keyLength escaped xs < xs.length) :
    keyLength escaped (xs ++ ys) = keyLength escaped xs := by
  induction xs generalizing escaped with
  | nil => cases h
  | cons c cs ih =>
    rw [List.cons_append]
    by_cases hstop : escaped = false ∧ (whitespace c = true ∨ separator c = true)
    · rw [keyLength_stop _ hstop, keyLength_stop _ hstop]
    · rw [keyLength_go _ hstop, List.length_cons] at h
      rw [keyLength_go _ hstop, keyLength_go _ hstop, ih (by omega)]

theorem keyLength_through (ys : List Nat) (h : keyLength escaped xs = xs.length) :
    keyLength escaped (xs ++ ys) = xs.length + keyLength (xs.foldl flip escaped) ys := by
  induction xs generalizing escaped with
  | nil => exact (Nat.zero_add _).symm
  | cons c cs ih =>
    rw [List.cons_append]
    by_cases hstop : escaped = false ∧ (whitespace c = true ∨ separator c = true)
    · rw [keyLength_stop _ hstop] at h
      cases h
    · rw [keyLength_go _ hstop, List.length_cons] at h
      rw [keyLength_go _ hstop, ih (by omega), List.length_cons, List.foldl_cons]
      omega

/-- A key does not end within an escape. -/
theorem keyLength_closed (h : keyLength escaped units < units.length) :
    (units.take (keyLength escaped units)).foldl flip escaped = false := by
  induction units generalizing escaped with
  | nil => cases h
  | cons c cs ih =>
    by_cases hstop : escaped = false ∧ (whitespace c = true ∨ separator c = true)
    · rw [keyLength_stop _ hstop]
      exact hstop.1
    · rw [keyLength_go _ hstop, List.length_cons] at h
      rw [keyLength_go _ hstop, List.take_succ_cons, List.foldl_cons]
      exact ih (by omega)

/-! ### A line that is cut -/

theorem escapedAfter_suffix (hplain : ∀ c ∈ xs, c ≠ backslash) :
    escapedAfter (xs ++ ys) = escapedAfter ys :=
  escapedAfter_append xs ys (escapedAfter_plain hplain)

theorem not_backslash_separator (h : separator c = true) : c ≠ backslash := by
  rintro rfl
  exact absurd h (by decide)

/-- What is behind a key is the end of a line, behind units that are no backslash. -/
theorem behindKey_suffix (units : List Nat) :
    ∃ skipped, units = skipped ++ behindKey units ∧ ∀ c ∈ skipped, c ≠ backslash := by
  have hblanks : ∀ xs : List Nat, ∀ c ∈ xs.takeWhile whitespace, c ≠ backslash :=
    fun xs c hc => not_backslash (List.mem_takeWhile_imp hc)
  unfold behindKey
  by_cases hsep : ((strip units).head?).any separator = true
  · rw [if_pos hsep]
    cases hs : strip units with
    | nil =>
      rw [hs] at hsep
      cases hsep
    | cons c cs =>
      rw [hs] at hsep
      have hc : separator c = true := hsep
      refine ⟨units.takeWhile whitespace ++ c :: cs.takeWhile whitespace, ?_, ?_⟩
      · rw [List.append_assoc, List.cons_append, List.tail_cons, takeWhile_strip, ← hs,
          takeWhile_strip]
      · intro d hd
        rcases List.mem_append.mp hd with hd | hd
        · exact hblanks units d hd
        · rcases List.mem_cons.mp hd with rfl | hd
          · exact not_backslash_separator hc
          · exact hblanks cs d hd
  · rw [if_neg hsep, strip_strip]
    exact ⟨units.takeWhile whitespace, (takeWhile_strip units).symm, hblanks units⟩

theorem strip_append_backslash (xs rest : List Nat) :
    strip (xs ++ backslash :: rest) = strip xs ++ backslash :: rest := by
  rw [strip_append]
  by_cases hxs : strip xs = []
  · rw [if_pos hxs, hxs]
    rfl
  · rw [if_neg hxs]

theorem behindKey_append (units rest : List Nat) :
    behindKey (units ++ backslash :: rest) = behindKey units ++ backslash :: rest := by
  unfold behindKey
  rw [strip_append_backslash]
  cases hs : strip units with
  | nil => rfl
  | cons c cs =>
    rw [List.cons_append, List.head?_cons, List.head?_cons]
    by_cases hsep : (some c).any separator = true
    · rw [if_pos hsep, if_pos hsep, List.tail_cons, List.tail_cons, strip_append_backslash]
    · rw [if_neg hsep, if_neg hsep, ← List.cons_append, strip_append_backslash]

theorem hexDigit_stop (h : whitespace c = true ∨ separator c = true) : hexDigit c = none := by
  simp only [whitespace, separator, Bool.or_eq_true, decide_eq_true_eq] at h
  rcases h with ((rfl | rfl) | rfl) | (rfl | rfl) <;> rfl

/-- An element is shorter than what its whole line decodes to. -/
theorem element_shorter {line decoded : List Nat} (hkey : 0 < keyLength false line)
    (hline : unescape line = some decoded)
    (hvalue : unescape (behindKey (line.drop (keyLength false line))) = some value) :
    value.length < decoded.length := by
  rcases (keyLength_le false line).lt_or_eq with hlt | heq
  · rw [← List.take_append_drop (keyLength false line) line] at hline
    have hhead : ∀ c, (line.drop (keyLength false line)).head? = some c → hexDigit c = none := by
      intro c hc
      obtain ⟨cs, hcs⟩ := List.head?_eq_some_iff.mp hc
      exact hexDigit_stop (keyLength_stops false line c cs hcs)
    obtain ⟨front, back, hfront, hback, rfl⟩ := unescape_append (keyLength_closed hlt) hhead hline
    obtain ⟨skipped, hskipped, hplain⟩ := behindKey_suffix (line.drop (keyLength false line))
    rw [hskipped] at hback
    obtain ⟨tail, htail, rfl⟩ := unescape_front hplain hback
    rw [hvalue] at htail
    cases htail
    have htake : line.take (keyLength false line) ≠ [] := by
      intro hnone
      have hlength := congrArg List.length hnone
      rw [List.length_take, List.length_nil] at hlength
      omega
    have hpos := List.length_pos_iff.mpr (unescape_ne_nil htake hfront)
    simp only [List.length_append]
    omega
  · rw [heq, List.drop_length] at hvalue
    cases hvalue
    have hne : line ≠ [] := by
      rintro rfl
      cases hkey
    exact List.length_pos_iff.mpr (unescape_ne_nil hne hline)

theorem pair_some {line : List Nat} (h : pair line = some (key, value)) :
    unescape (line.take (keyLength false line)) = some key ∧
      unescape (behindKey (line.drop (keyLength false line))) = some value := by
  unfold pair at h
  rw [keyLen_eq, element_eq, loadConvert_eq, loadConvert_eq] at h
  obtain ⟨k, hk, h⟩ := Option.bind_eq_some_iff.mp h
  obtain ⟨v, hv, h⟩ := Option.bind_eq_some_iff.mp h
  cases h
  exact ⟨hk, hv⟩

theorem not_stop_of_sign (h : c = hash ∨ c = bang) :
    c ≠ backslash ∧ ¬ (false = false ∧ (whitespace c = true ∨ separator c = true)) := by
  rcases h with rfl | rfl <;> decide

/-- The key of a line begins with the sign of a comment where the line does. -/
theorem key_signed {cs : List Nat} (hc : c = hash ∨ c = bang)
    (h : unescape ((c :: cs).take (keyLength false (c :: cs))) = some key) :
    ∃ more, key = c :: more := by
  obtain ⟨hplain, hgo⟩ := not_stop_of_sign hc
  rw [keyLength_go cs hgo, List.take_succ_cons, unescape_plain hplain] at h
  obtain ⟨more, -, rfl⟩ := Option.map_eq_some_iff.mp h
  exact ⟨more, rfl⟩

/-- Where the key of a line begins with a sign and the line does not, the line begins with an
escape. -/
theorem begins_escape {line more : List Nat} (hbegun : ¬ Signed line)
    (hc : c = hash ∨ c = bang) (hkey : key = c :: more)
    (h : unescape (line.take (keyLength false line)) = some key) :
    ∃ tail, line = backslash :: tail := by
  subst hkey
  cases line with
  | nil =>
    rw [List.take_nil] at h
    cases h
  | cons d ds =>
    by_cases hd : d = backslash
    · exact ⟨ds, by rw [hd]⟩
    by_cases hstop : false = false ∧ (whitespace d = true ∨ separator d = true)
    · rw [keyLength_stop _ hstop, List.take_zero] at h
      cases h
    · rw [keyLength_go _ hstop, List.take_succ_cons, unescape_plain hd] at h
      obtain ⟨_, _, heq⟩ := Option.map_eq_some_iff.mp h
      cases heq
      exact absurd ⟨c, ds, rfl, hc⟩ hbegun

theorem pair_cut {front line rest : List Nat} (hcut : Cut front line rest)
    {here there : List Nat × List Nat} (hhere : pair line = some here)
    (hthere : pair rest = some there) : here ≠ there := by
  obtain ⟨rfl, ⟨c, cs, rfl, hc⟩, hclosed, hbegun⟩ := hcut
  rintro rfl
  obtain ⟨key, value⟩ := here
  obtain ⟨hkey, hvalue⟩ := pair_some hhere
  obtain ⟨hkey', hvalue'⟩ := pair_some hthere
  obtain ⟨more, hmore⟩ := key_signed hc hkey
  obtain ⟨tail, rfl⟩ := begins_escape hbegun hc hmore hkey'
  have hescape :
      ¬ (false = false ∧ (whitespace backslash = true ∨ separator backslash = true)) := by
    decide
  have hplain : ∀ units : List Nat, ∀ d, (backslash :: units).head? = some d →
      hexDigit d = none := by
    intro units d hd
    cases hd
    rfl
  rcases (keyLength_le false (c :: cs)).lt_or_eq with hlt | heq
  · -- The key ends before the cut: the element goes over it, and is longer.
    rw [keyLength_append _ hlt, List.drop_append_of_le_length hlt.le, behindKey_append] at hvalue
    have hbehind :
        escapedAfter (behindKey ((c :: cs).drop (keyLength false (c :: cs)))) = false := by
      obtain ⟨skipped, hskipped, hnone⟩ :=
        behindKey_suffix ((c :: cs).drop (keyLength false (c :: cs)))
      rw [← List.take_append_drop (keyLength false (c :: cs)) (c :: cs),
        escapedAfter_append _ _ (keyLength_closed hlt), hskipped,
        escapedAfter_suffix hnone] at hclosed
      exact hclosed
    obtain ⟨before, decoded, -, hdecoded, rfl⟩ := unescape_append hbehind (hplain tail) hvalue
    have hshort := element_shorter (by rw [keyLength_go _ hescape]; omega) hdecoded hvalue'
    rw [List.length_append] at hshort
    omega
  · -- The key goes over the cut, and is longer.
    rw [keyLength_through _ heq, List.take_length_add_append] at hkey
    have hstart : List.foldl flip false (c :: cs) = false := hclosed
    rw [hstart] at hkey
    have htake : (backslash :: tail).take (keyLength false (backslash :: tail)) =
        backslash :: tail.take (keyLength (flip false backslash) tail) := by
      rw [keyLength_go _ hescape, List.take_succ_cons]
    rw [htake] at hkey hkey'
    obtain ⟨before, after, hbefore, hafter, heq'⟩ := unescape_append hclosed (hplain _) hkey
    rw [hkey'] at hafter
    cases hafter
    have hpos := List.length_pos_iff.mpr (unescape_ne_nil (List.cons_ne_nil c cs) hbefore)
    have hlength := congrArg List.length heq'
    rw [List.length_append] at hlength
    omega

/-! ## The pairs that are put -/

/-- The pairs of lines. -/
abbrev Loads : List (List Nat) → List (List Nat × List Nat) → Prop :=
  List.Forall₂ fun line put => pair line = some put

theorem load_iff {text : List Nat} {pairs : List (List Nat × List Nat)} :
    load text = some pairs ↔ Loads (returned [] (naturals text)) pairs := by
  unfold load
  rw [fresh_eq, readLines_eq (split_naturals text) [] false fun h => absurd rfl h]
  generalize returned [] (naturals text) = lines
  induction lines generalizing pairs with
  | nil =>
    unfold Loads
    rw [List.mapM_nil, List.forall₂_nil_left_iff]
    exact Option.some_inj.trans eq_comm
  | cons line rest ih =>
    unfold Loads at ih ⊢
    rw [List.mapM_cons, List.forall₂_cons_left_iff]
    constructor
    · intro h
      obtain ⟨put, hput, h⟩ := Option.bind_eq_some_iff.mp h
      obtain ⟨puts, hputs, h⟩ := Option.bind_eq_some_iff.mp h
      cases h
      exact ⟨put, puts, hput, ih.mp hputs, rfl⟩
    · rintro ⟨put, puts, hput, hputs, rfl⟩
      rw [hput, ih.mpr hputs]
      rfl

variable {java lines : List (List Nat)}

theorem Aligned.length_le (h : Aligned lines java all) : java.length ≤ lines.length := by
  induction h with
  | nil => exact le_refl 0
  | same _ _ ih => exact Nat.succ_le_succ ih
  | missing _ _ ih => exact ih.trans (Nat.le_succ _)
  | cut _ _ ih => exact Nat.succ_le_succ ih

theorem Aligned.eq (h : Aligned lines java all) (hall : all = true) : java = lines := by
  induction h with
  | nil => rfl
  | same line _ ih => rw [ih hall]
  | missing => cases hall
  | cut => cases hall

/-- Lines that are not the same have not the same pairs. -/
theorem Aligned.differs (h : Aligned lines java all)
    (hall : all = false) {pairs : List (List Nat × List Nat)} (hhere : Loads lines pairs)
    (hthere : Loads java pairs) : False := by
  induction h generalizing pairs with
  | nil => cases hall
  | same line _ ih =>
    cases hhere with
    | cons _ hhere =>
      cases hthere with
      | cons _ hthere => exact ih hall hhere hthere
  | missing line h _ =>
    have hlength := h.length_le
    have hlines := hhere.length_eq
    have hjava := hthere.length_eq
    rw [List.length_cons] at hlines
    omega
  | cut hcut _ _ =>
    cases hhere with
    | cons hhere _ =>
      cases hthere with
      | cons hthere _ => exact pair_cut hcut hhere hthere rfl

/-! ## Where declarations follow Java -/

/-- The pairs of the entries are those that are put, in order; the spans of each entry are in the
natural lines of its logical line, and behind those of the entries before. -/
structure FollowsJava (text : List Nat) (entries : List Entry) : Prop where
  pairs : load text = some (entries.map fun e => (e.key, e.value))
  spans : List.Forall₂ (fun (logical : Logical) e => Within e logical.start logical.stop)
    (logicalLines none 0 (naturals text)) entries
  apart : entries.Pairwise fun a b => a.valueEnd < b.keyStart

variable {logicals : List Logical}

theorem loads_entries {entries : List Entry} (h : List.Forall₂ Declares logicals entries) :
    Loads (logicals.map (·.units)) (entries.map fun e => (e.key, e.value)) := by
  unfold Loads
  rw [List.forall₂_map_left_iff, List.forall₂_map_right_iff]
  exact h.imp fun _ _ hdeclares => hdeclares.pair

theorem declares_line {entries : List Entry}
    (h : List.Forall₂ Declares logicals entries) {e : Entry} (hin : e ∈ entries) :
    ∃ logical ∈ logicals, Declares logical e := by
  induction h with
  | nil => cases hin
  | cons hdeclares _ ih =>
    rcases List.mem_cons.mp hin with rfl | hin
    · exact ⟨_, List.mem_cons_self, hdeclares⟩
    · obtain ⟨logical, hlogical, hother⟩ := ih hin
      exact ⟨logical, List.mem_cons_of_mem _ hlogical, hother⟩

/-- Where the lines are apart, so are the entries within them. -/
theorem entries_apart {entries : List Entry} (h : List.Forall₂ Declares logicals entries)
    (hpairs : logicals.Pairwise fun a b => a.stop < b.start) :
    entries.Pairwise fun a b => a.valueEnd < b.keyStart := by
  induction h with
  | nil => exact .nil
  | @cons logical e logicals entries hdeclares hrest ih =>
    obtain ⟨hfirst, hlater⟩ := List.pairwise_cons.mp hpairs
    refine List.pairwise_cons.mpr ⟨fun other hin => ?_, ih hlater⟩
    obtain ⟨otherLine, hline, hother⟩ := declares_line hrest hin
    calc e.valueEnd ≤ logical.stop := hdeclares.within.last
      _ < otherLine.start := hfirst otherLine hline
      _ ≤ other.keyStart := hother.within.first

theorem followsJava_iff {text : List Nat} {limits : Limits} {entries : List Entry}
    (h : parsePropertyDeclarations text limits = .ok entries) :
    FollowsJava text entries ↔ NoEmptyContinuation text := by
  unfold parsePropertyDeclarations at h
  split_ifs at h with hlimits
  rw [naturalLines_eq] at h
  cases hall : declarations text limits none [] (place 0 (naturals text)) with
  | error e =>
    rw [hall] at h
    cases h
  | ok all =>
    rw [hall] at h
    cases h
    have hsplit : naturals text ≠ [] → Split (text.drop 0) (naturals text) :=
      fun _ => split_naturals text
    have hnone : HoldsAll none none 0 := trivial
    obtain ⟨hclosed, found, hfound, hdeclares⟩ := declarations_ok hsplit hnone hall
    rw [List.nil_append] at hfound
    subst hfound
    have haligned := (alignments (naturals text)).idle 0 hclosed
    have hhere := loads_entries hdeclares
    constructor
    · rintro ⟨hpairs, -, -⟩
      by_contra hempty
      exact haligned.differs (Bool.eq_false_iff.mpr hempty) hhere (load_iff.mp hpairs)
    · intro hempty
      refine ⟨load_iff.mpr ?_, hdeclares.imp fun _ _ hd => hd.within,
        entries_apart hdeclares (logicalLines_apart hsplit (le_refl 0)).2⟩
      rw [haligned.eq hempty]
      exact hhere

/-- `a=b`, a continued line, and a comment. -/
theorem followsJava_some :
    parsePropertyDeclarations [0x61, 0x3D, 0x62, 0x0A, 0x63, 0x5C, 0x0A, 0x20, 0x64, 0x0A, 0x23]
        ⟨10, 100⟩ =
      .ok [⟨[0x61], [0x62], 0, 1, 2, 3⟩, ⟨[0x63, 0x64], [], 4, 9, 9, 9⟩] ∧
    FollowsJava [0x61, 0x3D, 0x62, 0x0A, 0x63, 0x5C, 0x0A, 0x20, 0x64, 0x0A, 0x23]
      [⟨[0x61], [0x62], 0, 1, 2, 3⟩, ⟨[0x63, 0x64], [], 4, 9, 9, 9⟩] := by
  have hparsed : parsePropertyDeclarations
      [0x61, 0x3D, 0x62, 0x0A, 0x63, 0x5C, 0x0A, 0x20, 0x64, 0x0A, 0x23] ⟨10, 100⟩ =
        .ok [⟨[0x61], [0x62], 0, 1, 2, 3⟩, ⟨[0x63, 0x64], [], 4, 9, 9, 9⟩] := by
    decide
  exact ⟨hparsed, (followsJava_iff hparsed).mpr (by decide)⟩

/-- A backslash before a blank line: an empty property is declared, where Java puts none. -/
theorem not_followsJava_blank :
    ¬ ∀ (text : List Nat) (limits : Limits) (entries : List Entry),
      parsePropertyDeclarations text limits = .ok entries → FollowsJava text entries := by
  intro hall
  have hparsed : parsePropertyDeclarations [backslash, lineFeed, lineFeed] ⟨10, 100⟩ =
      .ok [⟨[], [], 2, 2, 2, 2⟩] := by
    decide
  have hload : load [backslash, lineFeed, lineFeed] = some [] := by
    decide
  obtain ⟨hpairs, -, -⟩ := hall _ _ _ hparsed
  rw [hload] at hpairs
  cases hpairs

end Traqen.PropertiesStructure
