-- The natural lines of a text, each with what ends it, and the logical lines that are put together
-- of them: a line that ends with a backslash which is not escaped goes on in the next.
import Mathlib.Data.List.DropRight
import Mathlib.Data.List.Induction
import Mathlib.Data.List.TakeWhile
import Traqen.JavaProperties
import Traqen.Model
import Traqen.PropertiesStructure

namespace Traqen.PropertiesStructure

open Utf16 (byteLength hexDigit slice slice_eq unicodeUnit wellFormed)

/-! ## Natural lines and their ends -/

structure Natural where
  units : List Nat
  ending : List Nat
  deriving DecidableEq

def naturalsFrom (current : List Nat) : List Nat → List Natural
  | [] => [⟨current, []⟩]
  | c :: cs =>
    if c = carriageReturn then
      match cs with
      | d :: rest =>
        if d = lineFeed then ⟨current, [carriageReturn, lineFeed]⟩ :: naturalsFrom [] rest
        else ⟨current, [carriageReturn]⟩ :: naturalsFrom [] (d :: rest)
      | [] => ⟨current, [carriageReturn]⟩ :: naturalsFrom [] []
    else if c = lineFeed then ⟨current, [lineFeed]⟩ :: naturalsFrom [] cs
    else naturalsFrom (current ++ [c]) cs

def naturals (text : List Nat) : List Natural := naturalsFrom [] text

attribute [local simp] naturalsFrom naturalLinesFrom

theorem naturalsFrom_nil (current : List Nat) : naturalsFrom current [] = [⟨current, []⟩] := rfl

theorem naturalsFrom_both (current rest : List Nat) :
    naturalsFrom current (carriageReturn :: lineFeed :: rest) =
      ⟨current, [carriageReturn, lineFeed]⟩ :: naturalsFrom [] rest := by
  simp [naturalsFrom]

variable {cs current offsets units : List Nat}

theorem naturalsFrom_return (h : cs.head? ≠ some lineFeed) :
    naturalsFrom current (carriageReturn :: cs) =
      ⟨current, [carriageReturn]⟩ :: naturalsFrom [] cs := by
  cases cs with
  | nil => rfl
  | cons d rest =>
    have hd : d ≠ lineFeed := by simpa using h
    simp [naturalsFrom, hd]

theorem naturalsFrom_feed (current cs : List Nat) :
    naturalsFrom current (lineFeed :: cs) = ⟨current, [lineFeed]⟩ :: naturalsFrom [] cs := by
  cases cs <;> simp [naturalsFrom, lineFeed, carriageReturn]

variable {c i p start stop : Nat}

theorem naturalsFrom_plain (hfeed : c ≠ lineFeed) (hreturn : c ≠ carriageReturn) :
    naturalsFrom current (c :: cs) = naturalsFrom (current ++ [c]) cs := by
  cases cs <;> simp [naturalsFrom, hfeed, hreturn]

theorem naturalLinesFrom_both (start index : Nat) (rest : List Nat) :
    naturalLinesFrom start index (carriageReturn :: lineFeed :: rest) =
      ⟨start, index⟩ :: naturalLinesFrom (index + 2) (index + 2) rest := by
  simp [naturalLinesFrom]

theorem naturalLinesFrom_return {index : Nat} (h : cs.head? ≠ some lineFeed) :
    naturalLinesFrom start index (carriageReturn :: cs) =
      ⟨start, index⟩ :: naturalLinesFrom (index + 1) (index + 1) cs := by
  cases cs with
  | nil => rfl
  | cons d rest =>
    have hd : d ≠ lineFeed := by simpa using h
    simp [naturalLinesFrom, hd]

theorem naturalLinesFrom_feed (start index : Nat) (cs : List Nat) :
    naturalLinesFrom start index (lineFeed :: cs) =
      ⟨start, index⟩ :: naturalLinesFrom (index + 1) (index + 1) cs := by
  cases cs <;> simp [naturalLinesFrom, lineFeed, carriageReturn]

theorem naturalLinesFrom_plain {index : Nat} (hfeed : c ≠ lineFeed) (hreturn : c ≠ carriageReturn) :
    naturalLinesFrom start index (c :: cs) = naturalLinesFrom start (index + 1) cs := by
  cases cs <;> simp [naturalLinesFrom, hfeed, hreturn]

/-- No unit ends a line. -/
def Plain (units : List Nat) : Prop := ∀ c ∈ units, c ≠ lineFeed ∧ c ≠ carriageReturn

inductive Ending : List Nat → List Nat → Prop
  | lineFeed (text : List Nat) : Ending [PropertiesStructure.lineFeed] text
  | carriageReturn {text : List Nat} (h : text.head? ≠ some PropertiesStructure.lineFeed) :
      Ending [PropertiesStructure.carriageReturn] text
  | both (text : List Nat) :
      Ending [PropertiesStructure.carriageReturn, PropertiesStructure.lineFeed] text

/-- The text consists of the natural lines. -/
inductive Split : List Nat → List Natural → Prop
  | last {units : List Nat} (h : Plain units) : Split units [⟨units, []⟩]
  | more {units ending text : List Nat} {lines : List Natural} (h : Plain units)
      (hending : Ending ending text) (hrest : Split text lines) :
      Split (units ++ (ending ++ text)) (⟨units, ending⟩ :: lines)

theorem split_naturalsFrom {text : List Nat} (h : Plain current) :
    Split (current ++ text) (naturalsFrom current text) := by
  induction current, text using naturalsFrom.induct with
  | case1 current =>
    rw [List.append_nil, naturalsFrom_nil]
    exact .last h
  | case2 current rest ih =>
    rw [naturalsFrom_both]
    exact .more h (.both rest) (ih (by simp [Plain]))
  | case3 current d rest hd ih =>
    have hnot : (d :: rest).head? ≠ some lineFeed := by simpa using hd
    rw [naturalsFrom_return hnot]
    exact .more h (.carriageReturn hnot) (ih (by simp [Plain]))
  | case4 current ih =>
    rw [naturalsFrom_return (by simp)]
    exact .more h (.carriageReturn (by simp)) (ih (by simp [Plain]))
  | case5 current cs _ ih =>
    rw [naturalsFrom_feed]
    exact .more h (.lineFeed cs) (ih (by simp [Plain]))
  | case6 current c cs hreturn hfeed ih =>
    rw [naturalsFrom_plain hfeed hreturn]
    have hcurrent : Plain (current ++ [c]) := by
      intro u hu
      rcases List.mem_append.mp hu with hu | hu
      · exact h u hu
      · rw [List.mem_singleton.mp hu]
        exact ⟨hfeed, hreturn⟩
    have hrest := ih hcurrent
    rw [List.append_assoc] at hrest
    exact hrest

theorem split_naturals (text : List Nat) : Split text (naturals text) :=
  @split_naturalsFrom [] text (by simp [Plain])

/-- The natural lines, from a place of the text on. -/
def place : Nat → List Natural → List Line
  | _, [] => []
  | p, line :: lines =>
    ⟨p, p + line.units.length⟩ :: place (p + line.units.length + line.ending.length) lines

theorem naturalLinesFrom_eq (start : Nat) (current text : List Nat) :
    naturalLinesFrom start (start + current.length) text =
      place start (naturalsFrom current text) := by
  induction current, text using naturalsFrom.induct generalizing start with
  | case1 current => rfl
  | case2 current rest ih =>
    rw [naturalsFrom_both, naturalLinesFrom_both, place]
    exact congrArg _ (ih (start + current.length + 2))
  | case3 current d rest hd ih =>
    have hnot : (d :: rest).head? ≠ some lineFeed := by simpa using hd
    rw [naturalsFrom_return hnot, naturalLinesFrom_return hnot, place]
    exact congrArg _ (ih (start + current.length + 1))
  | case4 current ih =>
    rw [naturalsFrom_return (by simp), naturalLinesFrom_return (by simp), place]
    exact congrArg _ (ih (start + current.length + 1))
  | case5 current cs _ ih =>
    rw [naturalsFrom_feed, naturalLinesFrom_feed, place]
    exact congrArg _ (ih (start + current.length + 1))
  | case6 current c cs hreturn hfeed ih =>
    rw [naturalsFrom_plain hfeed hreturn, naturalLinesFrom_plain hfeed hreturn]
    have hrest := ih start
    rw [List.length_append, ← Nat.add_assoc] at hrest
    exact hrest

theorem naturalLines_eq (text : List Nat) : naturalLines text = place 0 (naturals text) :=
  naturalLinesFrom_eq 0 [] text

/-! ## Whitespace at the front, and backslashes at the end -/

/-- Without the whitespace at the front. -/
def strip (units : List Nat) : List Nat := units.dropWhile whitespace

/-- A backslash that is not escaped was the last unit. -/
def flip (escaped : Bool) (c : Nat) : Bool := !escaped && decide (c = backslash)

def escapedAfter (units : List Nat) : Bool := units.foldl flip false

theorem drop_blanks (units : List Nat) : units.drop (blanks units) = strip units := by
  unfold blanks strip
  induction units with
  | nil => rfl
  | cons c cs ih =>
    by_cases hc : whitespace c = true
    · simp [hc, ih]
    · simp [hc]

theorem takeWhile_strip (units : List Nat) : units.takeWhile whitespace ++ strip units = units :=
  List.takeWhile_append_dropWhile

theorem not_backslash (h : whitespace c = true) : c ≠ backslash := by
  rintro rfl
  exact absurd h (by decide)

theorem escapedAfter_append (xs ys : List Nat) (h : escapedAfter xs = false) :
    escapedAfter (xs ++ ys) = escapedAfter ys := by
  unfold escapedAfter at h ⊢
  rw [List.foldl_append, h]

theorem escapedAfter_plain (h : ∀ c ∈ units, c ≠ backslash) : escapedAfter units = false := by
  unfold escapedAfter
  induction units with
  | nil => rfl
  | cons c cs ih =>
    have hc : flip false c = false := by simp [flip, h c List.mem_cons_self]
    rw [List.foldl_cons, hc]
    exact ih fun d hd => h d (List.mem_cons_of_mem c hd)

theorem escapedAfter_strip (units : List Nat) :
    escapedAfter (strip units) = escapedAfter units := by
  have hfront : escapedAfter (units.takeWhile whitespace) = false :=
    escapedAfter_plain fun c hc => not_backslash (List.mem_takeWhile_imp hc)
  have hall := escapedAfter_append _ (strip units) hfront
  rw [takeWhile_strip] at hall
  exact hall.symm

/-- An odd number of backslashes at the end. -/
theorem escapedAfter_iff (units : List Nat) :
    escapedAfter units = decide ((units.reverse.takeWhile (· = backslash)).length % 2 = 1) := by
  induction units using List.reverseRecOn with
  | nil => rfl
  | append_singleton units c ih =>
    have hlast : escapedAfter (units ++ [c]) = flip (escapedAfter units) c := by
      unfold escapedAfter
      rw [List.foldl_append]
      rfl
    rw [hlast, List.reverse_append, List.reverse_singleton, List.singleton_append]
    by_cases hc : c = backslash
    · rw [List.takeWhile_cons_of_pos (by simpa using hc), List.length_cons, ih, flip]
      simp only [hc, decide_true, Bool.and_true]
      rw [← decide_not]
      apply decide_eq_decide.mpr
      omega
    · rw [List.takeWhile_cons_of_neg (by simpa using hc), flip]
      simp [hc]

/-- What goes on ends with the backslash that says so, and is not escaped without it. -/
theorem continued_end (h : escapedAfter units = true) :
    ∃ front, units = front ++ [backslash] ∧ escapedAfter front = false := by
  induction units using List.reverseRecOn with
  | nil => cases h
  | append_singleton units c _ =>
    have hlast : escapedAfter (units ++ [c]) = flip (escapedAfter units) c := by
      unfold escapedAfter
      rw [List.foldl_append]
      rfl
    rw [hlast, flip, Bool.and_eq_true, Bool.not_eq_true', decide_eq_true_eq] at h
    exact ⟨units, by rw [h.2], h.1⟩

/-! ## Logical lines -/

/-- Nothing is there, or the sign of a comment. -/
def isIdle (body : List Nat) : Bool := (body.head?).all fun c => c = hash || c = bang

/-- A logical line: its units, without the whitespace at the front, and where its natural lines
begin and end. -/
structure Logical where
  units : List Nat
  start : Nat
  stop : Nat

/-- The logical lines from a place of the text on, behind the units and the start of one that goes
on. -/
def logicalLines : Option (List Nat × Nat) → Nat → List Natural → List Logical
  | _, _, [] => []
  | pending, p, line :: rest =>
    let body := strip line.units
    let next := p + line.units.length + line.ending.length
    if pending = none ∧ isIdle body = true then logicalLines none next rest
    else
      let (units, start) := pending.getD ([], p)
      if escapedAfter body then logicalLines (some ((units ++ body).dropLast, start)) next rest
      else ⟨units ++ body, start, p + line.units.length⟩ :: logicalLines none next rest

/-- The text does not end where a line goes on. -/
def Closed : Bool → List Natural → Prop
  | _, [] => True
  | goesOn, line :: rest =>
    let body := strip line.units
    if goesOn = false ∧ isIdle body = true then Closed false rest
    else if escapedAfter body then rest ≠ [] ∧ Closed true rest
    else Closed false rest

/-! ## The loops over the natural lines -/

variable {line : Natural} {rest : List Natural}

/-- What stands at the first of the natural lines. -/
theorem split_head {text : List Nat}
    (h : Split text (line :: rest)) : ∃ more, text = line.units ++ more ∧ Plain line.units ∧
      (rest ≠ [] → ∃ tail, more = line.ending ++ tail ∧ Split tail rest) := by
  cases h with
  | last h => exact ⟨[], (List.append_nil _).symm, h, fun hne => absurd rfl hne⟩
  | more h _ hrest => exact ⟨_, rfl, h, fun _ => ⟨_, rfl, hrest⟩⟩

variable {text : List Nat}

/-- Some of the units of a natural line. -/
theorem slice_line {skip : Nat}
    (h : Split (text.drop p) (line :: rest)) (hstop : stop ≤ line.units.length) :
    slice text (p + skip) (p + stop) = (line.units.take stop).drop skip := by
  obtain ⟨more, hmore, -, -⟩ := split_head h
  unfold slice
  rw [← List.drop_drop, List.drop_take, Nat.add_sub_cancel_left, hmore,
    List.take_append_of_le_length hstop]

theorem slice_whole (h : Split (text.drop p) (line :: rest)) :
    slice text p (p + line.units.length) = line.units := by
  have hslice : slice text (p + 0) (p + line.units.length) = _ := slice_line h (le_refl _)
  rw [List.take_length] at hslice
  exact hslice

theorem getElem_line {skip : Nat}
    (h : Split (text.drop p) (line :: rest)) (hskip : skip < line.units.length) :
    text[p + skip]? = line.units[skip]? := by
  obtain ⟨more, hmore, -, -⟩ := split_head h
  rw [← List.getElem?_drop, hmore, List.getElem?_append_left hskip]

theorem blanks_le (units : List Nat) : blanks units ≤ units.length :=
  (List.takeWhile_prefix _).length_le

theorem isSkipped_eq (h : Split (text.drop p) (line :: rest)) :
    isSkipped text ⟨p, p + line.units.length⟩ = isIdle (strip line.units) := by
  have hslice := slice_whole h
  unfold isSkipped isIdle
  dsimp only
  rw [hslice, ← drop_blanks, List.head?_drop]
  rcases (blanks_le line.units).lt_or_eq with hlt | heq
  · rw [getElem_line h hlt, List.getElem?_eq_getElem hlt]
    have hne : blanks line.units ≠ line.units.length := by omega
    simp [hne]
  · simp [heq]

theorem strip_append (xs ys : List Nat) :
    strip (xs ++ ys) = if strip xs = [] then strip ys else strip xs ++ ys := by
  unfold strip
  rw [List.dropWhile_append]
  simp only [List.isEmpty_iff]

theorem strip_strip (units : List Nat) : strip (strip units) = strip units :=
  List.dropWhile_idempotent _ _

theorem strip_backslash (front : List Nat) :
    strip (front ++ [backslash]) = strip front ++ [backslash] := by
  rw [strip_append]
  by_cases hfront : strip front = []
  · rw [if_pos hfront, hfront]
    rfl
  · rw [if_neg hfront]

/-- Without the backslash at its end. -/
theorem strip_dropLast (h : escapedAfter units = true) :
    strip units.dropLast = (strip units).dropLast := by
  obtain ⟨front, rfl, -⟩ := continued_end h
  rw [strip_backslash, List.dropLast_concat, List.dropLast_concat]

/-- The units that a natural line adds. -/
def added (units : List Nat) : List Nat :=
  if escapedAfter units then units.dropLast else units

theorem strip_added (units : List Nat) : strip (added units) = added (strip units) := by
  unfold added
  rw [escapedAfter_strip]
  by_cases h : escapedAfter units = true
  · rw [if_pos h, if_pos h, strip_dropLast h]
  · rw [if_neg h, if_neg h]

/-- What is there of a logical line stands in the text before a place. -/
structure Joined (pending : Pending) (logical : List Nat) (bound : Nat) : Prop where
  units : strip pending.logical = logical
  length : pending.logical.length = pending.offsets.length
  rising : pending.offsets.Pairwise (· < ·)
  range : ∀ offset ∈ pending.offsets, pending.first.start ≤ offset ∧ offset < bound
  start : pending.first.start ≤ bound

theorem extend_eq (h : Split (text.drop p) (line :: rest)) (pending : Pending) {lead : Nat}
    (hlead : lead = if pending.offsets = [] then 0 else blanks line.units) :
    extend text pending ⟨p, p + line.units.length⟩ =
      ({ pending with
         logical := pending.logical ++ added (line.units.drop lead)
         offsets := pending.offsets ++
           List.range' (p + lead) (added (line.units.drop lead)).length },
        escapedAfter line.units) := by
  have hstart : (if pending.offsets = [] then p else p + blanks line.units) = p + lead := by
    rw [hlead]
    split_ifs <;> rfl
  have hesc : escapedAfter (line.units.drop lead) = escapedAfter line.units := by
    rw [hlead]
    split_ifs
    · rfl
    · rw [drop_blanks, escapedAfter_strip]
  have hall : slice text (p + lead) (p + line.units.length) = _ := slice_line h (le_refl _)
  rw [List.take_length] at hall
  unfold extend
  dsimp only
  rw [slice_whole h, hstart, hall, ← escapedAfter_iff, hesc]
  unfold added
  rw [hesc]
  by_cases hgoes : escapedAfter line.units = true
  · obtain ⟨front, hfront, -⟩ := continued_end hgoes
    have hlength : line.units.length = front.length + 1 := by rw [hfront]; simp
    have hplace : p + line.units.length - 1 = p + front.length := by omega
    have hslice : slice text (p + lead) (p + front.length) = _ := slice_line h (by omega)
    have hdrop : (line.units.drop lead).dropLast = (line.units.take front.length).drop lead := by
      rw [List.dropLast_eq_take, List.drop_take, List.length_drop, hlength]
      congr 1
      omega
    have hcount : p + front.length - (p + lead) = min front.length line.units.length - lead := by
      omega
    simp only [hgoes, if_true]
    rw [hplace, hslice, hdrop, hcount, List.length_drop, List.length_take]
  · simp only [if_neg hgoes, hall, List.length_drop]
    have hcount : p + line.units.length - (p + lead) = line.units.length - lead := by omega
    rw [hcount]

/-- The natural line is taken up behind what is there. -/
theorem joined_extend
    (h : Split (text.drop p) (line :: rest)) {pending : Pending} {logical : List Nat}
    (hjoined : Joined pending logical p) :
    ∃ extended, extend text pending ⟨p, p + line.units.length⟩ =
        (extended, escapedAfter (strip line.units)) ∧ extended.first = pending.first ∧
      Joined extended (logical ++ added (strip line.units)) (p + line.units.length) := by
  obtain ⟨lead, hlead⟩ : ∃ lead, lead = if pending.offsets = [] then 0 else blanks line.units :=
    ⟨_, rfl⟩
  have hstripped : strip (line.units.drop lead) = strip line.units := by
    rw [hlead]
    split_ifs
    · rfl
    · rw [drop_blanks, strip_strip]
  have hle : lead ≤ line.units.length := by
    rw [hlead]
    split_ifs
    · exact Nat.zero_le _
    · exact blanks_le _
  have hfit : lead + (added (line.units.drop lead)).length ≤ line.units.length := by
    have hshort : (added (line.units.drop lead)).length ≤ (line.units.drop lead).length := by
      unfold added
      split_ifs
      · rw [List.length_dropLast]
        exact Nat.sub_le _ _
      · exact le_refl _
    rw [List.length_drop] at hshort
    omega
  have hextend := extend_eq h pending hlead
  rw [← escapedAfter_strip line.units] at hextend
  refine ⟨_, hextend, rfl, ?_, ?_, ?_, ?_, ?_⟩
  · dsimp only
    rw [strip_append, hjoined.units]
    by_cases hempty : logical = []
    · rw [if_pos hempty, strip_added, hstripped, hempty, List.nil_append]
    · rw [if_neg hempty]
      have hoffsets : pending.offsets ≠ [] := by
        intro hnone
        have hlength := hjoined.length
        rw [hnone, List.length_nil, List.length_eq_zero_iff] at hlength
        have hunits := hjoined.units
        rw [hlength] at hunits
        exact hempty hunits.symm
      rw [hlead, if_neg hoffsets, drop_blanks]
  · dsimp only
    rw [List.length_append, List.length_append, hjoined.length, List.length_range']
  · apply List.pairwise_append.mpr
    refine ⟨hjoined.rising, List.pairwise_lt_range', fun a ha b hb => ?_⟩
    have hbefore := (hjoined.range a ha).2
    have hbehind := (List.mem_range'_1.mp hb).1
    omega
  · intro offset hoffset
    rcases List.mem_append.mp hoffset with hbefore | hbehind
    · have hrange := hjoined.range offset hbefore
      exact ⟨hrange.1, by omega⟩
    · have hrange := List.mem_range'_1.mp hbehind
      have hstart := hjoined.start
      exact ⟨by dsimp only; omega, by omega⟩
  · exact hjoined.start.trans (Nat.le_add_right _ _)

/-! ## A key and an element -/

/-- What is behind the key: whitespace, one separator, and whitespace again are left out. -/
def behindKey (units : List Nat) : List Nat :=
  strip (if ((strip units).head?).any separator then (strip units).tail else strip units)

theorem drop_valueOffset (logical : List Nat) (keyEnd : Nat) :
    logical.drop (valueOffset logical keyEnd) = behindKey (logical.drop keyEnd) := by
  have hblanks : logical.drop (keyEnd + blanks (logical.drop keyEnd)) =
      strip (logical.drop keyEnd) := by
    rw [← List.drop_drop, drop_blanks]
  unfold valueOffset behindKey
  dsimp only
  rw [← List.drop_drop, drop_blanks, ← hblanks, List.head?_drop]
  by_cases hsep : (logical[keyEnd + blanks (logical.drop keyEnd)]?).any separator = true
  · rw [if_pos hsep, if_pos hsep, List.tail_drop]
  · rw [if_neg hsep, if_neg hsep]

theorem keyLen_eq (escaped : Bool) (units : List Nat) :
    JavaProperties.keyLen escaped units = keyLength escaped units := by
  induction units generalizing escaped with
  | nil => rfl
  | cons c cs ih =>
    unfold JavaProperties.keyLen keyLength
    have hstops : ((c = 0x3D ∨ c = 0x3A ∨ JavaProperties.isBlank c = true) ∧ escaped = false) ↔
        (escaped = false ∧ (whitespace c = true ∨ separator c = true)) := by
      have hblank : JavaProperties.isBlank c = whitespace c := rfl
      simp only [hblank, separator, Bool.or_eq_true, decide_eq_true_eq]
      unfold equals colon
      tauto
    by_cases h : escaped = false ∧ (whitespace c = true ∨ separator c = true)
    · rw [if_pos h, if_pos (hstops.mpr h)]
    · rw [if_neg h, if_neg (fun hj => h (hstops.mp hj)), ih, Nat.add_comm, Bool.and_comm]
      rfl

theorem digit_eq (c : Nat) : JavaProperties.digit c = hexDigit c := by
  unfold JavaProperties.digit hexDigit
  split_ifs
  · rfl
  · congr 1
    omega
  · congr 1
    omega
  · rfl

theorem hexValue_eq (a b c d : Nat) :
    JavaProperties.hexValue [a, b, c, d] = unicodeUnit a b c d := by
  unfold JavaProperties.hexValue unicodeUnit
  simp only [List.foldlM_cons, List.foldlM_nil, digit_eq]
  rcases hexDigit a with _ | a
  · rfl
  · rcases hexDigit b with _ | b
    · rfl
    · rcases hexDigit c with _ | c
      · rfl
      · rcases hexDigit d with _ | d
        · rfl
        · show some ((((0 * 16 + a) * 16 + b) * 16 + c) * 16 + d) = some _
          congr 1
          omega

theorem unescape_plain (h : c ≠ backslash) (cs : List Nat) :
    unescape (c :: cs) = (unescape cs).map (c :: ·) := by
  rw [unescape.eq_def]
  exact if_pos h

theorem unescape_escape {e : Nat} (h : e ≠ 0x75) (rest : List Nat) :
    unescape (backslash :: e :: rest) = (unescape rest).map (escapedUnit e :: ·) := by
  rw [unescape.eq_def]
  exact if_pos h

theorem unescape_unicode (x y z w : Nat) (more : List Nat) :
    unescape (backslash :: 0x75 :: x :: y :: z :: w :: more) =
      (unicodeUnit x y z w).bind fun unit => (unescape more).map (unit :: ·) := by
  rw [unescape.eq_def]
  show (unicodeUnit x y z w >>= fun unit => unescape more >>= fun units => some (unit :: units)) = _
  rcases unicodeUnit x y z w with _ | unit
  · rfl
  · rcases unescape more with _ | units <;> rfl

theorem unescape_short {rest : List Nat}
    (h : ∀ (x y z w : Nat) (more : List Nat), rest = x :: y :: z :: w :: more → False) :
    unescape (backslash :: 0x75 :: rest) = none := by
  rcases rest with _ | ⟨x, _ | ⟨y, _ | ⟨z, _ | ⟨w, more⟩⟩⟩⟩
  · rfl
  · rfl
  · rfl
  · rfl
  · exact absurd rfl (h x y z w more)

/-- Java converts what is decoded here, and nothing else. -/
theorem loadConvert_eq (units : List Nat) : JavaProperties.loadConvert units = unescape units := by
  induction units using unescape.induct with
  | case1 => rfl
  | case2 c cs hc ih =>
    rw [unescape_plain hc, ← ih]
    rw [JavaProperties.loadConvert.eq_def]
    exact if_neg hc
  | case3 c hc =>
    rw [not_not.mp hc]
    rfl
  | case4 c hc e cs he ih =>
    rw [not_not.mp hc, unescape_escape he, ← ih]
    have hunit : escapedUnit e = if e = 0x74 then 0x09 else if e = 0x72 then 0x0D
        else if e = 0x6E then 0x0A else if e = 0x66 then 0x0C else e := by
      unfold escapedUnit tab lineFeed carriageReturn formFeed
      split_ifs <;> first | rfl | omega
    rw [hunit, JavaProperties.loadConvert.eq_def]
    exact if_neg he
  | case5 c hc e he x y z w more ih =>
    rw [not_not.mp hc, not_not.mp he, unescape_unicode, ← ih, ← hexValue_eq]
    rw [JavaProperties.loadConvert.eq_def]
    simp only [backslash, if_true]
    cases JavaProperties.hexValue [x, y, z, w] with
    | none => rfl
    | some unit => rfl
  | case6 c hc e rest he hshort =>
    rw [not_not.mp hc, not_not.mp he, unescape_short hshort]
    rcases rest with _ | ⟨x, _ | ⟨y, _ | ⟨z, _ | ⟨w, more⟩⟩⟩⟩
    · rfl
    · rfl
    · rfl
    · rfl
    · exact absurd rfl (hshort x y z w more)

theorem skipSeparators_true (units : List Nat) :
    JavaProperties.skipSeparators true units = strip units := by
  induction units with
  | nil => rfl
  | cons c cs ih =>
    have hblank : JavaProperties.isBlank c = whitespace c := rfl
    unfold JavaProperties.skipSeparators strip
    rw [hblank, ih, List.dropWhile_cons]
    simp [strip]

theorem skipSeparators_false (units : List Nat) :
    JavaProperties.skipSeparators false units = behindKey units := by
  induction units with
  | nil => rfl
  | cons c cs ih =>
    have hblank : JavaProperties.isBlank c = whitespace c := rfl
    unfold JavaProperties.skipSeparators
    rw [hblank, ih, skipSeparators_true]
    unfold behindKey
    by_cases hc : whitespace c = true
    · have hstrip : strip (c :: cs) = strip cs := by simp [strip, hc]
      rw [if_pos hc, hstrip]
    · have hstrip : strip (c :: cs) = c :: cs := by simp [strip, hc]
      rw [if_neg hc, hstrip]
      by_cases hsep : c = 0x3D ∨ c = 0x3A
      · have hcode : separator c = true := by
          simp only [separator, Bool.or_eq_true, decide_eq_true_eq]
          exact hsep
        rw [if_pos ⟨rfl, hsep⟩]
        simp [hcode]
      · have hcode : separator c = false := by
          simp only [separator, Bool.or_eq_false_iff, decide_eq_false_iff_not]
          exact not_or.mp hsep
        rw [if_neg fun h => hsep h.2]
        simp [hcode, hstrip]

/-- A key ends at a separator, at whitespace, or with its line. -/
theorem keyLength_stops (escaped : Bool) (units : List Nat) :
    ∀ c cs, units.drop (keyLength escaped units) = c :: cs →
      whitespace c = true ∨ separator c = true := by
  induction units generalizing escaped with
  | nil =>
    intro c cs h
    cases h
  | cons d ds ih =>
    intro c cs h
    unfold keyLength at h
    by_cases hstop : escaped = false ∧ (whitespace d = true ∨ separator d = true)
    · rw [if_pos hstop, List.drop_zero] at h
      cases h
      exact hstop.2
    · rw [if_neg hstop, Nat.add_comm, List.drop_succ_cons] at h
      exact ih _ c cs h

theorem element_eq (line : List Nat) :
    JavaProperties.element line = behindKey (line.drop (keyLength false line)) := by
  unfold JavaProperties.element
  rw [keyLen_eq]
  cases h : line.drop (keyLength false line) with
  | nil => rfl
  | cons c cs =>
    dsimp only
    rcases keyLength_stops false line c cs h with hc | hc
    · have hno : ¬ (c = 0x3D ∨ c = 0x3A) := by
        rintro (rfl | rfl) <;> exact absurd hc (by decide)
      have hstrip : strip (c :: cs) = strip cs := by simp [strip, hc]
      rw [decide_eq_false hno, skipSeparators_false]
      unfold behindKey
      rw [hstrip]
    · have hblank : whitespace c = false := by
        simp only [separator, Bool.or_eq_true, decide_eq_true_eq] at hc
        rcases hc with rfl | rfl <;> rfl
      have hyes : c = 0x3D ∨ c = 0x3A := by
        simp only [separator, Bool.or_eq_true, decide_eq_true_eq] at hc
        exact hc
      have hstrip : strip (c :: cs) = c :: cs := by simp [strip, hblank]
      rw [decide_eq_true hyes, skipSeparators_true]
      unfold behindKey
      rw [hstrip]
      simp [hc]

/-! ## The entry of a logical line -/

theorem unescape_of_decode {value : List Nat}
    (h : decode units start stop = .ok value) : unescape units = some value := by
  unfold decode at h
  cases hu : unescape units with
  | none =>
    rw [hu] at h
    cases h
  | some v =>
    rw [hu] at h
    dsimp only at h
    by_cases hw : wellFormed v = true
    · rw [if_pos hw] at h
      cases h
      rfl
    · rw [if_neg hw] at h
      cases h

theorem keyLength_le (escaped : Bool) (units : List Nat) :
    keyLength escaped units ≤ units.length := by
  induction units generalizing escaped with
  | nil => exact le_refl 0
  | cons c cs ih =>
    unfold keyLength
    split_ifs
    · exact Nat.zero_le _
    · rw [List.length_cons, Nat.add_comm]
      exact Nat.succ_le_succ (ih _)

/-- Where a unit of a logical line stands in the text; behind the last unit it is the end. -/
def position (offsets : List Nat) (stop i : Nat) : Nat := (offsets[i]?).getD stop

theorem position_mem (h : i < offsets.length) : position offsets stop i ∈ offsets := by
  unfold position
  rw [List.getElem?_eq_getElem h]
  exact List.getElem_mem h

theorem position_end (h : offsets.length ≤ i) : position offsets stop i = stop := by
  unfold position
  rw [List.getElem?_eq_none h]
  rfl

theorem position_le (h : ∀ offset ∈ offsets, offset < stop)
    (i : Nat) : position offsets stop i ≤ stop := by
  rcases Nat.lt_or_ge i offsets.length with hi | hi
  · exact (h _ (position_mem hi)).le
  · exact (position_end hi).le

theorem position_lt {j : Nat} (hrising : offsets.Pairwise (· < ·))
    (h : ∀ offset ∈ offsets, offset < stop) (hij : i < j) (hi : i < offsets.length) :
    position offsets stop i < position offsets stop j := by
  rcases Nat.lt_or_ge j offsets.length with hj | hj
  · unfold position
    rw [List.getElem?_eq_getElem hi, List.getElem?_eq_getElem hj]
    exact List.pairwise_iff_getElem.mp hrising i j hi hj hij
  · rw [position_end hj]
    exact h _ (position_mem hi)

theorem position_mono {j : Nat} (hrising : offsets.Pairwise (· < ·))
    (h : ∀ offset ∈ offsets, offset < stop) (hij : i ≤ j) :
    position offsets stop i ≤ position offsets stop j := by
  rcases hij.lt_or_eq with hlt | rfl
  · rcases Nat.lt_or_ge i offsets.length with hi | hi
    · exact (position_lt hrising h hlt hi).le
    · rw [position_end hi, position_end (hi.trans hij)]
  · exact le_refl _

theorem le_valueOffset (logical : List Nat) (keyEnd : Nat) :
    keyEnd ≤ valueOffset logical keyEnd := by
  unfold valueOffset
  dsimp only
  split_ifs <;> omega

/-- The spans of an entry are in the natural lines from a start to a stop. -/
structure Within (e : Entry) (start stop : Nat) : Prop where
  first : start ≤ e.keyStart
  key : e.keyStart ≤ e.keyEnd
  apart : e.keyEnd ≤ e.valueStart
  value : e.valueStart ≤ e.valueEnd
  last : e.valueEnd ≤ stop

theorem entryOf_ok {pending : Pending} {logical : List Nat} {e : Entry}
    (hjoined : Joined pending logical stop)
    (h : entryOf pending.logical pending.offsets stop = .ok e) :
    JavaProperties.pair logical = some (e.key, e.value) ∧
      Within e pending.first.start stop ∧ e.valueEnd = stop := by
  have hstop : ∀ offset ∈ pending.offsets, offset < stop := fun o ho => (hjoined.range o ho).2
  have hlogical : pending.logical.drop (blanks pending.logical) = logical := by
    rw [drop_blanks, hjoined.units]
  have hfit : blanks pending.logical + keyLength false logical ≤ pending.logical.length := by
    have hkey := keyLength_le false (pending.logical.drop (blanks pending.logical))
    rw [hlogical, ← hlogical, List.length_drop, hlogical] at hkey
    have hblanks := blanks_le pending.logical
    omega
  unfold entryOf at h
  dsimp only at h
  rw [hlogical] at h
  obtain ⟨key, hkey, h⟩ := bind_ok h
  obtain ⟨value, hvalue, h⟩ := bind_ok h
  cases h
  have hkey := unescape_of_decode hkey
  have hvalue := unescape_of_decode hvalue
  rw [slice_eq, hlogical, Nat.add_sub_cancel_left] at hkey
  rw [drop_valueOffset, ← List.drop_drop, hlogical] at hvalue
  refine ⟨?_, ⟨?_, ?_, ?_, ?_, le_refl _⟩, rfl⟩
  · unfold JavaProperties.pair
    rw [keyLen_eq, element_eq, loadConvert_eq, loadConvert_eq, hkey, hvalue]
    rfl
  · show pending.first.start ≤ position pending.offsets stop (blanks pending.logical)
    rcases Nat.lt_or_ge (blanks pending.logical) pending.offsets.length with hin | hout
    · exact (hjoined.range _ (position_mem hin)).1
    · rw [position_end hout]
      exact hjoined.start
  · show position pending.offsets stop _ ≤ _
    dsimp only
    by_cases hnone : blanks pending.logical + keyLength false logical = blanks pending.logical
    · rw [if_pos hnone]
      exact le_refl _
    · rw [if_neg hnone]
      have hlast : blanks pending.logical ≤
          blanks pending.logical + keyLength false logical - 1 := by
        omega
      exact (position_mono hjoined.rising hstop hlast).trans (Nat.le_succ _)
  · show _ ≤ position pending.offsets stop _
    have hvalue := le_valueOffset pending.logical (blanks pending.logical + keyLength false logical)
    dsimp only
    by_cases hnone : blanks pending.logical + keyLength false logical = blanks pending.logical
    · rw [if_pos hnone]
      exact position_mono hjoined.rising hstop (by omega)
    · rw [if_neg hnone]
      have hlength := hjoined.length
      exact position_lt hjoined.rising hstop (by omega) (by omega)
  · exact position_le hstop _

/-! ## All the declarations -/

/-- An entry comes of a logical line, and of the natural lines that it consists of. -/
structure Declares (logical : Logical) (e : Entry) : Prop where
  pair : JavaProperties.pair logical.units = some (e.key, e.value)
  within : Within e logical.start logical.stop

/-- What the loop holds of the logical line that goes on. -/
structure Holds (pending : Pending) (units : List Nat) (start p : Nat) : Prop where
  joined : Joined pending units p
  start : pending.first.start = start

theorem split_next (h : Split (text.drop p) (line :: rest)) (hrest : rest ≠ []) :
    Split (text.drop (p + line.units.length + line.ending.length)) rest := by
  obtain ⟨more, hmore, -, hnext⟩ := split_head h
  obtain ⟨tail, htail, hsplit⟩ := hnext hrest
  rw [← List.drop_drop, ← List.drop_drop, hmore, List.drop_left, htail, List.drop_left]
  exact hsplit

theorem added_append {body : List Nat} : units ++ added body =
      if escapedAfter body then (units ++ body).dropLast else units ++ body := by
  unfold added
  by_cases h : escapedAfter body = true
  · obtain ⟨front, rfl, -⟩ := continued_end h
    rw [if_pos h, if_pos h, List.dropLast_concat, ← List.append_assoc, List.dropLast_concat]
  · rw [if_neg h, if_neg h]

variable {pending : Option Pending}

/-- One turn of the loop that does not skip its line. -/
theorem declarations_turn {limits : Limits} (hhead : Split (text.drop p) (line :: rest))
    {entries out : List Entry}
    (hholds : Holds (pending.getD ⟨⟨p, p + line.units.length⟩, [], []⟩) units start p)
    (hskip : ¬ (pending.isNone = true ∧ isIdle (strip line.units) = true))
    (h : declarations text limits pending entries (place p (line :: rest)) = .ok out) :
    (escapedAfter (strip line.units) = true ∧ rest ≠ [] ∧ ∃ extended,
      Holds extended (units ++ strip line.units).dropLast start (p + line.units.length) ∧
      declarations text limits (some extended) entries
        (place (p + line.units.length + line.ending.length) rest) = .ok out) ∨
    (escapedAfter (strip line.units) = false ∧ ∃ e,
      Declares ⟨units ++ strip line.units, start, p + line.units.length⟩ e ∧
      declarations text limits none (entries ++ [e])
        (place (p + line.units.length + line.ending.length) rest) = .ok out) := by
  obtain ⟨extended, hextend, hfirst, hjoined⟩ := joined_extend hhead hholds.joined
  rw [place, declarations, isSkipped_eq hhead, if_neg hskip] at h
  dsimp only at h
  rw [hextend] at h
  dsimp only at h
  rw [added_append] at hjoined
  by_cases hbytes : limits.maxConfigLineBytes < byteLength extended.logical
  · rw [if_pos hbytes] at h
    cases h
  rw [if_neg hbytes] at h
  by_cases hgoes : escapedAfter (strip line.units) = true
  · rw [if_pos hgoes] at h hjoined
    split at h
    · cases h
    rename_i hend
    have hstart := (congrArg Line.start hfirst).trans hholds.start
    refine .inl ⟨hgoes, ?_, extended, ⟨hjoined, hstart⟩, h⟩
    rintro rfl
    exact hend rfl
  · rw [if_neg hgoes] at h hjoined
    by_cases hentries : limits.maxConfigEntries ≤ entries.length
    · rw [if_pos hentries] at h
      cases h
    rw [if_neg hentries] at h
    split at h
    · cases h
    rename_i e he
    obtain ⟨hpair, hwithin, -⟩ := entryOf_ok hjoined he
    rw [hfirst, hholds.start] at hwithin
    exact .inr ⟨Bool.eq_false_iff.mpr hgoes, e, ⟨hpair, hwithin⟩, h⟩

/-- What the loop holds, and what is read of the logical line. -/
def HoldsAll (pending : Option Pending) (logical : Option (List Nat × Nat)) (p : Nat) : Prop :=
  match pending, logical with
  | none, none => True
  | some pending, some (units, start) => Holds pending units start p
  | _, _ => False

variable {logical : Option (List Nat × Nat)}

theorem HoldsAll.isNone (h : HoldsAll pending logical p) : pending.isNone = logical.isNone := by
  rcases pending with _ | pending <;> rcases logical with _ | logical
  · rfl
  · exact h.elim
  · exact h.elim
  · rfl

theorem Holds.later {pending : Pending}
    (h : Holds pending units start p) (more : Nat) : Holds pending units start (p + more) := by
  obtain ⟨⟨hunits, hlength, hrising, hrange, hbound⟩, hstart⟩ := h
  refine ⟨⟨hunits, hlength, hrising, fun offset hoffset => ?_, by omega⟩, hstart⟩
  have hin := hrange offset hoffset
  omega

/-- What is taken up, be it a logical line that goes on or a new one. -/
theorem HoldsAll.taken (h : HoldsAll pending logical p) (line : Line) (hline : line.start = p) :
    Holds (pending.getD ⟨line, [], []⟩) (logical.getD ([], p)).1 (logical.getD ([], p)).2 p := by
  rcases pending with _ | pending <;> rcases logical with _ | ⟨units, start⟩
  · exact ⟨⟨rfl, rfl, .nil, fun _ hin => (List.not_mem_nil hin).elim, hline.le⟩, hline⟩
  · exact h.elim
  · exact h.elim
  · exact h

/-- Every logical line is declared by an entry, in order. -/
theorem declarations_ok {limits : Limits} {lines : List Natural} {entries out : List Entry}
    (hsplit : lines ≠ [] → Split (text.drop p) lines) (hholds : HoldsAll pending logical p)
    (h : declarations text limits pending entries (place p lines) = .ok out) :
    Closed logical.isSome lines ∧ ∃ found, out = entries ++ found ∧
      List.Forall₂ Declares (logicalLines logical p lines) found := by
  induction lines generalizing p pending logical entries with
  | nil =>
    rw [place, declarations] at h
    cases h
    exact ⟨trivial, [], (List.append_nil _).symm, .nil⟩
  | cons line rest ih =>
    have hhead := hsplit (by simp)
    have hnext := split_next hhead
    by_cases hskip : pending.isNone = true ∧ isIdle (strip line.units) = true
    · rw [place, declarations, isSkipped_eq hhead, if_pos hskip] at h
      have hnone : logical = none := by
        rw [← Option.isNone_iff_eq_none, ← hholds.isNone]
        exact hskip.1
      subst hnone
      have hidle : HoldsAll none none (p + line.units.length + line.ending.length) := trivial
      obtain ⟨hclosed, found, hout, hfound⟩ := ih hnext hidle h
      refine ⟨?_, found, hout, ?_⟩
      · rw [Closed, if_pos ⟨rfl, hskip.2⟩]
        exact hclosed
      · rw [logicalLines, if_pos ⟨rfl, hskip.2⟩]
        exact hfound
    · have hactive : ¬ (logical.isSome = false ∧ isIdle (strip line.units) = true) := by
        rw [Option.isSome_eq_false_iff, ← hholds.isNone]
        exact hskip
      have hactive' : ¬ (logical = none ∧ isIdle (strip line.units) = true) := by
        rw [← Option.isNone_iff_eq_none, ← hholds.isNone]
        exact hskip
      rw [Closed, if_neg hactive, logicalLines, if_neg hactive']
      rcases declarations_turn hhead (hholds.taken _ rfl) hskip h with
        ⟨hgoes, hmore, extended, hextended, h⟩ | ⟨hends, e, hdeclares, h⟩
      · rw [if_pos hgoes]
        simp only [hgoes, if_true]
        have hall : HoldsAll (some extended)
            (some (((logical.getD ([], p)).1 ++ strip line.units).dropLast,
              (logical.getD ([], p)).2)) (p + line.units.length + line.ending.length) :=
          hextended.later line.ending.length
        obtain ⟨hclosed, found, hout, hfound⟩ := ih hnext hall h
        exact ⟨⟨hmore, hclosed⟩, found, hout, hfound⟩
      · rw [if_neg (by rw [hends]; decide)]
        simp only [hends, Bool.false_eq_true, if_false]
        have hidle : HoldsAll none none (p + line.units.length + line.ending.length) := trivial
        obtain ⟨hclosed, found, hout, hfound⟩ := ih hnext hidle h
        refine ⟨hclosed, e :: found, ?_, .cons hdeclares hfound⟩
        rw [hout, List.append_assoc]
        rfl

theorem ending_pos (h : Split text (line :: rest))
    (hrest : rest ≠ []) : 0 < line.ending.length := by
  cases h with
  | last _ => exact absurd rfl hrest
  | more _ hending _ => cases hending <;> exact Nat.succ_pos _

/-- The logical lines follow each other: each begins behind the end of the one before. -/
theorem logicalLines_apart {lines : List Natural} {pending : Option (List Nat × Nat)}
    (hsplit : lines ≠ [] → Split (text.drop p) lines) (hstart : (pending.getD ([], p)).2 ≤ p) :
    (∀ logical ∈ logicalLines pending p lines, (pending.getD ([], p)).2 ≤ logical.start) ∧
      (logicalLines pending p lines).Pairwise fun a b => a.stop < b.start := by
  induction lines generalizing p pending with
  | nil => exact ⟨fun _ hin => (List.not_mem_nil hin).elim, .nil⟩
  | cons line rest ih =>
    have hhead := hsplit (by simp)
    have hnext := split_next hhead
    obtain ⟨hidle, hpairs⟩ : (∀ logical ∈ logicalLines none _ rest,
        p + line.units.length + line.ending.length ≤ logical.start) ∧
          (logicalLines none _ rest).Pairwise fun a b => a.stop < b.start :=
      ih hnext (le_refl _)
    rw [logicalLines]
    by_cases hskip : pending = none ∧ isIdle (strip line.units) = true
    · rw [if_pos hskip, hskip.1]
      refine ⟨fun logical hin => ?_, hpairs⟩
      have hlater := hidle logical hin
      show p ≤ logical.start
      omega
    · rw [if_neg hskip]
      by_cases hgoes : escapedAfter (strip line.units) = true
      · simp only [hgoes, if_true]
        refine ih hnext ?_
        dsimp only [Option.getD_some]
        omega
      · simp only [hgoes]
        constructor
        · intro logical hin
          rcases List.mem_cons.mp hin with rfl | hin
          · exact le_refl _
          · have hlater := hidle logical hin
            omega
        · refine List.pairwise_cons.mpr ⟨fun logical hin => ?_, hpairs⟩
          have hrest : rest ≠ [] := by
            rintro rfl
            exact (List.not_mem_nil hin).elim
          have hpos := ending_pos hhead hrest
          have hlater := hidle logical hin
          dsimp only
          omega

end Traqen.PropertiesStructure
