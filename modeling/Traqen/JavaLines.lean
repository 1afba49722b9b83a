-- The line reader of `java.util.Properties` over natural lines: what it returns is told line by
-- line.
import Traqen.PropertyLines

namespace Traqen.PropertiesStructure

open JavaProperties (Reader readLines fresh finished isBlank isLineEnd)

/-- What the reader returns of the natural lines, behind what it has of a logical line. -/
def returned : List Nat → List Natural → List (List Nat)
  | _, [] => []
  | units, line :: rest =>
    let body := strip line.units
    if units = [] ∧ isIdle body = true then returned [] rest
    else if rest = [] then [units ++ added body]
    else if escapedAfter body then
      -- The end of the input stands behind one character that ends the line.
      if rest = [⟨[], []⟩] ∧ line.ending.length = 1 then [(units ++ body).dropLast]
      else returned (units ++ body).dropLast rest
    else (units ++ body) :: returned [] rest

/-! ## The states of the reader -/

/-- Between two natural lines: nothing of the next was taken. -/
def ready (line : List Nat) (appended : Bool) : Reader :=
  { line, skipWhiteSpace := true, appendedLineBegin := appended, precedingBackslash := false
    comment := false, escapedReturn := false }

/-- Within a natural line. -/
def inLine (line : List Nat) (escaped : Bool) : Reader :=
  { line, skipWhiteSpace := false, appendedLineBegin := false, precedingBackslash := escaped
    comment := false, escapedReturn := false }

attribute [local simp] readLines

theorem fresh_eq : fresh = ready [] false := rfl

variable {c : Nat}

theorem plain_not_end (h : c ≠ lineFeed ∧ c ≠ carriageReturn) : isLineEnd c = false := by
  unfold isLineEnd
  rw [Bool.or_eq_false_iff, decide_eq_false_iff_not, decide_eq_false_iff_not]
  exact h

variable {appended escaped : Bool} {cs ending line text units : List Nat}

theorem ready_blank (h : whitespace c = true) :
    readLines (ready line appended) (c :: cs) = readLines (ready line appended) cs := by
  have hblank : isBlank c = true := h
  simp [readLines, ready, hblank]

theorem ready_blanks {blanks : List Nat} (h : ∀ c ∈ blanks, whitespace c = true) (more : List Nat) :
    readLines (ready line appended) (blanks ++ more) = readLines (ready line appended) more := by
  induction blanks with
  | nil => rfl
  | cons c cs ih =>
    rw [List.cons_append, ready_blank (h c List.mem_cons_self)]
    exact ih fun d hd => h d (List.mem_cons_of_mem c hd)

theorem end_not_blank (h : isLineEnd c = true) : isBlank c = false ∧ c ≠ 0x23 ∧ c ≠ 0x21 := by
  simp only [isLineEnd, Bool.or_eq_true, decide_eq_true_eq] at h
  rcases h with rfl | rfl <;> decide

/-- The end of a natural line of which nothing was taken is read over. -/
theorem ready_end (h : isLineEnd c = true) (cs : List Nat) :
    readLines (ready [] appended) (c :: cs) = readLines fresh cs := by
  obtain ⟨hblank, hhash, hbang⟩ := end_not_blank h
  cases appended <;> simp [readLines, ready, fresh, hblank, h, hhash, hbang]

theorem ready_end_line (hline : line ≠ []) (h : isLineEnd c = true)
    (cs : List Nat) : readLines (ready line true) (c :: cs) =
      if cs = [] then [line] else line :: readLines fresh cs := by
  obtain ⟨hblank, hhash, hbang⟩ := end_not_blank h
  simp [readLines, ready, finished, hblank, h, hline]

theorem ready_unit (hblank : whitespace c = false)
    (hplain : isLineEnd c = false) (hcomment : line ≠ [] ∨ ¬ (c = hash ∨ c = bang)) :
    readLines (ready line appended) (c :: cs) =
      readLines (inLine (line ++ [c]) (flip false c)) cs := by
  have hnot : ¬ (line = [] ∧ (c = 0x23 ∨ c = 0x21)) := by
    rintro ⟨hline, hc⟩
    rcases hcomment with hne | hne
    · exact hne hline
    · exact hne hc
  have hblank' : isBlank c = false := hblank
  rw [readLines]
  simp only [ready, inLine, hblank', hplain, hnot, flip, backslash]
  simp
  rfl

theorem inLine_unit (hline : line ≠ []) (hplain : isLineEnd c = false) :
    readLines (inLine line escaped) (c :: cs) =
      readLines (inLine (line ++ [c]) (flip escaped c)) cs := by
  simp [readLines, inLine, hplain, hline, flip, backslash, Bool.and_comm]
  rfl

theorem inLine_units (hline : line ≠ []) (hplain : Plain units) (more : List Nat) :
    readLines (inLine line escaped) (units ++ more) =
      readLines (inLine (line ++ units) (units.foldl flip escaped)) more := by
  induction units generalizing line escaped with
  | nil => rw [List.nil_append, List.append_nil, List.foldl_nil]
  | cons c cs ih =>
    rw [List.cons_append, inLine_unit hline (plain_not_end (hplain c List.mem_cons_self)),
      ih (by simp) fun d hd => hplain d (List.mem_cons_of_mem c hd)]
    simp

/-- The end of a natural line of which something was taken. -/
theorem inLine_end (hline : line ≠ []) (h : isLineEnd c = true) (cs : List Nat) :
    readLines (inLine line escaped) (c :: cs) =
      if cs = [] then [if escaped then line.dropLast else line]
      else if escaped then
        readLines { ready line.dropLast true with escapedReturn := decide (c = carriageReturn) } cs
      else line :: readLines fresh cs := by
  simp [readLines, inLine, ready, finished, h, hline, carriageReturn]
  rfl

/-- A line feed behind an escaped carriage return belongs to it. -/
theorem escapedReturn_feed (line cs : List Nat) :
    readLines { ready line true with escapedReturn := true } (lineFeed :: cs) =
      readLines (ready line true) cs := by
  simp [readLines, ready, lineFeed]

theorem escapedReturn_other (h : cs.head? ≠ some lineFeed) :
    readLines { ready line true with escapedReturn := true } cs =
      readLines (ready line true) cs := by
  cases cs with
  | nil => rfl
  | cons c cs =>
    have hc : ¬ c = 0x0A := by simpa [lineFeed] using h
    simp [readLines, ready, finished, hc]

/-- Within a comment. -/
def inComment (appended : Bool) : Reader := { ready [] appended with comment := true }

theorem ready_comment (h : c = hash ∨ c = bang) (cs : List Nat) :
    readLines (ready [] appended) (c :: cs) = readLines (inComment appended) cs := by
  rcases h with rfl | rfl <;> simp [readLines, ready, inComment, hash, bang, isBlank, isLineEnd]

/-- A comment is read over. -/
theorem comment_units (hplain : Plain units) (more : List Nat) :
    readLines (inComment appended) (units ++ more) = readLines (inComment appended) more := by
  induction units with
  | nil => rfl
  | cons c cs ih =>
    have hc := plain_not_end (hplain c List.mem_cons_self)
    have hstep : readLines (inComment appended) (c :: (cs ++ more)) =
        readLines (inComment appended) (cs ++ more) := by
      simp [readLines, inComment, ready, hc]
    rw [List.cons_append, hstep]
    exact ih fun d hd => hplain d (List.mem_cons_of_mem c hd)

theorem comment_end (h : isLineEnd c = true) (cs : List Nat) :
    readLines (inComment appended) (c :: cs) = readLines fresh cs := by
  simp [readLines, inComment, ready, h]

/-! ## The natural lines in turn -/

/-- What ends a natural line is read over where nothing is taken. -/
theorem ending_fresh (h : Ending ending text) {r : Reader}
    (hr : ∀ c cs, isLineEnd c = true → readLines r (c :: cs) = readLines fresh cs) :
    readLines r (ending ++ text) = readLines fresh text := by
  cases h with
  | lineFeed => exact hr lineFeed text rfl
  | carriageReturn _ => exact hr carriageReturn text rfl
  | both =>
    have hfirst := hr carriageReturn (lineFeed :: text) rfl
    rw [fresh_eq, ready_end rfl] at hfirst
    exact hfirst

/-- What ends a natural line ends the logical line. -/
theorem ending_line (h : Ending ending text) {r : Reader} (hr : ∀ c cs, isLineEnd c = true →
      readLines r (c :: cs) = if cs = [] then [line] else line :: readLines fresh cs) :
    readLines r (ending ++ text) = line :: readLines fresh text := by
  cases h with
  | lineFeed =>
    rw [List.singleton_append, hr _ _ rfl]
    split_ifs with hend
    · rw [hend]
      rfl
    · rfl
  | carriageReturn _ =>
    rw [List.singleton_append, hr _ _ rfl]
    split_ifs with hend
    · rw [hend]
      rfl
    · rfl
  | both =>
    have hfirst := hr carriageReturn (lineFeed :: text) rfl
    rw [if_neg (by simp), fresh_eq, ready_end rfl] at hfirst
    exact hfirst

/-- What ends a natural line that goes on: the line is done where the input ends at once. -/
theorem ending_escaped (h : Ending ending text) (hline : line ≠ []) :
    readLines (inLine line true) (ending ++ text) =
      if text = [] ∧ ending.length = 1 then [line.dropLast]
      else readLines (ready line.dropLast true) text := by
  cases h with
  | lineFeed =>
    rw [List.singleton_append, inLine_end hline rfl]
    by_cases hend : text = []
    · rw [if_pos hend, if_pos rfl, if_pos ⟨hend, rfl⟩]
    · rw [if_neg hend, if_pos rfl, if_neg fun h => hend h.1]
      rfl
  | carriageReturn hhead =>
    rw [List.singleton_append, inLine_end hline rfl]
    by_cases hend : text = []
    · rw [if_pos hend, if_pos rfl, if_pos ⟨hend, rfl⟩]
    · rw [if_neg hend, if_pos rfl, if_neg fun h => hend h.1]
      exact escapedReturn_other hhead
  | both =>
    have hnot : ¬ (text = [] ∧ [carriageReturn, lineFeed].length = 1) := fun h => by cases h.2
    rw [List.cons_append, List.singleton_append, inLine_end hline rfl, if_neg (by simp),
      if_pos rfl, if_neg hnot]
    exact escapedReturn_feed _ _

theorem empty_split {lines : List Natural} (h : Split text lines) :
    text = [] ↔ lines = [⟨[], []⟩] := by
  cases h with
  | last h => simp
  | more h hending hrest => cases hending <;> simp

section Units

variable {units more : List Nat}

theorem strip_plain (hplain : Plain units) : Plain (strip units) := fun c hc =>
  hplain c ((List.dropWhile_suffix _).subset hc)

theorem strip_head (h : strip units = c :: cs) : whitespace c = false := by
  unfold strip at h
  have hne : units.dropWhile whitespace ≠ [] := by
    rw [h]
    exact List.cons_ne_nil c cs
  have hhead := List.head_dropWhile_not whitespace hne
  simp only [h, List.head_cons] at hhead
  exact hhead

theorem units_blank (hbody : strip units = []) :
    readLines (ready line appended) (units ++ more) = readLines (ready line appended) more := by
  have hunits : units.takeWhile whitespace = units := by
    have hall := takeWhile_strip units
    rw [hbody, List.append_nil] at hall
    exact hall
  rw [← hunits]
  exact ready_blanks (fun c hc => List.mem_takeWhile_imp hc) more

theorem units_comment (hplain : Plain units) (hidle : isIdle (strip units) = true)
    (hbody : strip units ≠ []) :
    readLines (ready [] appended) (units ++ more) = readLines (inComment appended) more := by
  have hbodyPlain := strip_plain hplain
  rw [← takeWhile_strip units, List.append_assoc,
    ready_blanks (fun c hc => List.mem_takeWhile_imp hc)]
  cases hs : strip units with
  | nil => exact absurd hs hbody
  | cons c cs =>
    rw [hs] at hidle hbodyPlain
    have hc : c = hash ∨ c = bang := by simpa [isIdle] using hidle
    rw [List.cons_append, ready_comment hc]
    exact comment_units (fun d hd => hbodyPlain d (List.mem_cons_of_mem c hd)) more

theorem units_taken (hplain : Plain units)
    (hbody : strip units ≠ []) (htaken : line ≠ [] ∨ isIdle (strip units) = false) :
    readLines (ready line appended) (units ++ more) =
      readLines (inLine (line ++ strip units) (escapedAfter (strip units))) more := by
  have hbodyPlain := strip_plain hplain
  rw [← takeWhile_strip units, List.append_assoc,
    ready_blanks (fun c hc => List.mem_takeWhile_imp hc), takeWhile_strip]
  cases hs : strip units with
  | nil => exact absurd hs hbody
  | cons c cs =>
    rw [hs] at htaken hbodyPlain
    have hblank := strip_head hs
    have hcomment : line ≠ [] ∨ ¬ (c = hash ∨ c = bang) := by
      rcases htaken with hline | hidle
      · exact .inl hline
      · exact .inr (by simpa [isIdle] using hidle)
    rw [List.cons_append, ready_unit hblank (plain_not_end (hbodyPlain c List.mem_cons_self))
      hcomment, inLine_units (by simp) fun d hd => hbodyPlain d (List.mem_cons_of_mem c hd)]
    rw [List.append_assoc]
    rfl

end Units

theorem split_ne_nil {lines : List Natural} (h : Split text lines) : lines ≠ [] := by
  cases h <;> simp

/-- The last natural line, behind which the input ends. -/
theorem readLines_last (hplain : Plain units) (line : List Nat)
    (appended : Bool) (happended : line ≠ [] → appended = true) :
    readLines (ready line appended) units = returned line [⟨units, []⟩] := by
  rw [returned]
  by_cases hskip : line = [] ∧ isIdle (strip units) = true
  · rw [if_pos hskip]
    obtain ⟨rfl, hidle⟩ := hskip
    by_cases hbody : strip units = []
    · have hread : readLines (ready [] appended) (units ++ []) = _ := units_blank hbody
      rw [List.append_nil] at hread
      exact hread
    · have hread : readLines (ready [] appended) (units ++ []) = _ :=
        units_comment hplain hidle hbody
      rw [List.append_nil] at hread
      exact hread
  · rw [if_neg hskip, if_pos rfl]
    by_cases hbody : strip units = []
    · have hline : line ≠ [] := by
        rintro rfl
        exact hskip ⟨rfl, by rw [hbody]; rfl⟩
      have hread : readLines (ready line appended) (units ++ []) = _ := units_blank hbody
      rw [List.append_nil] at hread
      rw [hread, hbody]
      simp [readLines, ready, finished, hline, added, escapedAfter]
    · have htaken : line ≠ [] ∨ isIdle (strip units) = false := by
        by_cases hline : line = []
        · exact .inr (Bool.eq_false_iff.mpr fun hidle => hskip ⟨hline, hidle⟩)
        · exact .inl hline
      have hread : readLines (ready line appended) (units ++ []) = _ :=
        units_taken hplain hbody htaken
      rw [List.append_nil] at hread
      rw [hread, added_append]
      simp [readLines, inLine, finished, hbody]

/-- The reader returns the logical lines that are told by the natural ones. -/
theorem readLines_eq {lines : List Natural} (h : Split text lines)
    (line : List Nat) (appended : Bool) (happended : line ≠ [] → appended = true) :
    readLines (ready line appended) text = returned line lines := by
  induction h generalizing line appended with
  | last hplain => exact readLines_last hplain line appended happended
  | @more units ending text lines hplain hending hrest ih =>
    rw [returned]
    have hfresh : readLines fresh text = returned [] lines :=
      ih [] false fun h => absurd rfl h
    by_cases hskip : line = [] ∧ isIdle (strip units) = true
    · rw [if_pos hskip]
      obtain ⟨rfl, hidle⟩ := hskip
      by_cases hbody : strip units = []
      · rw [units_blank hbody, ending_fresh hending fun c cs hc => ready_end hc cs]
        exact hfresh
      · rw [units_comment hplain hidle hbody,
          ending_fresh hending fun c cs hc => comment_end hc cs]
        exact hfresh
    · rw [if_neg hskip, if_neg (split_ne_nil hrest)]
      by_cases hbody : strip units = []
      · have hline : line ≠ [] := by
          rintro rfl
          exact hskip ⟨rfl, by rw [hbody]; rfl⟩
        rw [happended hline, units_blank hbody,
          ending_line hending fun c cs hc => ready_end_line hline hc cs, hbody, List.append_nil,
          if_neg (by decide), hfresh]
      · have htaken : line ≠ [] ∨ isIdle (strip units) = false := by
          by_cases hline : line = []
          · exact .inr (Bool.eq_false_iff.mpr fun hidle => hskip ⟨hline, hidle⟩)
          · exact .inl hline
        have hjoined : line ++ strip units ≠ [] := by simp [hbody]
        rw [units_taken hplain hbody htaken]
        by_cases hgoes : escapedAfter (strip units) = true
        · rw [hgoes, if_pos rfl, ending_escaped hending hjoined]
          by_cases hend : text = [] ∧ ending.length = 1
          · rw [if_pos hend, if_pos ⟨(empty_split hrest).mp hend.1, hend.2⟩]
          · rw [if_neg hend, if_neg fun h => hend ⟨(empty_split hrest).mpr h.1, h.2⟩]
            exact ih _ true fun _ => rfl
        · have hends := Bool.eq_false_iff.mpr hgoes
          rw [if_neg hgoes, hends, ending_line hending fun c cs hc => inLine_end hjoined hc cs,
            hfresh, if_neg (by decide)]

end Traqen.PropertiesStructure
