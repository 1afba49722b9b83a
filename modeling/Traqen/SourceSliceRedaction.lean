-- The secrecy law of source slices. The characters of a secret's value carry a mark, and
-- the broker's redaction is followed with the marks on: a slice reveals a secret when a
-- marked character is in it. Redaction is applied to the window and not to the artifact, so
-- it keeps the secrets exactly of the windows that cut no secret open.
import Traqen.SecretPattern
import Traqen.Lib.Machine

open Js

namespace Traqen.SourceSliceBroker

open Regex (textOf scan replaceAll textOf_cons textOf_scan scan_map scan_cases scan_textOf
  textOf_append scan_kept scan_found)

/-! ## Marks -/

abbrev Marked := Char × Bool

def markAll (mark : Bool) (xs : List Char) : List Marked := xs.map fun c => (c, mark)

/-- The part after the `:` or `=` is the secret. -/
def markSecret (m : List Char) : List Marked :=
  markAll false (m.take (valueStart m)) ++ markAll true (m.drop (valueStart m))

def markPiece : Regex.Piece Char → Regex.Piece Marked
  | .kept c => .kept (c, false)
  | .found m => .found (markSecret m)

/-- The whole text of an artifact, with a mark on every character of a secret's value. -/
def markSecrets (text : List Char) : List Marked :=
  textOf ((scan secretLength text).map markPiece)

def markedSize (x : Marked) : Nat := x.1.utf8Size

def markedKey (found : List Marked) : List Marked :=
  trimBlanks (fun x => isSpace x.1) (found.takeWhile fun x => !isSeparator x.1)

def markedReplacement (found : List Marked) : List Marked :=
  markAll false redactedOpening ++ markedKey found ++ markAll false [']']

def markedLength (text : List Marked) : Option Nat := secretLength (text.map Prod.fst)

/-- `redact` on a marked text. -/
def redactMarked (text : List Marked) : List Marked :=
  replaceAll markedLength markedReplacement text

theorem markedLength_pos (text : List Marked) : markedLength text ≠ some 0 := secretLength_pos _

@[simp] theorem markAll_text (mark : Bool) (xs : List Char) : (markAll mark xs).map Prod.fst = xs := by
  simp [markAll, Function.comp_def]

@[simp] theorem markSecret_text (m : List Char) : (markSecret m).map Prod.fst = m := by
  simp [markSecret]

@[simp] theorem length_markSecret (m : List Char) : (markSecret m).length = m.length := by
  rw [← List.length_map (f := Prod.fst), markSecret_text]

theorem mem_markAll {mark : Bool} {xs : List Char} {x : Marked} (h : x ∈ markAll mark xs) :
    x.2 = mark := by
  obtain ⟨c, _, rfl⟩ := List.mem_map.mp h
  rfl

theorem map_markPiece (ps : List (Regex.Piece Char)) :
    (ps.map markPiece).map (Regex.Piece.map Prod.fst) = ps := by
  induction ps with
  | nil => rfl
  | cons p ps ih =>
    rw [List.map_cons, List.map_cons, ih]
    cases p <;> simp [markPiece, Regex.Piece.map]

theorem textOf_markPiece (ps : List (Regex.Piece Char)) :
    (textOf (ps.map markPiece)).map Prod.fst = textOf ps := by
  induction ps with
  | nil => rfl
  | cons p ps ih =>
    rw [List.map_cons, textOf_cons, List.map_append, ih, textOf_cons]
    cases p <;> simp [markPiece, Regex.Piece.text]

theorem length_textOf_markPiece (ps : List (Regex.Piece Char)) :
    (textOf (ps.map markPiece)).length = (textOf ps).length := by
  rw [← textOf_markPiece, List.length_map]

/-- The marks change nothing of the text. -/
theorem markSecrets_text (text : List Char) : (markSecrets text).map Prod.fst = text := by
  rw [markSecrets, textOf_markPiece, textOf_scan secretLength_pos]

theorem markedKey_text (found : List Marked) :
    (markedKey found).map Prod.fst = redactedKey (found.map Prod.fst) := by
  unfold markedKey redactedKey trimBlanks
  simp only [List.takeWhile_map, List.dropWhile_map, ← List.map_reverse]
  rfl

theorem redactMarked_text (text : List Marked) :
    (redactMarked text).map Prod.fst = redact (text.map Prod.fst) := by
  unfold redactMarked redact replaceAll
  rw [scan_map, List.map_flatMap, List.flatMap_map]
  show (scan markedLength text).flatMap _ = (scan markedLength text).flatMap _
  congr 1
  funext p
  cases p with
  | kept x => rfl
  | found m => simp [markedReplacement, replacement, markedKey_text, Regex.Piece.map]

/-! ## What the budget lets through -/

/-- A marked character is among the first bytes. -/
def Reveals (bytes : Nat) (text : List Marked) : Prop :=
  ∃ x ∈ Utf8.fitting markedSize bytes text, x.2 = true

def Unmarked (text : List Marked) : Prop := ∀ x ∈ text, x.2 = false

variable {text : List Marked}

variable {bytes k n : Nat}

theorem not_reveals_of_unmarked (h : Unmarked text) : ¬ Reveals bytes text := by
  rintro ⟨x, hx, hm⟩
  rw [h x ((Utf8.fitting_prefix bytes text).subset hx)] at hm
  cases hm

theorem reveals_append {before : List Marked} (h : Unmarked before) :
    Reveals bytes (before ++ text) ↔
      Utf8.total markedSize before ≤ bytes ∧
        Reveals (bytes - Utf8.total markedSize before) text := by
  by_cases hfit : Utf8.total markedSize before ≤ bytes
  · simp only [Reveals, Utf8.fitting_append hfit, hfit, true_and, List.mem_append]
    constructor
    · rintro ⟨x, hx | hx, hm⟩
      · rw [h x hx] at hm
        cases hm
      · exact ⟨x, hx, hm⟩
    · rintro ⟨x, hx, hm⟩
      exact ⟨x, Or.inr hx, hm⟩
  · simp only [hfit, false_and, iff_false]
    rintro ⟨x, hx, hm⟩
    rw [Utf8.fitting_append_of_le (by omega)] at hx
    rw [h x ((Utf8.fitting_prefix bytes before).subset hx)] at hm
    cases hm

theorem reveals_marked {x : Marked} (h : x.2 = true) :
    Reveals bytes (x :: text) ↔ markedSize x ≤ bytes := by
  unfold Reveals Utf8.fitting
  constructor
  · rintro ⟨y, hy, _⟩
    by_contra hlt
    rw [if_neg hlt] at hy
    cases hy
  · intro hle
    rw [if_pos hle]
    exact ⟨x, by simp, h⟩

theorem total_markedSize (text : List Marked) :
    Utf8.total markedSize text = Utf8.byteLength (text.map Prod.fst) := by
  rw [Utf8.byteLength, Utf8.total_map]
  rfl

theorem unmarked_append {xs ys : List Marked} (hx : Unmarked xs) (hy : Unmarked ys) :
    Unmarked (xs ++ ys) := by
  intro x h
  rcases List.mem_append.mp h with h | h
  · exact hx x h
  · exact hy x h

theorem unmarked_markAll (xs : List Char) : Unmarked (markAll false xs) := fun _ h => mem_markAll h

theorem markedKey_subset {found : List Marked} {x : Marked} (h : x ∈ markedKey found) :
    x ∈ found.takeWhile fun x => !isSeparator x.1 := by
  unfold markedKey trimBlanks at h
  have h1 := (List.dropWhile_suffix _).subset (List.mem_reverse.mp h)
  exact (List.dropWhile_suffix _).subset (List.mem_reverse.mp h1)

/-- What replaces a secret shows nothing that is marked, when its front is not. -/
theorem unmarked_replacement {found : List Marked}
    (h : Unmarked (found.takeWhile fun x => !isSeparator x.1)) :
    Unmarked (markedReplacement found) := by
  refine unmarked_append (unmarked_append (unmarked_markAll _) ?_) (unmarked_markAll _)
  intro x hx
  exact h x (markedKey_subset hx)

/-- What a marked piece turns into. -/
def emit : Regex.Piece Marked → List Marked
  | .kept x => [x]
  | .found m => markedReplacement m

theorem emit_map_kept (xs : List Marked) : (xs.map Regex.Piece.kept).flatMap emit = xs := by
  induction xs with
  | nil => rfl
  | cons x xs ih => rw [List.map_cons, List.flatMap_cons, ih]; rfl

theorem redactMarked_eq (text : List Marked) :
    redactMarked text = (scan markedLength text).flatMap emit := by
  unfold redactMarked replaceAll
  congr 1
  funext p
  cases p <;> rfl

/-- Nothing marked comes out of what has no mark. -/
theorem unmarked_redactMarked (h : Unmarked text) :
    Unmarked (redactMarked text) := by
  rw [redactMarked_eq]
  have htext := textOf_scan markedLength_pos text
  intro x hx
  obtain ⟨p, hp, hxp⟩ := List.mem_flatMap.mp hx
  have hpiece : Unmarked p.text := by
    intro y hy
    refine h y ?_
    rw [← htext]
    exact List.mem_flatMap.mpr ⟨p, hp, hy⟩
  cases p with
  | kept y =>
    obtain rfl := List.mem_singleton.mp hxp
    exact hpiece x (by simp [Regex.Piece.text])
  | found m =>
    exact unmarked_replacement (fun y hy => hpiece y (List.takeWhile_subset _ hy)) x hxp

/-- The front of a secret, up to the separator, is not marked. -/
theorem takeWhile_markSecret (m : List Char) (n : Nat) :
    Unmarked (((markSecret m).take n).takeWhile fun x => !isSeparator x.1) := by
  have hfront : Unmarked ((markSecret m).takeWhile fun x => !isSeparator x.1) := by
    have hpre : ((markSecret m).takeWhile fun x => !isSeparator x.1) <+:
        markAll false (m.take (valueStart m)) := by
      refine List.prefix_of_prefix_length_le (List.takeWhile_prefix _) (List.prefix_append _ _) ?_
      have hlen : ((markSecret m).takeWhile fun x => !isSeparator x.1).length =
          (m.takeWhile fun c => !isSeparator c).length := by
        conv_rhs => rw [← markSecret_text m, List.takeWhile_map, List.length_map]
        rfl
      rw [hlen, markAll, List.length_map, List.length_take, valueStart]
      have := (List.takeWhile_prefix (fun c => !isSeparator c) (l := m)).length_le
      omega
    intro x hx
    exact mem_markAll (hpre.subset hx)
  intro x hx
  refine hfront x (List.IsPrefix.subset ?_ hx)
  obtain ⟨rest, hrest⟩ := List.take_prefix n (markSecret m)
  conv_rhs => rw [← hrest, List.takeWhile_append]
  split
  · exact (List.takeWhile_prefix _).trans (List.prefix_append _ _)
  · exact List.prefix_rfl

theorem unmarked_emit (p : Regex.Piece Char) : Unmarked (emit (markPiece p)) := by
  cases p with
  | kept c =>
    intro x hx
    rw [List.mem_singleton.mp hx]
  | found m =>
    refine unmarked_replacement ?_
    have := takeWhile_markSecret m m.length
    rwa [List.take_of_length_le (by simp)] at this

/-- Whole pieces of the text show nothing that is marked. -/
theorem unmarked_pieces (ps : List (Regex.Piece Char)) :
    Unmarked ((ps.map markPiece).flatMap emit) := by
  intro x hx
  obtain ⟨p, hp, hxp⟩ := List.mem_flatMap.mp hx
  obtain ⟨q, _, rfl⟩ := List.mem_map.mp hp
  exact unmarked_emit q x hxp

/-! ## Where a window cuts the text -/

/-- The secret that a cut after `k` characters goes through, and how many of its characters
stand before the cut. -/
def secretAcross : List (Regex.Piece Char) → Nat → Option (List Char × Nat)
  | [], _ => none
  | _, 0 => none
  | .kept _ :: ps, k + 1 => secretAcross ps k
  | .found m :: ps, k + 1 =>
    if k + 1 < m.length then some (m, k + 1) else secretAcross ps (k + 1 - m.length)

variable {ps : List (Regex.Piece Char)}

theorem secretAcross_none (h : secretAcross ps k = none) :
    ∃ ps1 ps2, ps = ps1 ++ ps2 ∧ (textOf ps).take k = textOf ps1 := by
  induction ps generalizing k with
  | nil => exact ⟨[], [], rfl, by simp⟩
  | cons p ps ih =>
    cases k with
    | zero => exact ⟨[], p :: ps, rfl, rfl⟩
    | succ k =>
      cases p with
      | kept c =>
        obtain ⟨ps1, ps2, rfl, htake⟩ := ih (by simpa [secretAcross] using h)
        exact ⟨.kept c :: ps1, ps2, rfl, by simpa [Regex.Piece.text] using htake⟩
      | found m =>
        rw [secretAcross] at h
        split at h
        · cases h
        · obtain ⟨ps1, ps2, rfl, htake⟩ := ih h
          refine ⟨.found m :: ps1, ps2, rfl, ?_⟩
          rw [textOf_cons, textOf_cons, ← htake, List.take_append]
          simp only [Regex.Piece.text]
          rw [List.take_of_length_le (by omega)]

variable {m : List Char}

theorem secretAcross_some (h : secretAcross ps k = some (m, n)) :
    ∃ ps1 ps2, ps = ps1 ++ .found m :: ps2 ∧ k = (textOf ps1).length + n ∧ 0 < n ∧
      n < m.length := by
  induction ps generalizing k with
  | nil => simp [secretAcross] at h
  | cons p ps ih =>
    cases k with
    | zero => simp [secretAcross] at h
    | succ k =>
      cases p with
      | kept c =>
        obtain ⟨ps1, ps2, rfl, hk, hn⟩ := ih (by simpa [secretAcross] using h)
        exact ⟨.kept c :: ps1, ps2, rfl, by simp [Regex.Piece.text]; omega, hn⟩
      | found m' =>
        rw [secretAcross] at h
        split at h
        · rename_i hlt
          cases h
          exact ⟨[], ps, rfl, by simp, by omega, hlt⟩
        · obtain ⟨ps1, ps2, rfl, hk, hn⟩ := ih h
          exact ⟨.found m' :: ps1, ps2, rfl, by simp [Regex.Piece.text]; omega, hn⟩

/-- What the search finds at the start of a text is a secret there. -/
theorem secretLength_of_scan (h : scan secretLength (m ++ textOf ps) = .found m :: ps) :
    m ≠ [] ∧ secretLength (m ++ textOf ps) = some m.length := by
  cases hall : m ++ textOf ps with
  | nil =>
    rw [hall] at h
    cases h
  | cons c cs =>
    rw [hall] at h
    rcases scan_cases secretLength_pos c cs with ⟨_, hscan⟩ | ⟨k, hk, hscan⟩
    · rw [hscan] at h
      cases (List.cons.inj h).1
    · rw [hscan] at h
      have hm := Regex.Piece.found.inj (List.cons.inj h).1
      obtain ⟨_, _, _, _, hsplit, _, _, hn⟩ := secret_of_secretLength hk
      have hle := congrArg List.length hsplit
      have hlen := congrArg List.length hm
      simp only [List.length_append, List.length_cons, List.length_take] at hn hle hlen
      refine ⟨by rintro rfl; simp at hlen, ?_⟩
      rw [hk]
      simp only [Option.some.injEq]
      omega

/-- A cut behind whole pieces leaves these pieces as they are. -/
theorem scan_cut {qs : List (Regex.Piece Char)} {cut : List Char}
    (h : scan secretLength (textOf (ps ++ qs)) = ps ++ qs)
    (hcut : cut <+: textOf qs) :
    scan secretLength (textOf ps ++ cut) = ps ++ scan secretLength cut := by
  induction ps with
  | nil => rfl
  | cons p ps ih =>
    have hrest : scan secretLength (textOf (ps ++ qs)) = ps ++ qs :=
      scan_textOf secretLength_pos (h.trans (List.singleton_append ..).symm)
    have hpre : textOf ps ++ cut <+: textOf (ps ++ qs) := by
      rw [textOf_append]
      exact (List.prefix_append_right_inj _).mpr hcut
    rw [List.cons_append, textOf_cons] at h
    rw [textOf_cons, List.append_assoc]
    cases p with
    | kept c =>
      rcases scan_cases secretLength_pos c (textOf (ps ++ qs)) with
        ⟨hnone, _⟩ | ⟨k, _, hscan⟩
      · have hnone' : secretLength (c :: (textOf ps ++ cut)) = none := by
          by_contra hne
          obtain ⟨more, hmore⟩ := hpre
          refine secretLength_append hne more ?_
          rw [List.cons_append, hmore]
          exact hnone
        show scan secretLength (c :: (textOf ps ++ cut)) = _
        rw [scan_kept hnone', ih hrest]
        rfl
      · rw [Regex.Piece.text, List.singleton_append, hscan] at h
        cases (List.cons.inj h).1
    | found m =>
      obtain ⟨hne, hm⟩ : m ≠ [] ∧ secretLength (m ++ textOf (ps ++ qs)) = some m.length :=
        secretLength_of_scan h
      have hcutm := secretLength_cut_after hm hpre
      obtain ⟨k, hk⟩ : ∃ k, m.length = k + 1 := ⟨m.length - 1, by
        have := List.length_pos_of_ne_nil hne
        omega⟩
      rw [hk] at hcutm
      have hfound := scan_found hcutm (by simp [hne])
      rw [Regex.Piece.text, hfound, ← hk, List.take_left' rfl, List.drop_left' rfl, ih hrest,
        List.cons_append]

/-- The redaction of a marked text, from pieces that show the search what it looks for. -/
theorem redactMarked_of_pieces {ps : List (Regex.Piece Marked)}
    (h : scan secretLength ((textOf ps).map Prod.fst) = ps.map (Regex.Piece.map Prod.fst)) :
    redactMarked (textOf ps) = ps.flatMap emit := by
  have hscan : scan markedLength (textOf ps) = ps :=
    Regex.scan_eq_of_map secretLength_pos h.symm
  rw [redactMarked_eq, hscan]

/-! ## A window that ends inside a secret -/

theorem take_markSecret_of_le (h : n ≤ valueStart m) :
    (markSecret m).take n = markAll false (m.take n) := by
  unfold markSecret markAll
  by_cases hn : n ≤ m.length
  · rw [List.take_append_of_le_length (by simp; omega), ← List.map_take, List.take_take,
      Nat.min_eq_left h]
  · rw [List.take_of_length_le (by simp; omega), List.take_of_length_le (by omega : m.length ≤ n),
      List.take_of_length_le (by omega : m.length ≤ valueStart m),
      List.drop_eq_nil_of_le (by omega : m.length ≤ valueStart m)]
    simp

theorem take_markSecret_of_lt (h : valueStart m < n) (hn : n ≤ m.length) :
    ∃ rest, (markSecret m).take n =
      markAll false (m.take (valueStart m)) ++ (m.getD (valueStart m) ' ', true) :: rest := by
  unfold markSecret
  have hdrop : m.drop (valueStart m) = m.getD (valueStart m) ' ' :: m.drop (valueStart m + 1) := by
    rw [List.drop_eq_getElem_cons (by omega), List.getD_eq_getElem _ _ (by omega)]
  obtain ⟨k, hk⟩ : ∃ k, n - valueStart m = k + 1 := ⟨n - valueStart m - 1, by omega⟩
  rw [hdrop, List.take_append]
  simp only [markAll, List.map_cons, List.length_map, List.length_take]
  rw [Nat.min_eq_left (by omega : valueStart m ≤ m.length), hk, List.take_succ_cons,
    List.take_of_length_le (by simp; omega)]
  exact ⟨_, rfl⟩

theorem scan_cut_inside_value {rest : List Char}
    (h : secretLength (m ++ rest) = some m.length) (hn : valueStart m + leadLength m < n)
    (hm : n ≤ m.length) : scan secretLength (m.take n) = [.found (m.take n)] := by
  obtain ⟨k, rfl⟩ : ∃ k, n = k + 1 := ⟨n - 1, by omega⟩
  have hne : m.take (k + 1) ≠ [] := by
    intro hnil
    have := congrArg List.length hnil
    rw [List.length_take, List.length_nil] at this
    omega
  rw [scan_found (secretLength_cut_value h hn hm) hne, List.drop_eq_nil_of_le (by simp),
    List.take_of_length_le (by simp)]
  rfl

section Ending

variable {ps qs : List (Regex.Piece Char)} {m : List Char} {n bytes : Nat}

variable (h : scan secretLength (textOf (ps ++ .found m :: qs)) = ps ++ .found m :: qs)
include h

/-- Cut before its value, a secret is shown as it stands. -/
theorem redactMarked_before_value
    (hn : n ≤ valueStart m + leadLength m) :
    redactMarked (textOf (ps.map markPiece) ++ (markSecret m).take n) =
      (ps.map markPiece).flatMap emit ++ (markSecret m).take n := by
  have hm : secretLength (m ++ textOf qs) = some m.length :=
    (secretLength_of_scan (scan_textOf secretLength_pos h)).2
  have hcut : m.take n <+: textOf (.found m :: qs) :=
    (List.take_prefix n m).trans (List.prefix_append _ _)
  have hscan := scan_cut h hcut
  rw [scan_cut_before_value hm hn] at hscan
  have htext : textOf (ps.map markPiece) ++ (markSecret m).take n =
      textOf (ps.map markPiece ++ ((markSecret m).take n).map .kept) := by
    rw [textOf_append, Regex.textOf_map_kept]
  rw [htext, redactMarked_of_pieces]
  · rw [List.flatMap_append, emit_map_kept]
  · rw [← htext, List.map_append, textOf_markPiece, List.map_take, markSecret_text, hscan,
      List.map_append, map_markPiece, List.map_map]
    congr 1
    conv_lhs => rw [← markSecret_text m, ← List.map_take, List.map_map]
    rfl

/-- Cut inside its value, a secret is still found. -/
theorem redactMarked_inside_value
    (hn : valueStart m + leadLength m < n) (hm : n ≤ m.length) :
    redactMarked (textOf (ps.map markPiece) ++ (markSecret m).take n) =
      (ps.map markPiece).flatMap emit ++ markedReplacement ((markSecret m).take n) := by
  have hlen : secretLength (m ++ textOf qs) = some m.length :=
    (secretLength_of_scan (scan_textOf secretLength_pos h)).2
  have hcut : m.take n <+: textOf (.found m :: qs) :=
    (List.take_prefix n m).trans (List.prefix_append _ _)
  have hscan := scan_cut h hcut
  have hpiece := scan_cut_inside_value hlen hn hm
  rw [hpiece] at hscan
  have htext : textOf (ps.map markPiece) ++ (markSecret m).take n =
      textOf (ps.map markPiece ++ [.found ((markSecret m).take n)]) := by
    rw [textOf_append, textOf_cons, Regex.textOf_nil, List.append_nil]
    rfl
  rw [htext, redactMarked_of_pieces]
  · rw [List.flatMap_append]
    simp [emit]
  · rw [← htext, List.map_append, textOf_markPiece, List.map_take, markSecret_text, hscan,
      List.map_append, map_markPiece]
    simp [Regex.Piece.map, List.map_take]

/-- A window that ends inside a secret shows the blanks or the quote before its value, when
it ends among them and the budget reaches them. -/
theorem reveals_ending
    (hn : n < m.length) :
    Reveals bytes (redactMarked (textOf (ps.map markPiece) ++ (markSecret m).take n)) ↔
      valueStart m < n ∧ n ≤ valueStart m + leadLength m ∧
        Utf8.byteLength (redact (textOf ps ++ m.take (valueStart m))) +
          (m.getD (valueStart m) ' ').utf8Size ≤ bytes := by
  by_cases hvalue : n ≤ valueStart m + leadLength m
  · rw [redactMarked_before_value h hvalue]
    by_cases hstart : valueStart m < n
    · -- up to the separator all is shown, and the next character is marked
      obtain ⟨rest, hrest⟩ := take_markSecret_of_lt hstart (by omega)
      have hbefore := redactMarked_before_value h (Nat.le_add_right (valueStart m) (leadLength m))
      rw [take_markSecret_of_le le_rfl] at hbefore
      have htotal : Utf8.total markedSize ((ps.map markPiece).flatMap emit ++
          markAll false (m.take (valueStart m))) =
          Utf8.byteLength (redact (textOf ps ++ m.take (valueStart m))) := by
        rw [← hbefore, total_markedSize, redactMarked_text, List.map_append, textOf_markPiece,
          markAll_text]
      rw [hrest, ← List.append_assoc, reveals_append
        (unmarked_append (unmarked_pieces ps) (unmarked_markAll _)), reveals_marked rfl, htotal]
      simp only [hstart, hvalue, true_and, markedSize]
      omega
    · simp only [hstart, false_and, iff_false]
      rw [take_markSecret_of_le (by omega)]
      exact not_reveals_of_unmarked (unmarked_append (unmarked_pieces ps) (unmarked_markAll _))
  · simp only [hvalue, false_and, and_false, iff_false]
    rw [redactMarked_inside_value h (by omega) (by omega)]
    exact not_reveals_of_unmarked (unmarked_append (unmarked_pieces ps)
      (unmarked_replacement (takeWhile_markSecret m n)))

omit h

end Ending

/-! ## A window that begins inside a secret -/

/-- The rest of a key and its separator are shown as they stand. -/
theorem scan_front {front key gap a z : List Char} {sep : Char} (h : IsFront front key gap sep)
    (heq : front = a ++ z) (ha : a ≠ []) (more : List Char) :
    scan secretLength (z ++ more) = z.map .kept ++ scan secretLength more := by
  induction z generalizing a with
  | nil => rfl
  | cons c z ih =>
    have hnone := no_secret_in_front h heq ha (by simp) more
    rw [List.cons_append] at hnone ⊢
    rw [scan_kept hnone, ih (a := a ++ [c]) (by simp [heq]) (by simp)]
    rfl

/-- A window whose first character is marked shows it, but for one that begins a secret of
its own within a budget that ends in the replacement's opening. -/
theorem reveals_first {x : Marked} (hx : x.2 = true) (hfit : markedSize x ≤ bytes) :
    Reveals bytes (redactMarked (x :: text)) ↔
      ¬ ((markedLength (x :: text)).isSome = true ∧ bytes ≤ 10) := by
  rw [redactMarked_eq]
  rcases scan_cases markedLength_pos x text with ⟨hnone, hscan⟩ | ⟨k, hk, hscan⟩
  · rw [hscan, List.flatMap_cons, emit, List.singleton_append, reveals_marked hx, hnone]
    simp [hfit]
  · -- the replacement shows the key, which begins with the marked character
    obtain ⟨front, lead, value, rest, htext, hs, _, hn⟩ := secret_of_secretLength hk
    obtain ⟨key, gap, sep, hfront⟩ := hs.front
    obtain ⟨c, cs, hkey⟩ := List.exists_cons_of_ne_nil (key_ne_nil hfront.key)
    have hxc : x.1 = c := by
      rw [hfront.eq, hkey] at htext
      exact (List.cons.inj htext).1
    obtain ⟨hnspace, hnsep, hsize⟩ := wordChar_spec (wordChar_of_key hfront.key c (by simp [hkey]))
    have hshown : ∃ more, markedKey ((x :: text).take (k + 1)) = x :: more := by
      unfold markedKey trimBlanks
      rw [List.take_succ_cons, List.takeWhile_cons_of_pos (by simp [hxc, hnsep]),
        List.dropWhile_cons_of_neg (by simp [hxc, hnspace]), List.reverse_cons,
        List.dropWhile_append]
      split
      · rw [List.dropWhile_cons_of_neg (by simp [hxc, hnspace])]
        exact ⟨[], rfl⟩
      · rw [List.reverse_append]
        exact ⟨_, rfl⟩
    obtain ⟨more, hmore⟩ := hshown
    have hopening : Utf8.total markedSize (markAll false redactedOpening) = 10 := by decide
    have hemit : (scan markedLength (x :: text)).flatMap emit =
        markAll false redactedOpening ++ (x :: (more ++ markAll false [']'] ++
          (scan markedLength (text.drop k)).flatMap emit)) := by
      rw [hscan, List.flatMap_cons, emit, markedReplacement, hmore]
      simp
    rw [hemit, reveals_append (unmarked_markAll _), reveals_marked hx, hopening, hk]
    simp only [markedSize, hxc, hsize, Option.isSome_some, true_and]
    omega

theorem markSecret_drop : (markSecret m).drop n = markAll false ((m.take (valueStart m)).drop n) ++
      markAll true (m.drop (max n (valueStart m))) := by
  unfold markSecret markAll
  rw [List.drop_append, ← List.map_drop, ← List.map_drop, List.drop_drop, List.length_map,
    List.length_take]
  by_cases h : valueStart m ≤ m.length
  · congr 3
    omega
  · rw [List.drop_eq_nil_of_le (by omega : m.length ≤ max n (valueStart m)),
      List.drop_eq_nil_of_le
        (by omega : m.length ≤ valueStart m + (n - min (valueStart m) m.length))]

/-- A window that begins inside a secret shows the rest of it as soon as it gets to the
value. -/
theorem reveals_beginning {rest : List Char} {more : List Marked}
    (h : secretLength (m ++ rest) = some m.length) (hn : 0 < n) (hm : n < m.length)
    (hfit : Utf8.total markedSize (((markSecret m).drop n ++ more).take k) ≤ bytes) :
    Reveals bytes (redactMarked (((markSecret m).drop n ++ more).take k)) ↔
      max n (valueStart m) - n < (((markSecret m).drop n ++ more).take k).length ∧
      ¬ ((markedLength ((((markSecret m).drop n ++ more).take k).drop
          (max n (valueStart m) - n))).isSome = true ∧
        bytes ≤ Utf8.total markedSize ((((markSecret m).drop n ++ more).take k).take
          (max n (valueStart m) - n)) + 10) := by
  obtain ⟨front, lead, value, hsplit, hs, _⟩ := secret_of_found h
  obtain ⟨key, gap, sep, hfront⟩ := hs.front
  have hstart : valueStart m = front.length := by
    rw [hsplit, List.append_assoc, valueStart_eq hfront]
  have hvalue : valueStart m < m.length := by
    have := List.length_pos_of_ne_nil hs.filled
    rw [hstart, hsplit]
    simp only [List.length_append]
    omega
  have htake : m.take (valueStart m) = front := by
    rw [hstart, hsplit, List.append_assoc, List.take_left' rfl]
  -- the window is the rest of the front, and then a marked character
  obtain ⟨c, cs, hc⟩ : ∃ c cs, m.drop (max n (valueStart m)) = c :: cs :=
    List.exists_cons_of_ne_nil (by
      intro hnil
      have := List.drop_eq_nil_iff.mp hnil
      omega)
  have hwindow : (markSecret m).drop n ++ more =
      markAll false (front.drop n) ++ ((c, true) :: (markAll true cs ++ more)) := by
    rw [markSecret_drop, htake, hc]
    simp [markAll]
  have hlen : (markAll false (front.drop n)).length = max n (valueStart m) - n := by
    rw [markAll, List.length_map, List.length_drop, hstart]
    omega
  rw [hwindow] at hfit ⊢
  rw [← hlen]
  generalize markAll true cs ++ more = after at hfit ⊢
  by_cases hk : (markAll false (front.drop n)).length < k
  · obtain ⟨j, hj⟩ : ∃ j, k - (markAll false (front.drop n)).length = j + 1 :=
      ⟨k - (markAll false (front.drop n)).length - 1, by omega⟩
    rw [List.take_append, List.take_of_length_le (by omega), hj, List.take_succ_cons] at hfit ⊢
    rw [List.drop_left' rfl, List.take_left' rfl]
    rw [Utf8.total_append, Utf8.total_cons] at hfit
    have hredact : redactMarked (markAll false (front.drop n) ++ (c, true) :: after.take j) =
        markAll false (front.drop n) ++ redactMarked ((c, true) :: after.take j) := by
      have hscan : scan markedLength
          (markAll false (front.drop n) ++ (c, true) :: after.take j) =
            (markAll false (front.drop n)).map .kept ++
              scan markedLength ((c, true) :: after.take j) := by
        have hfront' := scan_front hfront (List.take_append_drop n front).symm
          (by
            intro hnil
            have hkey := List.length_pos_of_ne_nil (key_ne_nil hfront.key)
            have := congrArg List.length hnil
            rw [List.length_take, hfront.eq] at this
            simp only [List.length_append, List.length_nil] at this
            omega)
          (((c, true) :: after.take j).map Prod.fst)
        refine Regex.pieces_eq (f := Prod.fst) ?_ ?_
        · rw [textOf_append, Regex.textOf_map_kept, textOf_scan markedLength_pos,
            textOf_scan markedLength_pos]
        · rw [List.map_append]
          have himage : ∀ ys : List Marked, (scan markedLength ys).map (Regex.Piece.map Prod.fst) =
              scan secretLength (ys.map Prod.fst) := fun ys => (scan_map Prod.fst ys).symm
          rw [himage, himage, List.map_append, markAll_text, hfront', List.map_map]
          simp [markAll, Regex.Piece.map, Function.comp_def]
      rw [redactMarked_eq, redactMarked_eq, hscan, List.flatMap_append, emit_map_kept]
    rw [hredact, reveals_append (unmarked_markAll _), reveals_first rfl (by omega)]
    constructor
    · rintro ⟨_, hnot⟩
      refine ⟨by simp, ?_⟩
      rintro ⟨hsome, hle⟩
      exact hnot ⟨hsome, by omega⟩
    · rintro ⟨_, hnot⟩
      refine ⟨by omega, ?_⟩
      rintro ⟨hsome, hle⟩
      exact hnot ⟨hsome, by omega⟩
  · -- the window ends before the value
    have hunmarked : Unmarked ((markAll false (front.drop n) ++ (c, true) :: after).take k) := by
      rw [List.take_append_of_le_length (by omega)]
      intro x hx
      exact mem_markAll (List.mem_of_mem_take hx)
    have hno : ¬ Reveals bytes (redactMarked ((markAll false (front.drop n) ++ (c, true) :: after).take k)) :=
      not_reveals_of_unmarked (unmarked_redactMarked hunmarked)
    simp only [hno, false_iff, not_and_or]
    left
    rw [List.length_take]
    omega

end Traqen.SourceSliceBroker
