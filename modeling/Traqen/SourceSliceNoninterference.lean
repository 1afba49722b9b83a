-- Two artifacts that differ only inside their secrets give the same slice, as long as no
-- window ends or begins inside a secret in a way that tells them apart. With the law of the
-- windows this settles what the broker's redaction is worth.
import Mathlib
import Traqen.SourceSliceSecrecy

open Js

namespace Traqen.SourceSliceBroker

open Regex (scan textOf textOf_cons scan_textOf textOf_append textOf_scan)

/-! ## Texts that differ only inside secrets -/

/-- The same characters, or two secrets with the same front and as many bytes. -/
inductive AlikePiece : Regex.Piece Char → Regex.Piece Char → Prop
  | kept (c : Char) : AlikePiece (.kept c) (.kept c)
  | found {m m' : List Char} (front : m.take (valueStart m) = m'.take (valueStart m'))
      (bytes : Utf8.byteLength m = Utf8.byteLength m') : AlikePiece (.found m) (.found m')

def AlikePieces (ps ps' : List (Regex.Piece Char)) : Prop := List.Forall₂ AlikePiece ps ps'

/-- The search cuts both texts alike, and they differ only in the values that it finds. -/
def AlikeTexts (text text' : List Char) : Prop :=
  AlikePieces (scan secretLength text) (scan secretLength text')

theorem AlikePiece.byteLength {p p' : Regex.Piece Char} (h : AlikePiece p p') :
    Utf8.byteLength p.text = Utf8.byteLength p'.text := by
  cases h with
  | kept c => rfl
  | found _ hbytes => exact hbytes

variable {ps ps' : List (Regex.Piece Char)}

theorem AlikePieces.byteLength (h : AlikePieces ps ps') :
    Utf8.byteLength (textOf ps) = Utf8.byteLength (textOf ps') := by
  induction h with
  | nil => rfl
  | cons hp _ ih =>
    rw [textOf_cons, textOf_cons, byteLength_append, byteLength_append, ih, hp.byteLength]

variable {k n : Nat}

theorem takeWhile_take_valueStart (m : List Char) (h : valueStart m ≤ n) :
    (m.take n).takeWhile (fun c => !isSeparator c) = m.takeWhile fun c => !isSeparator c := by
  have hpre := List.takeWhile_prefix (fun c => !isSeparator c) (l := m)
  have hsplit := List.take_append_drop n m
  conv_rhs => rw [← hsplit, List.takeWhile_append]
  split
  · rename_i hall
    -- the first part would be free of separators and longer than all that is
    have hself : (m.take n).takeWhile (fun c => !isSeparator c) = m.take n :=
      (List.takeWhile_prefix _).eq_of_length hall
    have hlen : m.length ≤ n := by
      by_contra hlt
      have hle : (m.take n).length ≤ (m.takeWhile fun c => !isSeparator c).length := by
        conv_rhs => rw [← hsplit, List.takeWhile_append, if_pos hall, List.length_append]
        omega
      rw [List.length_take] at hle
      unfold valueStart at h
      omega
    rw [List.drop_eq_nil_of_le hlen, hself]
    simp
  · rfl

/-- What replaces a secret depends on its front alone. -/
theorem replacement_take (m : List Char) (h : valueStart m ≤ n) :
    replacement (m.take n) = replacement m := by
  unfold replacement redactedKey
  rw [takeWhile_take_valueStart m h]

def emitText : Regex.Piece Char → List Char
  | .kept c => [c]
  | .found m => replacement m

theorem redact_eq (text : List Char) :
    redact text = (scan secretLength text).flatMap emitText := by
  unfold redact Regex.replaceAll
  congr 1
  funext p
  cases p <;> rfl

theorem AlikePiece.replacement {m m' : List Char}
    (h : m.take (valueStart m) = m'.take (valueStart m')) :
    SourceSliceBroker.replacement m = SourceSliceBroker.replacement m' := by
  rw [← replacement_take m le_rfl, ← replacement_take m' le_rfl, h]

def foundIn (ps : List (Regex.Piece Char)) : Nat :=
  ps.countP fun
    | .kept _ => false
    | .found _ => true

theorem AlikePieces.redacted (h : AlikePieces ps ps') :
    ps.flatMap emitText = ps'.flatMap emitText ∧ foundIn ps = foundIn ps' := by
  induction h with
  | nil => exact ⟨rfl, rfl⟩
  | cons hp _ ih =>
    obtain ⟨htext, hcount⟩ := ih
    unfold foundIn at hcount ⊢
    cases hp with
    | kept c =>
      rw [List.flatMap_cons, List.flatMap_cons, htext, List.countP_cons, List.countP_cons, hcount]
      exact ⟨rfl, rfl⟩
    | found hfront _ =>
      rw [List.flatMap_cons, List.flatMap_cons, htext, List.countP_cons, List.countP_cons, hcount]
      exact ⟨congrArg (· ++ _) (AlikePiece.replacement hfront), rfl⟩

/-! ## Windows that tell nothing -/

/-- The secret that a cut after `k` bytes goes through, and how many of its bytes stand
before the cut. -/
def secretAtByte : List (Regex.Piece Char) → Nat → Option (List Char × Nat)
  | [], _ => none
  | _, 0 => none
  | .kept c :: ps, k + 1 => secretAtByte ps (k + 1 - c.utf8Size)
  | .found m :: ps, k + 1 =>
    if k + 1 < Utf8.byteLength m then some (m, k + 1)
    else secretAtByte ps (k + 1 - Utf8.byteLength m)

/-- A cut in front of the value, or behind its first character. -/
def WholeCut (m : List Char) (n : Nat) : Prop :=
  n ≤ Utf8.byteLength (m.take (valueStart m)) ∨
    Utf8.byteLength (m.take (valueStart m + leadLength m + 1)) ≤ n

def WholeEnd (ps : List (Regex.Piece Char)) (k : Nat) : Prop :=
  ∀ cut ∈ secretAtByte ps k, WholeCut cut.1 cut.2

/-- The window begins inside no secret, and ends inside one only where it cannot be told
from another. -/
structure Whole (text : List Char) (start stop : Nat) : Prop where
  start : secretAtByte (scan secretLength text) start = none
  stop : WholeEnd (scan secretLength text) stop

/-- A cut through no secret leaves two alike texts in alike parts, on either side of it. -/
theorem alike_split (h : AlikePieces ps ps') (hk : secretAtByte ps k = none) :
    ∃ ps1 ps2 ps1' ps2', ps = ps1 ++ ps2 ∧ ps' = ps1' ++ ps2' ∧ AlikePieces ps1 ps1' ∧
      AlikePieces ps2 ps2' ∧
      Utf8.starting Char.utf8Size k (textOf ps) = textOf ps1 ∧
      Utf8.starting Char.utf8Size k (textOf ps') = textOf ps1' := by
  induction h generalizing k with
  | nil => exact ⟨[], [], [], [], rfl, rfl, .nil, .nil, rfl, rfl⟩
  | @cons p p' ps ps' hp hps ih =>
    cases k with
    | zero => exact ⟨[], _, [], _, rfl, rfl, .nil, .cons hp hps, by simp, by simp⟩
    | succ k =>
      cases hp with
      | kept c =>
        obtain ⟨ps1, ps2, ps1', ps2', rfl, rfl, h1, h2, hs, hs'⟩ :=
          ih (by simpa [secretAtByte] using hk)
        refine ⟨.kept c :: ps1, ps2, .kept c :: ps1', ps2', rfl, rfl, .cons (.kept c) h1, h2, ?_, ?_⟩
        · rw [textOf_cons, textOf_cons, ← hs]
          rfl
        · rw [textOf_cons, textOf_cons, ← hs']
          rfl
      | @found m m' hfront hbytes =>
        rw [secretAtByte] at hk
        split at hk
        · cases hk
        · rename_i hle
          obtain ⟨ps1, ps2, ps1', ps2', rfl, rfl, h1, h2, hs, hs'⟩ := ih hk
          refine ⟨.found m :: ps1, ps2, .found m' :: ps1', ps2', rfl, rfl,
            .cons (.found hfront hbytes) h1, h2, ?_, ?_⟩
          · rw [textOf_cons, textOf_cons, ← hs]
            exact Utf8.starting_append Char.utf8Size_pos (Nat.le_of_not_lt hle) _
          · rw [hbytes] at hle hs'
            rw [textOf_cons, textOf_cons, ← hs']
            exact Utf8.starting_append Char.utf8Size_pos (Nat.le_of_not_lt hle) _

/-- The same for the end of a window that begins with the texts. -/
theorem alike_fitting (h : AlikePieces ps ps') (hk : secretAtByte ps k = none) :
    ∃ ps1 ps2 ps1' ps2', ps = ps1 ++ ps2 ∧ ps' = ps1' ++ ps2' ∧ AlikePieces ps1 ps1' ∧
      Utf8.fitting Char.utf8Size k (textOf ps) = textOf ps1 ∧
      Utf8.fitting Char.utf8Size k (textOf ps') = textOf ps1' := by
  induction h generalizing k with
  | nil => exact ⟨[], [], [], [], rfl, rfl, .nil, rfl, rfl⟩
  | @cons p p' ps ps' hp hps ih =>
    cases k with
    | zero =>
      exact ⟨[], _, [], _, rfl, rfl, .nil, Utf8.fitting_zero Char.utf8Size_pos _,
        Utf8.fitting_zero Char.utf8Size_pos _⟩
    | succ k =>
      cases hp with
      | kept c =>
        by_cases hc : c.utf8Size ≤ k + 1
        · obtain ⟨ps1, ps2, ps1', ps2', rfl, rfl, h1, hs, hs'⟩ :=
            ih (by simpa [secretAtByte] using hk)
          refine ⟨.kept c :: ps1, ps2, .kept c :: ps1', ps2', rfl, rfl, .cons (.kept c) h1, ?_, ?_⟩
          · rw [textOf_cons, textOf_cons, ← hs]
            exact if_pos hc
          · rw [textOf_cons, textOf_cons, ← hs']
            exact if_pos hc
        · refine ⟨[], _, [], _, rfl, rfl, .nil, ?_, ?_⟩
          · exact if_neg hc
          · exact if_neg hc
      | @found m m' hfront hbytes =>
        rw [secretAtByte] at hk
        split at hk
        · cases hk
        · rename_i hle
          obtain ⟨ps1, ps2, ps1', ps2', rfl, rfl, h1, hs, hs'⟩ := ih hk
          refine ⟨.found m :: ps1, ps2, .found m' :: ps1', ps2', rfl, rfl,
            .cons (.found hfront hbytes) h1, ?_, ?_⟩
          · rw [textOf_cons, textOf_cons, ← hs]
            exact Utf8.fitting_append (Nat.le_of_not_lt hle) _
          · rw [hbytes] at hle hs'
            rw [textOf_cons, textOf_cons, ← hs']
            exact Utf8.fitting_append (Nat.le_of_not_lt hle) _

/-- A window that ends inside a secret of one text ends inside the secret of the other. -/
theorem alike_across (h : AlikePieces ps ps')
    {m : List Char} (hk : secretAtByte ps k = some (m, n)) :
    ∃ ps1 ps2 ps1' ps2' m', ps = ps1 ++ .found m :: ps2 ∧ ps' = ps1' ++ .found m' :: ps2' ∧
      AlikePieces ps1 ps1' ∧ m.take (valueStart m) = m'.take (valueStart m') ∧
      Utf8.byteLength m = Utf8.byteLength m' ∧ secretAtByte ps' k = some (m', n) ∧
      k = Utf8.byteLength (textOf ps1) + n ∧ n < Utf8.byteLength m := by
  induction h generalizing k with
  | nil => simp [secretAtByte] at hk
  | @cons p p' ps ps' hp hps ih =>
    cases k with
    | zero => simp [secretAtByte] at hk
    | succ k =>
      cases hp with
      | kept c =>
        rw [secretAtByte] at hk
        obtain ⟨ps1, ps2, ps1', ps2', m', rfl, rfl, h1, hfront, hbytes, hk', hkn, hn⟩ := ih hk
        have hc : c.utf8Size ≤ k + 1 := by
          by_contra hlt
          rw [Nat.sub_eq_zero_of_le (by omega)] at hk
          cases ps1 <;> simp [secretAtByte] at hk
        refine ⟨.kept c :: ps1, ps2, .kept c :: ps1', ps2', m', rfl, rfl, .cons (.kept c) h1, hfront,
          hbytes, hk', ?_, hn⟩
        rw [textOf_cons, byteLength_append, Regex.Piece.text]
        simp only [Utf8.byteLength, Utf8.total_cons, Utf8.total_nil] at hkn ⊢
        omega
      | @found m1 m1' hfront1 hbytes1 =>
        rw [secretAtByte] at hk
        split at hk
        · rename_i hlt
          cases hk
          refine ⟨[], ps, [], ps', m1', rfl, rfl, .nil, hfront1, hbytes1, ?_, by simp [Utf8.byteLength],
            hlt⟩
          rw [secretAtByte, if_pos (by omega)]
        · rename_i hle
          obtain ⟨ps1, ps2, ps1', ps2', m', rfl, rfl, h1, hfront, hbytes, hk', hkn, hn⟩ := ih hk
          refine ⟨.found m1 :: ps1, ps2, .found m1' :: ps1', ps2', m', rfl, rfl,
            .cons (.found hfront1 hbytes1) h1, hfront, hbytes, ?_, ?_, hn⟩
          · rw [secretAtByte, if_neg (by omega), ← hbytes1]
            exact hk'
          · rw [textOf_cons, byteLength_append, Regex.Piece.text]
            omega

theorem secretAtByte_append (ps qs : List (Regex.Piece Char)) (k : Nat) :
    secretAtByte (ps ++ qs) (Utf8.byteLength (textOf ps) + k) = secretAtByte qs k := by
  induction ps with
  | nil => simp [Utf8.byteLength]
  | cons p ps ih =>
    rw [List.cons_append, textOf_cons, byteLength_append]
    cases hn : Utf8.byteLength p.text + Utf8.byteLength (textOf ps) + k with
    | zero =>
      obtain ⟨hk, hps⟩ : k = 0 ∧ Utf8.byteLength (textOf ps) = 0 := by omega
      rw [hk, hps] at ih
      rw [hk, ← ih]
      cases ps ++ qs <;> rfl
    | succ j =>
      cases p with
      | kept c =>
        have hc : Utf8.byteLength (Regex.Piece.kept c).text = c.utf8Size := by
          simp [Regex.Piece.text, Utf8.byteLength]
        rw [secretAtByte, show j + 1 - c.utf8Size = Utf8.byteLength (textOf ps) + k by omega]
        exact ih
      | found m =>
        simp only [Regex.Piece.text] at hn
        rw [secretAtByte, if_neg (by omega),
          show j + 1 - Utf8.byteLength m = Utf8.byteLength (textOf ps) + k by omega]
        exact ih

/-- The whole pieces before a cut are found as they were. -/
theorem scan_before_cut {qs : List (Regex.Piece Char)}
    (h : scan secretLength (textOf (ps ++ qs)) = ps ++ qs) :
    scan secretLength (textOf ps) = ps := by
  have := scan_cut h (List.nil_prefix (l := textOf qs))
  rwa [List.append_nil, Regex.scan_nil, List.append_nil] at this

/-- What a window that ends inside a secret shows of it, and whether it is counted. -/
def cutShown (m : List Char) (n : Nat) : List Char × Nat :=
  if n ≤ Utf8.byteLength (m.take (valueStart m)) then
    (Utf8.fitting Char.utf8Size n (m.take (valueStart m)), 0)
  else (replacement m, 1)

theorem redact_across {qs : List (Regex.Piece Char)} {m : List Char}
    (h : scan secretLength (textOf (ps ++ .found m :: qs)) = ps ++ .found m :: qs)
    (hn : n < Utf8.byteLength m) (hwhole : WholeCut m n) :
    redact (Utf8.fitting Char.utf8Size (Utf8.byteLength (textOf ps) + n)
        (textOf (ps ++ .found m :: qs))) = ps.flatMap emitText ++ (cutShown m n).1 ∧
      secretCount (Utf8.fitting Char.utf8Size (Utf8.byteLength (textOf ps) + n)
        (textOf (ps ++ .found m :: qs))) = foundIn ps + (cutShown m n).2 := by
  have hfound : secretLength (m ++ textOf qs) = some m.length :=
    (secretLength_of_scan (scan_textOf secretLength_pos h)).2
  obtain ⟨j, hj, hcut⟩ : ∃ j, j ≤ m.length ∧ Utf8.fitting Char.utf8Size n m = m.take j := by
    have hpre := @Utf8.fitting_prefix _ Char.utf8Size n m
    exact ⟨_, hpre.length_le, List.prefix_iff_eq_take.mp hpre⟩
  have hwindow : Utf8.fitting Char.utf8Size (Utf8.byteLength (textOf ps) + n)
      (textOf (ps ++ .found m :: qs)) = textOf ps ++ m.take j := by
    rw [textOf_append, Utf8.byteLength, Utf8.fitting_append (Nat.le_add_right _ _),
      Nat.add_sub_cancel_left, textOf_cons, Regex.Piece.text,
      Utf8.fitting_append_of_le (by rwa [Utf8.byteLength] at hn), hcut]
  have hscan : scan secretLength (textOf ps ++ m.take j) =
      ps ++ scan secretLength (m.take j) :=
    scan_cut h ((List.take_prefix j m).trans (List.prefix_append _ _))
  have hcount : ∀ text, secretCount text = foundIn (scan secretLength text) := fun _ => rfl
  rw [hwindow, redact_eq, hcount, hscan]
  unfold cutShown
  by_cases hfront : n ≤ Utf8.byteLength (m.take (valueStart m))
  · -- the cut is in front of the value, and all is shown as it stands
    have hshow : m.take j = Utf8.fitting Char.utf8Size n (m.take (valueStart m)) := by
      rw [← hcut]
      conv_lhs => rw [← List.take_append_drop (valueStart m) m]
      exact Utf8.fitting_take Char.utf8Size_pos hfront _
    have hjv : j ≤ valueStart m := by
      have h1 := congrArg List.length hshow
      have h2 := (@Utf8.fitting_prefix _ Char.utf8Size n (m.take (valueStart m))).length_le
      rw [List.length_take] at h1 h2
      omega
    rw [if_pos hfront, scan_cut_before_value hfound (by omega), ← hshow]
    have hkept : ∀ xs : List Char, (xs.map Regex.Piece.kept).flatMap emitText = xs ∧
        foundIn (xs.map Regex.Piece.kept) = 0 := by
      intro xs
      induction xs with
      | nil => exact ⟨rfl, rfl⟩
      | cons x xs ih =>
        rw [List.map_cons, List.flatMap_cons, ih.1]
        refine ⟨rfl, ?_⟩
        unfold foundIn at ih ⊢
        rw [List.countP_cons, ih.2]
        rfl
    rw [List.flatMap_append, (hkept _).1, foundIn, List.countP_append]
    exact ⟨rfl, congrArg _ (hkept (m.take j)).2⟩
  · -- the cut is behind the first character of the value, and the secret is still found
    have hbytes := hwhole.resolve_left hfront
    have hjv : valueStart m + leadLength m < j := by
      have hsplit := @Utf8.fitting_append _ _ Char.utf8Size _ hbytes
        (m.drop (valueStart m + leadLength m + 1))
      rw [List.take_append_drop, hcut] at hsplit
      have hle := congrArg List.length hsplit
      simp only [List.length_append, List.length_take] at hle
      by_contra hlt
      have hshort : m.length ≤ valueStart m + leadLength m + 1 := by omega
      rw [List.take_of_length_le hshort] at hbytes
      omega
    rw [if_neg hfront, scan_cut_inside_value hfound hjv hj, List.flatMap_append, foundIn,
      List.countP_append]
    refine ⟨?_, rfl⟩
    show _ ++ (replacement (m.take j) ++ []) = _
    rw [List.append_nil, replacement_take m (by omega)]

/-- The windows of alike texts show the same, count the same, and are as long where they are
not cut short. -/
theorem alike_windows {text text' : List Char} {start stop : Nat} (h : AlikeTexts text text')
    (hw : Whole text start stop) (hw' : Whole text' start stop) :
    redact (windowOf text start stop) = redact (windowOf text' start stop) ∧
      secretCount (windowOf text start stop) = secretCount (windowOf text' start stop) ∧
      (Utf8.byteLength (windowOf text start stop) = Utf8.byteLength (windowOf text' start stop) ∨
        stop < Utf8.byteLength text) := by
  have htext := textOf_scan secretLength_pos text
  have htext' := textOf_scan secretLength_pos text'
  obtain ⟨ps1, ps2, ps1', ps2', hps, hps', h1, h2, hs, hs'⟩ := alike_split h hw.start
  rw [htext] at hs
  rw [htext'] at hs'
  have hdrop : text.drop (textOf ps1).length = textOf ps2 := by
    rw [← htext, hps, textOf_append, List.drop_left' rfl]
  have hdrop' : text'.drop (textOf ps1').length = textOf ps2' := by
    rw [← htext', hps', textOf_append, List.drop_left' rfl]
  have hagain : scan secretLength (textOf ps2) = ps2 :=
    scan_textOf secretLength_pos hps
  have hagain' : scan secretLength (textOf ps2') = ps2' :=
    scan_textOf secretLength_pos hps'
  have hlen := h1.byteLength
  unfold windowOf windowStart
  rw [hs, hs', hdrop, hdrop', ← hlen]
  by_cases hshort : stop < Utf8.byteLength (textOf ps1)
  · rw [Nat.sub_eq_zero_of_le (by omega), Utf8.fitting_zero Char.utf8Size_pos,
      Utf8.fitting_zero Char.utf8Size_pos]
    exact ⟨rfl, rfl, Or.inl rfl⟩
  · obtain ⟨k, rfl⟩ : ∃ k, stop = Utf8.byteLength (textOf ps1) + k :=
      ⟨stop - Utf8.byteLength (textOf ps1), by omega⟩
    rw [Nat.add_sub_cancel_left]
    have hend := hw.stop
    have hend' := hw'.stop
    rw [WholeEnd, hps, secretAtByte_append] at hend
    rw [WholeEnd, hps', hlen, secretAtByte_append] at hend'
    cases hk : secretAtByte ps2 k with
    | none =>
      obtain ⟨qs1, qs2, qs1', qs2', rfl, rfl, hq, hf, hf'⟩ := alike_fitting h2 hk
      rw [hf, hf', redact_eq, redact_eq, scan_before_cut hagain, scan_before_cut hagain']
      have hcount : ∀ text, secretCount text = foundIn (scan secretLength text) :=
        fun _ => rfl
      rw [hcount, hcount, scan_before_cut hagain, scan_before_cut hagain']
      exact ⟨hq.redacted.1, hq.redacted.2, Or.inl hq.byteLength⟩
    | some cut =>
      obtain ⟨m, n⟩ := cut
      obtain ⟨qs1, qs2, qs1', qs2', m', rfl, rfl, hq, hfront, hbytes, hk', hkn, hn⟩ :=
        alike_across h2 hk
      have hcutm := hend (m, n) (by rw [hk]; rfl)
      have hcutm' := hend' (m', n) (by rw [hk']; rfl)
      obtain ⟨hr, hc⟩ := redact_across hagain hn hcutm
      obtain ⟨hr', hc'⟩ := redact_across hagain' (hbytes ▸ hn) hcutm'
      have hshown : cutShown m n = cutShown m' n := by
        unfold cutShown
        rw [hfront, AlikePiece.replacement hfront]
      rw [hkn, hr, hc]
      rw [hq.byteLength, hr', hc', hshown, hq.redacted.1, hq.redacted.2]
      refine ⟨rfl, rfl, Or.inr ?_⟩
      rw [← htext, hps, textOf_append, byteLength_append, textOf_append,
        byteLength_append, textOf_cons, byteLength_append, hq.byteLength, Regex.Piece.text]
      omega

/-! ## Requests that tell nothing -/

/-- The same artifact, but for what is inside the secrets of its content. -/
def AlikeArtifacts : Option Artifact → Option Artifact → Prop
  | none, none => True
  | some a, some b =>
    a.disposition = b.disposition ∧ a.relativePath = b.relativePath ∧
      a.contentDigest = b.contentDigest ∧
      match a.content, b.content with
      | none, none => True
      | some content, some content' => AlikeTexts content.toList content'.toList
      | _, _ => False
  | _, _ => False

/-- The window of the turn tells no secret from another. -/
def WholeTurn (resolve : String → Option Artifact) (s : ReadState) (selector : Selector) : Prop :=
  match served resolve s selector with
  | none => True
  | some (content, stop) => Whole content.toList selector.startByte stop

instance (m : List Char) (n : Nat) : Decidable (WholeCut m n) := by
  unfold WholeCut
  infer_instance

instance (text : List Char) (start stop : Nat) : Decidable (Whole text start stop) :=
  decidable_of_iff (secretAtByte (scan secretLength text) start = none ∧
      ∀ cut ∈ secretAtByte (scan secretLength text) stop, WholeCut cut.1 cut.2)
    ⟨fun h => ⟨h.1, h.2⟩, fun h => ⟨h.start, h.stop⟩⟩

instance (resolve : String → Option Artifact) (s : ReadState) (selector : Selector) :
    Decidable (WholeTurn resolve s selector) :=
  decidable_of_iff
    (∀ w ∈ served resolve s selector, Whole w.1.toList selector.startByte w.2) (by
      unfold WholeTurn
      cases served resolve s selector <;> simp)

/-- The texts are as long. -/
theorem AlikeTexts.byteLength {text text' : List Char} (h : AlikeTexts text text') :
    Utf8.byteLength text = Utf8.byteLength text' := by
  have := AlikePieces.byteLength h
  rwa [textOf_scan secretLength_pos, textOf_scan secretLength_pos] at this

variable {s : ReadState}

theorem serve_alike {selector : Selector} {a b : Artifact} {content content' : String}
    (hpath : a.relativePath = b.relativePath) (hdigest : a.contentDigest = b.contentDigest)
    (h : AlikeTexts content.toList content'.toList)
    (hw : ¬ (cappedEnd selector s.remainingBytes (Utf8.byteLength content.toList) ≤
        selector.startByte ∨ s.remainingBytes = 0) →
      Whole content.toList selector.startByte
        (cappedEnd selector s.remainingBytes (Utf8.byteLength content.toList)) ∧
      Whole content'.toList selector.startByte
        (cappedEnd selector s.remainingBytes (Utf8.byteLength content.toList))) :
    serve s selector b content' = serve s selector a content := by
  unfold serve
  simp only [Utf8.length_encode, ← h.byteLength, ← hpath, ← hdigest]
  split
  · rfl
  · rename_i hstop
    obtain ⟨hw, hw'⟩ := hw hstop
    obtain ⟨hredact, hcount, hbytes⟩ := alike_windows h hw hw'
    have hcap : cappedEnd selector s.remainingBytes (Utf8.byteLength content.toList) ≤
        Utf8.byteLength content.toList := Nat.min_le_right _ _
    have hcap' : cappedEnd selector s.remainingBytes (Utf8.byteLength content.toList) ≤
        Utf8.byteLength content'.toList := h.byteLength ▸ hcap
    have hle : selector.startByte ≤
        cappedEnd selector s.remainingBytes (Utf8.byteLength content.toList) := by omega
    rw [completeUtf8Window_encode hle hcap, completeUtf8Window_encode hle hcap',
      Utf8.decode_encode, Utf8.decode_encode, ← hredact, ← hcount, Utf8.length_encode,
      Utf8.length_encode]
    congr 1
    rcases hbytes with heq | hlt
    · rw [heq]
    · simp [hlt]

/-- A turn does the same with alike artifacts. -/
theorem readSelector_alike {resolve resolve' : String → Option Artifact}
    {selector : Selector} (h : ∀ id, AlikeArtifacts (resolve id) (resolve' id))
    (hw : WholeTurn resolve s selector) (hw' : WholeTurn resolve' s selector) :
    readSelector resolve' s selector = readSelector resolve s selector := by
  have ha := h selector.artifactId
  unfold WholeTurn served at hw hw'
  unfold readSelector
  cases hr : resolve selector.artifactId with
  | none =>
    cases hr' : resolve' selector.artifactId with
    | none => rfl
    | some b => simp [hr, hr', AlikeArtifacts] at ha
  | some a =>
    cases hr' : resolve' selector.artifactId with
    | none => simp [hr, hr', AlikeArtifacts] at ha
    | some b =>
      rw [hr, hr'] at ha
      obtain ⟨hdisposition, hpath, hdigest, hcontent⟩ := ha
      simp only [hr, hr', Option.bind_some, ← hdisposition] at hw hw' ⊢
      split
      · rfl
      · rename_i hd
        rw [if_neg hd] at hw hw'
        cases hc : a.content with
        | none =>
          cases hc' : b.content with
          | none => rfl
          | some content' => simp [hc, hc'] at hcontent
        | some content =>
          cases hc' : b.content with
          | none => simp [hc, hc'] at hcontent
          | some content' =>
            simp only [hc, hc'] at hcontent
            simp only [hc, hc', Option.bind_some, Utf8.length_encode, ← hcontent.byteLength]
              at hw hw' ⊢
            congr 1
            refine serve_alike hpath hdigest hcontent ?_
            intro hstop
            rw [if_neg hstop] at hw hw'
            exact ⟨hw, hw'⟩

theorem readSelectors_alike {resolve resolve' : String → Option Artifact}
    {selectors : List Selector} (h : ∀ id, AlikeArtifacts (resolve id) (resolve' id))
    (hw : Machine.Along (turn resolve) (WholeTurn resolve) s selectors)
    (hw' : Machine.Along (turn resolve') (WholeTurn resolve') s selectors) :
    readSelectors resolve' s selectors = readSelectors resolve s selectors := by
  induction selectors generalizing s with
  | nil => rfl
  | cons selector rest ih =>
    have heq := readSelector_alike h hw.1 hw'.1
    rw [readSelectors, readSelectors, heq]
    cases hr : readSelector resolve s selector with
    | error e => rfl
    | ok t =>
      have ht : turn resolve s selector = some t := by rw [turn, hr]
      have ht' : turn resolve' s selector = some t := by rw [turn, heq, hr]
      exact ih (Machine.along_cons_some hw ht).2 (Machine.along_cons_some hw' ht').2

/-! ## The secrecy law -/

theorem createSourceSlice_ok {request : SourceSliceRequest} {input slice : SourceSlice}
    (h : createSourceSlice request input = .ok slice) : slice = input := by
  unfold createSourceSlice rangeError at h
  split at h
  · cases h
  · exact (Except.ok.inj h).symm

/-- The slices that were collected are those of the slice that is returned. -/
theorem slices_of_sliceOf {request : SourceSliceRequest} {slice : SourceSlice}
    (h : sliceOf request s = .ok slice) : slice.artifactSlices = s.artifactSlices := by
  unfold sliceOf reject at h
  split at h
  · rename_i hnone
    rw [createSourceSlice_ok h, hnone]
  · rw [createSourceSlice_ok h]

theorem keepsSecrets_run {resolve : String → Option Artifact} {t : ReadState}
    {selectors : List Selector} (h : Machine.run (turn resolve) s selectors = some t)
    (hs : KeepsSecrets resolve s.artifactSlices) :
    KeepsSecrets resolve t.artifactSlices ↔
      Machine.Along (turn resolve) (SealedTurn resolve) s selectors := by
  refine @Machine.run_keeps_iff_along _ _ _ _ (fun _ => True)
    (fun s : ReadState => KeepsSecrets resolve s.artifactSlices) (fun _ _ _ _ _ => trivial)
    ?_ ?_ ?_ _ _ _ h trivial hs
  · intro s selector t _ hgood hsealed hstep
    exact (keepsSecrets_turn hstep).mpr ⟨hgood, hsealed⟩
  · intro s selector t _ _ hnot hstep hgood
    exact hnot ((keepsSecrets_turn hstep).mp hgood).2
  · intro s selector t _ hbad hstep hgood
    exact hbad ((keepsSecrets_turn hstep).mp hgood).1

def holding (value : String) : String → Option Artifact := fun _ =>
  some
    { disposition := "INCLUDED"
      content := some ("token=" ++ value)
      relativePath := "config.js"
      contentDigest := "sha256:config" }

def worker : Option Authorization :=
  some
    { serviceIdentity := "worker"
      projectId := "P"
      analysisRunId := "R"
      workUnitArtifactIds := ["A"]
      workUnitFactIds := [] }

def fromByte (startByte : Nat) : SourceSliceRequest where
  projectId := "P"
  snapshotManifestId := "S"
  analysisRunId := "R"
  selectors := [{ artifactId := "A", startByte, endByte := none }]
  allowedFactIds := []
  maxBytes := 64

/-- The slice of one text from a byte of the artifact on. -/
def sliceFrom (startByte : Nat) (status : SourceSliceStatus) (found : Nat) (redactedText : String) :
    SourceSlice where
  status := status
  artifactSlices :=
    [{ artifactId := "A"
       relativePath := "config.js"
       contentDigest := "sha256:config"
       range := { startByte := startByte, endByte := 12 }
       redactedText := redactedText }]
  factIds := []
  redactions := List.replicate found
    { kind := "SECRET_PATTERN"
      artifactId := "A"
      range := { startByte := startByte, endByte := 12 } }
  truncated := false
  omittedReasons := []
  diagnostics := []

theorem alike_holding : AlikeTexts ("token=" ++ "abcdef").toList ("token=" ++ "uvwxyz").toList := by
  have h : scan secretLength ("token=" ++ "abcdef").toList = [.found "token=abcdef".toList] := by
    decide +kernel
  have h' : scan secretLength ("token=" ++ "uvwxyz").toList = [.found "token=uvwxyz".toList] := by
    decide +kernel
  unfold AlikeTexts AlikePieces
  rw [h, h']
  exact .cons (.found (by decide +kernel) (by decide +kernel)) .nil

theorem alike_artifacts (id : String) : AlikeArtifacts (holding "abcdef" id) (holding "uvwxyz" id) :=
  ⟨rfl, rfl, rfl, alike_holding⟩

end Traqen.SourceSliceBroker
