-- The broker over whole requests. Its byte windows are windows of whole characters, each
-- turn of its loop shows one of them, and a request reveals a secret exactly when one of
-- its turns cuts a secret open.
import Traqen.SourceSliceRedaction

open Js

namespace Traqen.SourceSliceBroker

open Regex (scan textOf textOf_cons textOf_append)
open Utf8 (starting fitting encode total encode_append length_encode)

/-! ## Byte windows as windows of characters -/

/-- How many characters stand before a window. -/
def windowStart (text : List Char) (start : Nat) : Nat :=
  (starting Char.utf8Size start text).length

/-- The whole characters between two byte positions. -/
def windowOf (text : List Char) (start stop : Nat) : List Char :=
  fitting Char.utf8Size (stop - Utf8.byteLength (starting Char.utf8Size start text))
    (text.drop (windowStart text start))

theorem byteLength_append (xs ys : List Char) :
    Utf8.byteLength (xs ++ ys) = Utf8.byteLength xs + Utf8.byteLength ys := Utf8.total_append xs ys

theorem byteLength_split (text : List Char) (start : Nat) :
    Utf8.byteLength text = Utf8.byteLength (starting Char.utf8Size start text) +
      Utf8.byteLength (text.drop (windowStart text start)) := by
  conv_lhs => rw [← @Utf8.starting_append_drop _ Char.utf8Size start text]
  exact byteLength_append _ _

theorem roundStart_encode (text : List Char) (start n : Nat)
    (h : start + n ≤ Utf8.byteLength text) :
    roundStart (encode text) start n =
      min (start + n) (Utf8.byteLength (starting Char.utf8Size start text)) := by
  induction n generalizing start with
  | zero =>
    have : start ≤ Utf8.byteLength (starting Char.utf8Size start text) :=
      Utf8.le_total_starting h
    rw [roundStart]
    omega
  | succ n ih =>
    have hiff := @Utf8.isContinuation_encode start text (by omega)
    rw [roundStart]
    cases hcont : Utf8.isContinuation ((encode text).getD start 0) with
    | true =>
      have hne : total Char.utf8Size (starting Char.utf8Size start text) ≠ start := by
        intro heq
        rw [hiff.mpr heq] at hcont
        cases hcont
      rw [if_pos rfl, ih _ (by omega), Utf8.starting_succ hne]
      congr 1
      omega
    | false =>
      have heq := hiff.mp hcont
      rw [if_neg (by simp), Utf8.byteLength, heq]
      omega

theorem roundEnd_encode (before text : List Char) (n : Nat) (h : n ≤ Utf8.byteLength text) :
    roundEnd (encode (before ++ text)) (Utf8.byteLength before) n =
      Utf8.byteLength before + Utf8.byteLength (fitting Char.utf8Size n text) := by
  induction n with
  | zero => rw [roundEnd, Utf8.fitting_zero Char.utf8Size_pos]; rfl
  | succ n ih =>
    have hget : (encode (before ++ text)).getD (Utf8.byteLength before + (n + 1)) 0 =
        (encode text).getD (n + 1) 0 := by
      rw [encode_append, List.getD_append_right _ _ _ _ (by simp), length_encode,
        Nat.add_sub_cancel_left]
    rw [roundEnd, hget, length_encode, byteLength_append]
    rcases Nat.lt_or_eq_of_le h with hlt | heq
    · have hiff := Utf8.isContinuation_encode hlt
      cases hcont : Utf8.isContinuation ((encode text).getD (n + 1) 0) with
      | true =>
        have hne : total Char.utf8Size (starting Char.utf8Size (n + 1) text) ≠ n + 1 := by
          intro heq
          rw [hiff.mpr heq] at hcont
          cases hcont
        rw [if_pos (by simp; omega), ih (by omega), Utf8.fitting_succ Char.utf8Size_pos hne]
      | false =>
        have hboundary := hiff.mp hcont
        rw [if_neg (by simp), Utf8.fitting_of_boundary Char.utf8Size_pos hboundary,
          Utf8.byteLength, Utf8.byteLength, hboundary]
    · rw [if_neg (by simp; omega), Utf8.fitting_eq_self (Nat.le_of_eq heq.symm), ← heq]

/-- The window of the bytes is the bytes of the window. -/
theorem completeUtf8Window_encode {text : List Char} {start stop : Nat} (h : start ≤ stop)
    (hs : stop ≤ Utf8.byteLength text) :
    completeUtf8Window (encode text) start stop = encode (windowOf text start stop) := by
  have hsplit := byteLength_split text start
  have happend : text = starting Char.utf8Size start text ++
      text.drop (windowStart text start) := (Utf8.starting_append_drop start text).symm
  unfold completeUtf8Window
  simp only
  rw [roundStart_encode text start _ (by omega), Nat.add_sub_cancel' h]
  unfold windowOf
  generalize starting Char.utf8Size start text = before at *
  generalize text.drop (windowStart text start) = rest at *
  subst happend
  by_cases hle : Utf8.byteLength before ≤ stop
  · rw [Nat.min_eq_right hle, roundEnd_encode before rest _ (by omega), encode_append]
    have hpre := @Utf8.fitting_prefix _ Char.utf8Size (stop - Utf8.byteLength before) rest
    generalize fitting Char.utf8Size (stop - Utf8.byteLength before) rest = window at hpre ⊢
    obtain ⟨more, rfl⟩ := hpre
    rw [encode_append, ← List.append_assoc, List.take_left' (by simp),
      List.drop_left' (by simp)]
  · rw [Nat.min_eq_left (by omega), Nat.sub_self, roundEnd,
      Nat.sub_eq_zero_of_le (by omega : stop ≤ Utf8.byteLength before),
      Utf8.fitting_zero Char.utf8Size_pos]
    exact List.drop_eq_nil_of_le (by simp)

theorem windowOf_zero (text : List Char) (stop : Nat) :
    windowOf text 0 stop = fitting Char.utf8Size stop text := by
  simp [windowOf, windowStart, Utf8.byteLength]

theorem withinBudget_eq (text : List Char) (remainingBytes : Nat) :
    withinBudget text remainingBytes = fitting Char.utf8Size remainingBytes text := by
  unfold withinBudget
  rw [length_encode]
  split
  · rw [completeUtf8Window_encode (Nat.zero_le _) (by omega), Utf8.decode_encode, windowOf_zero]
  · rw [Utf8.fitting_eq_self (by rw [Utf8.byteLength] at *; omega)]

theorem windowOf_is_front (text : List Char) (start stop : Nat) :
    windowOf text start stop <+: text.drop (windowStart text start) := Utf8.fitting_prefix _ _

theorem byteLength_windowOf_le (text : List Char) (start stop : Nat)
    (h : start ≤ Utf8.byteLength text) :
    Utf8.byteLength (windowOf text start stop) ≤ stop - start := by
  have hle : start ≤ Utf8.byteLength (starting Char.utf8Size start text) :=
    Utf8.le_total_starting h
  have hfit : Utf8.byteLength (windowOf text start stop) ≤
      stop - Utf8.byteLength (starting Char.utf8Size start text) :=
    Utf8.total_fitting_le _ _
  omega

/-! ## Sealed windows -/

/-- The window with the marks of the whole text. -/
def markedWindow (text : List Char) (start stop : Nat) : List Marked :=
  ((markSecrets text).drop (windowStart text start)).take (windowOf text start stop).length

/-- A window that begins behind the first `n` characters of the secret `m` ends before the
value, or begins a secret of its own that the budget does not let through. -/
def SealedStart (window m : List Char) (n remainingBytes : Nat) : Prop :=
  window.length ≤ max n (valueStart m) - n ∨
    ((secretLength (window.drop (max n (valueStart m) - n))).isSome = true ∧
      remainingBytes ≤ Utf8.byteLength (window.take (max n (valueStart m) - n)) + 10)

/-- A window that ends behind the first `n` characters of the secret `m` ends before the
blanks and the quote that open the value or past them, or the budget ends before them. -/
def SealedEnd (window m : List Char) (n remainingBytes : Nat) : Prop :=
  n ≤ valueStart m ∨ valueStart m + leadLength m < n ∨
    remainingBytes <
      Utf8.byteLength (redact (window.take (window.length - (n - valueStart m)))) +
        (m.getD (valueStart m) ' ').utf8Size

/-- Where the window cuts a secret of the whole text, it cuts it so that nothing of the
secret's value is seen. -/
def Sealed (text : List Char) (start stop remainingBytes : Nat) : Prop :=
  match secretAcross (scan secretLength text) (windowStart text start) with
  | some (m, n) => SealedStart (windowOf text start stop) m n remainingBytes
  | none =>
    match secretAcross (scan secretLength text)
        (windowStart text start + (windowOf text start stop).length) with
    | some (m, n) => SealedEnd (windowOf text start stop) m n remainingBytes
    | none => True

instance (window m : List Char) (n remainingBytes : Nat) :
    Decidable (SealedStart window m n remainingBytes) := by
  unfold SealedStart
  infer_instance

instance (window m : List Char) (n remainingBytes : Nat) :
    Decidable (SealedEnd window m n remainingBytes) := by
  unfold SealedEnd
  infer_instance

instance (text : List Char) (start stop remainingBytes : Nat) :
    Decidable (Sealed text start stop remainingBytes) := by
  unfold Sealed
  split
  · infer_instance
  · split <;> infer_instance

theorem markedWindow_text (text : List Char) (start stop : Nat) :
    (markedWindow text start stop).map Prod.fst = windowOf text start stop := by
  obtain ⟨rest, hrest⟩ := windowOf_is_front text start stop
  rw [markedWindow, List.map_take, List.map_drop, markSecrets_text, ← hrest, List.take_left' rfl]

theorem markSecrets_eq {text : List Char} {ps : List (Regex.Piece Char)}
    (h : scan secretLength text = ps) : markSecrets text = textOf (ps.map markPiece) := by
  rw [markSecrets, h]

theorem secretAcross_append (ps qs : List (Regex.Piece Char)) (k : Nat) :
    secretAcross (ps ++ qs) ((textOf ps).length + k) = secretAcross qs k := by
  induction ps with
  | nil => simp
  | cons p ps ih =>
    rw [List.cons_append, textOf_cons, List.length_append]
    cases p with
    | kept c =>
      rw [show (Regex.Piece.kept c).text.length + (textOf ps).length + k =
        (textOf ps).length + k + 1 by simp [Regex.Piece.text]; omega]
      exact ih
    | found m =>
      simp only [Regex.Piece.text]
      cases hn : m.length + (textOf ps).length + k with
      | zero =>
        obtain ⟨hk, hps⟩ : k = 0 ∧ (textOf ps).length = 0 := by omega
        rw [hk, hps] at ih
        rw [hk, ← ih]
        cases ps ++ qs <;> rfl
      | succ j =>
        rw [secretAcross, if_neg (by omega), show j + 1 - m.length = (textOf ps).length + k by omega]
        exact ih

/-- The law of one window: it reveals a secret exactly when it is not sealed. -/
theorem reveals_iff_not_sealed {text : List Char} {start stop remainingBytes : Nat}
    (hfit : Utf8.byteLength (windowOf text start stop) ≤ remainingBytes) :
    Reveals remainingBytes (redactMarked (markedWindow text start stop)) ↔
      ¬ Sealed text start stop remainingBytes := by
  have htext := markedWindow_text text start stop
  have hwhole : textOf (scan secretLength text) = text :=
    Regex.textOf_scan secretLength_pos text
  have hstart : windowStart text start ≤ text.length := by
    have := congrArg List.length (@Utf8.starting_append_drop _ Char.utf8Size start text)
    rw [List.length_append] at this
    unfold windowStart
    omega
  have hlen : (windowOf text start stop).length ≤ text.length - windowStart text start := by
    have := (windowOf_is_front text start stop).length_le
    rwa [List.length_drop] at this
  unfold Sealed
  cases hacross : secretAcross (scan secretLength text) (windowStart text start) with
  | some cut =>
    obtain ⟨m, n⟩ := cut
    obtain ⟨ps, qs, hscan, hi, hn, hm⟩ := secretAcross_some hacross
    have hfound : secretLength (m ++ textOf qs) = some m.length := by
      have hagain : scan secretLength (textOf (ps ++ .found m :: qs)) =
          ps ++ .found m :: qs := by
        rw [← hscan, hwhole]
      exact (secretLength_of_scan (Regex.scan_textOf secretLength_pos hagain)).2
    have hwindow : markedWindow text start stop =
        ((markSecret m).drop n ++ textOf (qs.map markPiece)).take
          (windowOf text start stop).length := by
      rw [markedWindow, markSecrets_eq hscan, hi, List.map_append, textOf_append,
        ← length_textOf_markPiece, List.drop_length_add_append]
      rw [List.map_cons, textOf_cons, markPiece, Regex.Piece.text,
        List.drop_append_of_le_length (by simp; omega)]
    have hbytes : total markedSize (markedWindow text start stop) ≤ remainingBytes := by
      rwa [total_markedSize, htext]
    rw [hwindow] at hbytes
    have hlaw := reveals_beginning hfound hn hm hbytes
    rw [← hwindow] at hlaw
    rw [hlaw, markedLength, total_markedSize, List.map_drop, List.map_take,
      ← List.length_map (f := Prod.fst), htext]
    simp only [SealedStart]
    rw [not_or, Nat.not_le]
  | none =>
    obtain ⟨ps, qs, hscan, htake⟩ := secretAcross_none hacross
    rw [hwhole] at htake
    have hi : windowStart text start = (textOf ps).length := by
      rw [← htake, List.length_take]
      omega
    have hrest : scan secretLength (textOf qs) = qs :=
      Regex.scan_textOf secretLength_pos hscan
    have hdrop : text.drop (windowStart text start) = textOf qs := by
      rw [hi]
      conv_lhs => rw [← hwhole, hscan, textOf_append, List.drop_left' rfl]
    have hmarked : markedWindow text start stop =
        (textOf (qs.map markPiece)).take (windowOf text start stop).length := by
      rw [markedWindow, markSecrets_eq hscan, hi, List.map_append, textOf_append,
        ← length_textOf_markPiece, List.drop_left' rfl]
    have hstarts := windowOf_is_front text start stop
    rw [hdrop] at hstarts
    have hshort := hstarts.length_le
    simp only
    rw [hscan, hi, secretAcross_append]
    cases hend : secretAcross qs (windowOf text start stop).length with
    | none =>
      obtain ⟨qs1, qs2, rfl, htake'⟩ := secretAcross_none hend
      have hk : (windowOf text start stop).length = (textOf qs1).length := by
        rw [← htake', List.length_take]
        omega
      rw [hmarked, hk, List.map_append, textOf_append, ← length_textOf_markPiece,
        List.take_left' rfl]
      have hcut := scan_cut hrest (List.nil_prefix (l := textOf qs2))
      rw [List.append_nil, Regex.scan_nil, List.append_nil] at hcut
      rw [redactMarked_of_pieces (by rw [textOf_markPiece, hcut, map_markPiece])]
      simp only [not_true_eq_false, iff_false]
      exact not_reveals_of_unmarked (unmarked_pieces qs1)
    | some cut =>
      obtain ⟨m, n⟩ := cut
      obtain ⟨qs1, qs2, rfl, hk, hn, hm⟩ := secretAcross_some hend
      have hwindow : windowOf text start stop = textOf qs1 ++ m.take n := by
        obtain ⟨more, hmore⟩ := hstarts
        have := congrArg (List.take (windowOf text start stop).length) hmore
        rw [List.take_left' rfl] at this
        rw [this, hk, textOf_append, List.take_length_add_append, textOf_cons,
          Regex.Piece.text, List.take_append_of_le_length (by omega)]
      rw [hmarked, hk, List.map_append, textOf_append, ← length_textOf_markPiece,
        List.take_length_add_append, List.map_cons, textOf_cons, markPiece, Regex.Piece.text,
        List.take_append_of_le_length (by simp; omega), reveals_ending hrest hm]
      simp only [SealedEnd]
      by_cases hv : valueStart m < n
      · have hfront : (windowOf text start stop).take
            ((windowOf text start stop).length - (n - valueStart m)) =
              textOf qs1 ++ m.take (valueStart m) := by
          rw [hwindow, List.length_append, List.length_take, List.take_append,
            List.take_of_length_le (by omega), List.take_take]
          congr 2
          omega
        rw [hfront]
        omega
      · omega

/-! ## Turns of the loop -/

/-- The marked characters of the artifact that a slice shows. -/
def shownOf (content : String) (slice : ArtifactSlice) : List Marked :=
  (redactMarked (markedWindow content.toList slice.range.startByte slice.range.endByte)).take
    slice.redactedText.toList.length

/-- The slice shows a character of a secret's value as it stands in the artifact. -/
def RevealsSecret (content : String) (slice : ArtifactSlice) : Prop :=
  ∃ x ∈ shownOf content slice, x.2 = true

def contentOf (resolve : String → Option Artifact) (artifactId : String) : Option String :=
  (resolve artifactId).bind Artifact.content

def KeepsSecrets (resolve : String → Option Artifact) (slices : List ArtifactSlice) : Prop :=
  ∀ slice ∈ slices, ∀ content, contentOf resolve slice.artifactId = some content →
    ¬ RevealsSecret content slice

/-- The content that a turn reads, and the end of its window. -/
def served (resolve : String → Option Artifact) (s : ReadState) (selector : Selector) :
    Option (String × Nat) :=
  (resolve selector.artifactId).bind fun artifact =>
    if artifact.disposition ∈ ["BINARY", "SECRET_REDACTED", "READ_FAILED"] then none
    else artifact.content.bind fun content =>
      let stop := cappedEnd selector s.remainingBytes (encode content.toList).length
      if stop ≤ selector.startByte ∨ s.remainingBytes = 0 then none else some (content, stop)

/-- The window of the turn is sealed, within the bytes that the turns before it have left. -/
def SealedTurn (resolve : String → Option Artifact) (s : ReadState) (selector : Selector) : Prop :=
  match served resolve s selector with
  | none => True
  | some (content, stop) => Sealed content.toList selector.startByte stop s.remainingBytes

instance (resolve : String → Option Artifact) (s : ReadState) (selector : Selector) :
    Decidable (SealedTurn resolve s selector) := by
  unfold SealedTurn
  split <;> infer_instance

def turn (resolve : String → Option Artifact) (s : ReadState) (selector : Selector) :
    Option ReadState :=
  match readSelector resolve s selector with
  | .ok t => some t
  | .error _ => none

variable {resolve : String → Option Artifact} {s t : ReadState}

theorem run_turns {selectors : List Selector} (h : readSelectors resolve s selectors = .ok t) :
    Machine.run (turn resolve) s selectors = some t := by
  induction selectors generalizing s with
  | nil =>
    cases h
    rfl
  | cons selector rest ih =>
    rw [readSelectors] at h
    obtain ⟨u, hu, hrest⟩ := bind_ok h
    rw [Machine.run, turn, hu]
    exact ih hrest

/-- The slice of one turn. -/
structure TurnSlice (resolve : String → Option Artifact) (s t : ReadState) (selector : Selector)
    (content : String) (stop : Nat) (slice : ArtifactSlice) : Prop where
  slices : t.artifactSlices = s.artifactSlices ++ [slice]
  artifact : slice.artifactId = selector.artifactId
  source : contentOf resolve selector.artifactId = some content
  range : slice.range = { startByte := selector.startByte, endByte := stop }
  text : slice.redactedText.toList = fitting Char.utf8Size s.remainingBytes
    (redact (windowOf content.toList selector.startByte stop))
  inside : selector.startByte < stop ∧ stop ≤ selector.startByte + s.remainingBytes ∧
    stop ≤ Utf8.byteLength content.toList

/-- A turn adds the slice of its window, or no slice at all. -/
theorem turn_cases {selector : Selector} (h : turn resolve s selector = some t) :
    (served resolve s selector = none ∧ t.artifactSlices = s.artifactSlices) ∨
      ∃ content stop slice, served resolve s selector = some (content, stop) ∧
        TurnSlice resolve s t selector content stop slice := by
  unfold turn readSelector at h
  unfold served
  cases hr : resolve selector.artifactId with
  | none =>
    simp only [hr, Option.some.injEq] at h
    subst h
    exact Or.inl ⟨rfl, rfl⟩
  | some artifact =>
    simp only [hr, Option.bind_some] at h ⊢
    by_cases hd : artifact.disposition ∈ ["BINARY", "SECRET_REDACTED", "READ_FAILED"]
    · rw [if_pos hd] at h ⊢
      simp only [Option.some.injEq] at h
      subst h
      exact Or.inl ⟨rfl, rfl⟩
    · rw [if_neg hd] at h ⊢
      cases hc : artifact.content with
      | none => simp [hc, typeError] at h
      | some content =>
        simp only [hc, Option.some.injEq, Option.bind_some] at h ⊢
        subst h
        unfold serve
        simp only
        split
        · exact Or.inl ⟨rfl, rfl⟩
        · rename_i hstop
          have hcontent : contentOf resolve selector.artifactId = some content := by
            rw [contentOf, hr]
            exact hc
          have hcap : cappedEnd selector s.remainingBytes (encode content.toList).length ≤
              selector.startByte + s.remainingBytes ∧
              cappedEnd selector s.remainingBytes (encode content.toList).length ≤
                Utf8.byteLength content.toList := by
            rw [cappedEnd, length_encode]
            omega
          refine Or.inr ⟨content, _, _, rfl, rfl, rfl, hcontent, rfl, ?_, by omega, hcap.1, hcap.2⟩
          rw [withinBudget_eq, completeUtf8Window_encode (by omega) hcap.2, Utf8.decode_encode,
            String.toList_ofList]

/-- What a slice shows is what the budget of its turn lets through. -/
theorem revealsSecret_iff
    {selector : Selector} {content : String} {stop : Nat} {slice : ArtifactSlice}
    (h : TurnSlice resolve s t selector content stop slice) :
    RevealsSecret content slice ↔
      ¬ Sealed content.toList selector.startByte stop s.remainingBytes := by
  obtain ⟨hlt, hbudget, hbytes⟩ := h.inside
  have hfit : Utf8.byteLength (windowOf content.toList selector.startByte stop) ≤
      s.remainingBytes := by
    have := byteLength_windowOf_le content.toList selector.startByte stop (by omega)
    omega
  have hshown : shownOf content slice = fitting markedSize s.remainingBytes
      (redactMarked (markedWindow content.toList selector.startByte stop)) := by
    have hmap := @Utf8.fitting_map Char Marked Char.utf8Size Prod.fst s.remainingBytes
      (redactMarked (markedWindow content.toList selector.startByte stop))
    rw [redactMarked_text, markedWindow_text, ← h.text] at hmap
    rw [shownOf, h.range, ← hmap, List.length_map]
    exact (List.prefix_iff_eq_take.mp (Utf8.fitting_prefix s.remainingBytes _)).symm
  rw [← reveals_iff_not_sealed hfit, RevealsSecret, hshown, Reveals]

/-- A turn keeps the secrets exactly when its window is sealed. -/
theorem keepsSecrets_turn {selector : Selector} (h : turn resolve s selector = some t) :
    KeepsSecrets resolve t.artifactSlices ↔
      KeepsSecrets resolve s.artifactSlices ∧ SealedTurn resolve s selector := by
  unfold SealedTurn
  rcases turn_cases h with ⟨hserved, hslices⟩ | ⟨content, stop, slice, hserved, hslice⟩
  · rw [hserved, hslices]
    simp
  · rw [hserved]
    have hone : KeepsSecrets resolve [slice] ↔
        Sealed content.toList selector.startByte stop s.remainingBytes := by
      unfold KeepsSecrets
      simp only [List.mem_singleton, forall_eq, hslice.artifact, hslice.source, Option.some.injEq,
        forall_eq', revealsSecret_iff hslice, not_not]
    simp only
    rw [← hone, hslice.slices]
    unfold KeepsSecrets
    simp only [List.mem_append, or_imp, forall_and]

end Traqen.SourceSliceBroker
