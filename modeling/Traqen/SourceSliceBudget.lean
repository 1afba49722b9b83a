-- The byte budget of a request (`application/source-slice-broker.js`): what is shown and what
-- remains are the budget together after every turn, so that the slice of the response is never
-- refused, and every text is cut out of whole characters of its artifact.
import Traqen.SourceSliceNoninterference

open Js

namespace Traqen.SourceSliceBroker

/-! ## What is shown and what remains -/

/-- The bytes of the texts that were collected. -/
def shownBytes (slices : List ArtifactSlice) : Nat :=
  (slices.map fun s => byteLength s.redactedText).sum

/-- What was shown was taken off the budget, no more and no less. -/
def Balanced (maxBytes : Nat) (s : ReadState) : Prop :=
  s.remainingBytes + shownBytes s.artifactSlices = maxBytes

theorem byteLength_withinBudget (text : List Char) (remainingBytes : Nat) :
    Utf8.byteLength (withinBudget text remainingBytes) ≤ remainingBytes := by
  rw [withinBudget_eq]
  exact Utf8.total_fitting_le _ _

variable {s t : ReadState}

theorem serve_balanced {maxBytes : Nat} (h : Balanced maxBytes s)
    (selector : Selector) (artifact : Artifact) (content : String) :
    Balanced maxBytes (serve s selector artifact content) := by
  unfold serve
  dsimp only
  by_cases hspent : cappedEnd selector s.remainingBytes (Utf8.encode content.toList).length ≤
      selector.startByte ∨ s.remainingBytes = 0
  · rw [if_pos hspent]
    exact h
  · rw [if_neg hspent]
    unfold Balanced shownBytes at h ⊢
    dsimp only
    rw [List.map_append, List.sum_append, List.map_singleton, List.sum_singleton, byteLength,
      String.toList_ofList]
    have hle := byteLength_withinBudget (redact (Utf8.decode (completeUtf8Window
      (Utf8.encode content.toList) selector.startByte (cappedEnd selector s.remainingBytes
        (Utf8.encode content.toList).length)))) s.remainingBytes
    omega

variable {resolve : String → Option Artifact}

theorem turn_balanced {maxBytes : Nat}
    {selector : Selector} (hs : Balanced maxBytes s) (h : turn resolve s selector = some t) :
    Balanced maxBytes t := by
  unfold turn readSelector at h
  cases hr : resolve selector.artifactId with
  | none =>
    rw [hr] at h
    cases h
    exact hs
  | some artifact =>
    rw [hr] at h
    dsimp only at h
    by_cases hd : artifact.disposition ∈ ["BINARY", "SECRET_REDACTED", "READ_FAILED"]
    · rw [if_pos hd] at h
      cases h
      exact hs
    · rw [if_neg hd] at h
      cases hc : artifact.content with
      | none =>
        rw [hc] at h
        cases h
      | some content =>
        rw [hc] at h
        cases h
        exact serve_balanced hs selector artifact content

variable {selectors : List Selector}

theorem run_balanced {maxBytes : Nat} (hs : Balanced maxBytes s)
    (h : Machine.run (turn resolve) s selectors = some t) : Balanced maxBytes t := by
  induction selectors generalizing s with
  | nil =>
    cases h
    exact hs
  | cons selector rest ih =>
    obtain ⟨u, hu, hrest⟩ := Machine.run_cons_some h
    exact ih (turn_balanced hs hu) hrest

/-! ## Whole characters -/

/-- The text of a slice before it is redacted: a run of whole characters of the artifact, inside the
bytes that the selector asks for. The bytes of the window are those of the run, so that no character
is made up where they are decoded. -/
structure WholeCharacters (content : String) (selector : Selector) (slice : ArtifactSlice)
    (window : List Char) : Prop where
  run : ∃ before after, content.toList = before ++ window ++ after ∧
    (window ≠ [] → selector.startByte ≤ Utf8.byteLength before ∧
      Utf8.byteLength (before ++ window) ≤ slice.range.endByte)
  start : slice.range.startByte = selector.startByte
  stop : slice.range.endByte ≤ selector.endByte.getD (byteLength content)
  bytes : completeUtf8Window (Utf8.encode content.toList) slice.range.startByte
    slice.range.endByte = Utf8.encode window
  decoded : Utf8.decode (completeUtf8Window (Utf8.encode content.toList) slice.range.startByte
    slice.range.endByte) = window

/-- The slice is served to one of the selectors, from the artifact that it names. -/
def Served (resolve : String → Option Artifact) (selectors : List Selector)
    (slice : ArtifactSlice) : Prop :=
  ∃ selector ∈ selectors, slice.artifactId = selector.artifactId ∧ ∃ content window remaining,
    contentOf resolve selector.artifactId = some content ∧
    WholeCharacters content selector slice window ∧
    slice.redactedText.toList = withinBudget (redact window) remaining

theorem windowOf_run (text : List Char) (start stop : Nat) (h : start ≤ Utf8.byteLength text) :
    ∃ before after, text = before ++ windowOf text start stop ++ after ∧
      (windowOf text start stop ≠ [] → start ≤ Utf8.byteLength before ∧
        Utf8.byteLength (before ++ windowOf text start stop) ≤ stop) := by
  obtain ⟨after, hafter⟩ := windowOf_is_front text start stop
  have hle : start ≤ Utf8.byteLength (Utf8.starting Char.utf8Size start text) :=
    Utf8.le_total_starting h
  have hfit : Utf8.byteLength (windowOf text start stop) ≤
      stop - Utf8.byteLength (Utf8.starting Char.utf8Size start text) :=
    Utf8.total_fitting_le _ _
  refine ⟨Utf8.starting Char.utf8Size start text, after, ?_, fun hne => ⟨hle, ?_⟩⟩
  · rw [List.append_assoc, hafter]
    exact (Utf8.starting_append_drop start text).symm
  · have hpos : 0 < Utf8.byteLength (windowOf text start stop) := by
      obtain ⟨c, cs, hcs⟩ := List.exists_cons_of_ne_nil hne
      have hsize := c.utf8Size_pos
      rw [hcs, Utf8.byteLength, Utf8.total_cons]
      omega
    rw [byteLength_append]
    omega

theorem served_stop {selector : Selector}
    {content : String} {stop : Nat} (h : served resolve s selector = some (content, stop)) :
    stop = cappedEnd selector s.remainingBytes (byteLength content) := by
  unfold served at h
  obtain ⟨artifact, -, h⟩ := Option.bind_eq_some_iff.mp h
  split at h
  · cases h
  rename_i hd
  obtain ⟨found, -, h⟩ := Option.bind_eq_some_iff.mp h
  dsimp only at h
  split at h
  · cases h
  rename_i hspent
  cases h
  rw [Utf8.length_encode]
  rfl

theorem turn_served {selector : Selector}
    (h : turn resolve s selector = some t) : ∀ slice ∈ t.artifactSlices,
      slice ∈ s.artifactSlices ∨ Served resolve [selector] slice := by
  intro slice hslice
  rcases turn_cases h with ⟨-, hsame⟩ | ⟨content, stop, new, hserved, hnew⟩
  · exact .inl (hsame ▸ hslice)
  rw [hnew.slices, List.mem_append, List.mem_singleton] at hslice
  rcases hslice with hslice | rfl
  · exact .inl hslice
  obtain ⟨hlt, -, hbytes⟩ := hnew.inside
  have hwindow := completeUtf8Window_encode (Nat.le_of_lt hlt) hbytes
  refine .inr ⟨selector, List.mem_singleton_self _, hnew.artifact, content, _, s.remainingBytes,
    hnew.source, ⟨?_, ?_, ?_, ?_, ?_⟩, hnew.text.trans (withinBudget_eq _ _).symm⟩
  · rw [hnew.range]
    exact windowOf_run _ _ _ (by omega)
  · rw [hnew.range]
  · rw [hnew.range, served_stop hserved]
    exact (min_le_left _ _).trans (min_le_left _ _)
  · rw [hnew.range]
    exact hwindow
  · rw [hnew.range, hwindow, Utf8.decode_encode]

theorem Served.mono {more : List Selector}
    {slice : ArtifactSlice} (h : Served resolve selectors slice) (hsub : selectors ⊆ more) :
    Served resolve more slice := by
  obtain ⟨selector, hselector, hserved⟩ := h
  exact ⟨selector, hsub hselector, hserved⟩

theorem run_served (h : Machine.run (turn resolve) s selectors = some t) :
    ∀ slice ∈ t.artifactSlices, slice ∈ s.artifactSlices ∨ Served resolve selectors slice := by
  induction selectors generalizing s with
  | nil =>
    cases h
    exact fun slice hslice => .inl hslice
  | cons selector rest ih =>
    obtain ⟨u, hu, hrest⟩ := Machine.run_cons_some h
    intro slice hslice
    rcases ih hrest slice hslice with hslice | hserved
    · rcases turn_served hu slice hslice with hslice | hserved
      · exact .inl hslice
      · exact .inr (hserved.mono (by simp))
    · exact .inr (hserved.mono (List.subset_cons_self _ _))

/-! ## The response -/

def budgetError : Failure :=
  { name := .RangeError, message := "SourceSlice exceeds request byte budget" }

theorem createSourceSlice_within {request : SourceSliceRequest} {input : SourceSlice}
    (h : shownBytes input.artifactSlices ≤ request.maxBytes) :
    createSourceSlice request input = .ok input := by
  unfold createSourceSlice
  exact if_neg (not_lt.mpr h)

theorem sliceOf_ok {request : SourceSliceRequest}
    (h : Balanced request.maxBytes s) : ∃ slice, sliceOf request s = .ok slice ∧
      slice.artifactSlices = s.artifactSlices := by
  unfold sliceOf
  by_cases hnone : s.artifactSlices = []
  · rw [if_pos hnone, hnone]
    exact ⟨_, createSourceSlice_within (Nat.zero_le _), rfl⟩
  · rw [if_neg hnone]
    unfold Balanced at h
    exact ⟨_, createSourceSlice_within (by dsimp only; omega), rfl⟩

/-- A loop that stops stops at an artifact without content. -/
theorem readSelectors_error {e : Failure} (h : readSelectors resolve s selectors = .error e) :
    e.name = .TypeError := by
  induction selectors generalizing s with
  | nil => cases h
  | cons selector rest ih =>
    unfold readSelectors at h
    cases hfirst : readSelector resolve s selector with
    | ok t =>
      rw [hfirst] at h
      exact ih h
    | error failure =>
      rw [hfirst] at h
      cases h
      unfold readSelector at hfirst
      split at hfirst
      · cases hfirst
      rename_i artifact hr
      split at hfirst
      · cases hfirst
      rename_i hd
      cases hc : artifact.content with
      | none =>
        rw [hc] at hfirst
        cases hfirst
        rfl
      | some content =>
        rw [hc] at hfirst
        cases hfirst

/-- A response is refused for its size by no request, all of its texts are within the budget after
redaction as well, what remains of the budget is what was not shown, and every text is that of a run
of whole characters which the selector asks for. -/
theorem budget_and_encoding (resolve : String → Option Artifact) (request : SourceSliceRequest)
    (authorization : Option Authorization) :
    read resolve request authorization ≠ .error budgetError ∧
    (∀ selectors t, selectors <+: request.selectors →
      Machine.run (turn resolve) (ReadState.start request.maxBytes) selectors = some t →
      t.remainingBytes + shownBytes t.artifactSlices = request.maxBytes) ∧
    ∀ slice, read resolve request authorization = .ok slice →
      shownBytes slice.artifactSlices ≤ request.maxBytes ∧
      ∀ part ∈ slice.artifactSlices, Served resolve request.selectors part := by
  have hstart : Balanced request.maxBytes (ReadState.start request.maxBytes) := Nat.add_zero _
  refine ⟨?_, fun selectors t _ ht => run_balanced hstart ht, fun slice h => ?_⟩
  · unfold read
    cases refusal request authorization with
    | some code =>
      dsimp only
      rw [reject, createSourceSlice_within (Nat.zero_le _)]
      exact nofun
    | none =>
      intro h
      dsimp only at h
      cases hread : readSelectors resolve (ReadState.start request.maxBytes) request.selectors with
      | error e =>
        rw [hread] at h
        have hname := readSelectors_error hread
        rw [Except.error.inj h] at hname
        cases hname
      | ok t =>
        rw [hread] at h
        obtain ⟨slice, hslice, -⟩ := sliceOf_ok (run_balanced hstart (run_turns hread))
        cases hslice.symm.trans h
  · unfold read at h
    cases hrefused : refusal request authorization with
    | some code =>
      rw [hrefused] at h
      dsimp only at h
      rw [reject, createSourceSlice_within (Nat.zero_le _)] at h
      cases h
      exact ⟨Nat.zero_le _, nofun⟩
    | none =>
      rw [hrefused] at h
      obtain ⟨t, ht, h⟩ := bind_ok h
      have hbalanced := run_balanced hstart (run_turns ht)
      obtain ⟨found, hfound, hsame⟩ := sliceOf_ok hbalanced
      cases hfound.symm.trans h
      rw [hsame]
      refine ⟨?_, fun part hpart => ?_⟩
      · unfold Balanced at hbalanced
        omega
      · rcases run_served (run_turns ht) part hpart with hnone | hserved
        · cases hnone
        · exact hserved

/-! ## A budget of eight bytes -/

def shortBudget : SourceSliceRequest := { fromByte 0 with maxBytes := 8 }

theorem shortBudget_read : (read (holding "x") shortBudget worker).toOption.isSome = true := by
  decide +kernel

/-- The redacted text is longer than the secret, and cut to the budget. -/
theorem redaction_within_budget : ∃ slice, read (holding "x") shortBudget worker = .ok slice ∧
    slice.artifactSlices.map (·.redactedText) = ["[REDACTE"] ∧
    shownBytes slice.artifactSlices ≤ 8 := by
  obtain ⟨hbudget, -⟩ :=
    (budget_and_encoding (holding "x") shortBudget worker).2.2 _ (ok_get shortBudget_read)
  exact ⟨_, ok_get shortBudget_read, by decide +kernel, hbudget⟩

end Traqen.SourceSliceBroker
