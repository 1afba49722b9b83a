-- What the status COMPLETE says (`application/source-slice-broker.js`): of the artifacts that are
-- served, that they are shown whole. A selector whose artifact is left out changes the status of no
-- response, so that a complete response may lack it.
import Traqen.SourceSliceBudget

open Js

namespace Traqen.SourceSliceBroker

/-! ## Complete responses -/

/-- The bytes that the selector asks for. -/
def requestedBytes (selector : Selector) (content : String) : List UInt8 :=
  ((Utf8.encode content.toList).take (selector.endByte.getD (byteLength content))).drop
    selector.startByte

/-- A slice shows all that the selector asks for. -/
def ShownWhole (resolve : String → Option Artifact) (selector : Selector)
    (slice : ArtifactSlice) : Prop :=
  slice.artifactId = selector.artifactId ∧ ∃ content,
    contentOf resolve selector.artifactId = some content ∧
      Utf8.encode slice.redactedText.toList = requestedBytes selector content

/-- A complete response shows all that any selector asks for. -/
def CompleteMeansComplete (resolve : String → Option Artifact) (request : SourceSliceRequest)
    (authorization : Option Authorization) : Prop :=
  ∀ slice, read resolve request authorization = .ok slice → slice.status = .COMPLETE →
    ∀ selector ∈ request.selectors, ∃ part ∈ slice.artifactSlices, ShownWhole resolve selector part

/-! ## The condition -/

/-- The artifact of the selector is left out: it is unknown, or it cannot be shown. -/
def LeftOut (resolve : String → Option Artifact) (selector : Selector) : Prop :=
  ∀ artifact, resolve selector.artifactId = some artifact →
    artifact.disposition ∈ ["BINARY", "SECRET_REDACTED", "READ_FAILED"]

instance (resolve : String → Option Artifact) (selector : Selector) :
    Decidable (LeftOut resolve selector) := by
  unfold LeftOut
  cases resolve selector.artifactId with
  | none => exact isTrue nofun
  | some artifact =>
    exact decidable_of_iff (artifact.disposition ∈ ["BINARY", "SECRET_REDACTED", "READ_FAILED"])
      ⟨fun h a ha => Option.some.inj ha ▸ h, fun h => h artifact rfl⟩

/-- The text from the start of the selector to the end of the artifact is asked for, its first
character is whole, and it holds no secret. -/
structure WholeText (selector : Selector) (content : String) : Prop where
  start : selector.startByte < byteLength content
  stop : selector.endByte.getD (byteLength content) = byteLength content
  boundary : Utf8.byteLength (Utf8.starting Char.utf8Size selector.startByte content.toList) =
    selector.startByte
  noSecret : secretCount (content.toList.drop (windowStart content.toList selector.startByte)) = 0

/-- The bytes that remain are enough for the selectors in turn: each is left out or its text, which
is whole, takes its bytes. -/
def Fits (resolve : String → Option Artifact) : Nat → List Selector → Prop
  | _, [] => True
  | remaining, selector :: rest =>
    if LeftOut resolve selector then Fits resolve remaining rest
    else ∃ content, contentOf resolve selector.artifactId = some content ∧
      WholeText selector content ∧ byteLength content - selector.startByte ≤ remaining ∧
      Fits resolve (remaining - (byteLength content - selector.startByte)) rest

/-! ## One turn -/

/-- Nothing was cut and nothing was redacted. -/
def Clean (s : ReadState) : Prop := s.truncated = false ∧ s.redactions = []

theorem windowOf_whole (text : List Char) (start : Nat) :
    windowOf text start (Utf8.byteLength text) = text.drop (windowStart text start) := by
  unfold windowOf
  apply Utf8.fitting_eq_self
  have hsplit := byteLength_split text start
  unfold Utf8.byteLength at hsplit ⊢
  omega

theorem encode_drop_boundary {text : List Char} {start : Nat}
    (h : Utf8.byteLength (Utf8.starting Char.utf8Size start text) = start) :
    Utf8.encode (text.drop (windowStart text start)) = (Utf8.encode text).drop start := by
  conv_rhs => rw [← @Utf8.starting_append_drop _ Char.utf8Size start text]
  rw [Utf8.encode_append, List.drop_left' (by rw [Utf8.length_encode, h])]
  rfl

/-- Where no secret is found, nothing is redacted. -/
theorem redact_eq_self {text : List Char} (h : secretCount text = 0) : redact text = text := by
  have hkept : ∀ ps : List (Regex.Piece Char), foundIn ps = 0 →
      ps.flatMap emitText = Regex.textOf ps := by
    intro ps
    induction ps with
    | nil => exact fun _ => rfl
    | cons p ps ih =>
      intro hcount
      unfold foundIn at ih hcount
      rw [List.countP_cons] at hcount
      cases p with
      | kept c =>
        rw [List.flatMap_cons, ih (by omega)]
        rfl
      | found m => simp at hcount
  rw [redact_eq, hkept _ h]
  exact Regex.textOf_scan secretLength_pos text

/-- The end of the window, in bytes of the content. -/
def stopOf (s : ReadState) (selector : Selector) (content : String) : Nat :=
  cappedEnd selector s.remainingBytes (byteLength content)

/-- The state behind a window, by the characters that it shows. -/
def shownState (s : ReadState) (selector : Selector) (artifact : Artifact) (content : String) :
    ReadState :=
  let stop := stopOf s selector content
  let window := windowOf content.toList selector.startByte stop
  let range : ByteRange := { startByte := selector.startByte, endByte := stop }
  let shown := Utf8.fitting Char.utf8Size s.remainingBytes (redact window)
  { s with
    remainingBytes := s.remainingBytes - Utf8.byteLength shown
    artifactSlices := s.artifactSlices ++ [{
      artifactId := selector.artifactId
      relativePath := artifact.relativePath
      contentDigest := artifact.contentDigest
      range
      redactedText := String.ofList shown }]
    redactions := s.redactions ++ List.replicate (secretCount window)
      { kind := "SECRET_PATTERN", artifactId := selector.artifactId, range }
    truncated := s.truncated || decide (Utf8.byteLength window < stop - selector.startByte) ||
      decide (Utf8.byteLength (redact window) > s.remainingBytes) ||
      decide (stop < selector.endByte.getD (byteLength content) ∨ stop < byteLength content) }

theorem serve_eq (s : ReadState) (selector : Selector) (artifact : Artifact) (content : String) :
    serve s selector artifact content =
      if stopOf s selector content ≤ selector.startByte ∨ s.remainingBytes = 0 then
        { s.omit "SOURCE_SLICE_BUDGET_EXCEEDED" with truncated := true }
      else shownState s selector artifact content := by
  have hlength : (Utf8.encode content.toList).length = byteLength content := Utf8.length_encode _
  unfold serve
  dsimp only
  rw [hlength]
  by_cases hspent : stopOf s selector content ≤ selector.startByte ∨ s.remainingBytes = 0
  · rw [if_pos hspent]
    exact if_pos hspent
  · have hbytes : completeUtf8Window (Utf8.encode content.toList) selector.startByte
        (stopOf s selector content) =
          Utf8.encode (windowOf content.toList selector.startByte (stopOf s selector content)) :=
      completeUtf8Window_encode (by omega) (min_le_right _ _)
    rw [if_neg hspent]
    refine (if_neg hspent).trans ?_
    unfold shownState
    unfold stopOf at hbytes ⊢
    dsimp only
    rw [hbytes, Utf8.decode_encode, withinBudget_eq, Utf8.length_encode, Utf8.length_encode]

variable {s t : ReadState}

/-- A turn that serves a content leaves no trace exactly when the content is whole, and fits. -/
theorem serve_clean {selector : Selector} {artifact : Artifact} {content : String} :
    Clean (serve s selector artifact content) ↔ Clean s ∧ WholeText selector content ∧
      byteLength content - selector.startByte ≤ s.remainingBytes := by
  have hstop : stopOf s selector content = min (min (selector.endByte.getD (byteLength content))
    (selector.startByte + s.remainingBytes)) (byteLength content) := rfl
  have hbytes : Utf8.byteLength content.toList = byteLength content := rfl
  have hsplit := byteLength_split content.toList selector.startByte
  rw [serve_eq]
  by_cases hspent : stopOf s selector content ≤ selector.startByte ∨ s.remainingBytes = 0
  · rw [if_pos hspent]
    constructor
    · rintro ⟨htruncated, -⟩
      cases htruncated
    · rintro ⟨-, hwhole, hfits⟩
      have hstart := hwhole.start
      have hend := hwhole.stop
      omega
  · rw [if_neg hspent]
    constructor
    · rintro ⟨htruncated, hredactions⟩
      dsimp only [shownState] at htruncated hredactions
      simp only [Bool.or_eq_false_iff, decide_eq_false_iff_not] at htruncated
      obtain ⟨⟨⟨hbefore, hwindow⟩, -⟩, hcut⟩ := htruncated
      have hall : stopOf s selector content = byteLength content := by omega
      have hle : selector.startByte ≤
          Utf8.byteLength (Utf8.starting Char.utf8Size selector.startByte content.toList) :=
        Utf8.le_total_starting (by rw [← Utf8.byteLength]; omega)
      rw [hall, ← hbytes, windowOf_whole] at hwindow hredactions
      rw [List.append_eq_nil_iff, List.replicate_eq_nil_iff] at hredactions
      exact ⟨⟨hbefore, hredactions.1⟩, ⟨by omega, by omega, by omega, hredactions.2⟩, by omega⟩
    · rintro ⟨⟨hbefore, hredactions⟩, hwhole, hfits⟩
      have hstart := hwhole.start
      have hend := hwhole.stop
      have hboundary := hwhole.boundary
      have hall : stopOf s selector content = byteLength content := by omega
      have hwindow : windowOf content.toList selector.startByte (byteLength content) = _ :=
        windowOf_whole content.toList selector.startByte
      have hsame := redact_eq_self hwhole.noSecret
      unfold Clean
      dsimp only [shownState]
      rw [hall, hwindow, hsame, hwhole.noSecret, hbefore, hredactions]
      refine ⟨?_, rfl⟩
      simp only [Bool.false_or, Bool.or_eq_false_iff, decide_eq_false_iff_not]
      omega

/-- What a whole content leaves of the bytes, and what is shown of it. -/
theorem serve_whole {selector : Selector} {artifact : Artifact} {content : String}
    (hwhole : WholeText selector content)
    (hfits : byteLength content - selector.startByte ≤ s.remainingBytes) :
    (serve s selector artifact content).remainingBytes =
        s.remainingBytes - (byteLength content - selector.startByte) ∧
      ∃ part, (serve s selector artifact content).artifactSlices = s.artifactSlices ++ [part] ∧
        part.artifactId = selector.artifactId ∧
        Utf8.encode part.redactedText.toList = requestedBytes selector content := by
  have hstart := hwhole.start
  have hend := hwhole.stop
  have hboundary := hwhole.boundary
  have hstop : stopOf s selector content = min (min (selector.endByte.getD (byteLength content))
    (selector.startByte + s.remainingBytes)) (byteLength content) := rfl
  have hbytes : Utf8.byteLength content.toList = byteLength content := rfl
  have hsplit := byteLength_split content.toList selector.startByte
  have hall : stopOf s selector content = byteLength content := by omega
  have hwindow := windowOf_whole content.toList selector.startByte
  have hfitting : Utf8.fitting Char.utf8Size s.remainingBytes
      (content.toList.drop (windowStart content.toList selector.startByte)) =
      content.toList.drop (windowStart content.toList selector.startByte) :=
    Utf8.fitting_eq_self (by rw [← Utf8.byteLength]; omega)
  rw [serve_eq, if_neg (by omega)]
  dsimp only [shownState]
  rw [hall, ← hbytes, hwindow, redact_eq_self hwhole.noSecret, hfitting]
  refine ⟨by omega, _, rfl, rfl, ?_⟩
  rw [String.toList_ofList, encode_drop_boundary hboundary, requestedBytes, hend,
    List.take_of_length_le (by rw [Utf8.length_encode]; exact le_of_eq hbytes)]

/-! ## The loop -/

variable {resolve : String → Option Artifact}

/-- A turn leaves out its selector, or serves a content. -/
theorem turn_kinds {selector : Selector}
    (h : turn resolve s selector = some t) :
    (LeftOut resolve selector ∧ ∃ reason, t = s.omit reason) ∨
      ¬ LeftOut resolve selector ∧ ∃ artifact content,
        contentOf resolve selector.artifactId = some content ∧
          t = serve s selector artifact content := by
  unfold turn readSelector at h
  cases hr : resolve selector.artifactId with
  | none =>
    rw [hr] at h
    cases h
    refine .inl ⟨?_, _, rfl⟩
    intro artifact ha
    rw [hr] at ha
    cases ha
  | some artifact =>
    rw [hr] at h
    dsimp only at h
    by_cases hd : artifact.disposition ∈ ["BINARY", "SECRET_REDACTED", "READ_FAILED"]
    · rw [if_pos hd] at h
      cases h
      refine .inl ⟨?_, _, rfl⟩
      intro other ho
      rw [hr] at ho
      exact Option.some.inj ho ▸ hd
    · rw [if_neg hd] at h
      cases hc : artifact.content with
      | none =>
        rw [hc] at h
        cases h
      | some content =>
        rw [hc] at h
        cases h
        refine .inr ⟨fun hout => hd (hout artifact hr), artifact, content, ?_, rfl⟩
        rw [contentOf, hr]
        exact hc

variable {selectors : List Selector}

/-- A run leaves no trace exactly when what it serves is whole and fits into the budget; then each
selector that is not left out is shown whole. -/
theorem run_clean
    (h : Machine.run (turn resolve) s selectors = some t) :
    (Clean t ↔ Clean s ∧ Fits resolve s.remainingBytes selectors) ∧
      (Clean t → (∀ part ∈ s.artifactSlices, part ∈ t.artifactSlices) ∧
        ∀ selector ∈ selectors, ¬ LeftOut resolve selector →
          ∃ part ∈ t.artifactSlices, ShownWhole resolve selector part) := by
  induction selectors generalizing s with
  | nil =>
    cases h
    exact ⟨⟨fun hclean => ⟨hclean, trivial⟩, And.left⟩, fun _ => ⟨fun _ hpart => hpart, nofun⟩⟩
  | cons selector rest ih =>
    obtain ⟨u, hu, hrest⟩ := Machine.run_cons_some h
    obtain ⟨hiff, hshown⟩ := ih hrest
    unfold Fits
    rcases turn_kinds hu with ⟨hout, reason, rfl⟩ | ⟨hin, artifact, content, hcontent, rfl⟩
    · rw [if_pos hout]
      refine ⟨hiff, fun hclean => ?_⟩
      obtain ⟨hkept, hall⟩ := hshown hclean
      refine ⟨hkept, fun other hother hserved => ?_⟩
      rcases List.mem_cons.mp hother with rfl | hother
      · exact absurd hout hserved
      · exact hall other hother hserved
    · rw [if_neg hin]
      constructor
      · rw [hiff, serve_clean]
        constructor
        · rintro ⟨⟨hclean, hwhole, hfits⟩, hmore⟩
          refine ⟨hclean, content, hcontent, hwhole, hfits, ?_⟩
          rw [← (serve_whole hwhole hfits).1]
          exact hmore
        · rintro ⟨hclean, found, hfound, hwhole, hfits, hmore⟩
          obtain rfl := Option.some.inj (hfound.symm.trans hcontent)
          refine ⟨⟨hclean, hwhole, hfits⟩, ?_⟩
          rw [(serve_whole hwhole hfits).1]
          exact hmore
      · intro hclean
        obtain ⟨hkept, hall⟩ := hshown hclean
        obtain ⟨-, hwhole, hfits⟩ := serve_clean.mp (hiff.mp hclean).1
        obtain ⟨-, part, hslices, hartifact, hbytes⟩ := serve_whole hwhole hfits
        rw [hslices] at hkept
        refine ⟨fun other hother => hkept other (List.mem_append_left _ hother),
          fun other hother hserved => ?_⟩
        rcases List.mem_cons.mp hother with rfl | hother
        · exact ⟨part, hkept part (by simp), hartifact, content, hcontent, hbytes⟩
        · exact hall other hother hserved

/-- Only what is not left out has a slice. -/
theorem run_parts
    (h : Machine.run (turn resolve) s selectors = some t) :
    ∀ part ∈ t.artifactSlices, part ∈ s.artifactSlices ∨
      ∃ selector ∈ selectors,
        ¬ LeftOut resolve selector ∧ part.artifactId = selector.artifactId := by
  induction selectors generalizing s with
  | nil =>
    cases h
    exact fun part hpart => .inl hpart
  | cons selector rest ih =>
    obtain ⟨u, hu, hrest⟩ := Machine.run_cons_some h
    intro part hpart
    rcases ih hrest part hpart with hpart | ⟨other, hother, hserved⟩
    · rcases turn_kinds hu with ⟨-, reason, rfl⟩ | ⟨hin, artifact, content, -, rfl⟩
      · exact .inl hpart
      · rw [serve_eq] at hpart
        by_cases hspent : stopOf s selector content ≤ selector.startByte ∨ s.remainingBytes = 0
        · rw [if_pos hspent] at hpart
          exact .inl hpart
        · rw [if_neg hspent] at hpart
          rcases List.mem_append.mp hpart with hpart | hpart
          · exact .inl hpart
          · refine .inr ⟨selector, List.mem_cons_self, hin, ?_⟩
            rw [List.mem_singleton.mp hpart]
    · exact .inr ⟨other, List.mem_cons_of_mem _ hother, hserved⟩

/-- What fits is read to its end. -/
theorem fits_read
    (h : Fits resolve s.remainingBytes selectors) :
    ∃ t, readSelectors resolve s selectors = .ok t := by
  induction selectors generalizing s with
  | nil => exact ⟨s, rfl⟩
  | cons selector rest ih =>
    unfold Fits at h
    by_cases hout : LeftOut resolve selector
    · rw [if_pos hout] at h
      cases hr : resolve selector.artifactId with
      | none =>
        obtain ⟨t, ht⟩ := ih (s := s.omit "ARTIFACT_NOT_IN_SNAPSHOT") h
        refine ⟨t, ?_⟩
        rw [readSelectors, readSelector, hr]
        exact ht
      | some artifact =>
        obtain ⟨t, ht⟩ := ih (s := s.omit ("ARTIFACT_" ++ artifact.disposition)) h
        refine ⟨t, ?_⟩
        rw [readSelectors, readSelector, hr]
        dsimp only
        rw [if_pos (hout artifact hr)]
        exact ht
    · rw [if_neg hout] at h
      obtain ⟨content, hcontent, hwhole, hfits, hrest⟩ := h
      obtain ⟨artifact, hr, hc⟩ := Option.bind_eq_some_iff.mp hcontent
      have hd : artifact.disposition ∉ ["BINARY", "SECRET_REDACTED", "READ_FAILED"] := by
        intro hd
        refine hout fun other ho => ?_
        rw [hr] at ho
        exact Option.some.inj ho ▸ hd
      obtain ⟨t, ht⟩ := ih (s := serve s selector artifact content)
        (by rw [(serve_whole hwhole hfits).1]; exact hrest)
      refine ⟨t, ?_⟩
      rw [readSelectors, readSelector, hr]
      dsimp only
      rw [if_neg hd, hc]
      exact ht

/-! ## The law -/

/-- The request is answered, something is shown, and all that is not left out is whole and fits. -/
structure AnsweredWhole (resolve : String → Option Artifact) (request : SourceSliceRequest)
    (authorization : Option Authorization) : Prop where
  allowed : refusal request authorization = none
  shown : ∃ selector ∈ request.selectors, ¬ LeftOut resolve selector
  fits : Fits resolve request.maxBytes request.selectors

theorem clean_start (maxBytes : Nat) : Clean (ReadState.start maxBytes) := ⟨rfl, rfl⟩

variable {request : SourceSliceRequest} {authorization : Option Authorization}

/-- A response is complete exactly when nothing of what it serves is cut or redacted. -/
theorem complete_read
    {slice : SourceSlice}
    (h : read resolve request authorization = .ok slice) (hcomplete : slice.status = .COMPLETE) :
    refusal request authorization = none ∧ ∃ t,
      Machine.run (turn resolve) (ReadState.start request.maxBytes) request.selectors = some t ∧
        Clean t ∧ slice.artifactSlices = t.artifactSlices ∧ t.artifactSlices ≠ [] := by
  unfold read at h
  cases hrefused : refusal request authorization with
  | some code =>
    rw [hrefused] at h
    rw [createSourceSlice_ok h] at hcomplete
    cases hcomplete
  | none =>
    rw [hrefused] at h
    obtain ⟨t, ht, h⟩ := bind_ok h
    refine ⟨rfl, t, run_turns ht, ?_⟩
    unfold sliceOf at h
    by_cases hnone : t.artifactSlices = []
    · rw [if_pos hnone] at h
      rw [createSourceSlice_ok h] at hcomplete
      cases hcomplete
    · rw [if_neg hnone] at h
      obtain rfl := createSourceSlice_ok h
      dsimp only at hcomplete
      split at hcomplete
      · cases hcomplete
      rename_i hredacted
      split at hcomplete
      · cases hcomplete
      rename_i htruncated
      refine ⟨⟨Bool.eq_false_iff.mpr htruncated, ?_⟩, rfl, hnone⟩
      exact List.eq_nil_of_length_eq_zero (by omega)

theorem answeredWhole_of_complete
    {slice : SourceSlice}
    (h : read resolve request authorization = .ok slice) (hcomplete : slice.status = .COMPLETE) :
    AnsweredWhole resolve request authorization := by
  obtain ⟨hallowed, t, ht, hclean, -, hsome⟩ := complete_read h hcomplete
  refine ⟨hallowed, ?_, ((run_clean ht).1.mp hclean).2⟩
  obtain ⟨part, hpart⟩ := List.exists_mem_of_ne_nil _ hsome
  rcases run_parts ht part hpart with hnone | ⟨selector, hselector, hin, -⟩
  · cases hnone
  · exact ⟨selector, hselector, hin⟩

theorem complete_of_answeredWhole
    (h : AnsweredWhole resolve request authorization) :
    ∃ slice, read resolve request authorization = .ok slice ∧ slice.status = .COMPLETE := by
  obtain ⟨t, ht⟩ := fits_read (s := ReadState.start request.maxBytes) h.fits
  have hrun := run_turns ht
  obtain ⟨hiff, hshown⟩ := run_clean hrun
  have hclean := hiff.mpr ⟨clean_start request.maxBytes, h.fits⟩
  obtain ⟨selector, hselector, hin⟩ := h.shown
  obtain ⟨part, hpart, -⟩ := (hshown hclean).2 selector hselector hin
  have hsome : t.artifactSlices ≠ [] := List.ne_nil_of_mem hpart
  have hbalanced : Balanced request.maxBytes t :=
    run_balanced (Nat.add_zero _ : Balanced _ (ReadState.start request.maxBytes)) hrun
  have hwithin : shownBytes t.artifactSlices ≤ request.maxBytes := by
    unfold Balanced at hbalanced
    omega
  unfold read
  rw [h.allowed]
  dsimp only
  rw [ht]
  have hslice : sliceOf request t = _ := (if_neg hsome).trans (createSourceSlice_within hwithin)
  refine ⟨_, hslice, ?_⟩
  dsimp only
  rw [if_neg (by rw [hclean.2]; exact Nat.lt_irrefl 0), if_neg (by rw [hclean.1]; decide)]

/-- COMPLETE means complete exactly when no selector is left out, or the response is not complete
for another reason: it is refused, nothing is shown, or something shown is cut or redacted. -/
theorem complete_means_complete_iff (resolve : String → Option Artifact)
    (request : SourceSliceRequest) (authorization : Option Authorization) :
    CompleteMeansComplete resolve request authorization ↔
      (∀ selector ∈ request.selectors, ¬ LeftOut resolve selector) ∨
        ¬ AnsweredWhole resolve request authorization := by
  constructor
  · intro hlaw
    by_cases hwhole : AnsweredWhole resolve request authorization
    · refine .inl fun selector hselector hout => ?_
      obtain ⟨slice, hslice, hcomplete⟩ := complete_of_answeredWhole hwhole
      obtain ⟨part, hpart, hartifact, -⟩ := hlaw slice hslice hcomplete selector hselector
      obtain ⟨-, t, ht, -, hsame, -⟩ := complete_read hslice hcomplete
      rw [hsame] at hpart
      rcases run_parts ht part hpart with hnone | ⟨other, -, hin, hother⟩
      · cases hnone
      · refine hin fun artifact ha => hout artifact ?_
        rw [← hartifact, hother]
        exact ha
    · exact .inr hwhole
  · intro hcondition slice hslice hcomplete selector hselector
    have hwhole := answeredWhole_of_complete hslice hcomplete
    have hin := (hcondition.resolve_right (not_not.mpr hwhole)) selector hselector
    obtain ⟨-, t, ht, hclean, hsame, -⟩ := complete_read hslice hcomplete
    obtain ⟨part, hpart, hshown⟩ := ((run_clean ht).2 hclean).2 selector hselector hin
    exact ⟨part, hsame ▸ hpart, hshown⟩

/-! ## A binary beside a text -/

def textAndBinary : String → Option Artifact := fun id =>
  if id = "TEXT" then
    some { disposition := "INCLUDED", content := some "ok", relativePath := "a.txt"
           contentDigest := "sha256:text" }
  else
    some { disposition := "BINARY", content := none, relativePath := "a.bin"
           contentDigest := "sha256:binary" }

def bothArtifacts : SourceSliceRequest where
  projectId := "P"
  snapshotManifestId := "S"
  analysisRunId := "R"
  selectors :=
    [{ artifactId := "TEXT", startByte := 0, endByte := none },
      { artifactId := "IMAGE", startByte := 0, endByte := none }]
  allowedFactIds := []
  maxBytes := 64

def bothAllowed : Option Authorization :=
  some
    { serviceIdentity := "worker"
      projectId := "P"
      analysisRunId := "R"
      workUnitArtifactIds := ["TEXT", "IMAGE"]
      workUnitFactIds := [] }

/-- The response is complete without the second artifact. -/
theorem binary_left_out_of_a_complete_slice :
    ¬ CompleteMeansComplete textAndBinary bothArtifacts bothAllowed := by
  intro hlaw
  have hsome : (read textAndBinary bothArtifacts bothAllowed).toOption.map
      (fun slice => (slice.status, slice.artifactSlices.map (·.artifactId))) =
        some (.COMPLETE, ["TEXT"]) := by
    decide +kernel
  cases hread : read textAndBinary bothArtifacts bothAllowed with
  | error e =>
    rw [hread] at hsome
    cases hsome
  | ok slice =>
    rw [hread] at hsome
    have hvalues := Option.some.inj hsome
    obtain ⟨part, hpart, hartifact, -⟩ := hlaw slice hread (congrArg Prod.fst hvalues)
      { artifactId := "IMAGE", startByte := 0, endByte := none } (by decide)
    have hids : slice.artifactSlices.map (·.artifactId) = ["TEXT"] := congrArg Prod.snd hvalues
    have hmem := List.mem_map_of_mem (f := (·.artifactId)) hpart
    rw [hids, List.mem_singleton, hartifact] at hmem
    exact absurd hmem (by decide)

end Traqen.SourceSliceBroker
