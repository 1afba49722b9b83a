-- The event list of one review case in the memory store (`appendDecision`,
-- `getDecisionReviewCase` and `appendDecisionReviewEvent` of
-- `storage/memory-traceability-store.js`). A call that carries a Decision waits for
-- `appendDecision` with the event array in hand, and writes that array back.
import Traqen.DecisionGovernance
import Traqen.Lib.Machine

open Js

namespace Traqen.DecisionReviewStore

/-! ## The store -/

/-- What the store keeps of a Claim version for the scope check of its Decisions. -/
structure Claim where
  id : String
  version : Number
  scopeId : String
  scopeVersion : Number

structure Store where
  claims : List Claim
  decisions : List Decision
  /-- Every event array that was made; a reference is a place in this list. -/
  arrays : List (List DecisionReviewEvent)
  /-- The array that the map of events holds for the case. -/
  stored : Option Nat
  /-- The ids of the Decisions that were materialized for the case. -/
  materializations : List String

def Store.array (s : Store) (ref : Nat) : List DecisionReviewEvent := s.arrays[ref]?.getD []

/-- The events of the case, as a read gives them. -/
def Store.events (s : Store) : List DecisionReviewEvent :=
  match s.stored with
  | some ref => s.array ref
  | none => []

/-- The materialized Decisions of the case, as a read gives them. -/
def Store.caseDecisions (s : Store) : List Decision :=
  s.materializations.filterMap fun id => s.decisions.find? fun d => d.id = id

def appendDecision (s : Store) (d : Decision) : Except Failure Store :=
  match s.claims.find? fun c => c.id = d.claimId ∧ c.version = d.claimVersion with
  | none =>
    conflictError ("Claim " ++ d.claimId ++ " version " ++ d.claimVersion.toText ++ " does not exist")
  | some c =>
    if c.scopeId ≠ d.scopeId ∨ c.scopeVersion ≠ d.scopeVersion then
      conflictError "Decision scope must match the claim version scope"
    else
      match s.decisions.find? fun x => x.id = d.id with
      | some existing =>
        if canonicalJson existing.recordIdentity ≠ canonicalJson d.recordIdentity then
          conflictError ("Decision " ++ d.id ++ " conflicts with an existing immutable record")
        else .ok s
      | none => .ok { s with decisions := s.decisions ++ [d] }

/-- The event and the Decision that a call was made with. -/
structure Write where
  event : DecisionReviewEvent
  decision : Option Decision

/-- A call of `appendDecisionReviewEvent`. -/
inductive Call where
  /-- It waits for `appendDecision`, and holds the array and whether it found its event there. -/
  | waiting (write : Write) (held : Nat) (found : Bool)
  | returned (event : DecisionReviewEvent)
  | rejected (error : Failure)

def noteDecision (materializations : List String) (decision : Option Decision) : List String :=
  match decision with
  | some d => if d.id ∈ materializations then materializations else materializations ++ [d.id]
  | none => materializations

/-- The part after the wait: note the Decision, push the event, and store the array. -/
def writeBack (s : Store) (w : Write) (held : Nat) (found : Bool) : Store :=
  { s with
    materializations := noteDecision s.materializations w.decision
    arrays := if found then s.arrays else s.arrays.set held (s.array held ++ [w.event])
    stored := some held }

/-- `this.#decisionReviewEvents.get(..) ?? []`: with no array stored, a new one is made. -/
def openEvents (s : Store) : Store × Nat :=
  match s.stored with
  | some ref => (s, ref)
  | none => ({ s with arrays := s.arrays ++ [[]] }, s.arrays.length)

/-- The part of a call before its wait. -/
def appendDecisionReviewEvent (s : Store) (w : Write) : Store × Call :=
  let (opened, held) := openEvents s
  let existing := (opened.array held).find? fun x => x.id = w.event.id
  if existing.any fun x => canonicalJson x.toJson ≠ canonicalJson w.event.toJson then
    (opened, .rejected ⟨.PersistenceConflictError,
      "DecisionReviewEvent " ++ w.event.id ++ " conflicts with an existing record"⟩)
  else
    match w.decision with
    | none => (writeBack opened w held existing.isSome, .returned w.event)
    | some d =>
      match appendDecision opened d with
      | .error e => (opened, .rejected e)
      | .ok after => (after, .waiting w held existing.isSome)

/-! ## Calls on one case -/

structure Calls where
  store : Store
  calls : List Call

inductive Turn where
  | call (write : Write)
  | resume (call : Nat)

def step (s : Calls) : Turn → Option Calls
  | .call w =>
    let (store, call) := appendDecisionReviewEvent s.store w
    some { store, calls := s.calls ++ [call] }
  | .resume i =>
    match s.calls[i]? with
    | some (.waiting w held found) =>
      some { store := writeBack s.store w held found, calls := s.calls.set i (.returned w.event) }
    | _ => none

/-- A case with no event yet. -/
def start (claims : List Claim) (decisions : List Decision) : Calls :=
  { store := { claims, decisions, arrays := [], stored := none, materializations := [] },
    calls := [] }

/-! ## One call -/

/-- An event of the list that stands for `e`: the same id and the same text. -/
def Present (e : DecisionReviewEvent) (events : List DecisionReviewEvent) : Prop :=
  ∃ x ∈ events, x.id = e.id ∧ canonicalJson x.toJson = canonicalJson e.toJson

/-- Until an array is stored, every array that was made is empty. -/
structure Store.Good (s : Store) : Prop where
  stored_lt : ∀ ref, s.stored = some ref → ref < s.arrays.length
  unstored : s.stored = none → ∀ a ∈ s.arrays, a = []
  nodup : (s.events.map (·.id)).Nodup

/-- The held array is still the array of the case, and nobody else has put the event there. -/
def InPlace (s : Store) (w : Write) (held : Nat) (found : Bool) : Prop :=
  (s.stored = none ∨ s.stored = some held) ∧
    (found = true ∨ ∀ x ∈ s.array held, x.id ≠ w.event.id)

instance (s : Store) (w : Write) (held : Nat) (found : Bool) :
    Decidable (InPlace s w held found) := inferInstanceAs (Decidable (_ ∧ _))

/-- The events that were there stay where they were. -/
structure Grows (s t : Store) : Prop where
  arrays : ∀ ref < s.arrays.length, ref < t.arrays.length ∧ ∀ x ∈ s.array ref, x ∈ t.array ref
  events : ∀ x ∈ s.events, x ∈ t.events

variable {s t : Store}

theorem Grows.trans {u : Store} (h : Grows s t) (h' : Grows t u) : Grows s u := by
  refine ⟨fun r hr => ?_, fun x hx => h'.events x (h.events x hx)⟩
  obtain ⟨hr1, hsub1⟩ := h.arrays r hr
  obtain ⟨hr2, hsub2⟩ := h'.arrays r hr1
  exact ⟨hr2, fun x hx => hsub2 x (hsub1 x hx)⟩

theorem array_mem {ref : Nat} (h : ref < s.arrays.length) : s.array ref ∈ s.arrays := by
  simp [Store.array, h]

variable {held : Nat}

theorem events_of_held (hg : s.Good) (hlt : held < s.arrays.length)
    (h : s.stored = none ∨ s.stored = some held) : s.events = s.array held := by
  rcases h with h | h
  · simp only [Store.events, h]
    exact (hg.unstored h _ (array_mem hlt)).symm
  · simp only [Store.events, h]

/-- A new array, or the stored one: either way it holds the events of the case. -/
theorem openEvents_spec (hg : s.Good) : (openEvents s).1.Good ∧ Grows s (openEvents s).1 ∧
      (openEvents s).2 < (openEvents s).1.arrays.length ∧
      ((openEvents s).1.stored = none ∨ (openEvents s).1.stored = some (openEvents s).2) ∧
      (openEvents s).1.events = s.events := by
  unfold openEvents
  split
  · rename_i ref hs
    exact ⟨hg, ⟨fun r hr => ⟨hr, fun x hx => hx⟩, fun x hx => hx⟩, hg.stored_lt ref hs, Or.inr hs, rfl⟩
  · rename_i hs
    have hevents : ∀ arrays, Store.events { s with arrays } = [] := fun arrays => by
      simp only [Store.events, hs]
    refine ⟨⟨by simp [hs], ?_, by simp [hevents]⟩, ⟨?_, ?_⟩, by simp, Or.inl hs, ?_⟩
    · intro _ a ha
      rcases List.mem_append.mp ha with h1 | h1
      · exact hg.unstored hs a h1
      · exact List.mem_singleton.mp h1
    · intro r hr
      refine ⟨by simp; omega, fun x hx => ?_⟩
      simpa [Store.array, List.getElem?_append_left hr] using hx
    · simp [Store.events, hs]
    · simp [Store.events, hs]

theorem openEvents_frame (s : Store) : (openEvents s).1.decisions = s.decisions ∧
    (openEvents s).1.materializations = s.materializations := by
  unfold openEvents
  split <;> exact ⟨rfl, rfl⟩

theorem writeBack_events {w : Write} {found : Bool} (hg : s.Good)
    (hlt : held < s.arrays.length) (hin : InPlace s w held found) :
    (writeBack s w held found).events = if found then s.events else s.events ++ [w.event] := by
  rw [events_of_held hg hlt hin.1]
  cases found <;> simp [writeBack, Store.events, Store.array, hlt]

theorem writeBack_grows {w : Write} {found : Bool} (hg : s.Good)
    (hlt : held < s.arrays.length) (hin : InPlace s w held found) :
    Grows s (writeBack s w held found) := by
  constructor
  · intro r hr
    cases found with
    | true => exact ⟨hr, fun x hx => hx⟩
    | false =>
      refine ⟨by simp [writeBack, hr], fun x hx => ?_⟩
      by_cases heq : held = r
      · subst heq
        simp [writeBack, Store.array, hr] at hx ⊢
        exact Or.inl hx
      · simpa [writeBack, Store.array, heq] using hx
  · intro x hx
    rw [writeBack_events hg hlt hin]
    cases found <;> simp [hx]

theorem writeBack_good {w : Write} {found : Bool} (hg : s.Good)
    (hlt : held < s.arrays.length) (hin : InPlace s w held found) :
    (writeBack s w held found).Good := by
  refine ⟨?_, by simp [writeBack], ?_⟩
  · intro r hr
    cases found <;> simp only [writeBack, Option.some.injEq] at hr ⊢ <;> subst hr
    · simpa using hlt
    · simpa using hlt
  · rw [writeBack_events hg hlt hin]
    cases found with
    | true => exact hg.nodup
    | false =>
      have hnew := hin.2.resolve_left (by simp)
      rw [← events_of_held hg hlt hin.1] at hnew
      simp only [Bool.false_eq_true, if_false, List.map_append, List.map_cons, List.map_nil]
      refine List.nodup_append.mpr ⟨hg.nodup, by simp, ?_⟩
      intro a ha b hb hab
      obtain ⟨x, hx, rfl⟩ := List.mem_map.mp ha
      exact hnew x hx (hab.trans (List.mem_singleton.mp hb))

/-- The Decision is stored, under an old record of its id or as a new one. -/
theorem appendDecision_spec {d : Decision} (h : appendDecision s d = .ok t) :
    ∃ decisions, t = { s with decisions } ∧ (∀ x ∈ s.decisions, x ∈ decisions) ∧
      (∃ x ∈ decisions, x.id = d.id) ∧ ∀ x ∈ decisions, x ∈ s.decisions ∨ x = d := by
  unfold appendDecision at h
  split at h
  · cases h
  · split at h
    · cases h
    · split at h
      · rename_i existing hfind
        split at h
        · cases h
        · cases h
          exact ⟨_, rfl, fun x hx => hx, ⟨existing, List.mem_of_find?_eq_some hfind,
            by simpa using List.find?_some hfind⟩, fun x hx => Or.inl hx⟩
      · cases h
        exact ⟨_, rfl, fun x hx => List.mem_append_left _ hx, ⟨d, by simp, rfl⟩, by simp⟩

theorem present_grows {e : DecisionReviewEvent} {l l' : List DecisionReviewEvent}
    (h : Present e l) (hsub : ∀ x ∈ l, x ∈ l') : Present e l' := by
  obtain ⟨x, hx, hid, htext⟩ := h
  exact ⟨x, hsub x hx, hid, htext⟩

/-- What a call knows of the store while it waits, and what its return promises. -/
def Call.Fits (s : Store) : Call → Prop
  | .waiting w held found =>
    held < s.arrays.length ∧ (found = true → Present w.event (s.array held))
  | .returned e => Present e s.events
  | .rejected _ => True

theorem fits_grows {c : Call} (h : c.Fits s) (hgrow : Grows s t) : c.Fits t := by
  cases c with
  | waiting w held found =>
    obtain ⟨hlt, hfound⟩ := h
    obtain ⟨hlt', hsub⟩ := hgrow.arrays held hlt
    exact ⟨hlt', fun hf => present_grows (hfound hf) hsub⟩
  | returned e => exact present_grows h hgrow.events
  | rejected e => trivial

/-- After the write the event of the call is present. -/
theorem writeBack_present {w : Write} {found : Bool} (hg : s.Good)
    (hlt : held < s.arrays.length) (hin : InPlace s w held found)
    (hfound : found = true → Present w.event (s.array held)) :
    Present w.event (writeBack s w held found).events := by
  rw [writeBack_events hg hlt hin]
  cases found with
  | true =>
    rw [events_of_held hg hlt hin.1]
    exact hfound rfl
  | false => exact ⟨w.event, by simp, rfl, rfl⟩

/-- The ends of the first part of a call: rejected, returned without a wait, or waiting. -/
theorem append_cases (hg : s.Good) (w : Write) :
    (∃ e, appendDecisionReviewEvent s w = ((openEvents s).1, .rejected e)) ∨
    ∃ found, (found = true → Present w.event ((openEvents s).1.array (openEvents s).2)) ∧
      InPlace (openEvents s).1 w (openEvents s).2 found ∧
      (w.decision = none ∧ appendDecisionReviewEvent s w =
          (writeBack (openEvents s).1 w (openEvents s).2 found, .returned w.event) ∨
        ∃ d after, w.decision = some d ∧ appendDecision (openEvents s).1 d = .ok after ∧
          appendDecisionReviewEvent s w = (after, .waiting w (openEvents s).2 found)) := by
  obtain ⟨_, _, _, hstored, _⟩ := openEvents_spec hg
  unfold appendDecisionReviewEvent
  dsimp only
  generalize (openEvents s).1 = opened at *
  generalize (openEvents s).2 = held at *
  rcases hfind : (opened.array held).find? (fun x => x.id = w.event.id) with _ | x
  · have hin : InPlace opened w held false :=
      ⟨hstored, Or.inr (by simpa using List.find?_eq_none.mp hfind)⟩
    simp only [hfind, Option.any_none, Bool.false_eq_true, if_false, Option.isSome_none]
    rcases hd : w.decision with _ | d
    · exact Or.inr ⟨false, by simp, hin, Or.inl ⟨rfl, rfl⟩⟩
    · dsimp only
      rcases ha : appendDecision opened d with e | after
      · exact Or.inl ⟨e, rfl⟩
      · exact Or.inr ⟨false, by simp, hin, Or.inr ⟨d, after, rfl, ha, rfl⟩⟩
  · have hx := List.mem_of_find?_eq_some hfind
    have hid : x.id = w.event.id := by simpa using List.find?_some hfind
    have hin : InPlace opened w held true := ⟨hstored, Or.inl rfl⟩
    simp only [hfind, Option.any_some, Option.isSome_some, decide_eq_true_eq]
    split
    · exact Or.inl ⟨_, rfl⟩
    · rename_i htext
      have hpresent : Present w.event (opened.array held) := ⟨x, hx, hid, not_not.mp htext⟩
      rcases hd : w.decision with _ | d
      · exact Or.inr ⟨true, fun _ => hpresent, hin, Or.inl ⟨rfl, rfl⟩⟩
      · dsimp only
        rcases ha : appendDecision opened d with e | after
        · exact Or.inl ⟨e, rfl⟩
        · exact Or.inr ⟨true, fun _ => hpresent, hin, Or.inr ⟨d, after, rfl, ha, rfl⟩⟩

/-- The first part of a call keeps every event, and leaves the call as it promises. -/
theorem append_spec (hg : s.Good) (w : Write) :
    (appendDecisionReviewEvent s w).1.Good ∧ Grows s (appendDecisionReviewEvent s w).1 ∧
      (appendDecisionReviewEvent s w).2.Fits (appendDecisionReviewEvent s w).1 := by
  obtain ⟨hgood, hgrow, hlt, _, _⟩ := openEvents_spec hg
  rcases append_cases hg w with ⟨e, h⟩ | ⟨found, hfound, hin, ⟨_, h⟩ | ⟨d, after, _, ha, h⟩⟩
  · rw [h]
    exact ⟨hgood, hgrow, trivial⟩
  · rw [h]
    exact ⟨writeBack_good hgood hlt hin, hgrow.trans (writeBack_grows hgood hlt hin),
      writeBack_present hgood hlt hin hfound⟩
  · rw [h]
    obtain ⟨decisions, rfl, _⟩ := appendDecision_spec ha
    exact ⟨⟨hgood.stored_lt, hgood.unstored, hgood.nodup⟩, ⟨hgrow.arrays, hgrow.events⟩,
      hlt, hfound⟩

/-! ## Every interleaving of calls -/

structure Good (s : Calls) : Prop where
  store : s.store.Good
  fits : ∀ c ∈ s.calls, c.Fits s.store

/-- A call that resumes writes in place. -/
def resumesInPlace (s : Calls) : Turn → Bool
  | .resume i =>
    match s.calls[i]? with
    | some (.waiting w held found) => decide (InPlace s.store w held found)
    | _ => true
  | .call _ => true

theorem step_good (s : Calls) (a : Turn) (t : Calls) (hg : Good s)
    (hc : resumesInPlace s a = true) (h : step s a = some t) : Good t := by
  cases a with
  | call w =>
    cases h
    obtain ⟨hgood, hgrow, hfits⟩ := append_spec hg.store w
    refine ⟨hgood, fun c hc => ?_⟩
    rcases List.mem_append.mp hc with h1 | h1
    · exact fits_grows (hg.fits c h1) hgrow
    · exact List.mem_singleton.mp h1 ▸ hfits
  | resume i =>
    simp only [step] at h
    split at h
    · rename_i w held found hi
      cases h
      simp only [resumesInPlace, hi, decide_eq_true_eq] at hc
      obtain ⟨hlt, hfound⟩ := hg.fits _ (List.mem_of_getElem? hi)
      refine ⟨writeBack_good hg.store hlt hc, fun c hcall => ?_⟩
      rcases List.mem_or_eq_of_mem_set hcall with h1 | h1
      · exact fits_grows (hg.fits c h1) (writeBack_grows hg.store hlt hc)
      · subst h1
        exact writeBack_present hg.store hlt hc hfound
    · cases h

theorem good_start (claims : List Claim) (decisions : List Decision) :
    Good (start claims decisions) :=
  ⟨⟨by simp [start], by simp [start], by simp [start, Store.events]⟩, by simp [start]⟩

/-- The list has one event of the id, and it has the text of `e`. -/
def PresentOnce (e : DecisionReviewEvent) (events : List DecisionReviewEvent) : Prop :=
  ∃ x, events.filter (fun y => y.id = e.id) = [x] ∧ canonicalJson x.toJson = canonicalJson e.toJson

theorem presentOnce_of_present {e : DecisionReviewEvent} {events : List DecisionReviewEvent}
    (hnodup : (events.map (·.id)).Nodup) (h : Present e events) : PresentOnce e events := by
  obtain ⟨x, hx, hid, htext⟩ := h
  refine ⟨x, ?_, htext⟩
  induction events with
  | nil => simp at hx
  | cons y ys ih =>
    simp only [List.map_cons, List.nodup_cons] at hnodup
    obtain ⟨hy, hys⟩ := hnodup
    rcases List.mem_cons.mp hx with rfl | hx
    · have hnone : ∀ z ∈ ys, z.id ≠ e.id := fun z hz heq =>
        hy (List.mem_map.mpr ⟨z, hz, heq.trans hid.symm⟩)
      simpa [hid] using hnone
    · have hne : y.id ≠ e.id := fun heq => hy (List.mem_map.mpr ⟨x, hx, hid.trans heq.symm⟩)
      simp [hne, ih hys hx]

/-- For every interleaving of calls: when each call that waited for its Decision resumes in
place, every event whose call returned stands in the list of the case exactly once. -/
theorem every_returned_event_is_stored_once (claims : List Claim) (decisions : List Decision)
    (schedule : List Turn) (s : Calls)
    (h : Machine.run step (start claims decisions) schedule = some s)
    (hc : Machine.Along step (fun s a => resumesInPlace s a = true)
      (start claims decisions) schedule) :
    ∀ e, .returned e ∈ s.calls → PresentOnce e s.store.events := by
  have hg := Machine.run_keeps_along step_good h hc (good_start claims decisions)
  exact fun e he => presentOnce_of_present hg.store.nodup (hg.fits _ he)

/-! ## Calls in a row, and calls that cross -/

def one : Number := { mantissa := 1, exponent := 0, normal := Number.normal_one }

def claim : Claim := { id := "CL", version := one, scopeId := "SC", scopeVersion := one }

def approveEvent (id actorId : String) : DecisionReviewEvent :=
  { id, caseId := "CASE", action := enumJson DecisionReviewAction.APPROVE, actorId,
    actorRole := "OWNER", rationale := "checked", createdAt := "2026-01-01T00:00:00.000Z" }

def confirmation (id actorId : String) : Decision :=
  { id, claimId := "CL", claimVersion := one, scopeId := "SC", scopeVersion := one,
    type := enumJson DecisionType.CONFIRMED, content := none, actorId, actorRole := "OWNER",
    evidenceRefs := [], validUntil := none, createdAt := "2026-01-01T00:00:00.000Z" }

def aliceApproves : Write := { event := approveEvent "E1" "alice", decision := none }

def bobApproves : Write :=
  { event := approveEvent "E2" "bob", decision := some (confirmation "D1" "bob") }

def carolApproves : Write :=
  { event := approveEvent "E3" "carol", decision := some (confirmation "D2" "carol") }

def inARow : List Turn :=
  [.call aliceApproves, .call bobApproves, .resume 1, .call carolApproves, .resume 2]

theorem calls_in_a_row_are_stored :
    ∃ s, Machine.run step (start [claim] []) inARow = some s ∧
      s.store.events.map (·.id) = ["E1", "E2", "E3"] ∧
      ∀ e, .returned e ∈ s.calls → PresentOnce e s.store.events := by
  have hrun : (Machine.run step (start [claim] []) inARow).map
      (fun s => s.store.events.map (·.id)) = some ["E1", "E2", "E3"] := by decide
  obtain ⟨s, hs, he⟩ := Option.map_eq_some_iff.mp hrun
  exact ⟨s, hs, he, every_returned_event_is_stored_once [claim] [] inARow s hs (by decide)⟩

def crossing : List Turn := [.call bobApproves, .call carolApproves, .resume 0, .resume 1]

/-- Both calls make an array of their own, and the later one to resume stores its own. -/
theorem crossing_calls_lose_an_event :
    ¬ ∀ (claims : List Claim) (decisions : List Decision) (schedule : List Turn) (s : Calls),
      Machine.run step (start claims decisions) schedule = some s →
        ∀ e, .returned e ∈ s.calls → PresentOnce e s.store.events := by
  intro h
  have hrun : (Machine.run step (start [claim] []) crossing).map
      (fun s => (s.store.events, s.calls[0]?)) =
      some ([carolApproves.event], some (.returned bobApproves.event)) := by rfl
  obtain ⟨s, hs, he⟩ := Option.map_eq_some_iff.mp hrun
  simp only [Prod.mk.injEq] at he
  obtain ⟨x, hx, _⟩ := h _ _ _ s hs bobApproves.event (List.mem_of_getElem? he.2)
  rw [he.1] at hx
  have hnone : [carolApproves.event].filter (fun y => y.id = bobApproves.event.id) = [] := by decide
  rw [hnone] at hx
  cases hx

end Traqen.DecisionReviewStore
