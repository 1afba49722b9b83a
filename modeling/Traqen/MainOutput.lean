-- What Main may decide on the candidates of a batch (`application/legacy-understanding-runtime.js`):
-- the checks of its output, and the components of the candidates that it merges.
import Mathlib.Data.List.Perm.Subperm
import Traqen.CanonicalJson
import Traqen.ExecutionEvidence
import Traqen.Lib.CodeUnits
import Traqen.Lib.Components
import Traqen.RunnerErrors

open Js

namespace Traqen.MainOutput

open ExecutionEvidence RunnerErrors
open OrderedMap (get? ofList get?_of_set get?_mem get?_eq_none)

/-! ## Decisions -/

inductive Disposition where
  | ACCEPT
  | ALTERNATIVE
  | CONFLICT
  | MERGE
  | REJECT
deriving DecidableEq, Repr

instance : EnumValues Disposition where
  names := ["ACCEPT", "ALTERNATIVE", "CONFLICT", "MERGE", "REJECT"]
  name
    | .ACCEPT => "ACCEPT"
    | .ALTERNATIVE => "ALTERNATIVE"
    | .CONFLICT => "CONFLICT"
    | .MERGE => "MERGE"
    | .REJECT => "REJECT"

/-- A decision on one candidate, with the fields that are read of it. -/
structure Decision where
  candidateRef : String
  disposition : Disposition
  relatedCandidateRefs : Option (List String)
  rationale : String
  mergedProposal : Option Json
  selected : Option Json

/-- `decision.relatedCandidateRefs ?? []`. -/
def Decision.relatedRefs (d : Decision) : List String := d.relatedCandidateRefs.getD []

def Decision.isMerge (d : Decision) : Bool := d.disposition = .MERGE

/-- `decisionsByRef.get(ref)`, of decisions on distinct candidates. -/
def decisionOf (decisions : List Decision) (ref : String) : Option Decision :=
  decisions.find? fun d => d.candidateRef = ref

def readDisposition (value : Option Json) : Except Failure Disposition :=
  match [Disposition.ACCEPT, .ALTERNATIVE, .CONFLICT, .MERGE, .REJECT].find? fun d =>
      isMember value d with
  | some disposition => .ok disposition
  | none => typeError "Main producer Candidate disposition is invalid"

def siblingError {α : Type} : Except Failure α :=
  typeError "Main producer relatedCandidateRefs must stay inside the sibling Candidate set"

def readSibling (refs : List String) (candidateRef : String) (ref : Json) : Except Failure String :=
  match ref with
  | .str ref => if ref ∈ refs ∧ ref ≠ candidateRef then .ok ref else siblingError
  | _ => siblingError

def readRelated (refs : List String) (candidateRef : String) (value : Option Json) :
    Except Failure (Option (List String)) :=
  match value with
  | none => .ok none
  | some (.arr items) => do
    let related ← items.mapM (readSibling refs candidateRef)
    return some related
  | _ => siblingError

/-- The name of a candidate that there is. -/
def readRef (refs : List String) (value : Option Json) : Except Failure String :=
  match value with
  | some (.str ref) =>
    if ref ∈ refs then .ok ref
    else typeError ("Main producer referenced unknown Child Candidate " ++ ref)
  | value => typeError ("Main producer referenced unknown Child Candidate " ++ templateText value)

def readRationale (value : Option Json) : Except Failure String :=
  match value with
  | some (.str text) =>
    if isBlank text then typeError "Main producer Candidate rationale is required" else .ok text
  | _ => typeError "Main producer Candidate rationale is required"

/-- One decision, after those on some candidates. -/
def readDecision (refs decided : List String) (decision : Json) : Except Failure Decision := do
  if decision = .null then typeError "Cannot read properties of null (reading 'candidateRef')"
  else
    let candidateRef ← readRef refs (field (some decision) "candidateRef")
    if candidateRef ∈ decided then
      typeError "Main producer decided one Child Candidate more than once"
    else
      let disposition ← readDisposition (field (some decision) "disposition")
      let relatedCandidateRefs ←
        readRelated refs candidateRef (field (some decision) "relatedCandidateRefs")
      let rationale ← readRationale (field (some decision) "rationale")
      return { candidateRef, disposition, relatedCandidateRefs, rationale
               mergedProposal := field (some decision) "mergedProposal"
               selected := field (some decision) "selected" }

def readDecisions (refs : List String) : List String → List Json → Except Failure (List Decision)
  | _, [] => .ok []
  | decided, item :: items => do
    let decision ← readDecision refs decided item
    let rest ← readDecisions refs (decided ++ [decision.candidateRef]) items
    return decision :: rest

/-! ## Merged proposals -/

def mergedProposalFields : List String := ["name", "statement", "subjectKey", "confidence"]

/-- `typeof value === "string" && value.trim() !== ""`. -/
def isFilledText (value : Option Json) : Bool :=
  match value with
  | some (.str text) => !isBlank text
  | _ => false

def confidenceLevels : List String := ["LOW", "MEDIUM", "HIGH"]

def isConfidence (value : Option Json) : Bool :=
  confidenceLevels.any fun level => strictEq value (some (.str level))

def validateMergedProposal (proposal : Option Json) : Except Failure Unit :=
  match proposal with
  | some (.obj fields) =>
    match fields.find? fun e => e.1 ∉ mergedProposalFields with
    | some (unsupported, _) =>
      typeError ("mergedProposal contains unsupported field " ++ unsupported)
    | none =>
      if !isFilledText (fields.lookup "name") then
        typeError "mergedProposal.name must be a non-empty string"
      else if !isFilledText (fields.lookup "statement") then
        typeError "mergedProposal.statement must be a non-empty string"
      else if (fields.lookup "subjectKey").isSome && !isFilledText (fields.lookup "subjectKey") then
        typeError "mergedProposal.subjectKey must be a non-empty string"
      else if (fields.lookup "confidence").isSome && !isConfidence (fields.lookup "confidence") then
        typeError "mergedProposal.confidence must be LOW, MEDIUM, or HIGH"
      else .ok ()
  | _ => typeError "MERGE decisions require one mergedProposal object"

def checkMerge (decisions : List Decision) (d : Decision) : Except Failure Unit :=
  if !d.isMerge then
    if d.mergedProposal.isSome then typeError "mergedProposal is only valid for MERGE decisions"
    else .ok ()
  else if d.relatedRefs = [] then typeError "MERGE decisions require relatedCandidateRefs"
  else do
    validateMergedProposal d.mergedProposal
    if d.relatedRefs.any fun ref => !(decisionOf decisions ref).any Decision.isMerge then
      typeError "MERGE relatedCandidateRefs must also have MERGE decisions"
    else return ()

/-! ## Merged components -/

/-- `adjacency.get(a)?.add(b)`. -/
def connect (adjacency : List (String × List String)) (a b : String) :
    List (String × List String) :=
  match get? adjacency a with
  | some neighbours =>
    OrderedMap.set adjacency a (if b ∈ neighbours then neighbours else neighbours ++ [b])
  | none => adjacency

/-- The references of the merged candidates, in their order. -/
def linksOf (decisions : List Decision) : List (String × String) :=
  (decisions.filter Decision.isMerge).flatMap fun d => d.relatedRefs.map fun ref =>
    (d.candidateRef, ref)

def adjacencyOf (decisions : List Decision) : List (String × List String) :=
  (linksOf decisions).foldl (fun adjacency link =>
      connect (connect adjacency link.1 link.2) link.2 link.1)
    (ofList ((decisions.filter Decision.isMerge).map fun d => (d.candidateRef, [])))

/-- `adjacency.get(ref) ?? []`. -/
def neighboursIn (adjacency : List (String × List String)) (ref : String) : List String :=
  (get? adjacency ref).getD []

def componentIn (adjacency : List (String × List String)) (ref : String) : List String :=
  sortTexts (Components.componentOf (neighboursIn adjacency)
    (adjacency.flatMap fun e => e.1 :: e.2) ref)

/-- The component of a candidate is that of the first of its members. -/
def addComponent (adjacency : List (String × List String))
    (componentByRef : List (String × List String)) (ref : String) : List (String × List String) :=
  if (get? componentByRef ref).isSome then componentByRef
  else
    let component := componentIn adjacency ref
    component.foldl (fun m member => OrderedMap.set m member component) componentByRef

def mergeComponentsByRef (decisions : List Decision) : List (String × List String) :=
  let adjacency := adjacencyOf decisions
  (adjacency.map (·.1)).foldl (addComponent adjacency) []

/-- `mergeComponents.get(ref)`. -/
def mergeComponent (decisions : List Decision) (ref : String) : List String :=
  (get? (mergeComponentsByRef decisions) ref).getD []

/-! ## The checks in their order -/

/-- The decisions of a component agree on what they merge into, unless it was validated before. -/
def checkComponent (decisions : List Decision) (validated : List String) (d : Decision) :
    Except Failure (List String) :=
  let refs := mergeComponent decisions d.candidateRef
  let key := "\u0000".intercalate refs
  if key ∈ validated then .ok validated
  else if ((refs.map fun ref => ((decisionOf decisions ref).bind Decision.mergedProposal).map
      canonicalJson).eraseDups).length ≠ 1 then
    typeError "all decisions in a MERGE component must declare the same mergedProposal"
  else .ok (validated ++ [key])

def checkGap (gap : Json) : Except Failure Unit :=
  if isFilledText (field (some gap) "code") && isFilledText (field (some gap) "message") then .ok ()
  else typeError "Main producer gaps require code and message"

def arraysError {α : Type} : Except Failure α :=
  typeError "Main producer output must contain candidateDecisions, relations, and gaps arrays"

/-- The decisions of an output that is accepted for the candidates of these names. -/
def validateMainProducerOutput (output : Option Json) (refs : List String) :
    Except Failure (List Decision) :=
  match output with
  | some (.obj fields) =>
    match fields.lookup "candidateDecisions", nullish (fields.lookup "relations") (.arr []),
      nullish (fields.lookup "gaps") (.arr []) with
    | some (.arr items), .arr _, .arr gaps => do
      let decisions ← readDecisions refs [] items
      if decisions.length ≠ refs.eraseDups.length then
        typeError "Main producer must decide every schema-valid Child Candidate exactly once"
      else
        let _ ← decisions.mapM (checkMerge decisions)
        let _ ← (decisions.filter Decision.isMerge).foldlM (checkComponent decisions) []
        let _ ← gaps.mapM checkGap
        return decisions
    | _, _, _ => arraysError
  | _ => typeError "Main producer output must be an object"

/-! ## What an accepted output is -/

/-- Every candidate is decided exactly once, and merged candidates refer to merged ones. -/
structure Valid (refs : List String) (decisions : List Decision) : Prop where
  known : ∀ d ∈ decisions, d.candidateRef ∈ refs
  distinct : (decisions.map Decision.candidateRef).Nodup
  complete : ∀ ref ∈ refs, ∃ d ∈ decisions, d.candidateRef = ref
  merged : ∀ d ∈ decisions, d.isMerge = true → ∀ ref ∈ d.relatedRefs,
    ∃ e ∈ decisions, e.candidateRef = ref ∧ e.isMerge = true

variable {refs : List String} {a b other ref : String}

theorem readRef_ok {value : Option Json} (h : readRef refs value = .ok ref) : ref ∈ refs := by
  unfold readRef at h
  split at h
  · split at h
    · rename_i hmem
      cases h
      exact hmem
    · cases h
  · cases h

theorem readDecision_ok {decided : List String} {item : Json} {d : Decision}
    (h : readDecision refs decided item = .ok d) :
    d.candidateRef ∈ refs ∧ d.candidateRef ∉ decided := by
  unfold readDecision at h
  split at h
  · cases h
  · obtain ⟨ref, href, h⟩ := bind_ok h
    split at h
    · cases h
    · rename_i hnew
      obtain ⟨disposition, _, h⟩ := bind_ok h
      obtain ⟨related, _, h⟩ := bind_ok h
      obtain ⟨rationale, _, h⟩ := bind_ok h
      cases h
      exact ⟨readRef_ok href, hnew⟩

variable {decisions : List Decision}

theorem readDecisions_ok (items : List Json) {decided : List String}
    (h : readDecisions refs decided items = .ok decisions) :
    (∀ d ∈ decisions, d.candidateRef ∈ refs ∧ d.candidateRef ∉ decided) ∧
      (decisions.map Decision.candidateRef).Nodup := by
  induction items generalizing decided decisions with
  | nil =>
    cases h
    exact ⟨fun d hd => absurd hd List.not_mem_nil, List.nodup_nil⟩
  | cons item items ih =>
    obtain ⟨first, hfirst, h⟩ := bind_ok h
    obtain ⟨rest, hrest, h⟩ := bind_ok h
    cases h
    obtain ⟨hknown, hnew⟩ := readDecision_ok hfirst
    obtain ⟨hall, hnodup⟩ := ih hrest
    refine ⟨?_, ?_⟩
    · intro d hd
      rcases List.mem_cons.mp hd with rfl | hd
      · exact ⟨hknown, hnew⟩
      · obtain ⟨hmem, hfree⟩ := hall d hd
        exact ⟨hmem, fun hdecided => hfree (List.mem_append_left _ hdecided)⟩
    · rw [List.map_cons, List.nodup_cons]
      refine ⟨fun hmem => ?_, hnodup⟩
      obtain ⟨d, hd, heq⟩ := List.mem_map.mp hmem
      exact (hall d hd).2 (List.mem_append_right _ (heq ▸ List.mem_singleton_self _))

/-- Each item of a list that passes a check passes it. -/
theorem mapM_checked {α : Type} {check : α → Except Failure Unit} {items : List α}
    {results : List Unit} (h : items.mapM check = .ok results) {x : α} (hx : x ∈ items) :
    check x = .ok () := by
  obtain ⟨u, _, hu⟩ := exists_of_mem (mapM_ok h) hx
  exact hu

theorem checkMerge_ok {d : Decision}
    (h : checkMerge decisions d = .ok ()) (hmerge : d.isMerge = true) :
    ∀ ref ∈ d.relatedRefs, ∃ e ∈ decisions, e.candidateRef = ref ∧ e.isMerge = true := by
  unfold checkMerge at h
  rw [hmerge] at h
  rw [if_neg (by decide)] at h
  split at h
  · cases h
  · obtain ⟨_, _, h⟩ := bind_ok h
    split at h
    · cases h
    · rename_i hall
      intro ref href
      have hany : (decisionOf decisions ref).any Decision.isMerge = true := by
        by_contra hnot
        exact hall (List.any_eq_true.mpr ⟨ref, href, by simpa using hnot⟩)
      obtain ⟨e, he, hmerged⟩ := (Option.any_eq_true _ _).mp hany
      unfold decisionOf at he
      exact ⟨e, List.mem_of_find?_eq_some he, by simpa using List.find?_some he, hmerged⟩

theorem validate_valid {output : Option Json}
    (hrefs : refs.Nodup) (h : validateMainProducerOutput output refs = .ok decisions) :
    Valid refs decisions := by
  unfold validateMainProducerOutput at h
  split at h
  · split at h
    · obtain ⟨found, hread, h⟩ := bind_ok h
      split at h
      · cases h
      · rename_i hlength
        obtain ⟨_, hmerges, h⟩ := bind_ok h
        obtain ⟨_, _, h⟩ := bind_ok h
        obtain ⟨_, _, h⟩ := bind_ok h
        cases h
        obtain ⟨hall, hnodup⟩ := readDecisions_ok _ hread
        have hsubset : decisions.map Decision.candidateRef ⊆ refs := by
          intro ref href
          obtain ⟨d, hd, rfl⟩ := List.mem_map.mp href
          exact (hall d hd).1
        have hsize : (decisions.map Decision.candidateRef).length = refs.length := by
          rw [List.length_map, not_not.mp hlength]
          exact (OrderedMap.nodup_iff_size refs).mpr hrefs
        have hperm : (decisions.map Decision.candidateRef).Perm refs :=
          (hnodup.subperm hsubset).perm_of_length_le (Nat.le_of_eq hsize.symm)
        refine ⟨fun d hd => (hall d hd).1, hnodup, fun ref href => ?_, fun d hd =>
          checkMerge_ok (mapM_checked hmerges hd)⟩
        obtain ⟨d, hd, heq⟩ := List.mem_map.mp (hperm.mem_iff.mpr href)
        exact ⟨d, hd, heq⟩
    · cases h
  · cases h

/-! ## What the components are -/

section Components

variable {decisions : List Decision}

/-- A merged candidate refers to another one. -/
def RefersTo (decisions : List Decision) (a b : String) : Prop :=
  ∃ d ∈ decisions, d.isMerge = true ∧ d.candidateRef = a ∧ b ∈ d.relatedRefs

/-- One of the two merged candidates refers to the other. -/
def Linked (decisions : List Decision) (a b : String) : Prop :=
  RefersTo decisions a b ∨ RefersTo decisions b a

def IsMerged (decisions : List Decision) (ref : String) : Prop :=
  ∃ d ∈ decisions, d.isMerge = true ∧ d.candidateRef = ref

theorem mem_linksOf : (a, b) ∈ linksOf decisions ↔ RefersTo decisions a b := by
  unfold linksOf RefersTo
  simp only [List.mem_flatMap, List.mem_filter, List.mem_map, Prod.mk.injEq]
  constructor
  · rintro ⟨d, ⟨hd, hmerge⟩, ref, href, rfl, rfl⟩
    exact ⟨d, hd, hmerge, rfl, href⟩
  · rintro ⟨d, hd, hmerge, rfl, href⟩
    exact ⟨d, ⟨hd, hmerge⟩, b, href, rfl, rfl⟩

theorem get?_connect (adjacency : List (String × List String)) (a b k : String) :
    get? (connect adjacency a b) k = if k = a then
      (get? adjacency a).map fun xs => if b ∈ xs then xs else xs ++ [b]
    else get? adjacency k := by
  unfold connect
  cases ha : get? adjacency a with
  | none =>
    dsimp only
    split
    · rename_i hk
      rw [hk, ha]
      rfl
    · rfl
  | some xs => exact get?_of_set adjacency a k _

variable {adjacency : List (String × List String)}

/-- What a link adds to the neighbours. -/
theorem mem_neighboursIn_connect {k x : String} : x ∈ neighboursIn (connect adjacency a b) k ↔
      x ∈ neighboursIn adjacency k ∨
        k = a ∧ x = b ∧ (get? adjacency a).isSome = true := by
  unfold neighboursIn
  rw [get?_connect]
  by_cases hk : k = a
  · subst hk
    rw [if_pos rfl]
    cases get? adjacency k with
    | none => simp
    | some xs =>
      rw [Option.map_some, Option.getD_some, Option.getD_some]
      split
      · rename_i hb
        constructor
        · exact Or.inl
        · rintro (hx | ⟨_, rfl, _⟩)
          · exact hx
          · exact hb
      · simp
  · simp [hk]

theorem isSome_connect {k : String} :
    (get? (connect adjacency a b) k).isSome = (get? adjacency k).isSome := by
  rw [get?_connect]
  by_cases hk : k = a
  · rw [if_pos hk, Option.isSome_map, hk]
  · rw [if_neg hk]

/-- The neighbours after all links: those before, and the other ends of the links of a vertex. -/
theorem foldl_connect (links : List (String × String)) (adjacency : List (String × List String))
    (k x : String) :
    let after := links.foldl (fun adjacency link =>
      connect (connect adjacency link.1 link.2) link.2 link.1) adjacency
    (get? after k).isSome = (get? adjacency k).isSome ∧
      (x ∈ neighboursIn after k ↔ x ∈ neighboursIn adjacency k ∨
        (get? adjacency k).isSome = true ∧ ((k, x) ∈ links ∨ (x, k) ∈ links)) := by
  induction links generalizing adjacency with
  | nil => simp
  | cons link links ih =>
    obtain ⟨a, b⟩ := link
    obtain ⟨hkeys, hmem⟩ := ih (connect (connect adjacency a b) b a)
    rw [List.foldl_cons]
    refine ⟨by rw [hkeys, isSome_connect, isSome_connect], ?_⟩
    dsimp only at hmem ⊢
    rw [hmem, mem_neighboursIn_connect, mem_neighboursIn_connect, isSome_connect, isSome_connect,
      isSome_connect]
    simp only [List.mem_cons, Prod.mk.injEq]
    constructor
    · rintro (((h | ⟨rfl, rfl, hkey⟩) | ⟨rfl, rfl, hkey⟩) | ⟨hkey, h⟩)
      · exact Or.inl h
      · exact Or.inr ⟨hkey, Or.inl (Or.inl ⟨rfl, rfl⟩)⟩
      · exact Or.inr ⟨hkey, Or.inr (Or.inl ⟨rfl, rfl⟩)⟩
      · exact Or.inr ⟨hkey, h.imp Or.inr Or.inr⟩
    · rintro (h | ⟨hkey, (⟨rfl, rfl⟩ | h) | (⟨rfl, rfl⟩ | h)⟩)
      · exact Or.inl (Or.inl (Or.inl h))
      · exact Or.inl (Or.inl (Or.inr ⟨rfl, rfl, hkey⟩))
      · exact Or.inr ⟨hkey, Or.inl h⟩
      · exact Or.inl (Or.inr ⟨rfl, rfl, hkey⟩)
      · exact Or.inr ⟨hkey, Or.inr h⟩

theorem get?_unlinked {xs : List String}
    (h : get? (ofList ((decisions.filter Decision.isMerge).map fun d =>
      (d.candidateRef, ([] : List String)))) ref = some xs) : xs = [] := by
  have hmem := OrderedMap.mem_of_mem_ofList (get?_mem h)
  obtain ⟨d, _, heq⟩ := List.mem_map.mp hmem
  exact (Prod.mk.inj heq).2.symm

theorem isSome_unlinked : (get? (ofList ((decisions.filter Decision.isMerge).map fun d =>
      (d.candidateRef, ([] : List String)))) ref).isSome = true ↔ IsMerged decisions ref := by
  rw [Option.isSome_iff_ne_none, Ne, get?_eq_none]
  have hkeys := OrderedMap.key_mem_ofList ((decisions.filter Decision.isMerge).map fun d =>
    (d.candidateRef, ([] : List String))) ref
  constructor
  · intro h
    obtain ⟨e, he, hkey⟩ := hkeys.mp (by simpa using h)
    obtain ⟨d, hd, rfl⟩ := List.mem_map.mp he
    obtain ⟨hd, hmerge⟩ := List.mem_filter.mp hd
    exact ⟨d, hd, hmerge, hkey⟩
  · rintro ⟨d, hd, hmerge, rfl⟩ hnone
    obtain ⟨e, he, hkey⟩ := hkeys.mpr ⟨_, List.mem_map_of_mem (List.mem_filter.mpr ⟨hd, hmerge⟩),
      rfl⟩
    exact hnone e he hkey

/-- The vertices are the merged candidates. -/
theorem isSome_adjacencyOf :
    (get? (adjacencyOf decisions) ref).isSome = true ↔ IsMerged decisions ref := by
  unfold adjacencyOf
  rw [(foldl_connect _ _ ref ref).1, isSome_unlinked]

/-- The neighbours of a merged candidate are those that it is linked with. -/
theorem mem_neighboursIn : other ∈ neighboursIn (adjacencyOf decisions) ref ↔
      IsMerged decisions ref ∧ Linked decisions ref other := by
  unfold adjacencyOf
  rw [(foldl_connect _ _ ref other).2, isSome_unlinked, mem_linksOf, mem_linksOf]
  constructor
  · rintro (h | h)
    · unfold neighboursIn at h
      cases hget : get? (ofList ((decisions.filter Decision.isMerge).map
          fun d => (d.candidateRef, ([] : List String)))) ref with
      | none =>
        rw [hget] at h
        cases h
      | some xs =>
        rw [hget, get?_unlinked hget] at h
        cases h
    · exact h
  · exact Or.inr

variable (hvalid : Valid refs decisions)
include hvalid

theorem linked_merged (h : Linked decisions a b) : IsMerged decisions a := by
  rcases h with ⟨d, hd, hmerge, href, _⟩ | ⟨d, hd, hmerge, _, hmem⟩
  · exact ⟨d, hd, hmerge, href⟩
  · obtain ⟨e, he, href, hmerged⟩ := hvalid.merged d hd hmerge a hmem
    exact ⟨e, he, hmerged, href⟩

/-- In an accepted output a merged candidate is next to those that it is linked with. -/
theorem neighbour_eq_linked :
    Components.Neighbour (neighboursIn (adjacencyOf decisions)) = Linked decisions := by
  funext a b
  refine propext (mem_neighboursIn.trans ⟨fun h => h.2, fun h => ⟨linked_merged hvalid h, h⟩⟩)

omit hvalid in
theorem mem_vertices
    (h : other ∈ neighboursIn adjacency ref) : other ∈ adjacency.flatMap fun e => e.1 :: e.2 := by
  unfold neighboursIn at h
  cases hget : get? adjacency ref with
  | none =>
    rw [hget] at h
    cases h
  | some xs =>
    rw [hget] at h
    exact List.mem_flatMap.mpr ⟨_, get?_mem hget, List.mem_cons_of_mem _ h⟩

omit hvalid in
theorem merged_mem_vertices (h : IsMerged decisions ref) :
    ref ∈ (adjacencyOf decisions).flatMap fun e => e.1 :: e.2 := by
  obtain ⟨xs, hxs⟩ := Option.isSome_iff_exists.mp (isSome_adjacencyOf.mpr h)
  exact List.mem_flatMap.mpr ⟨_, get?_mem hxs, List.mem_cons_self⟩

/-- The component of a merged candidate is all that links lead to. -/
theorem mem_componentIn (h : IsMerged decisions ref) :
    other ∈ componentIn (adjacencyOf decisions) ref ↔
      Relation.ReflTransGen (Linked decisions) ref other := by
  unfold componentIn
  rw [mem_sortTexts, Components.mem_componentOf (fun _ _ => mem_vertices) (merged_mem_vertices h),
    neighbour_eq_linked hvalid]

theorem linked_reaches_merged (h : IsMerged decisions ref)
    (hreach : Relation.ReflTransGen (Linked decisions) ref other) : IsMerged decisions other := by
  induction hreach with
  | refl => exact h
  | tail _ hstep _ => exact linked_merged hvalid hstep.symm

/-- Members of one component have the same component. -/
theorem componentIn_eq (h : IsMerged decisions ref)
    (hmem : other ∈ componentIn (adjacencyOf decisions) ref) :
    componentIn (adjacencyOf decisions) other = componentIn (adjacencyOf decisions) ref := by
  have hother := linked_reaches_merged hvalid h ((mem_componentIn hvalid h).mp hmem)
  unfold componentIn at hmem ⊢
  rw [mem_sortTexts] at hmem
  refine (sortTexts_perm (Components.perm_componentOf (fun _ _ => mem_vertices) ?_
    (merged_mem_vertices h) (merged_mem_vertices hother) hmem)).symm
  intro x y hy
  obtain ⟨_, hlinked⟩ := mem_neighboursIn.mp hy
  exact mem_neighboursIn.mpr ⟨linked_merged hvalid hlinked.symm, hlinked.symm⟩

omit hvalid in
theorem get?_foldl_set {κ ν : Type} [DecidableEq κ] (keys : List κ) (v : ν) (m : List (κ × ν))
    (k : κ) : get? (keys.foldl (fun m key => OrderedMap.set m key v) m) k =
      if k ∈ keys then some v else get? m k := by
  induction keys generalizing m with
  | nil => simp
  | cons key keys ih =>
    rw [List.foldl_cons, ih, get?_of_set]
    by_cases hk : k ∈ keys
    · simp [hk]
    · by_cases hkey : k = key
      · simp [hkey]
      · simp [hk, hkey]

/-- After some candidates, they have their components, and so has every other entry. -/
structure Assigned (decisions : List Decision) (done : List String)
    (m : List (String × List String)) : Prop where
  own : ∀ ref component, get? m ref = some component →
    component = componentIn (adjacencyOf decisions) ref
  present : ∀ ref ∈ done, (get? m ref).isSome = true

theorem assigned_add {done : List String}
    {m : List (String × List String)} (h : Assigned decisions done m)
    (hmerged : IsMerged decisions ref) :
    Assigned decisions (done ++ [ref]) (addComponent (adjacencyOf decisions) m ref) := by
  unfold addComponent
  split
  · rename_i hhas
    refine ⟨h.own, fun r hr => ?_⟩
    rcases List.mem_append.mp hr with hr | hr
    · exact h.present r hr
    · rw [List.mem_singleton.mp hr]
      exact hhas
  · refine ⟨fun r component hget => ?_, fun r hr => ?_⟩
    · rw [get?_foldl_set] at hget
      split at hget
      · rename_i hmem
        cases hget
        exact (componentIn_eq hvalid hmerged hmem).symm
      · exact h.own r component hget
    · rw [get?_foldl_set]
      split
      · rfl
      · rename_i hnot
        rcases List.mem_append.mp hr with hr | hr
        · exact h.present r hr
        · rw [List.mem_singleton.mp hr] at hnot
          exact absurd ((mem_componentIn hvalid hmerged).mpr .refl) hnot

/-- Every merged candidate has its component. -/
theorem mergeComponent_eq (h : IsMerged decisions ref) :
    mergeComponent decisions ref = componentIn (adjacencyOf decisions) ref := by
  have hfold : ∀ (keys done : List String) (m : List (String × List String)),
      (∀ key ∈ keys, IsMerged decisions key) → Assigned decisions done m →
      Assigned decisions (done ++ keys)
        (keys.foldl (addComponent (adjacencyOf decisions)) m) := by
    intro keys
    induction keys with
    | nil =>
      intro done m _ hm
      rw [List.append_nil]
      exact hm
    | cons key keys ih =>
      intro done m hkeys hm
      have hlast := ih (done ++ [key]) _ (fun k hk => hkeys k (List.mem_cons_of_mem key hk))
        (assigned_add hvalid hm (hkeys key List.mem_cons_self))
      rw [List.append_assoc] at hlast
      exact hlast
  have hkeys : ∀ key ∈ (adjacencyOf decisions).map (·.1), IsMerged decisions key := by
    intro key hkey
    obtain ⟨e, he, rfl⟩ := List.mem_map.mp hkey
    refine isSome_adjacencyOf.mp ?_
    rw [Option.isSome_iff_ne_none, Ne, get?_eq_none]
    exact fun hnone => hnone e he rfl
  have hassigned := hfold _ [] [] hkeys ⟨fun r component hget => (by cases hget),
    fun r hr => (by cases hr)⟩
  rw [List.nil_append] at hassigned
  obtain ⟨xs, hxs⟩ := Option.isSome_iff_exists.mp (isSome_adjacencyOf.mpr h)
  have hpresent := hassigned.present ref (List.mem_map_of_mem (get?_mem hxs))
  obtain ⟨component, hcomponent⟩ := Option.isSome_iff_exists.mp hpresent
  unfold mergeComponent mergeComponentsByRef
  dsimp only
  rw [hcomponent]
  exact hassigned.own ref component hcomponent

omit hvalid

end Components

end Traqen.MainOutput
