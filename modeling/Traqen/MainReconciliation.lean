-- The reconciliation of one batch (`#analyze` of `application/legacy-understanding-runtime.js`, with
-- `analysis/candidate-reconciliation.js`): the candidates that Main's decisions make of the options
-- of its children, and exactly when they account for every option under ids of their own.
import Traqen.MainOutput
import Traqen.ReverseMerge

open Js

namespace Traqen.MainReconciliation

open ExecutionEvidence MainOutput RunnerErrors
open ReverseSkill (SameValue canonicalJson_eq_iff)

/-! ## Options and candidates -/

/-- A candidate that a child proposes. -/
structure CandidateOption where
  ref : String
  childResultId : String
  slotId : String
  independenceGroup : String
  proposal : Json

/-- What a candidate of a work unit is bound to. -/
structure Scope where
  projectId : String
  snapshotManifestId : String
  analysisRunId : String
  workUnitId : String
deriving DecidableEq

structure Allowset where
  scope : Scope
  factIds : List String
  sourceSliceIds : List String
  confidenceCap : Json
  selectedRoutes : List Json

/-- The candidate that the work unit would have without children. -/
structure BaseCandidate where
  scope : Scope
  kind : Json
  name : Json
  statement : Json
  subjectKey : Json
  confidence : Json

/-- What a batch is reconciled with; `producerForSlot` finds the slots of the profile. -/
structure BatchContext where
  artifactId : String
  candidate : BaseCandidate
  allowset : Allowset
  scopedPaths : List String
  producerForSlot : String → Option Json
  analysisBatchId : String
  mainResultId : String

structure ReconciledCandidate where
  id : String
  scope : Scope
  kind : Json
  name : Json
  statement : Json
  subjectKey : Json
  evidenceFactIds : List Json
  sourceSliceIds : List Json
  confidence : Json
  producer : Option Json
  analysisBatchId : String
  mainResultId : String
  mainDisposition : Disposition
  mainRationale : String
  mergedFromCandidateRefs : List String
  childResultIds : List String
  independenceGroups : List String

/-! ## The checks of a candidate -/

/-- `confidenceRank[value]`. -/
def confidenceRank (value : Json) : Option Nat :=
  match value with
  | .str "LOW" => some 1
  | .str "MEDIUM" => some 2
  | .str "HIGH" => some 3
  | _ => none

def exceedsCap (confidence cap : Json) : Bool :=
  match confidenceRank confidence with
  | some rank => rank > (confidenceRank cap).getD 0
  | none => true

def validateReconciledCandidateProjection (c : ReconciledCandidate) : Except Failure Unit :=
  if !(["CANDIDATE_FEATURE", "CANDIDATE_CLAIM"].any fun kind =>
      strictEq (some c.kind) (some (.str kind))) then
    typeError "reconciled Candidate kind is invalid"
  else if !isFilledText (some c.name) || !isFilledText (some c.statement) then
    typeError "reconciled Candidate proposal requires string name and statement"
  else if !isConfidence (some c.confidence) then
    typeError "reconciled Candidate confidence is invalid"
  else if !isFilledText (some c.subjectKey) then
    typeError "reconciled Candidate subjectKey is required"
  else if c.evidenceFactIds.length + c.sourceSliceIds.length = 0 then
    typeError "reconciled Candidate requires original evidence"
  else .ok ()

/-- The first field of a candidate that is not the one of the allowset. -/
def foreignField (own allowed : Scope) : Option String :=
  ([("projectId", own.projectId, allowed.projectId),
    ("snapshotManifestId", own.snapshotManifestId, allowed.snapshotManifestId),
    ("analysisRunId", own.analysisRunId, allowed.analysisRunId),
    ("workUnitId", own.workUnitId, allowed.workUnitId)].find? fun e => e.2.1 ≠ e.2.2).map (·.1)

def checkEvidence (id name : String) (values : List Json) (allowed : List String) :
    Except Failure Unit :=
  if values.eraseDups.length ≠ values.length then
    typeError ("Candidate " ++ id ++ " has duplicate " ++ name)
  else
    match values.find? fun value => value ∉ allowed.map Json.str with
    | some value =>
      typeError ("Candidate " ++ id ++ " cites unauthorized " ++ name ++ " " ++ value.toText)
    | none => .ok ()

def routeMatches (producer : Option Json) (route : Json) : Bool :=
  ["modelCapabilityProfileId", "skillId", "skillVersion"].all fun name =>
    strictEq (field (some route) name) (field producer name)

def validateCandidateAgainstEvidenceAllowset (c : ReconciledCandidate) (allowset : Allowset) :
    Except Failure Unit := do
  match foreignField c.scope allowset.scope with
  | some name => typeError ("Candidate " ++ c.id ++ " " ++ name ++ " is outside the evidence allowset")
  | none =>
    checkEvidence c.id "evidenceFactIds" c.evidenceFactIds allowset.factIds
    checkEvidence c.id "sourceSliceIds" c.sourceSliceIds allowset.sourceSliceIds
    if exceedsCap c.confidence allowset.confidenceCap then
      typeError ("Candidate " ++ c.id ++ " confidence exceeds its evidence cap")
    else if !allowset.selectedRoutes.any (routeMatches c.producer) then
      typeError ("Candidate " ++ c.id ++ " producer is not selected by RouteDecision")
    else return ()

/-! ## Groups -/

/-- The decisions that make a candidate, each with the options that it stands for: those that were
processed before are skipped. -/
def groupsFrom (decisions : List MainOutput.Decision) : List String → List MainOutput.Decision →
    List (MainOutput.Decision × List String)
  | _, [] => []
  | processed, d :: ds =>
    if d.candidateRef ∈ processed then groupsFrom decisions processed ds
    else
      let refs := if d.isMerge then mergeComponent decisions d.candidateRef else [d.candidateRef]
      (d, refs) :: groupsFrom decisions (processed ++ refs) ds

def admittedGroups (decisions : List MainOutput.Decision) : List (MainOutput.Decision × List String) :=
  groupsFrom decisions [] (decisions.filter fun d => d.disposition ≠ .REJECT)

/-- The options of these names, in their order. -/
def optionsOf (options : List CandidateOption) (refs : List String) : List CandidateOption :=
  refs.filterMap fun ref => options.find? fun option => option.ref = ref

/-- What `proposal[name] ?? []` contributes to a flat list. -/
def evidenceOf (name : String) (option : CandidateOption) : List Json :=
  match field (some option.proposal) name with
  | none | some .null => []
  | some (.arr items) => items
  | some value => [value]

/-- The default `sort`, by the texts of the values. -/
def sortValues (values : List Json) : List Json :=
  values.insertionSort fun a b => codeUnits a.toText ≤ codeUnits b.toText

/-- `[...new Set(merged.flatMap(...))].sort()`. -/
def reconciledEvidence (name : String) (merged : List CandidateOption) : List Json :=
  sortValues (merged.flatMap (evidenceOf name)).eraseDups

section Reconcile

variable (localeCompare : String → String → Int) (sha256 : String → String)

/-- The slots and the proposals of a group, sorted by their canonical texts. -/
def candidateInputs (merged : List CandidateOption) : List Json :=
  (merged.map fun option => Json.obj [("slotId", .str option.slotId),
    ("proposal", option.proposal)]).insertionSort fun left right =>
      localeCompare (canonicalJson left) (canonicalJson right) ≤ 0

/-- The merged proposal, or that of the option itself. -/
def semanticCandidate (d : MainOutput.Decision) (merged : List CandidateOption) : Json :=
  if d.isMerge then d.mergedProposal.getD .null
  else (merged.head?.map CandidateOption.proposal).getD .null

/-- What the id of a candidate is made from. -/
def candidateIdentity (ctx : BatchContext) (d : MainOutput.Decision)
    (merged : List CandidateOption) : Json :=
  .obj [("workUnitId", .str ctx.candidate.scope.workUnitId), ("artifactId", .str ctx.artifactId),
    ("evidenceFactIds", .arr (reconciledEvidence "evidenceFactIds" merged)),
    ("sourceSliceIds", .arr (reconciledEvidence "sourceSliceIds" merged)),
    ("candidateInputs", .arr (candidateInputs localeCompare merged)),
    ("proposal", semanticCandidate d merged)]

/-- `semantic[first] ?? semantic[second] ?? other`. -/
def firstGiven (semantic : Json) (first second : String) (other : Json) : Json :=
  nullish (some (nullish (field (some semantic) first)
    ((field (some semantic) second).getD .null))) other

def subjectKeyOf (ctx : BatchContext) (semantic : Json) : Json :=
  match field (some semantic) "subjectKey" with
  | some (.str key) => if key ∈ ctx.scopedPaths then .str key else ctx.candidate.subjectKey
  | _ => ctx.candidate.subjectKey

/-- `selectedSlot ? producerForSlot(selectedSlot) : decision.selected?.[0]`. -/
def producerOf (ctx : BatchContext) (d : MainOutput.Decision)
    (merged : List CandidateOption) : Option Json :=
  match merged.head?.bind fun option => ctx.producerForSlot option.slotId with
  | some producer => some producer
  | none => (itemsOf d.selected).head?

def reconciledCandidate (ctx : BatchContext) (d : MainOutput.Decision) (refs : List String)
    (merged : List CandidateOption) : ReconciledCandidate :=
  let semantic := semanticCandidate d merged
  { id := contentId sha256 "UNDERSTANDING-CANDIDATE"
      (candidateIdentity localeCompare ctx d merged)
    scope := ctx.candidate.scope
    kind := ctx.candidate.kind
    name := firstGiven semantic "name" "displayName" ctx.candidate.name
    statement := firstGiven semantic "statement" "description" ctx.candidate.statement
    subjectKey := subjectKeyOf ctx semantic
    evidenceFactIds := reconciledEvidence "evidenceFactIds" merged
    sourceSliceIds := reconciledEvidence "sourceSliceIds" merged
    confidence := nullish (field (some semantic) "confidence") ctx.candidate.confidence
    producer := producerOf ctx d merged
    analysisBatchId := ctx.analysisBatchId
    mainResultId := ctx.mainResultId
    mainDisposition := d.disposition
    mainRationale := d.rationale
    mergedFromCandidateRefs := if d.isMerge then refs else []
    childResultIds := sortTexts (merged.map CandidateOption.childResultId).eraseDups
    independenceGroups := sortTexts (merged.map CandidateOption.independenceGroup).eraseDups }

def reconcileGroup (ctx : BatchContext) (options : List CandidateOption)
    (group : MainOutput.Decision × List String) : Except Failure ReconciledCandidate := do
  let merged := optionsOf options group.2
  if merged.any fun option => option.proposal = .null then
    typeError "Cannot read properties of null (reading 'evidenceFactIds')"
  else
    let c := reconciledCandidate localeCompare sha256 ctx group.1 group.2 merged
    validateReconciledCandidateProjection c
    validateCandidateAgainstEvidenceAllowset c ctx.allowset
    return c

/-- The candidates of the batch, each with the options that it stands for. -/
def reconcileBatch (ctx : BatchContext) (options : List CandidateOption)
    (decisions : List MainOutput.Decision) : Except Failure (List (List String × ReconciledCandidate)) :=
  (admittedGroups decisions).mapM fun group => do
    let c ← reconcileGroup localeCompare sha256 ctx options group
    return (group.2, c)

end Reconcile

/-! ## The later reconciliation -/

/-- The checks of one candidate, with the allowset of its work unit. -/
def admitCandidate (allowsets : String → Option Allowset) (c : ReconciledCandidate) :
    Except Failure Unit :=
  if c.evidenceFactIds.length + c.sourceSliceIds.length = 0 then
    typeError ("Candidate " ++ c.id ++ " requires original Fact or SourceSlice evidence")
  else
    match allowsets c.scope.workUnitId with
    | none => typeError ("Candidate " ++ c.id ++ " has no immutable evidence allowset")
    | some allowset => validateCandidateAgainstEvidenceAllowset c allowset

/-- The checks of `reconcileCandidates` on its candidates. -/
def admitCandidates (allowsets : String → Option Allowset) (candidates : List ReconciledCandidate) :
    Except Failure Unit :=
  if (candidates.map ReconciledCandidate.id).eraseDups.length ≠ candidates.length then
    typeError "Candidate ids must be unique within a reconciliation"
  else
    candidates.forM (admitCandidate allowsets)

/-! ## What the groups are -/

section Groups

variable {refs : List String} {decisions : List MainOutput.Decision}

variable {d : MainOutput.Decision}

variable (hvalid : Valid refs decisions)
include hvalid

theorem eq_of_ref {e : MainOutput.Decision} (hd : d ∈ decisions)
    (he : e ∈ decisions) (h : d.candidateRef = e.candidateRef) : d = e :=
  List.inj_on_of_nodup_map hvalid.distinct hd he h

/-- The options that a decision stands for. -/
def refsOf (decisions : List MainOutput.Decision) (d : MainOutput.Decision) : List String :=
  if d.isMerge then mergeComponent decisions d.candidateRef else [d.candidateRef]

omit hvalid in
theorem isMerged_of (hd : d ∈ decisions) (hmerge : d.isMerge = true) :
    IsMerged decisions d.candidateRef :=
  ⟨d, hd, hmerge, rfl⟩

theorem not_isMerged_of (hd : d ∈ decisions)
    (hmerge : d.isMerge = false) : ¬ IsMerged decisions d.candidateRef := by
  rintro ⟨e, he, hmerged, heq⟩
  rw [eq_of_ref hvalid he hd heq, hmerge] at hmerged
  cases hmerged

/-- A merged candidate stands for its component, another one for itself. -/
theorem mem_refsOf (hd : d ∈ decisions) {ref : String} : ref ∈ refsOf decisions d ↔
      Relation.ReflTransGen (Linked decisions) d.candidateRef ref := by
  unfold refsOf
  cases hmerge : d.isMerge with
  | true =>
    have hmerged := isMerged_of hd hmerge
    rw [if_pos rfl, mergeComponent_eq hvalid hmerged, mem_componentIn hvalid hmerged]
  | false =>
    rw [if_neg (by decide), List.mem_singleton]
    constructor
    · rintro rfl
      exact .refl
    · intro hreach
      rcases Relation.ReflTransGen.cases_head hreach with heq | ⟨x, hlinked, _⟩
      · exact heq.symm
      · exact absurd (linked_merged hvalid hlinked) (not_isMerged_of hvalid hd hmerge)

omit hvalid in
theorem linked_symm {a b : String} (h : Relation.ReflTransGen (Linked decisions) a b) :
    Relation.ReflTransGen (Linked decisions) b a := by
  induction h with
  | refl => exact .refl
  | tail _ hstep ih => exact ih.head hstep.symm

/-- What links lead to from processed candidates is processed. -/
def ClosedUnder (decisions : List MainOutput.Decision) (processed : List String) : Prop :=
  ∀ a ∈ processed, ∀ b, Relation.ReflTransGen (Linked decisions) a b → b ∈ processed

theorem closed_append {processed : List String}
    (h : ClosedUnder decisions processed) (hd : d ∈ decisions) :
    ClosedUnder decisions (processed ++ refsOf decisions d) := by
  intro a ha b hab
  rcases List.mem_append.mp ha with ha | ha
  · exact List.mem_append_left _ (h a ha b hab)
  · refine List.mem_append_right _ ((mem_refsOf hvalid hd).mpr ?_)
    exact ((mem_refsOf hvalid hd).mp ha).trans hab

/-- The loop over the decisions: the groups that it makes stand for what was not processed, each
decision is processed in the end, and no option is in two groups. -/
structure Grouped (decisions : List MainOutput.Decision) (processed : List String)
    (ds : List MainOutput.Decision)
    (groups : List (MainOutput.Decision × List String)) : Prop where
  stands : ∀ g ∈ groups, g.1 ∈ ds ∧ g.2 = refsOf decisions g.1
  fresh : ∀ g ∈ groups, ∀ ref ∈ g.2, ref ∉ processed
  covers : ∀ d ∈ ds, d.candidateRef ∈ processed ∨ ∃ g ∈ groups, d.candidateRef ∈ g.2
  apart : groups.Pairwise fun g h => ∀ ref ∈ g.2, ref ∉ h.2

theorem groupsFrom_grouped (ds : List MainOutput.Decision)
    (hds : ∀ d ∈ ds, d ∈ decisions) {processed : List String}
    (hclosed : ClosedUnder decisions processed) :
    Grouped decisions processed ds (groupsFrom decisions processed ds) := by
  induction ds generalizing processed with
  | nil =>
    exact ⟨fun g hg => (by cases hg), fun g hg => (by cases hg), fun d hd => (by cases hd), .nil⟩
  | cons d ds ih =>
    have hd := hds d List.mem_cons_self
    have hrest : ∀ e ∈ ds, e ∈ decisions := fun e he => hds e (List.mem_cons_of_mem d he)
    unfold groupsFrom
    split
    · rename_i hprocessed
      obtain ⟨hstands, hfresh, hcovers, hapart⟩ := ih hrest hclosed
      refine ⟨fun g hg => ?_, hfresh, fun e he => ?_, hapart⟩
      · exact ⟨List.mem_cons_of_mem d (hstands g hg).1, (hstands g hg).2⟩
      · rcases List.mem_cons.mp he with rfl | he
        · exact Or.inl hprocessed
        · exact hcovers e he
    · rename_i hnew
      obtain ⟨hstands, hfresh, hcovers, hapart⟩ := ih hrest (closed_append hvalid hclosed hd)
      refine ⟨fun g hg => ?_, fun g hg ref href => ?_, fun e he => ?_, ?_⟩
      · rcases List.mem_cons.mp hg with rfl | hg
        · exact ⟨List.mem_cons_self, rfl⟩
        · exact ⟨List.mem_cons_of_mem d (hstands g hg).1, (hstands g hg).2⟩
      · rcases List.mem_cons.mp hg with rfl | hg
        · intro hprocessed
          have hreach := (mem_refsOf hvalid hd).mp href
          exact hnew (hclosed ref hprocessed _ (linked_symm hreach))
        · exact fun hprocessed => hfresh g hg ref href (List.mem_append_left _ hprocessed)
      · rcases List.mem_cons.mp he with rfl | he
        · exact Or.inr ⟨_, List.mem_cons_self, (mem_refsOf hvalid hd).mpr .refl⟩
        · rcases hcovers e he with hprocessed | ⟨g, hg, hmem⟩
          · rcases List.mem_append.mp hprocessed with hprocessed | hmem
            · exact Or.inl hprocessed
            · exact Or.inr ⟨_, List.mem_cons_self, hmem⟩
          · exact Or.inr ⟨g, List.mem_cons_of_mem _ hg, hmem⟩
      · refine List.pairwise_cons.mpr ⟨fun g hg ref href hmem => ?_, hapart⟩
        exact hfresh g hg ref hmem (List.mem_append_right _ href)

theorem admittedGroups_grouped :
    Grouped decisions [] (decisions.filter fun d => d.disposition ≠ .REJECT)
      (admittedGroups decisions) :=
  groupsFrom_grouped hvalid _ (fun _ hd => (List.mem_filter.mp hd).1)
    (fun _ ha => absurd ha List.not_mem_nil)

omit hvalid

end Groups

/-! ## What a batch accounts for -/

/-- Every candidate of the batch is the component of its merged options or one other option; every
option that is not rejected is in exactly one, with all of its evidence, and nothing else is in
any; and the candidates have ids of their own, with which they are admitted later. -/
structure Accounted (decisions : List MainOutput.Decision) (ctx : BatchContext)
    (options : List CandidateOption) (batch : List (List String × ReconciledCandidate)) : Prop where
  component : ∀ g ∈ batch, ∀ ref ∈ g.1, ∀ other,
    other ∈ g.1 ↔ Relation.ReflTransGen (Linked decisions) ref other
  represented : ∀ option ∈ options, ∀ d ∈ decisions, d.candidateRef = option.ref →
    d.disposition ≠ .REJECT → batch.countP (fun g => option.ref ∈ g.1) = 1
  kept : ∀ g ∈ batch, ∀ option ∈ options, option.ref ∈ g.1 →
    (∀ fact ∈ evidenceOf "evidenceFactIds" option, fact ∈ g.2.evidenceFactIds) ∧
    (∀ slice ∈ evidenceOf "sourceSliceIds" option, slice ∈ g.2.sourceSliceIds) ∧
    option.childResultId ∈ g.2.childResultIds
  admittedOnly : ∀ g ∈ batch, ∀ ref ∈ g.1,
    ∃ d ∈ decisions, d.candidateRef = ref ∧ d.disposition ≠ .REJECT
  contributed : ∀ g ∈ batch,
    (∀ fact ∈ g.2.evidenceFactIds, ∃ option ∈ options, option.ref ∈ g.1 ∧
      fact ∈ evidenceOf "evidenceFactIds" option) ∧
    (∀ slice ∈ g.2.sourceSliceIds, ∃ option ∈ options, option.ref ∈ g.1 ∧
      slice ∈ evidenceOf "sourceSliceIds" option) ∧
    ∀ id ∈ g.2.childResultIds, ∃ option ∈ options, option.ref ∈ g.1 ∧ option.childResultId = id
  distinct : (batch.map fun g => g.2.id).Nodup
  admitted : admitCandidates
    (fun id => if id = ctx.allowset.scope.workUnitId then some ctx.allowset else none)
    (batch.map (·.2)) = .ok ()

section Inputs

variable (localeCompare : String → String → Int) (options : List CandidateOption)

/-- Two groups have the same evidence, the same sorted slots with their proposals, and the same
proposal of their own. -/
def SameInputs (g h : MainOutput.Decision × List String) : Prop :=
  SameValue (.arr (reconciledEvidence "evidenceFactIds" (optionsOf options g.2)))
      (.arr (reconciledEvidence "evidenceFactIds" (optionsOf options h.2))) ∧
    SameValue (.arr (reconciledEvidence "sourceSliceIds" (optionsOf options g.2)))
      (.arr (reconciledEvidence "sourceSliceIds" (optionsOf options h.2))) ∧
    SameValue (.arr (candidateInputs localeCompare (optionsOf options g.2)))
      (.arr (candidateInputs localeCompare (optionsOf options h.2))) ∧
    SameValue (semanticCandidate g.1 (optionsOf options g.2))
      (semanticCandidate h.1 (optionsOf options h.2))

/-- No two groups are made from the same. -/
def Told (decisions : List MainOutput.Decision) : Prop :=
  (admittedGroups decisions).Pairwise fun g h => ¬ SameInputs localeCompare options g h

def identityOf (ctx : BatchContext) (g : MainOutput.Decision × List String) : Json :=
  candidateIdentity localeCompare ctx g.1 (optionsOf options g.2)

/-- The digests tell the identities of the groups of a batch apart. -/
def DigestsApart (sha256 : String → String) (ctx : BatchContext)
    (decisions : List MainOutput.Decision) :
    Prop :=
  ∀ g ∈ admittedGroups decisions, ∀ h ∈ admittedGroups decisions,
    contentId sha256 "UNDERSTANDING-CANDIDATE" (identityOf localeCompare options ctx g) =
      contentId sha256 "UNDERSTANDING-CANDIDATE" (identityOf localeCompare options ctx h) →
    canonicalJson (identityOf localeCompare options ctx g) =
      canonicalJson (identityOf localeCompare options ctx h)

end Inputs

/-! ## The law -/

section Law

variable {localeCompare : String → String → Int} {sha256 : String → String} {ctx : BatchContext}
  {options : List CandidateOption} {refs : List String} {decisions : List MainOutput.Decision}

variable (ctx) in
/-- Identities have the same text exactly when they are made from the same. -/
theorem identity_eq_iff (g h : MainOutput.Decision × List String) :
    canonicalJson (identityOf localeCompare options ctx g) =
        canonicalJson (identityOf localeCompare options ctx h) ↔
      SameInputs localeCompare options g h := by
  rw [canonicalJson_eq_iff]
  unfold identityOf candidateIdentity SameInputs
  constructor
  · intro hsame
    refine ⟨?_, ?_, ?_, ?_⟩
    · obtain ⟨w, hw, hvalue⟩ := hsame.field (k := "evidenceFactIds") (by simp; rfl)
      simp at hw
      exact hw ▸ hvalue
    · obtain ⟨w, hw, hvalue⟩ := hsame.field (k := "sourceSliceIds") (by simp; rfl)
      simp at hw
      exact hw ▸ hvalue
    · obtain ⟨w, hw, hvalue⟩ := hsame.field (k := "candidateInputs") (by simp; rfl)
      simp at hw
      exact hw ▸ hvalue
    · obtain ⟨w, hw, hvalue⟩ := hsame.field (k := "proposal") (by simp; rfl)
      simp at hw
      exact hw ▸ hvalue
  · rintro ⟨hfacts, hslices, hinputs, hproposal⟩
    unfold SameValue at hfacts hslices hinputs hproposal ⊢
    rw [canonicalizeValue, canonicalizeValue, canonicalizeFields_eq, canonicalizeFields_eq]
    simp only [List.map_cons, List.map_nil, hfacts, hslices, hinputs, hproposal]

theorem find?_option (hrefs : (options.map CandidateOption.ref).Nodup) {option : CandidateOption}
    (h : option ∈ options) : (options.find? fun o => o.ref = option.ref) = some option := by
  obtain ⟨found, hfound⟩ : ∃ found, (options.find? fun o => o.ref = option.ref) = some found := by
    cases hnone : options.find? fun o => o.ref = option.ref with
    | none => simpa using List.find?_eq_none.mp hnone option h
    | some found => exact ⟨found, rfl⟩
  have hsame : found.ref = option.ref := by simpa using List.find?_some hfound
  rw [hfound, List.inj_on_of_nodup_map hrefs (List.mem_of_find?_eq_some hfound) h hsame]

/-- The options of a group are those of its names. -/
theorem mem_optionsOf (hrefs : (options.map CandidateOption.ref).Nodup) {names : List String}
    {option : CandidateOption} :
    option ∈ optionsOf options names ↔ option ∈ options ∧ option.ref ∈ names := by
  unfold optionsOf
  rw [List.mem_filterMap]
  constructor
  · rintro ⟨ref, href, hfound⟩
    have hsame : option.ref = ref := by simpa using List.find?_some hfound
    exact ⟨List.mem_of_find?_eq_some hfound, hsame ▸ href⟩
  · rintro ⟨hmem, href⟩
    exact ⟨option.ref, href, find?_option hrefs hmem⟩

theorem mem_reconciledEvidence {name : String} {merged : List CandidateOption} {value : Json} :
    value ∈ reconciledEvidence name merged ↔
      ∃ option ∈ merged, value ∈ evidenceOf name option := by
  unfold reconciledEvidence sortValues
  rw [List.mem_insertionSort, List.mem_eraseDups, List.mem_flatMap]

theorem mem_sortedNames {f : CandidateOption → String} {merged : List CandidateOption}
    {name : String} :
    name ∈ sortTexts (merged.map f).eraseDups ↔ ∃ option ∈ merged, f option = name := by
  rw [mem_sortTexts, List.mem_eraseDups, List.mem_map]

/-- The candidate that a group makes. -/
def candidateOf (localeCompare : String → String → Int) (sha256 : String → String)
    (ctx : BatchContext) (options : List CandidateOption) (g : MainOutput.Decision × List String) :
    ReconciledCandidate :=
  reconciledCandidate localeCompare sha256 ctx g.1 g.2 (optionsOf options g.2)

variable {c : ReconciledCandidate}

theorem reconcileGroup_ok {g : MainOutput.Decision × List String}
    (h : reconcileGroup localeCompare sha256 ctx options g = .ok c) :
    c = candidateOf localeCompare sha256 ctx options g ∧
      validateReconciledCandidateProjection c = .ok () ∧
      validateCandidateAgainstEvidenceAllowset c ctx.allowset = .ok () := by
  unfold reconcileGroup at h
  dsimp only at h
  split at h
  · cases h
  · obtain ⟨_, hprojection, h⟩ := bind_ok h
    obtain ⟨_, hallowset, h⟩ := bind_ok h
    cases h
    exact ⟨rfl, hprojection, hallowset⟩

/-- A batch that completes has one checked candidate for each group. -/
theorem reconcileBatch_ok {batch : List (List String × ReconciledCandidate)}
    (h : reconcileBatch localeCompare sha256 ctx options decisions = .ok batch) :
    batch = (admittedGroups decisions).map (fun g =>
        (g.2, candidateOf localeCompare sha256 ctx options g)) ∧
      ∀ g ∈ batch, validateReconciledCandidateProjection g.2 = .ok () ∧
        validateCandidateAgainstEvidenceAllowset g.2 ctx.allowset = .ok () := by
  unfold reconcileBatch at h
  have hall := mapM_ok h
  constructor
  · have hmap := mapM_ok_map (g := id) (k := fun g => (g.2,
      candidateOf localeCompare sha256 ctx options g)) h (fun g entry hentry => by
        obtain ⟨c, hc, hentry⟩ := bind_ok hentry
        cases hentry
        rw [(reconcileGroup_ok hc).1]
        rfl)
    rw [List.map_id] at hmap
    exact hmap
  · intro entry hentry
    obtain ⟨g, _, hg⟩ := exists_source hall hentry
    obtain ⟨c, hc, hg⟩ := bind_ok hg
    cases hg
    exact (reconcileGroup_ok hc).2

theorem projection_evidence
    (h : validateReconciledCandidateProjection c = .ok ()) :
    c.evidenceFactIds.length + c.sourceSliceIds.length ≠ 0 := by
  unfold validateReconciledCandidateProjection at h
  intro hnone
  rw [if_pos hnone] at h
  split at h
  · cases h
  · split at h
    · cases h
    · split at h
      · cases h
      · split at h <;> cases h

theorem allowset_scope {allowset : Allowset}
    (h : validateCandidateAgainstEvidenceAllowset c allowset = .ok ()) :
    c.scope.workUnitId = allowset.scope.workUnitId := by
  unfold validateCandidateAgainstEvidenceAllowset at h
  cases hforeign : foreignField c.scope allowset.scope with
  | some name =>
    rw [hforeign] at h
    cases h
  | none =>
    unfold foreignField at hforeign
    rw [Option.map_eq_none_iff, List.find?_eq_none] at hforeign
    simpa using hforeign ("workUnitId", c.scope.workUnitId, allowset.scope.workUnitId) (by simp)

/-- Checked candidates with ids of their own are admitted. -/
theorem admitCandidates_ok {allowset : Allowset} {candidates : List ReconciledCandidate}
    (hids : (candidates.map ReconciledCandidate.id).Nodup)
    (hchecked : ∀ c ∈ candidates, validateReconciledCandidateProjection c = .ok () ∧
      validateCandidateAgainstEvidenceAllowset c allowset = .ok ()) :
    admitCandidates (fun id => if id = allowset.scope.workUnitId then some allowset else none)
      candidates = .ok () := by
  have hsize : (candidates.map ReconciledCandidate.id).eraseDups.length = candidates.length := by
    rw [(OrderedMap.nodup_iff_size _).mpr hids, List.length_map]
  unfold admitCandidates
  rw [if_neg (not_not.mpr hsize)]
  clear hids hsize
  induction candidates with
  | nil => rfl
  | cons c candidates ih =>
    obtain ⟨hprojection, hallowset⟩ := hchecked c List.mem_cons_self
    have hone : admitCandidate (fun id => if id = allowset.scope.workUnitId then some allowset
        else none) c = .ok () := by
      have hfound : (if c.scope.workUnitId = allowset.scope.workUnitId then some allowset
          else none) = some allowset := if_pos (allowset_scope hallowset)
      unfold admitCandidate
      dsimp only
      rw [if_neg (projection_evidence hprojection), hfound]
      exact hallowset
    change (admitCandidate _ c >>= fun _ => candidates.forM _) = _
    rw [hone]
    exact ih fun c' hc' => hchecked c' (List.mem_cons_of_mem c hc')

/-- What stands apart is met once. -/
theorem countP_eq_one {α : Type} {p : α → Bool} {xs : List α}
    (hapart : xs.Pairwise fun x y => p x = true → p y = false) {x : α} (hx : x ∈ xs)
    (hp : p x = true) : xs.countP p = 1 := by
  induction xs with
  | nil => cases hx
  | cons y ys ih =>
    obtain ⟨hy, hys⟩ := List.pairwise_cons.mp hapart
    by_cases hpy : p y = true
    · rw [List.countP_cons_of_pos hpy]
      have hnone : ys.countP p = 0 := by
        rw [List.countP_eq_zero]
        intro z hz
        rw [hy z hz hpy]
        decide
      rw [hnone]
    · rw [List.countP_cons_of_neg hpy]
      rcases List.mem_cons.mp hx with rfl | hx
      · exact absurd hp hpy
      · exact ih hys hx

end Law

/-- For all options of distinct names and every accepted output whose reconciliation completes: the
candidates account for the options exactly when no two groups are made from the same. -/
theorem batch_accounts_iff (localeCompare : String → String → Int) (sha256 : String → String)
    (ctx : BatchContext) (options : List CandidateOption) (output : Option Json)
    (decisions : List MainOutput.Decision) (batch : List (List String × ReconciledCandidate))
    (hrefs : (options.map CandidateOption.ref).Nodup)
    (houtput : validateMainProducerOutput output (options.map CandidateOption.ref) = .ok decisions)
    (hbatch : reconcileBatch localeCompare sha256 ctx options decisions = .ok batch)
    (hapart : DigestsApart localeCompare options sha256 ctx decisions) :
    Accounted decisions ctx options batch ↔ Told localeCompare options decisions := by
  have hvalid := validate_valid hrefs houtput
  have hgrouped := admittedGroups_grouped hvalid
  obtain ⟨rfl, hchecked⟩ := reconcileBatch_ok hbatch
  have hids : ((admittedGroups decisions).map fun g =>
      (candidateOf localeCompare sha256 ctx options g).id).Nodup ↔
      Told localeCompare options decisions := by
    unfold List.Nodup Told
    rw [List.pairwise_map]
    refine List.Pairwise.iff_of_mem fun {g h} hg hh => not_congr ?_
    rw [← identity_eq_iff ctx]
    exact ⟨hapart g hg h hh, fun htext => by
      unfold candidateOf reconciledCandidate contentId
      dsimp only
      change _ ++ _ ++ String.ofList ((sha256 (canonicalJson
        (identityOf localeCompare options ctx g))).toList.take 24) = _
      rw [htext]
      rfl⟩
  have hmember : ∀ g ∈ admittedGroups decisions, g.1 ∈ decisions ∧ g.1.disposition ≠ .REJECT ∧
      g.2 = refsOf decisions g.1 := by
    intro g hg
    obtain ⟨hd, hrefsOf⟩ := hgrouped.stands g hg
    obtain ⟨hd, hadmitted⟩ := List.mem_filter.mp hd
    exact ⟨hd, by simpa using hadmitted, hrefsOf⟩
  have hmaps : ((admittedGroups decisions).map fun g =>
      (g.2, candidateOf localeCompare sha256 ctx options g)).map (fun g => g.2.id) =
      (admittedGroups decisions).map fun g =>
        (candidateOf localeCompare sha256 ctx options g).id := by
    rw [List.map_map]
    rfl
  constructor
  · intro h
    have hdistinct := h.distinct
    rw [hmaps] at hdistinct
    exact hids.mp hdistinct
  · intro htold
    have hdistinct := hids.mpr htold
    refine ⟨?_, ?_, ?_, ?_, ?_, hmaps ▸ hdistinct, ?_⟩
    · intro entry hentry ref href other
      obtain ⟨g, hg, rfl⟩ := List.mem_map.mp hentry
      obtain ⟨hd, _, hrefsOf⟩ := hmember g hg
      dsimp only at href ⊢
      rw [hrefsOf, mem_refsOf hvalid hd] at href ⊢
      exact ⟨(linked_symm href).trans, href.trans⟩
    · intro option hoption d hd href hadmitted
      rcases hgrouped.covers d (List.mem_filter.mpr ⟨hd, by simpa using hadmitted⟩) with
        hnone | ⟨g, hg, hmem⟩
      · cases hnone
      · refine countP_eq_one ?_ (List.mem_map_of_mem hg) (by simpa [href] using hmem)
        rw [List.pairwise_map]
        refine hgrouped.apart.imp fun hdisjoint hin => ?_
        simpa using hdisjoint _ (by simpa using hin)
    · intro entry hentry option hoption href
      obtain ⟨g, hg, rfl⟩ := List.mem_map.mp hentry
      have hmem := (mem_optionsOf hrefs).mpr ⟨hoption, href⟩
      exact ⟨fun fact hfact => mem_reconciledEvidence.mpr ⟨option, hmem, hfact⟩,
        fun slice hslice => mem_reconciledEvidence.mpr ⟨option, hmem, hslice⟩,
        mem_sortedNames.mpr ⟨option, hmem, rfl⟩⟩
    · intro entry hentry ref href
      obtain ⟨g, hg, rfl⟩ := List.mem_map.mp hentry
      obtain ⟨hd, hadmitted, hrefsOf⟩ := hmember g hg
      dsimp only at href
      rw [hrefsOf] at href
      cases hmerge : g.1.isMerge with
      | true =>
        obtain ⟨e, he, hmerged, heq⟩ := linked_reaches_merged hvalid (isMerged_of hd hmerge)
          ((mem_refsOf hvalid hd).mp href)
        refine ⟨e, he, heq, ?_⟩
        have hdisposition : e.disposition = .MERGE := of_decide_eq_true hmerged
        rw [hdisposition]
        decide
      | false =>
        unfold refsOf at href
        rw [hmerge] at href
        exact ⟨g.1, hd, (List.mem_singleton.mp href).symm, hadmitted⟩
    · intro entry hentry
      obtain ⟨g, hg, rfl⟩ := List.mem_map.mp hentry
      refine ⟨fun fact hfact => ?_, fun slice hslice => ?_, fun id hid => ?_⟩
      · obtain ⟨option, hoption, hin⟩ := mem_reconciledEvidence.mp hfact
        obtain ⟨hmem, href⟩ := (mem_optionsOf hrefs).mp hoption
        exact ⟨option, hmem, href, hin⟩
      · obtain ⟨option, hoption, hin⟩ := mem_reconciledEvidence.mp hslice
        obtain ⟨hmem, href⟩ := (mem_optionsOf hrefs).mp hoption
        exact ⟨option, hmem, href, hin⟩
      · obtain ⟨option, hoption, hin⟩ := mem_sortedNames.mp hid
        obtain ⟨hmem, href⟩ := (mem_optionsOf hrefs).mp hoption
        exact ⟨option, hmem, href, hin⟩
    · refine admitCandidates_ok ?_ fun c hc => ?_
      · rw [List.map_map]
        rw [List.map_map]
        exact hdistinct
      · obtain ⟨entry, hentry, rfl⟩ := List.mem_map.mp hc
        exact hchecked entry hentry

/-! ## Two batches -/

def proposalOf (name fact : String) : Json :=
  .obj [("name", .str name), ("statement", .str "orders are capped"),
    ("evidenceFactIds", .arr [.str fact])]

def optionOf (ref childResultId slotId name fact : String) : CandidateOption :=
  { ref, childResultId, slotId, independenceGroup := slotId, proposal := proposalOf name fact }

def batchScope : Scope where
  projectId := "P"
  snapshotManifestId := "SNAPSHOT"
  analysisRunId := "RUN"
  workUnitId := "UNIT"

def batchRoute : Json :=
  .obj [("modelCapabilityProfileId", .str "MODEL"), ("skillId", .str "SKILL"),
    ("skillVersion", .str "1.0.0")]

def batchCandidate : BaseCandidate where
  scope := batchScope
  kind := .str "CANDIDATE_FEATURE"
  name := .str "orders.js"
  statement := .str "orders.js"
  subjectKey := .str "orders.js"
  confidence := .str "LOW"

def batchAllowset : Allowset where
  scope := batchScope
  factIds := ["FACT-A", "FACT-B"]
  sourceSliceIds := []
  confidenceCap := .str "LOW"
  selectedRoutes := [batchRoute]

def batchContext : BatchContext where
  artifactId := "ARTIFACT"
  candidate := batchCandidate
  allowset := batchAllowset
  scopedPaths := ["orders.js"]
  producerForSlot := fun _ => some batchRoute
  analysisBatchId := "BATCH"
  mainResultId := "MAIN"

/-- It orders the texts of these batches as `localeCompare` does. -/
def compareTexts (a b : String) : Int :=
  if codeUnits a = codeUnits b then 0 else if codeUnits a ≤ codeUnits b then -1 else 1

/-- SHA-256 on what the ids of the candidates of these batches are made from. -/
def batchDigest : String → String :=
  tabledDigest [(33955, "b4840e78b87f0ae0c37ac9ab8655edbcbbcd6c23e1e059a912cc8a2881abb130"),
    (26478, "55beafecebe891201dd558c024482913d551ab9c39da56412171193f788503bb"),
    (26008, "b5597a3f503e9de6ec1a017915ab3425152cb4075bcf014bece2e7e82e9452ad")]

def decisionJson (ref disposition : String) : Json :=
  .obj [("candidateRef", .str ref), ("disposition", .str disposition),
    ("rationale", .str "agreed")]

def mergeJson (ref other : String) : Json :=
  .obj [("candidateRef", .str ref), ("disposition", .str "MERGE"),
    ("relatedCandidateRefs", .arr [.str other]), ("rationale", .str "agreed"),
    ("mergedProposal", .obj [("name", .str "order cap"), ("statement", .str "orders are capped")])]

def outputOf (decisions : List Json) : Option Json :=
  some (.obj [("candidateDecisions", .arr decisions)])

/-- Two options are merged, one is accepted and one rejected. -/
def siftedOptions : List CandidateOption :=
  [optionOf "A:0" "A" "SLOT-A" "cap" "FACT-A", optionOf "B:0" "B" "SLOT-B" "limit" "FACT-B",
    optionOf "A:1" "A" "SLOT-A" "limit" "FACT-A", optionOf "B:1" "B" "SLOT-B" "guess" "FACT-B"]

def siftedOutput : Option Json :=
  outputOf [mergeJson "A:0" "B:0", mergeJson "B:0" "A:0", decisionJson "A:1" "ACCEPT",
    decisionJson "B:1" "REJECT"]

/-- One child proposes the same twice, and both are accepted. -/
def twinOptions : List CandidateOption :=
  [optionOf "A:0" "A" "SLOT-A" "cap" "FACT-A", optionOf "A:1" "A" "SLOT-A" "cap" "FACT-A"]

def twinOutput : Option Json :=
  outputOf [decisionJson "A:0" "ACCEPT", decisionJson "A:1" "ACCEPT"]

/-- What holds of the decisions and of the candidates of a batch. -/
def checkBatch (options : List CandidateOption) (output : Option Json)
    (check : List MainOutput.Decision → List (List String × ReconciledCandidate) → Bool) : Bool :=
  match validateMainProducerOutput output (options.map CandidateOption.ref) with
  | .ok decisions =>
    match reconcileBatch compareTexts batchDigest batchContext options decisions with
    | .ok batch => check decisions batch
    | .error _ => false
  | .error _ => false

variable {options : List CandidateOption}

theorem checkBatch_ok {output : Option Json}
    {check : List MainOutput.Decision → List (List String × ReconciledCandidate) → Bool}
    (h : checkBatch options output check = true) :
    ∃ decisions batch,
      validateMainProducerOutput output (options.map CandidateOption.ref) = .ok decisions ∧
      reconcileBatch compareTexts batchDigest batchContext options decisions = .ok batch ∧
      check decisions batch = true := by
  unfold checkBatch at h
  cases houtput : validateMainProducerOutput output (options.map CandidateOption.ref) with
  | error e =>
    rw [houtput] at h
    cases h
  | ok decisions =>
    rw [houtput] at h
    dsimp only at h
    cases hbatch : reconcileBatch compareTexts batchDigest batchContext options decisions with
    | error e =>
      rw [hbatch] at h
      cases h
    | ok batch =>
      rw [hbatch] at h
      exact ⟨decisions, batch, rfl, hbatch, h⟩

/-- The identities of the groups, and their ids. -/
def identityTexts (options : List CandidateOption) (decisions : List MainOutput.Decision) : List String :=
  (admittedGroups decisions).map fun g =>
    canonicalJson (identityOf compareTexts options batchContext g)

def identityIds (options : List CandidateOption) (decisions : List MainOutput.Decision) : List String :=
  (admittedGroups decisions).map fun g =>
    contentId batchDigest "UNDERSTANDING-CANDIDATE"
      (identityOf compareTexts options batchContext g)

theorem told_of_texts {decisions : List MainOutput.Decision}
    (h : (identityTexts options decisions).Nodup) : Told compareTexts options decisions := by
  unfold identityTexts List.Nodup at h
  rw [List.pairwise_map] at h
  exact h.imp fun hne hsame => hne ((identity_eq_iff batchContext _ _).mpr hsame)

theorem apart_of_ids {decisions : List MainOutput.Decision}
    (h : (identityIds options decisions).Nodup) :
    DigestsApart compareTexts options batchDigest batchContext decisions := by
  intro g hg g' hg' hid
  rw [List.inj_on_of_nodup_map h hg hg' hid]

/-- The two merged options are one candidate, the accepted one is another. -/
theorem sifted_batch_is_accounted_for : ∃ decisions batch,
    validateMainProducerOutput siftedOutput (siftedOptions.map CandidateOption.ref) =
      .ok decisions ∧
    reconcileBatch compareTexts batchDigest batchContext siftedOptions decisions = .ok batch ∧
    batch.map (·.1) = [["A:0", "B:0"], ["A:1"]] ∧
    Accounted decisions batchContext siftedOptions batch := by
  have hcheck : checkBatch siftedOptions siftedOutput (fun decisions batch =>
      decide ((identityTexts siftedOptions decisions).Nodup ∧
        (identityIds siftedOptions decisions).Nodup ∧
        batch.map (·.1) = [["A:0", "B:0"], ["A:1"]])) = true := by decide +kernel
  obtain ⟨decisions, batch, houtput, hbatch, hcheck⟩ := checkBatch_ok hcheck
  obtain ⟨htexts, hids, hrefs⟩ := of_decide_eq_true hcheck
  refine ⟨decisions, batch, houtput, hbatch, hrefs, ?_⟩
  exact (batch_accounts_iff compareTexts batchDigest batchContext siftedOptions siftedOutput
    decisions batch (by decide) houtput hbatch (apart_of_ids hids)).mpr (told_of_texts htexts)

/-- The twins have one id, with which the later reconciliation refuses them. -/
theorem twins_are_not_accounted_for : ∃ decisions batch,
    validateMainProducerOutput twinOutput (twinOptions.map CandidateOption.ref) =
      .ok decisions ∧
    reconcileBatch compareTexts batchDigest batchContext twinOptions decisions = .ok batch ∧
    ¬ Accounted decisions batchContext twinOptions batch ∧
    ∀ allowsets, admitCandidates allowsets (batch.map (·.2)) =
      typeError "Candidate ids must be unique within a reconciliation" := by
  have hcheck : checkBatch twinOptions twinOutput (fun _ batch =>
      decide (¬ (batch.map fun g => g.2.id).Nodup)) = true := by decide +kernel
  obtain ⟨decisions, batch, houtput, hbatch, hcheck⟩ := checkBatch_ok hcheck
  have hids := of_decide_eq_true hcheck
  refine ⟨decisions, batch, houtput, hbatch, fun h => hids h.distinct, fun allowsets => ?_⟩
  unfold admitCandidates
  rw [if_pos]
  intro hsize
  refine hids ?_
  have hnodup := (OrderedMap.nodup_iff_size _).mp (hsize.trans (List.length_map _).symm)
  rw [List.map_map] at hnodup
  exact hnodup

end Traqen.MainReconciliation
