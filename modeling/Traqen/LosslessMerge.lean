-- Merging keeps every candidate, once, with its evidence, and what comes out does not depend
-- on the order of the bundles: the groups of a permuted list are the same groups.
import Traqen.ReverseMerge

open Js

namespace Traqen.ReverseSkill

/-! ## Evidence -/

theorem evidence_json_injective {e f : EvidenceRef}
    (h : canonicalJson e.toJson = canonicalJson f.toJson) : e = f := by
  have hsame := (canonicalJson_eq_iff _ _).mp h
  obtain ⟨a, ha, hfact⟩ := hsame.field (k := "factId") (v := .str e.factId) (by simp)
  obtain ⟨b, hb, hrelation⟩ := hsame.field (k := "relation") (v := .str e.relation) (by simp)
  simp at ha hb
  subst ha hb
  simp only [SameValue, canonicalizeValue, Json.str.injEq] at hfact hrelation
  cases e
  cases f
  rw [EvidenceRef.mk.injEq]
  exact ⟨hfact, hrelation⟩

/-- Evidence is dropped only where the same stays. -/
theorem mem_distinctEvidence {items : List EvidenceRef} {e : EvidenceRef} :
    e ∈ distinctEvidence items ↔ e ∈ items := by
  unfold distinctEvidence
  constructor
  · intro h
    obtain ⟨entry, hentry, rfl⟩ := List.mem_map.mp h
    obtain ⟨item, hitem, rfl⟩ := List.mem_map.mp (OrderedMap.mem_of_mem_ofList hentry)
    exact hitem
  · intro h
    obtain ⟨entry, hentry, hkey⟩ := (OrderedMap.key_mem_ofList
      (items.map fun item => (canonicalJson item.toJson, item)) (canonicalJson e.toJson)).mpr
      ⟨_, List.mem_map_of_mem h, rfl⟩
    obtain ⟨item, _, rfl⟩ := List.mem_map.mp (OrderedMap.mem_of_mem_ofList hentry)
    rw [← evidence_json_injective hkey]
    exact List.mem_map_of_mem hentry

/-! ## Merged entries -/

/-- What a merged feature, claim or question says of the candidates in it. -/
structure MergedEntry where
  id : String
  evidence : List EvidenceRef
  sources : List MergedSource
deriving DecidableEq

def MergedEntry.candidateIds (m : MergedEntry) : List String := m.sources.map (·.candidateId)

def MergedFeature.entry (m : MergedFeature) : MergedEntry := ⟨m.id, m.evidence, m.sources⟩

def MergedClaim.entry (m : MergedClaim) : MergedEntry := ⟨m.id, m.evidence, m.sources⟩

def MergedQuestion.entry (m : MergedQuestion) : MergedEntry := ⟨m.id, m.evidence, m.sources⟩

/-- The candidate is a source of exactly one entry, once, and the entry has its evidence. -/
def HeldOnce (entries : List MergedEntry) (source : MergedSource) (evidence : List EvidenceRef) :
    Prop :=
  ∃ m, entries.filter (fun n => source.candidateId ∈ n.candidateIds) = [m] ∧
    m.sources.filter (fun s => s.candidateId = source.candidateId) = [source] ∧
    ∀ e ∈ evidence, e ∈ m.evidence

/-- One id, with the same sources and the same evidence, in any order. -/
structure SameEntry (m n : MergedEntry) : Prop where
  id : m.id = n.id
  sources : ∀ s, s ∈ m.sources ↔ s ∈ n.sources
  evidence : ∀ e, e ∈ m.evidence ↔ e ∈ n.evidence

def SameEntries (ms ns : List MergedEntry) : Prop :=
  (∀ m ∈ ms, ∃ n ∈ ns, SameEntry m n) ∧ ∀ n ∈ ns, ∃ m ∈ ms, SameEntry m n

section Entries

variable {α κ : Type} [DecidableEq κ] (key : α → κ) (mergedId : κ → String)
  (source : α → MergedSource) (evidence : α → List EvidenceRef)

/-- The entries of the groups. -/
def entriesOf (items : List α) : List MergedEntry :=
  (Grouping.groupsOf key items).map fun e =>
    ⟨mergedId e.1, mergeEvidence evidence e.2, e.2.map source⟩

variable {key mergedId source evidence} {items : List α}

theorem mem_entriesOf {m : MergedEntry} : m ∈ entriesOf key mergedId source evidence items ↔
    ∃ x ∈ items, m = ⟨mergedId (key x),
      mergeEvidence evidence (items.filter fun y => key y = key x),
      (items.filter fun y => key y = key x).map source⟩ := by
  unfold entriesOf
  rw [List.mem_map]
  constructor
  · rintro ⟨⟨k, xs⟩, he, rfl⟩
    obtain ⟨x, hx, hk⟩ := (Grouping.key_mem_groupsOf key items k).mp ⟨_, he, rfl⟩
    obtain ⟨hxs, _⟩ := Grouping.mem_groupsOf.mp he
    subst hk hxs
    exact ⟨x, hx, rfl⟩
  · rintro ⟨x, hx, rfl⟩
    exact ⟨_, Grouping.group_of_mem key hx, rfl⟩

/-- Two items of one id are one item. -/
theorem eq_of_candidateId (hids : (items.map fun x => (source x).candidateId).Nodup) {x y : α}
    (hx : x ∈ items) (hy : y ∈ items) (h : (source x).candidateId = (source y).candidateId) :
    x = y :=
  List.inj_on_of_nodup_map hids hx hy h

theorem candidateId_mem_group (hids : (items.map fun x => (source x).candidateId).Nodup) {x : α}
    (hx : x ∈ items) {e : κ × List α} (he : e ∈ Grouping.groupsOf key items) :
    (source x).candidateId ∈ (e.2.map source).map (·.candidateId) ↔ e.1 = key x := by
  obtain ⟨k, xs⟩ := e
  obtain ⟨rfl, _⟩ := Grouping.mem_groupsOf.mp he
  rw [List.map_map, List.mem_map]
  constructor
  · rintro ⟨y, hy, hid⟩
    obtain ⟨hy, hk⟩ := List.mem_filter.mp hy
    rw [← eq_of_candidateId hids hy hx hid]
    exact (of_decide_eq_true hk).symm
  · intro h
    exact ⟨x, List.mem_filter.mpr ⟨hx, decide_eq_true h.symm⟩, rfl⟩

theorem entriesOf_heldOnce (hids : (items.map fun x => (source x).candidateId).Nodup) {x : α}
    (hx : x ∈ items) :
    HeldOnce (entriesOf key mergedId source evidence items) (source x) (evidence x) := by
  have hgroup := Grouping.group_of_mem key hx
  refine ⟨⟨mergedId (key x), mergeEvidence evidence (items.filter fun y => key y = key x),
    (items.filter fun y => key y = key x).map source⟩, ?_, ?_, ?_⟩
  · unfold entriesOf
    rw [List.filter_map]
    have hfilter : (Grouping.groupsOf key items).filter
        ((fun n : MergedEntry => decide ((source x).candidateId ∈ n.candidateIds)) ∘
          fun e => ⟨mergedId e.1, mergeEvidence evidence e.2, e.2.map source⟩) =
        (Grouping.groupsOf key items).filter fun e => e.1 = key x := by
      apply List.filter_congr
      intro e he
      exact decide_eq_decide.mpr (candidateId_mem_group hids hx he)
    rw [hfilter, OrderedMap.keyed_filter (Grouping.keyed_groupsOf key items) hgroup]
    rfl
  · rw [List.filter_map]
    have hsub : ((items.filter fun y => key y = key x).map fun y => (source y).candidateId).Nodup :=
      hids.sublist (List.filter_sublist.map _)
    have hself := OrderedMap.filter_by_key hsub (List.mem_filter.mpr ⟨hx, decide_eq_true rfl⟩)
    exact congrArg (List.map source) hself
  · intro e he
    unfold mergeEvidence
    rw [mem_distinctEvidence, List.mem_flatMap]
    exact ⟨x, List.mem_filter.mpr ⟨hx, by simp⟩, he⟩

/-- Two items share an entry exactly when they have one key. -/
theorem entriesOf_shared (hids : (items.map fun x => (source x).candidateId).Nodup) {x y : α}
    (hx : x ∈ items) (hy : y ∈ items) :
    (∃ m ∈ entriesOf key mergedId source evidence items,
      (source x).candidateId ∈ m.candidateIds ∧ (source y).candidateId ∈ m.candidateIds) ↔
      key x = key y := by
  unfold entriesOf
  constructor
  · rintro ⟨m, hm, hxm, hym⟩
    obtain ⟨e, he, rfl⟩ := List.mem_map.mp hm
    rw [← (candidateId_mem_group hids hx he).mp hxm, (candidateId_mem_group hids hy he).mp hym]
  · intro h
    have hgroup := Grouping.group_of_mem key hx
    refine ⟨_, List.mem_map_of_mem hgroup, ?_, ?_⟩
    · exact (candidateId_mem_group hids hx hgroup).mpr rfl
    · exact (candidateId_mem_group hids hy hgroup).mpr h

/-- Another order of the items gives the same entries. -/
theorem entriesOf_perm {items' : List α} (h : items.Perm items') :
    SameEntries (entriesOf key mergedId source evidence items)
      (entriesOf key mergedId source evidence items') := by
  have hsame : ∀ x, SameEntry
      ⟨mergedId (key x), mergeEvidence evidence (items.filter fun y => key y = key x),
        (items.filter fun y => key y = key x).map source⟩
      ⟨mergedId (key x), mergeEvidence evidence (items'.filter fun y => key y = key x),
        (items'.filter fun y => key y = key x).map source⟩ := by
    intro x
    have hgroup := h.filter fun y => key y = key x
    refine ⟨rfl, ?_, ?_⟩
    · intro s
      exact (hgroup.map source).mem_iff
    · intro e
      unfold mergeEvidence
      rw [mem_distinctEvidence, mem_distinctEvidence]
      exact (hgroup.flatMap_right evidence).mem_iff
  constructor
  · intro m hm
    obtain ⟨x, hx, rfl⟩ := mem_entriesOf.mp hm
    exact ⟨_, mem_entriesOf.mpr ⟨x, h.mem_iff.mp hx, rfl⟩, hsame x⟩
  · intro n hn
    obtain ⟨x, hx, rfl⟩ := mem_entriesOf.mp hn
    exact ⟨_, mem_entriesOf.mpr ⟨x, h.mem_iff.mpr hx, rfl⟩, hsame x⟩

end Entries

/-! ## The merged lists -/

section Lists

variable {sha256 toLowerCase : String → String} {runId : String}

theorem feature_entries (features : List CandidateFeature) :
    (mergeFeatures sha256 runId features).map (·.entry) =
      entriesOf (·.externalKey) (mergedFeatureId sha256 runId) (·.source) (·.evidence) features := by
  unfold mergeFeatures entriesOf
  rw [List.map_map]
  rfl

theorem claim_entries (claims : List CandidateClaim) :
    (mergeClaims sha256 toLowerCase runId claims).map (·.entry) =
      entriesOf (claimIdentity toLowerCase) (mergedClaimId sha256 runId) (·.source) (·.evidence)
        claims := by
  unfold mergeClaims entriesOf
  rw [List.map_map]
  rfl

theorem question_entries (questions : List OpenQuestion) :
    (mergeQuestions sha256 toLowerCase runId questions).map (·.entry) =
      entriesOf (questionIdentity toLowerCase) (openQuestionId sha256 runId) (·.source) (·.evidence)
        questions := by
  unfold mergeQuestions entriesOf
  rw [List.map_map]
  rfl

end Lists

/-! ## Conflicts in any order -/

variable {claims : List CandidateClaim}

section Order

variable {sha256 toLowerCase : String → String} {runId : String} {mergedAt : Json}

/-- The sorted merged ids of two claims. -/
def mergedPair (sha256 toLowerCase : String → String) (runId : String) (c d : CandidateClaim) :
    List String :=
  sortTexts [mergedClaimId sha256 runId (claimIdentity toLowerCase c),
    mergedClaimId sha256 runId (claimIdentity toLowerCase d)]

/-- Two merged claims that contradict each other. -/
def Clash (sha256 toLowerCase : String → String) (runId : String) (c d : CandidateClaim) : Prop :=
  mergedClaimId sha256 runId (claimIdentity toLowerCase c) ≠
    mergedClaimId sha256 runId (claimIdentity toLowerCase d) ∧ contradicts c d = true

/-- The texts that are hashed for the conflicts of these claims have different digests. -/
def ConflictIdsApart (sha256 toLowerCase : String → String) (runId : String)
    (claims : List CandidateClaim) : Prop :=
  ∀ a ∈ claims, ∀ b ∈ claims, ∀ c ∈ claims, ∀ d ∈ claims,
    Clash sha256 toLowerCase runId a b → Clash sha256 toLowerCase runId c d →
    conflictIdOf sha256 runId (mergedPair sha256 toLowerCase runId a b) =
      conflictIdOf sha256 runId (mergedPair sha256 toLowerCase runId c d) →
    mergedPair sha256 toLowerCase runId a b = mergedPair sha256 toLowerCase runId c d

theorem clash_comm (c d : CandidateClaim) :
    Clash sha256 toLowerCase runId c d ↔ Clash sha256 toLowerCase runId d c := by
  unfold Clash
  rw [contradicts_comm, ne_comm]

theorem mergedPair_comm (c d : CandidateClaim) :
    mergedPair sha256 toLowerCase runId c d = mergedPair sha256 toLowerCase runId d c :=
  sortTexts_perm (List.Perm.swap _ _ [])

/-- Of two claims there is one pair of merged claims. -/
theorem mergedPair_of_two {x y a b c d : CandidateClaim} (ha : a ∈ [x, y]) (hb : b ∈ [x, y])
    (hc : c ∈ [x, y]) (hd : d ∈ [x, y])
    (hab : mergedClaimId sha256 runId (claimIdentity toLowerCase a) ≠
      mergedClaimId sha256 runId (claimIdentity toLowerCase b))
    (hcd : mergedClaimId sha256 runId (claimIdentity toLowerCase c) ≠
      mergedClaimId sha256 runId (claimIdentity toLowerCase d)) :
    mergedPair sha256 toLowerCase runId a b = mergedPair sha256 toLowerCase runId c d := by
  have hpair : a = c ∧ b = d ∨ a = d ∧ b = c := by
    have hne : a ≠ b := fun heq => hab (heq ▸ rfl)
    have hne' : c ≠ d := fun heq => hcd (heq ▸ rfl)
    simp only [List.mem_pair] at ha hb hc hd
    clear hab hcd
    grind
  rcases hpair with ⟨rfl, rfl⟩ | ⟨rfl, rfl⟩
  · rfl
  · exact mergedPair_comm a b

/-- The conflicts of the claims, as the merge finds them. -/
def conflictsOf (sha256 toLowerCase : String → String) (runId : String) (mergedAt : Json)
    (claims : List CandidateClaim) : List Conflict :=
  findConflicts sha256 runId mergedAt
    (duplicateClaimIds (mergeClaims sha256 toLowerCase runId claims)) claims

variable (hids : (claims.map (·.id)).Nodup)
include hids

theorem conflictIds_eq {c d : CandidateClaim} (hc : c ∈ claims) (hd : d ∈ claims) :
    conflictIds (duplicateClaimIds (mergeClaims sha256 toLowerCase runId claims)) c d =
      mergedPair sha256 toLowerCase runId c d := by
  unfold conflictIds
  rw [mergedIdOf_eq hids hc, mergedIdOf_eq hids hd]
  rfl

theorem reports_iff {c d : CandidateClaim} (hc : c ∈ claims) (hd : d ∈ claims) :
    Reports (duplicateClaimIds (mergeClaims sha256 toLowerCase runId claims)) c d ↔
      Clash sha256 toLowerCase runId c d := by
  unfold Reports
  rw [mergedIdOf_eq hids hc, mergedIdOf_eq hids hd]
  rfl

theorem conflict_of_clash (mergedAt : Json) {c d : CandidateClaim} (hp : (c, d) ∈ pairs claims)
    (h : Clash sha256 toLowerCase runId c d) :
    ∃ k ∈ conflictsOf sha256 toLowerCase runId mergedAt claims,
      k.id = conflictIdOf sha256 runId (mergedPair sha256 toLowerCase runId c d) := by
  obtain ⟨hc, hd⟩ := pairs_mem hp
  rw [← conflictIds_eq hids hc hd]
  exact findConflicts_complete hp ((reports_iff hids hc hd).mpr h)

theorem clash_of_conflict
    {k : Conflict} (hk : k ∈ conflictsOf sha256 toLowerCase runId mergedAt claims) :
    ∃ c d, (c, d) ∈ pairs claims ∧ Clash sha256 toLowerCase runId c d ∧
      k.candidateIds = mergedPair sha256 toLowerCase runId c d ∧
      k.id = conflictIdOf sha256 runId (mergedPair sha256 toLowerCase runId c d) := by
  obtain ⟨c, d, hp, hr, rfl⟩ := findConflicts_sound hk
  obtain ⟨hc, hd⟩ := pairs_mem hp
  refine ⟨c, d, hp, (reports_iff hids hc hd).mp hr, conflictIds_eq hids hc hd, ?_⟩
  rw [← conflictIds_eq hids hc hd]
  rfl

/-- A conflict of one order has its id in the other order too, with the same candidates
unless digests collide. -/
theorem conflict_of_perm {claims' : List CandidateClaim}
    (hperm : claims.Perm claims') {mergedAt' : Json} {k : Conflict}
    (hk : k ∈ conflictsOf sha256 toLowerCase runId mergedAt claims) :
    ∃ k' ∈ conflictsOf sha256 toLowerCase runId mergedAt' claims', k'.id = k.id ∧
      (ConflictIdsApart sha256 toLowerCase runId claims → k'.candidateIds = k.candidateIds) := by
  have hids' : (claims'.map (·.id)).Nodup := (hperm.map _).nodup_iff.mp hids
  obtain ⟨c, d, hp, hclash, hcandidates, hid⟩ := clash_of_conflict hids hk
  obtain ⟨hc, hd⟩ := pairs_mem hp
  have hthere : ∃ k' ∈ conflictsOf sha256 toLowerCase runId mergedAt' claims',
      k'.id = conflictIdOf sha256 runId (mergedPair sha256 toLowerCase runId c d) := by
    rcases pairs_of_perm hperm hp with hp' | hp'
    · exact conflict_of_clash hids' mergedAt' hp' hclash
    · rw [mergedPair_comm]
      exact conflict_of_clash hids' mergedAt' hp' ((clash_comm c d).mp hclash)
  obtain ⟨k', hk', hid'⟩ := hthere
  refine ⟨k', hk', hid'.trans hid.symm, ?_⟩
  intro hapart
  obtain ⟨a, b, hab, hclash', hcandidates', hid''⟩ := clash_of_conflict hids' hk'
  obtain ⟨ha, hb⟩ := pairs_mem hab
  rw [hcandidates, hcandidates']
  exact hapart a (hperm.mem_iff.mpr ha) b (hperm.mem_iff.mpr hb) c hc d hd hclash' hclash
    (hid''.symm.trans hid')

omit hids

end Order

/-! ## The law -/

/-- No feature, claim or question has the id of another one. -/
structure DistinctCandidateIds (bundles : List ReverseArtifactBundle) : Prop where
  features : ((allFeatures bundles).map (·.id)).Nodup
  claims : ((allClaims bundles).map (·.id)).Nodup
  questions : ((allQuestions bundles).map (·.id)).Nodup

/-- Every candidate is in one merged entry with its evidence, and two claims are in one exactly
when they agree. -/
structure Lossless (toLowerCase : String → String) (bundles : List ReverseArtifactBundle)
    (r : ReverseMerge) : Prop where
  features : ∀ f ∈ allFeatures bundles,
    HeldOnce (r.candidateFeatures.map (·.entry)) f.source f.evidence
  claims : ∀ c ∈ allClaims bundles, HeldOnce (r.candidateClaims.map (·.entry)) c.source c.evidence
  questions : ∀ q ∈ allQuestions bundles,
    HeldOnce (r.openQuestions.map (·.entry)) q.source q.evidence
  shared : ∀ c ∈ allClaims bundles, ∀ d ∈ allClaims bundles,
    (∃ m ∈ r.candidateClaims.map (·.entry), c.id ∈ m.candidateIds ∧ d.id ∈ m.candidateIds) ↔
      Agree toLowerCase c d

/-- The same merged ids with the same sources and evidence, and the same conflict ids. -/
structure SameMerge (r r' : ReverseMerge) : Prop where
  features : SameEntries (r.candidateFeatures.map (·.entry)) (r'.candidateFeatures.map (·.entry))
  claims : SameEntries (r.candidateClaims.map (·.entry)) (r'.candidateClaims.map (·.entry))
  questions : SameEntries (r.openQuestions.map (·.entry)) (r'.openQuestions.map (·.entry))
  conflictIds : ∀ i, i ∈ r.conflicts.map (·.id) ↔ i ∈ r'.conflicts.map (·.id)

/-- The same conflicts, each with the same candidates. -/
def SameCandidates (r r' : ReverseMerge) : Prop :=
  ∀ i ids, (i, ids) ∈ r.conflicts.map (fun k => (k.id, k.candidateIds)) ↔
    (i, ids) ∈ r'.conflicts.map fun k => (k.id, k.candidateIds)

section Law

variable {sha256 toLowerCase : String → String} {runId : String} {mergedAt mergedAt' : Json}
  {first first' : ReverseArtifactBundle} {bundles bundles' : List ReverseArtifactBundle}

variable (hids : DistinctCandidateIds bundles)
include hids

theorem mergeOf_lossless : Lossless toLowerCase bundles
      (mergeOf sha256 toLowerCase runId mergedAt first bundles) := by
  refine ⟨?_, ?_, ?_, ?_⟩
  · intro f hf
    unfold mergeOf
    rw [feature_entries]
    exact entriesOf_heldOnce hids.features hf
  · intro c hc
    unfold mergeOf
    rw [claim_entries]
    exact entriesOf_heldOnce hids.claims hc
  · intro q hq
    unfold mergeOf
    rw [question_entries]
    exact entriesOf_heldOnce hids.questions hq
  · intro c hc d hd
    unfold mergeOf
    rw [claim_entries, ← claimIdentity_eq_iff]
    exact entriesOf_shared hids.claims hc hd

theorem mergeOf_conflict_of_perm (hperm : bundles.Perm bundles') {k : Conflict}
    (hk : k ∈ (mergeOf sha256 toLowerCase runId mergedAt first bundles).conflicts) :
    ∃ k' ∈ (mergeOf sha256 toLowerCase runId mergedAt' first' bundles').conflicts, k'.id = k.id ∧
      (ConflictIdsApart sha256 toLowerCase runId (allClaims bundles) →
        k'.candidateIds = k.candidateIds) :=
  conflict_of_perm hids.claims (hperm.flatMap_right _) hk

theorem distinctCandidateIds_perm
    (hperm : bundles.Perm bundles') : DistinctCandidateIds bundles' where
  features := ((hperm.flatMap_right _).map _).nodup_iff.mp hids.features
  claims := ((hperm.flatMap_right _).map _).nodup_iff.mp hids.claims
  questions := ((hperm.flatMap_right _).map _).nodup_iff.mp hids.questions

omit hids in
theorem conflictIdsApart_perm {claims' : List CandidateClaim} (hperm : claims.Perm claims')
    (h : ConflictIdsApart sha256 toLowerCase runId claims) :
    ConflictIdsApart sha256 toLowerCase runId claims' := by
  intro a ha b hb c hc d hd
  exact h a (hperm.mem_iff.mpr ha) b (hperm.mem_iff.mpr hb) c (hperm.mem_iff.mpr hc) d
    (hperm.mem_iff.mpr hd)

theorem mergeOf_sameMerge (hperm : bundles.Perm bundles') :
    SameMerge (mergeOf sha256 toLowerCase runId mergedAt first bundles)
      (mergeOf sha256 toLowerCase runId mergedAt' first' bundles') := by
  refine ⟨?_, ?_, ?_, ?_⟩
  · unfold mergeOf
    rw [feature_entries, feature_entries]
    exact entriesOf_perm (hperm.flatMap_right _)
  · unfold mergeOf
    rw [claim_entries, claim_entries]
    exact entriesOf_perm (hperm.flatMap_right _)
  · unfold mergeOf
    rw [question_entries, question_entries]
    exact entriesOf_perm (hperm.flatMap_right _)
  · intro i
    constructor
    · intro h
      obtain ⟨k, hk, rfl⟩ := List.mem_map.mp h
      obtain ⟨k', hk', hid, _⟩ := mergeOf_conflict_of_perm hids hperm hk
      exact List.mem_map.mpr ⟨k', hk', hid⟩
    · intro h
      obtain ⟨k, hk, rfl⟩ := List.mem_map.mp h
      obtain ⟨k', hk', hid, _⟩ :=
        mergeOf_conflict_of_perm (distinctCandidateIds_perm hids hperm) hperm.symm hk
      exact List.mem_map.mpr ⟨k', hk', hid⟩

theorem mergeOf_sameCandidates
    (hapart : ConflictIdsApart sha256 toLowerCase runId (allClaims bundles))
    (hperm : bundles.Perm bundles') :
    SameCandidates (mergeOf sha256 toLowerCase runId mergedAt first bundles)
      (mergeOf sha256 toLowerCase runId mergedAt' first' bundles') := by
  intro i ids
  constructor
  · intro h
    obtain ⟨k, hk, heq⟩ := List.mem_map.mp h
    obtain ⟨k', hk', hid, hcandidates⟩ := mergeOf_conflict_of_perm hids hperm hk
    rw [← heq, ← hid, ← hcandidates hapart]
    exact List.mem_map_of_mem hk'
  · intro h
    obtain ⟨k, hk, heq⟩ := List.mem_map.mp h
    obtain ⟨k', hk', hid, hcandidates⟩ :=
      mergeOf_conflict_of_perm (distinctCandidateIds_perm hids hperm) hperm.symm hk
    have hapart' := conflictIdsApart_perm (hperm.flatMap_right (·.candidateClaims)) hapart
    rw [← heq, ← hid, ← hcandidates hapart']
    exact List.mem_map_of_mem hk'

omit hids

end Law

/-- Merging the bundles of one run and scope loses nothing, and a permutation of them merges to
the same: the candidates of a conflict too, where SHA-256 does not give two of them one id. -/
theorem merging_is_lossless_in_any_order {sha256 toLowerCase : String → String}
    {dateParse : String → Option Int} {clock : Instant} {input : MergeInput} {runId : String}
    {bundles : List ReverseArtifactBundle} (hbundles : input.bundles = some bundles)
    (hne : bundles ≠ []) (hrun : requireNonEmptyString input.runId "runId" = .ok runId)
    (hscope : OneRunAndScope runId bundles)
    (hat : ∃ t, requireIsoTimestamp dateParse (some (mergedAtOf clock input)) "mergedAt" = .ok t)
    (hids : DistinctCandidateIds bundles) :
    ∃ r, mergeReverseArtifactBundles sha256 toLowerCase dateParse clock input = .ok r ∧
      Lossless toLowerCase bundles r ∧
      ∀ bundles', bundles.Perm bundles' →
        ∃ r', mergeReverseArtifactBundles sha256 toLowerCase dateParse clock
            { input with bundles := some bundles' } = .ok r' ∧
          SameMerge r r' ∧
          (ConflictIdsApart sha256 toLowerCase runId (allClaims bundles) → SameCandidates r r') := by
  obtain ⟨first, rest, rfl⟩ := List.exists_cons_of_ne_nil hne
  refine ⟨_, merge_of_checks hrun hbundles hscope hat, mergeOf_lossless hids, ?_⟩
  intro bundles' hperm
  obtain ⟨first', rest', rfl⟩ := List.exists_cons_of_ne_nil
    (fun hnil => hne (List.perm_nil.mp (hnil ▸ hperm)))
  have hscope' : OneRunAndScope runId (first' :: rest') :=
    ⟨fun b hb => hscope.run b (hperm.mem_iff.mpr hb),
      fun b hb b' hb' => hscope.scope b (hperm.mem_iff.mpr hb) b' (hperm.mem_iff.mpr hb')⟩
  have haccepted : mergeReverseArtifactBundles sha256 toLowerCase dateParse clock
      { input with bundles := some (first' :: rest') } =
        .ok (mergeOf sha256 toLowerCase runId (mergedAtOf clock input) first' (first' :: rest')) :=
    merge_of_checks hrun rfl hscope' hat
  refine ⟨_, haccepted, mergeOf_sameMerge hids hperm, ?_⟩
  intro hapart
  exact mergeOf_sameCandidates hids hapart hperm

/-! ## Two skills on one limit -/

def limitProducer (skillId : String) : Producer where
  skillId := skillId
  skillVersion := "1.0.0"
  adapterId := "A"
  modelProfile := none
  promptVersion := none

/-- A claim that the limit of an order is this. -/
def limitClaim (skillId candidateId : String) (limit : Nat) : CandidateClaim where
  id := candidateId
  localId := "c1"
  type := .str "IMPLEMENTATION_BEHAVIOR"
  subjectKey := "order.limit"
  statement := "An order has a limit."
  confidence := .str "HIGH"
  constraint := some { dimension := "limit", operator := .str "EQUALS",
                       value := .num (Number.ofNat limit) }
  scope := []
  evidence := [{ factId := "F" ++ toString limit, relation := "SUPPORTS" }]
  producer := limitProducer skillId

def limitBundle (id : String) (claim : CandidateClaim) : ReverseArtifactBundle where
  id := id
  runId := "RUN"
  producer := claim.producer
  scope := { snapshot := { projectId := "P", snapshotManifestId := "SM", sourceComponentId := "S" }
             taskScope := [] }
  inputDigest := "sha256:abababababababababababababababababababababababababababababababab"
  rawOutputHash := "sha256:abababababababababababababababababababababababababababababababab"
  candidateFeatures := []
  candidateClaims := [claim]
  candidateTestSpecs := []
  openQuestions := []
  warnings := []
  generatedAt := .str "2026-07-15T12:00:00.000Z"

def limitClock : Instant := { time := 1784116800000, iso := "2026-07-15T12:00:00.000Z" }

def limitParse (text : String) : Option Int :=
  if text = limitClock.iso then some limitClock.time else none

/-- SHA-256 on the texts of a conflict, of the merge and of the two merged claims. -/
def limitDigest (text : String) : String :=
  if text.toList.getD 2 ' ' = 'c' then
    "1e4657989f8e3efba09191cedf6903ee1987f2590f5b4cf48bf7192e0edf3c36"
  else if text.toList.getD 2 ' ' = 'b' then
    "6d21582b38003d1ab95135f8b73f80db6816d63b5d9a562748b4250e07ef6480"
  else if '2' ∈ text.toList then
    "f4d92b159e16cfbb3a856d8f0f772586918bb5e38fe305f2a4128beda44cb296"
  else "542ccf46b29e6e1ac4588ab105707158b929a61d5d158a4c44ef0336ca88322b"

/-- Two skills that disagree. -/
def twoSkills : List ReverseArtifactBundle :=
  [limitBundle "BUNDLE-A" (limitClaim "SK-A" "CANDIDATE-90608e273bee753af235d3e9" 100),
    limitBundle "BUNDLE-B" (limitClaim "SK-B" "CANDIDATE-542b00bb3de05637e9b9fe1a" 200)]

def mergeInput (bundles : List ReverseArtifactBundle) : MergeInput where
  runId := some (.str "RUN")
  bundles := some bundles
  mergedAt := none

theorem twoSkills_scope : OneRunAndScope "RUN" twoSkills := by
  constructor
  · decide
  · unfold SameValue
    decide +kernel

theorem limitClock_reads (bundles : List ReverseArtifactBundle) :
    ∃ t, requireIsoTimestamp limitParse (some (mergedAtOf limitClock (mergeInput bundles)))
      "mergedAt" = .ok t := by
  have hat : requireIsoTimestamp limitParse (some (.str limitClock.iso)) "mergedAt" =
      .ok limitClock.time := by decide +kernel
  exact ⟨limitClock.time, hat⟩

theorem merge_twoSkills :
    mergeReverseArtifactBundles limitDigest String.toLower limitParse limitClock
      (mergeInput twoSkills) =
    .ok (mergeOf limitDigest String.toLower "RUN" (mergedAtOf limitClock (mergeInput twoSkills))
      (limitBundle "BUNDLE-A" (limitClaim "SK-A" "CANDIDATE-90608e273bee753af235d3e9" 100))
      twoSkills) :=
  merge_of_checks (by decide +kernel) rfl twoSkills_scope (limitClock_reads twoSkills)

theorem two_skills_merge_in_any_order :
    ∃ r, mergeReverseArtifactBundles limitDigest String.toLower limitParse limitClock
        (mergeInput twoSkills) = .ok r ∧
      Lossless String.toLower twoSkills r ∧
      ∀ bundles', twoSkills.Perm bundles' →
        ∃ r', mergeReverseArtifactBundles limitDigest String.toLower limitParse limitClock
            (mergeInput bundles') = .ok r' ∧
          SameMerge r r' ∧ SameCandidates r r' := by
  have hids : DistinctCandidateIds twoSkills :=
    ⟨by decide +kernel, by decide +kernel, by decide +kernel⟩
  have hapart : ConflictIdsApart limitDigest String.toLower "RUN" (allClaims twoSkills) :=
    fun a ha b hb c hc d hd hab hcd _ => mergedPair_of_two ha hb hc hd hab.1 hcd.1
  obtain ⟨r, hr, hlossless, hperm⟩ := @merging_is_lossless_in_any_order limitDigest String.toLower
    limitParse limitClock (mergeInput twoSkills) "RUN" twoSkills rfl (by decide) (by decide +kernel)
    twoSkills_scope (limitClock_reads twoSkills) hids
  refine ⟨r, hr, hlossless, ?_⟩
  intro bundles' h
  obtain ⟨r', hr', hsame, hcandidates⟩ := hperm bundles' h
  exact ⟨r', hr', hsame, hcandidates hapart⟩

end Traqen.ReverseSkill
