-- When a merge shows every contradiction between its claims. The pair loop finds the merged
-- claims through a map from candidate ids, in which the last merged claim wins: with a local id
-- that a producer uses twice, the merged claim of an earlier use cannot be found any more.
import Traqen.LosslessMerge
import Traqen.Lib.FirstMaximum

open Js

namespace Traqen.ReverseSkill

/-! ## What is to be shown -/

/-- Every contradiction between two claims is an open conflict of the two merged claims that
they are in, and every conflict is of such a pair. -/
structure ContradictionsShown (sha256 toLowerCase : String → String) (claims : List CandidateClaim)
    (r : ReverseMerge) : Prop where
  shown : ∀ c d, (c, d) ∈ pairs claims → contradicts c d = true →
    ∃ k ∈ r.conflicts, k.status = "OPEN" ∧
      k.candidateIds = mergedPair sha256 toLowerCase r.runId c d
  stems : ∀ k ∈ r.conflicts, ∃ c d, (c, d) ∈ pairs claims ∧ contradicts c d = true ∧
    k.candidateIds = mergedPair sha256 toLowerCase r.runId c d

/-- Where the first claim stands that agrees with this one. -/
def begins (toLowerCase : String → String) (claims : List CandidateClaim) (c : CandidateClaim) :
    Nat :=
  Grouping.rank (claimIdentity toLowerCase) claims (claimIdentity toLowerCase c)

/-- No claim of the same candidate id is of a group that begins later. -/
def InLastGroup (toLowerCase : String → String) (claims : List CandidateClaim)
    (c : CandidateClaim) : Prop :=
  ∀ d ∈ claims, d.id = c.id → begins toLowerCase claims d ≤ begins toLowerCase claims c

/-- What contradictory claims need: they do not agree with each other (as `IN []` does with
itself); each agrees with a claim whose candidate id comes in no later group; and where their
ids come last are claims that agree, or contradict each other too. -/
structure ContradictionsKeepIds (toLowerCase : String → String) (claims : List CandidateClaim) :
    Prop where
  disagree : ∀ c d, (c, d) ∈ pairs claims → contradicts c d = true → ¬ Agree toLowerCase c d
  owned : ∀ c d, (c, d) ∈ pairs claims → contradicts c d = true →
    (∃ x ∈ claims, Agree toLowerCase x c ∧ InLastGroup toLowerCase claims x) ∧
    ∃ y ∈ claims, Agree toLowerCase y d ∧ InLastGroup toLowerCase claims y
  last : ∀ c d, (c, d) ∈ pairs claims → contradicts c d = true →
    ∀ x ∈ claims, ∀ y ∈ claims, x.id = c.id → InLastGroup toLowerCase claims x →
      y.id = d.id → InLastGroup toLowerCase claims y →
      Agree toLowerCase x y ∨ contradicts x y = true

/-- The texts hashed for the merged claims and their conflicts have different digests. -/
structure DigestsApart (sha256 toLowerCase : String → String) (runId : String)
    (claims : List CandidateClaim) : Prop where
  merged : ∀ c ∈ claims, ∀ d ∈ claims,
    mergedClaimId sha256 runId (claimIdentity toLowerCase c) =
      mergedClaimId sha256 runId (claimIdentity toLowerCase d) →
    claimIdentity toLowerCase c = claimIdentity toLowerCase d
  conflicts : ∀ a ∈ claims, ∀ b ∈ claims, ∀ c ∈ claims, ∀ d ∈ claims,
    mergedClaimId sha256 runId (claimIdentity toLowerCase a) ≠
      mergedClaimId sha256 runId (claimIdentity toLowerCase b) →
    mergedClaimId sha256 runId (claimIdentity toLowerCase c) ≠
      mergedClaimId sha256 runId (claimIdentity toLowerCase d) →
    conflictIdOf sha256 runId (mergedPair sha256 toLowerCase runId a b) =
      conflictIdOf sha256 runId (mergedPair sha256 toLowerCase runId c d) →
    mergedPair sha256 toLowerCase runId a b = mergedPair sha256 toLowerCase runId c d

/-! ## Where a candidate id comes last -/

variable {c d x y : CandidateClaim}

section Last

variable {sha256 toLowerCase : String → String} {runId : String} {claims : List CandidateClaim}

theorem last_of_claim (hc : c ∈ claims) :
    ∃ x ∈ claims, x.id = c.id ∧ InLastGroup toLowerCase claims x := by
  have hne : claims.filter (fun d => d.id = c.id) ≠ [] :=
    List.ne_nil_of_mem (List.mem_filter.mpr ⟨hc, by simp⟩)
  have hsome : ∃ x, FirstMaximum.FirstMax (begins toLowerCase claims)
      (claims.filter fun d => d.id = c.id) x := FirstMaximum.firstMax_exists hne
  obtain ⟨x, hmax⟩ := hsome
  obtain ⟨hx, hid⟩ := List.mem_filter.mp hmax.mem
  have hid' : x.id = c.id := of_decide_eq_true hid
  refine ⟨x, hx, hid', ?_⟩
  intro d hd hdx
  exact hmax.le (List.mem_filter.mpr ⟨hd, decide_eq_true (hdx.trans hid')⟩)

/-- The map tells the last merged claim of a candidate id. -/
theorem mergedIdOf_last (hx : x ∈ claims) (hid : x.id = c.id)
    (hlast : InLastGroup toLowerCase claims x) :
    mergedIdOf (duplicateClaimIds (mergeClaims sha256 toLowerCase runId claims)) c =
      mergedClaimId sha256 runId (claimIdentity toLowerCase x) := by
  have hgroup := Grouping.group_of_mem (claimIdentity toLowerCase) hx
  have hordered := Grouping.groupsOf_ordered (claimIdentity toLowerCase) claims
  obtain ⟨front, back, hsplit⟩ := List.append_of_mem hgroup
  have hback : OrderedMap.get? (OrderedMap.ofList (back.flatMap (groupIds sha256 runId))) c.id =
      none := by
    apply OrderedMap.get?_ofList_none
    rintro entry hentry heq
    obtain ⟨⟨k, xs⟩, he, hmem⟩ := List.mem_flatMap.mp hentry
    obtain ⟨d, hd, rfl⟩ := List.mem_map.mp hmem
    have hgroups : (k, xs) ∈ Grouping.groupsOf (claimIdentity toLowerCase) claims := by
      rw [hsplit]
      simp [he]
    obtain ⟨rfl, _⟩ := Grouping.mem_groupsOf.mp hgroups
    obtain ⟨hd, hk⟩ := List.mem_filter.mp hd
    have hle := hlast d hd (heq.trans hid.symm)
    rw [hsplit, List.pairwise_append] at hordered
    have hlt := (List.pairwise_cons.mp hordered.2.1).1 _ he
    rw [← of_decide_eq_true hk] at hlt
    exact absurd hle (not_le.mpr hlt)
  have hthis : OrderedMap.get? (OrderedMap.ofList (groupIds sha256 runId
      (claimIdentity toLowerCase x,
        claims.filter fun y => claimIdentity toLowerCase y = claimIdentity toLowerCase x))) c.id =
      some (mergedClaimId sha256 runId (claimIdentity toLowerCase x)) := by
    apply OrderedMap.get?_ofList_of_forall
    · refine ⟨_, List.mem_map_of_mem (List.mem_filter.mpr ⟨hx, decide_eq_true rfl⟩), hid⟩
    · intro entry hentry _
      obtain ⟨d, _, rfl⟩ := List.mem_map.mp hentry
      rfl
  unfold mergedIdOf
  rw [duplicateClaimIds_eq, hsplit, List.flatMap_append, List.flatMap_cons,
    OrderedMap.get?_ofList_append, OrderedMap.get?_ofList_append, hback, hthis]
  rfl

/-- Each claim has a claim whose merged id the map tells for it. -/
theorem mergedIdOf_claim (hc : c ∈ claims) :
    ∃ x ∈ claims, x.id = c.id ∧ InLastGroup toLowerCase claims x ∧
      mergedIdOf (duplicateClaimIds (mergeClaims sha256 toLowerCase runId claims)) c =
        mergedClaimId sha256 runId (claimIdentity toLowerCase x) := by
  have hlast : ∃ x ∈ claims, x.id = c.id ∧ InLastGroup toLowerCase claims x := last_of_claim hc
  obtain ⟨x, hx, hid, hlast⟩ := hlast
  exact ⟨x, hx, hid, hlast, mergedIdOf_last hx hid hlast⟩

end Last

/-! ## The conflicts of the last groups -/

section Shown

variable {sha256 toLowerCase : String → String} {runId : String} {mergedAt : Json}
  {claims : List CandidateClaim}

/-- A found conflict: a contradiction, between other claims than those it names. -/
structure FoundFrom (sha256 toLowerCase : String → String) (runId : String)
    (claims : List CandidateClaim) (k : Conflict) (c d x y : CandidateClaim) : Prop where
  pair : (c, d) ∈ pairs claims
  contradicts : contradicts c d = true
  left : x ∈ claims ∧ x.id = c.id ∧ InLastGroup toLowerCase claims x
  right : y ∈ claims ∧ y.id = d.id ∧ InLastGroup toLowerCase claims y
  apart : mergedClaimId sha256 runId (claimIdentity toLowerCase x) ≠
    mergedClaimId sha256 runId (claimIdentity toLowerCase y)
  status : k.status = "OPEN"
  candidateIds : k.candidateIds = mergedPair sha256 toLowerCase runId x y
  id : k.id = conflictIdOf sha256 runId (mergedPair sha256 toLowerCase runId x y)

theorem found_of_conflict {k : Conflict}
    (hk : k ∈ conflictsOf sha256 toLowerCase runId mergedAt claims) :
    ∃ c d x y, FoundFrom sha256 toLowerCase runId claims k c d x y := by
  obtain ⟨c, d, hp, hreports, rfl⟩ := findConflicts_sound hk
  obtain ⟨hc, hd⟩ := pairs_mem hp
  obtain ⟨x, hx, hxid, hxlast, hxeq⟩ := mergedIdOf_claim hc
  obtain ⟨y, hy, hyid, hylast, hyeq⟩ := mergedIdOf_claim hd
  have hids : conflictIds (duplicateClaimIds (mergeClaims sha256 toLowerCase runId claims)) c d =
      mergedPair sha256 toLowerCase runId x y := by
    unfold conflictIds
    rw [hxeq, hyeq]
    rfl
  refine ⟨c, d, x, y, hp, hreports.2, ⟨hx, hxid, hxlast⟩, ⟨hy, hyid, hylast⟩, ?_, rfl, hids, ?_⟩
  · rw [← hxeq, ← hyeq]
    exact hreports.1
  · rw [← hids]
    rfl

/-- Where digests do not collide, a conflict with the id of a pair is the conflict of it. -/
theorem conflict_of_last
    (hapart : DigestsApart sha256 toLowerCase runId claims) (hp : (c, d) ∈ pairs claims)
    (hcontra : contradicts c d = true)
    (hx : x ∈ claims ∧ x.id = c.id ∧ InLastGroup toLowerCase claims x)
    (hy : y ∈ claims ∧ y.id = d.id ∧ InLastGroup toLowerCase claims y)
    (hne : claimIdentity toLowerCase x ≠ claimIdentity toLowerCase y) :
    ∃ k ∈ conflictsOf sha256 toLowerCase runId mergedAt claims, k.status = "OPEN" ∧
      k.candidateIds = mergedPair sha256 toLowerCase runId x y := by
  have hxeq : mergedIdOf (duplicateClaimIds (mergeClaims sha256 toLowerCase runId claims)) c =
      mergedClaimId sha256 runId (claimIdentity toLowerCase x) :=
    mergedIdOf_last hx.1 hx.2.1 hx.2.2
  have hyeq : mergedIdOf (duplicateClaimIds (mergeClaims sha256 toLowerCase runId claims)) d =
      mergedClaimId sha256 runId (claimIdentity toLowerCase y) :=
    mergedIdOf_last hy.1 hy.2.1 hy.2.2
  have hids : mergedClaimId sha256 runId (claimIdentity toLowerCase x) ≠
      mergedClaimId sha256 runId (claimIdentity toLowerCase y) :=
    fun h => hne (hapart.merged x hx.1 y hy.1 h)
  have hreports : Reports (duplicateClaimIds (mergeClaims sha256 toLowerCase runId claims)) c d := by
    refine ⟨?_, hcontra⟩
    rw [hxeq, hyeq]
    exact hids
  have hthere : ∃ k ∈ conflictsOf sha256 toLowerCase runId mergedAt claims,
      k.id = conflictIdOf sha256 runId (mergedPair sha256 toLowerCase runId x y) := by
    have hpair : conflictIds (duplicateClaimIds (mergeClaims sha256 toLowerCase runId claims)) c d =
        mergedPair sha256 toLowerCase runId x y := by
      unfold conflictIds
      rw [hxeq, hyeq]
      rfl
    rw [← hpair]
    exact findConflicts_complete hp hreports
  obtain ⟨k, hk, hid⟩ := hthere
  obtain ⟨c', d', x', y', hfound⟩ := found_of_conflict hk
  refine ⟨k, hk, hfound.status, ?_⟩
  rw [hfound.candidateIds]
  exact hapart.conflicts x' hfound.left.1 y' hfound.right.1 x hx.1 y hy.1 hfound.apart hids
    (hfound.id.symm.trans hid)

theorem mergedPair_eq
    (h : mergedPair sha256 toLowerCase runId c d = mergedPair sha256 toLowerCase runId x y) :
    (mergedClaimId sha256 runId (claimIdentity toLowerCase c) =
        mergedClaimId sha256 runId (claimIdentity toLowerCase x) ∧
      mergedClaimId sha256 runId (claimIdentity toLowerCase d) =
        mergedClaimId sha256 runId (claimIdentity toLowerCase y)) ∨
    (mergedClaimId sha256 runId (claimIdentity toLowerCase c) =
        mergedClaimId sha256 runId (claimIdentity toLowerCase y) ∧
      mergedClaimId sha256 runId (claimIdentity toLowerCase d) =
        mergedClaimId sha256 runId (claimIdentity toLowerCase x)) := by
  rcases List.perm_pair.mp (perm_of_sortTexts h) with h | h
  · simp only [List.cons.injEq, and_true] at h
    exact Or.inl h
  · simp only [List.cons.injEq, and_true] at h
    exact Or.inr h

/-- Claims of one group contradict the same claims. -/
theorem contradicts_of_agree (hx : Agree toLowerCase x c)
    (hy : Agree toLowerCase y d) : contradicts x y = contradicts c d := by
  rw [contradicts_congr hx, contradicts_comm, contradicts_congr hy, contradicts_comm]

/-! ## When all of them are shown -/

variable {r : ReverseMerge}

theorem keepIds_of_shown (hapart : DigestsApart sha256 toLowerCase r.runId claims)
    (hconflicts : r.conflicts = conflictsOf sha256 toLowerCase r.runId mergedAt claims)
    (h : ContradictionsShown sha256 toLowerCase claims r) :
    ContradictionsKeepIds toLowerCase claims := by
  have hshown : ∀ c d, (c, d) ∈ pairs claims → contradicts c d = true →
      ∃ x ∈ claims, ∃ y ∈ claims, InLastGroup toLowerCase claims x ∧
        InLastGroup toLowerCase claims y ∧ ¬ Agree toLowerCase x y ∧
        mergedPair sha256 toLowerCase r.runId x y = mergedPair sha256 toLowerCase r.runId c d := by
    intro c d hp hcontra
    obtain ⟨k, hk, _, hids⟩ := h.shown c d hp hcontra
    rw [hconflicts] at hk
    obtain ⟨c', d', x, y, hfound⟩ := found_of_conflict hk
    refine ⟨x, hfound.left.1, y, hfound.right.1, hfound.left.2.2, hfound.right.2.2, ?_, ?_⟩
    · intro hagree
      exact hfound.apart (congrArg _ (claimIdentity_eq_iff.mpr hagree))
    · rw [← hfound.candidateIds, hids]
  have hagree : ∀ c ∈ claims, ∀ d ∈ claims,
      mergedClaimId sha256 r.runId (claimIdentity toLowerCase c) =
        mergedClaimId sha256 r.runId (claimIdentity toLowerCase d) → Agree toLowerCase c d :=
    fun c hc d hd heq => claimIdentity_eq_iff.mp (hapart.merged c hc d hd heq)
  refine ⟨?_, ?_, ?_⟩
  · intro c d hp hcontra hcd
    obtain ⟨hc, hd⟩ := pairs_mem hp
    obtain ⟨x, hx, y, hy, _, _, hne, hpair⟩ := hshown c d hp hcontra
    have hsame := congrArg (mergedClaimId sha256 r.runId) (claimIdentity_eq_iff.mpr hcd)
    apply hne
    apply hagree x hx y hy
    rcases mergedPair_eq hpair with ⟨hxc, hyd⟩ | ⟨hxd, hyc⟩
    · rw [hxc, hyd, hsame]
    · rw [hxd, hyc, hsame]
  · intro c d hp hcontra
    obtain ⟨hc, hd⟩ := pairs_mem hp
    obtain ⟨x, hx, y, hy, hxlast, hylast, _, hpair⟩ := hshown c d hp hcontra
    rcases mergedPair_eq hpair with ⟨hxc, hyd⟩ | ⟨hxd, hyc⟩
    · exact ⟨⟨x, hx, hagree x hx c hc hxc, hxlast⟩, y, hy, hagree y hy d hd hyd, hylast⟩
    · exact ⟨⟨y, hy, hagree y hy c hc hyc, hylast⟩, x, hx, hagree x hx d hd hxd, hxlast⟩
  · intro c d hp hcontra x hx y hy hxid hxlast hyid hylast
    by_cases hxy : Agree toLowerCase x y
    · exact Or.inl hxy
    · right
      have hne : claimIdentity toLowerCase x ≠ claimIdentity toLowerCase y :=
        fun heq => hxy (claimIdentity_eq_iff.mp heq)
      have hconflict : ∃ k ∈ r.conflicts, k.status = "OPEN" ∧
          k.candidateIds = mergedPair sha256 toLowerCase r.runId x y := by
        rw [hconflicts]
        exact conflict_of_last hapart hp hcontra ⟨hx, hxid, hxlast⟩ ⟨hy, hyid, hylast⟩ hne
      obtain ⟨k, hk, _, hids⟩ := hconflict
      obtain ⟨c', d', hp', hcontra', hids'⟩ := h.stems k hk
      obtain ⟨hc', hd'⟩ := pairs_mem hp'
      rcases mergedPair_eq (hids.symm.trans hids') with ⟨hxc, hyd⟩ | ⟨hxd, hyc⟩
      · rw [contradicts_of_agree (hagree x hx c' hc' hxc) (hagree y hy d' hd' hyd)]
        exact hcontra'
      · rw [contradicts_of_agree (hagree x hx d' hd' hxd) (hagree y hy c' hc' hyc),
          contradicts_comm]
        exact hcontra'

theorem shown_of_keepIds (hapart : DigestsApart sha256 toLowerCase r.runId claims)
    (hconflicts : r.conflicts = conflictsOf sha256 toLowerCase r.runId mergedAt claims)
    (h : ContradictionsKeepIds toLowerCase claims) :
    ContradictionsShown sha256 toLowerCase claims r := by
  constructor
  · intro c d hp hcontra
    obtain ⟨⟨x, hx, hxc, hxlast⟩, y, hy, hyd, hylast⟩ := h.owned c d hp hcontra
    have hne : ¬ Agree toLowerCase x y := by
      intro hxy
      apply h.disagree c d hp hcontra
      apply claimIdentity_eq_iff.mp
      rw [← claimIdentity_eq_iff.mpr hxc, ← claimIdentity_eq_iff.mpr hyd,
        claimIdentity_eq_iff.mpr hxy]
    have hidentity : claimIdentity toLowerCase x ≠ claimIdentity toLowerCase y :=
      fun heq => hne (claimIdentity_eq_iff.mp heq)
    have hxy : contradicts x y = true := (contradicts_of_agree hxc hyd).trans hcontra
    have hpair : mergedPair sha256 toLowerCase r.runId c d =
        mergedPair sha256 toLowerCase r.runId x y := by
      unfold mergedPair
      rw [claimIdentity_eq_iff.mpr hxc, claimIdentity_eq_iff.mpr hyd]
    rw [hconflicts, hpair]
    rcases pair_of_ne hx hy (fun heq => hidentity (congrArg _ heq)) with hp' | hp'
    · exact conflict_of_last hapart hp' hxy ⟨hx, rfl, hxlast⟩ ⟨hy, rfl, hylast⟩ hidentity
    · rw [mergedPair_comm]
      exact conflict_of_last hapart hp' ((contradicts_comm y x).trans hxy) ⟨hy, rfl, hylast⟩
        ⟨hx, rfl, hxlast⟩ hidentity.symm
  · intro k hk
    rw [hconflicts] at hk
    obtain ⟨c, d, x, y, hfound⟩ := found_of_conflict hk
    have hidentity : claimIdentity toLowerCase x ≠ claimIdentity toLowerCase y :=
      fun heq => hfound.apart (congrArg _ heq)
    have hxy : contradicts x y = true := by
      rcases h.last c d hfound.pair hfound.contradicts x hfound.left.1 y hfound.right.1
        hfound.left.2.1 hfound.left.2.2 hfound.right.2.1 hfound.right.2.2 with hagree | hxy
      · exact absurd (claimIdentity_eq_iff.mpr hagree) hidentity
      · exact hxy
    rcases pair_of_ne hfound.left.1 hfound.right.1 (fun heq => hidentity (congrArg _ heq))
      with hp | hp
    · exact ⟨x, y, hp, hxy, hfound.candidateIds⟩
    · refine ⟨y, x, hp, (contradicts_comm y x).trans hxy, ?_⟩
      rw [mergedPair_comm]
      exact hfound.candidateIds

end Shown

/-- The claims of the bundles that a merge is given. -/
def MergeInput.claims (input : MergeInput) : List CandidateClaim :=
  allClaims (input.bundles.getD [])

/-- A merge shows exactly the contradictions between its claims if and only if contradictory
claims disagree and keep their candidate ids to themselves. -/
theorem contradictions_shown_iff_ids_kept {sha256 toLowerCase : String → String}
    {dateParse : String → Option Int} {clock : Instant} {input : MergeInput} {r : ReverseMerge}
    (h : mergeReverseArtifactBundles sha256 toLowerCase dateParse clock input = .ok r)
    (hapart : DigestsApart sha256 toLowerCase r.runId input.claims) :
    ContradictionsShown sha256 toLowerCase input.claims r ↔
      ContradictionsKeepIds toLowerCase input.claims := by
  obtain ⟨runId, first, bundles, hbundles, rfl⟩ := merge_accepts h
  have hclaims : input.claims = allClaims bundles := by
    unfold MergeInput.claims
    rw [hbundles]
    rfl
  rw [hclaims] at hapart ⊢
  exact ⟨keepIds_of_shown hapart rfl, shown_of_keepIds hapart rfl⟩

/-! ## One local id, two limits -/

theorem two_skills_contradictions_shown_iff :
    ∃ r, mergeReverseArtifactBundles limitDigest String.toLower limitParse limitClock
        (mergeInput twoSkills) = .ok r ∧
      (ContradictionsShown limitDigest String.toLower (mergeInput twoSkills).claims r ↔
        ContradictionsKeepIds String.toLower (mergeInput twoSkills).claims) := by
  have hmerge := merge_twoSkills
  have hne : mergedClaimId limitDigest "RUN" (claimIdentity String.toLower
      (limitClaim "SK-A" "CANDIDATE-90608e273bee753af235d3e9" 100)) ≠
      mergedClaimId limitDigest "RUN" (claimIdentity String.toLower
        (limitClaim "SK-B" "CANDIDATE-542b00bb3de05637e9b9fe1a" 200)) := by
    decide +kernel
  refine ⟨_, hmerge, contradictions_shown_iff_ids_kept hmerge ⟨?_, ?_⟩⟩
  · intro c hc d hd heq
    rcases List.mem_pair.mp hc with rfl | rfl <;> rcases List.mem_pair.mp hd with rfl | rfl
    · rfl
    · exact absurd heq hne
    · exact absurd heq.symm hne
    · rfl
  · exact fun a ha b hb c hc d hd hab hcd _ => mergedPair_of_two ha hb hc hd hab hcd

/-- Two outputs of one skill that use the local id `c1` for different limits. -/
def oneSkillTwice : List ReverseArtifactBundle :=
  [limitBundle "BUNDLE-A" (limitClaim "SK-A" "CANDIDATE-90608e273bee753af235d3e9" 100),
    limitBundle "BUNDLE-B" (limitClaim "SK-A" "CANDIDATE-90608e273bee753af235d3e9" 200)]

/-- The limits contradict each other, and the merge has no conflict. -/
theorem reused_local_id_hides_a_contradiction :
    ∃ r, mergeReverseArtifactBundles limitDigest String.toLower limitParse limitClock
        (mergeInput oneSkillTwice) = .ok r ∧
      r.conflicts = [] ∧
      ¬ ContradictionsShown limitDigest String.toLower (mergeInput oneSkillTwice).claims r := by
  have hmerge : ((mergeReverseArtifactBundles limitDigest String.toLower limitParse limitClock
      (mergeInput oneSkillTwice)).toOption.any fun r => r.conflicts.isEmpty) = true := by
    decide +kernel
  obtain ⟨r, hr, hempty⟩ := Option.any_eq_true _ _ |>.mp hmerge
  have hnone : r.conflicts = [] := List.isEmpty_iff.mp hempty
  refine ⟨r, toOption_some hr, hnone, fun h => ?_⟩
  obtain ⟨k, hk, _⟩ := h.shown
    (limitClaim "SK-A" "CANDIDATE-90608e273bee753af235d3e9" 100)
    (limitClaim "SK-A" "CANDIDATE-90608e273bee753af235d3e9" 200) (by decide) (by decide +kernel)
  rw [hnone] at hk
  cases hk

end Traqen.ReverseSkill
