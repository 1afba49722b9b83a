-- The evidence of the memory store (`appendExecutionEvidenceBundle`): records by id, and
-- an index that says which record a content hash belongs to. A storage key joins the
-- project and the id with a NUL; here it is the pair.
import Traqen.ExecutionEvidence
import Traqen.CanonicalText
import Traqen.Lib.Machine

open Js

namespace Traqen.ExecutionEvidence

open OrderedMap (get? set_of_new get?_of_set get?_mem)

/-! ## The store -/

structure VerifiedEvidence where
  item : EvidenceItem
  integrity : IntegrityStatus

def VerifiedEvidence.toJson (v : VerifiedEvidence) : Json :=
  .obj (v.item.fields ++ [("integrity", enumJson v.integrity)])

/-- `{ ...item, integrity: "VERIFIED" }`. -/
def EvidenceItem.verified (item : EvidenceItem) : VerifiedEvidence where
  item := item
  integrity := .VERIFIED

structure Store where
  testSpecs : List (String × String × Number)
  manifests : List ((String × String) × Json)
  executions : List ((String × String) × Json)
  evidence : List ((String × String) × VerifiedEvidence)
  evidenceHashes : List ((String × String) × String)

/-- A store with no execution and no evidence yet. -/
def Store.start (testSpecs : List (String × String × Number))
    (manifests : List ((String × String) × Json)) : Store where
  testSpecs := testSpecs
  manifests := manifests
  executions := []
  evidence := []
  evidenceHashes := []

structure Receipt where
  executionId : String
  evidenceIds : List String

/-- The record of the execution; a field that is undefined has no text. -/
def executionRecord (execution : TestExecution) (attestation : Option Json) : Json :=
  .obj (("execution", execution.toJson) :: (attestation.map fun a => ("attestation", a)).toList)

def checkExecution (s : Store) (projectId : String) (execution : TestExecution)
    (attestation : Option Json) : Except Failure Unit :=
  if (projectId, execution.testSpecId, execution.testSpecVersion) ∉ s.testSpecs then
    conflictError ("TestSpec " ++ execution.testSpecId ++ " version " ++
      execution.testSpecVersion.toText ++ " does not exist")
  else
    match get? s.manifests (projectId, execution.snapshotManifestId) with
    | none => conflictError ("Snapshot manifest " ++ execution.snapshotManifestId ++
        " does not exist in project " ++ projectId)
    | some manifest =>
      if path manifest ["components", "deployment", "id"] ≠ some (.str execution.deploymentId) then
        conflictError "Execution deployment must belong to the referenced snapshot manifest"
      else if (get? s.executions (projectId, execution.id)).any fun existing =>
          canonicalJson existing ≠ canonicalJson (executionRecord execution attestation) then
        conflictError ("TestExecution " ++ execution.id ++ " conflicts with an existing record")
      else .ok ()

/-- The checks of one item, before any item of the bundle is stored. -/
def checkItem (s : Store) (projectId : String) (item : EvidenceItem) : Except Failure Unit :=
  if (get? s.evidence (projectId, item.id)).any fun existing =>
      canonicalJson existing.toJson ≠ canonicalJson item.verified.toJson then
    conflictError ("Evidence " ++ item.id ++ " conflicts with an existing record")
  else
    match get? s.evidenceHashes (projectId, item.contentHash) with
    | none => .ok ()
    | some hashOwner =>
      if hashOwner ≠ item.id then
        conflictError ("Evidence hash " ++ item.contentHash ++ " already belongs to " ++ hashOwner)
      else .ok ()

def insertItem (projectId : String) (s : Store) (item : EvidenceItem) : Store :=
  if (get? s.evidence (projectId, item.id)).isSome then s
  else
    { s with
      evidence := OrderedMap.set s.evidence (projectId, item.id) item.verified
      evidenceHashes := OrderedMap.set s.evidenceHashes (projectId, item.contentHash) item.id }

def insertExecution (s : Store) (projectId : String) (execution : TestExecution)
    (attestation : Option Json) : Store :=
  if (get? s.executions (projectId, execution.id)).isSome then s
  else
    { s with
      executions := OrderedMap.set s.executions (projectId, execution.id)
        (executionRecord execution attestation) }

def appendExecutionEvidenceBundle (s : Store) (projectId : String)
    (bundle : ExecutionEvidenceBundle) (attestation : Option Json) :
    Except Failure (Store × Receipt) := do
  checkExecution s projectId bundle.execution attestation
  let _ ← bundle.evidence.mapM (checkItem s projectId)
  let stored := bundle.evidence.foldl (insertItem projectId)
    (insertExecution s projectId bundle.execution attestation)
  return (stored, { executionId := bundle.execution.id, evidenceIds := bundle.evidence.map (·.id) })

/-! ## Runs -/

/-- A call of the store, with a bundle that `createExecutionEvidenceBundle` accepted. -/
structure Submission (sha256 : String → String) (dateParse : String → Option Int) where
  projectId : String
  input : Json
  clock : Nat → Instant
  attestation : Option Json
  bundle : ExecutionEvidenceBundle
  accepted : createExecutionEvidenceBundle sha256 dateParse input clock = .ok bundle

section Runs

variable {sha256 : String → String} {dateParse : String → Option Int}

/-- A successful call. -/
def submit (s : Store) (a : Submission sha256 dateParse) : Option Store :=
  (appendExecutionEvidenceBundle s a.projectId a.bundle a.attestation).toOption.map (·.1)

/-- No two records of a project share a content hash, and the index names the owner. -/
structure HashesOwnedOnce (s : Store) : Prop where
  unique : ∀ e₁ ∈ s.evidence, ∀ e₂ ∈ s.evidence, e₁.1.1 = e₂.1.1 →
    e₁.2.item.id ≠ e₂.2.item.id → e₁.2.item.contentHash ≠ e₂.2.item.contentHash
  indexed : ∀ e ∈ s.evidence,
    get? s.evidenceHashes (e.1.1, e.2.item.contentHash) = some e.2.item.id

/-- No two items of the bundle have one manifest hash. -/
def DistinctHashes (_ : Store) (a : Submission sha256 dateParse) : Prop :=
  (a.bundle.evidence.map (·.contentHash)).Nodup

end Runs

/-! ## What the store keeps in any case -/

/-- Each record stands under its id, each record's hash is indexed to a record with that
hash, and the index names records alone. -/
structure Indexed (s : Store) : Prop where
  keyed : ∀ e ∈ s.evidence, e.2.item.id = e.1.2
  owner : ∀ e ∈ s.evidence, ∃ e' ∈ s.evidence, e'.1.1 = e.1.1 ∧
    e'.2.item.contentHash = e.2.item.contentHash ∧
    get? s.evidenceHashes (e.1.1, e.2.item.contentHash) = some e'.1.2
  named : ∀ p h id, get? s.evidenceHashes (p, h) = some id →
    ∃ v, get? s.evidence (p, id) = some v ∧ v.item.contentHash = h

section Items

variable {s : Store} {p : String} {item : EvidenceItem}

theorem insertItem_present (h : (get? s.evidence (p, item.id)).isSome = true) :
    insertItem p s item = s := by
  unfold insertItem
  rw [if_pos h]

theorem insertItem_new (h : get? s.evidence (p, item.id) = none) :
    insertItem p s item =
      { s with
        evidence := s.evidence ++ [((p, item.id), item.verified)]
        evidenceHashes := OrderedMap.set s.evidenceHashes (p, item.contentHash) item.id } := by
  unfold insertItem
  rw [h, set_of_new h]
  rfl

theorem evidence_insertItem (p : String) (s : Store) (item : EvidenceItem) :
    s.evidence ⊆ (insertItem p s item).evidence := by
  cases h : get? s.evidence (p, item.id) with
  | some v => rw [insertItem_present (by simp [h])]; exact fun _ he => he
  | none => rw [insertItem_new h]; exact List.subset_append_left _ _

theorem evidence_insertItems (p : String) (s : Store) (items : List EvidenceItem) :
    s.evidence ⊆ (items.foldl (insertItem p) s).evidence := by
  induction items generalizing s with
  | nil => exact fun _ he => he
  | cons item items ih => exact List.Subset.trans (evidence_insertItem p s item) (ih _)

/-- What an item does to the records and to the index of the others. -/
theorem insertItem_frame {j : EvidenceItem} (hid : j.id ≠ item.id) :
    get? (insertItem p s item).evidence (p, j.id) =
      get? s.evidence (p, j.id) := by
  unfold insertItem
  split
  · rfl
  · rw [get?_of_set, if_neg (by simp [hid])]

theorem insertItem_frame_hash {j : EvidenceItem} (hhash : j.contentHash ≠ item.contentHash) :
    get? (insertItem p s item).evidenceHashes (p, j.contentHash) =
      get? s.evidenceHashes (p, j.contentHash) := by
  unfold insertItem
  split
  · rfl
  · rw [get?_of_set, if_neg (by simp [hhash])]

variable (hs : Indexed s)
include hs

theorem indexed_insertItem : Indexed (insertItem p s item) := by
  cases h : get? s.evidence (p, item.id) with
  | some v => rw [insertItem_present (by simp [h])]; exact hs
  | none =>
    have hlookup := fun j => get?_of_set s.evidence (p, item.id) j item.verified
    rw [set_of_new h] at hlookup
    rw [insertItem_new h]
    constructor
    · intro e he
      rcases List.mem_append.mp he with he | he
      · exact hs.keyed e he
      · rw [List.mem_singleton.mp he]
        rfl
    · intro e he
      rw [get?_of_set]
      by_cases hkey : (e.1.1, e.2.item.contentHash) = (p, item.contentHash)
      · obtain ⟨hp, hhash⟩ := Prod.mk.inj hkey
        refine ⟨((p, item.id), item.verified), by simp, hp.symm, hhash.symm, ?_⟩
        rw [if_pos hkey]
      · rcases List.mem_append.mp he with he | he
        · obtain ⟨e', he', h1, h2, h3⟩ := hs.owner e he
          exact ⟨e', List.mem_append_left _ he', h1, h2, by rw [if_neg hkey, h3]⟩
        · rw [List.mem_singleton.mp he] at hkey
          exact absurd rfl hkey
    · intro q k id hid
      rw [get?_of_set] at hid
      rw [hlookup]
      split at hid
      · rename_i hkey
        obtain ⟨rfl, rfl⟩ := Prod.mk.inj hkey
        cases hid
        exact ⟨item.verified, by simp, rfl⟩
      · obtain ⟨v, hv, hk⟩ := hs.named q k id hid
        refine ⟨v, ?_, hk⟩
        rw [if_neg, hv]
        intro heq
        rw [heq, h] at hv
        cases hv

theorem indexed_insertItems (items : List EvidenceItem) :
    Indexed (items.foldl (insertItem p) s) := by
  induction items generalizing s with
  | nil => exact hs
  | cons item items ih => exact ih (indexed_insertItem hs)

/-- Every item ends up in a record with its id and its hash. -/
theorem stored_insertItems {items : List EvidenceItem}
    (hids : (items.map (·.id)).Nodup) (hmem : item ∈ items)
    (hsame : ∀ v, get? s.evidence (p, item.id) = some v →
      v.item.contentHash = item.contentHash) :
    ∃ e ∈ (items.foldl (insertItem p) s).evidence, e.1.1 = p ∧ e.2.item.id = item.id ∧
      e.2.item.contentHash = item.contentHash := by
  induction items generalizing s with
  | nil => simp at hmem
  | cons i items ih =>
    rw [List.map_cons, List.nodup_cons] at hids
    rcases List.mem_cons.mp hmem with rfl | hmem
    · cases h : get? s.evidence (p, item.id) with
      | some v =>
        have he := get?_mem h
        refine ⟨_, evidence_insertItems p s (item :: items) he, rfl, hs.keyed _ he, hsame v h⟩
      | none =>
        refine ⟨((p, item.id), item.verified), ?_, rfl, rfl, rfl⟩
        refine evidence_insertItems p _ items ?_
        rw [insertItem_new h]
        simp
    · have hne : item.id ≠ i.id := fun heq => hids.1 (heq ▸ List.mem_map_of_mem hmem)
      refine ih (indexed_insertItem hs) hids.2 hmem ?_
      rw [insertItem_frame hne]
      exact hsame

/-- No two records of a project share a content hash. -/
def Unique (s : Store) : Prop :=
  ∀ e₁ ∈ s.evidence, ∀ e₂ ∈ s.evidence, e₁.1.1 = e₂.1.1 →
    e₁.2.item.id ≠ e₂.2.item.id → e₁.2.item.contentHash ≠ e₂.2.item.contentHash

theorem hashesOwnedOnce_iff : HashesOwnedOnce s ↔ Unique s := by
  constructor
  · intro h
    exact h.unique
  · intro h
    refine ⟨h, ?_⟩
    intro e he
    obtain ⟨e', he', hp, hhash, howner⟩ := hs.owner e he
    by_cases hid : e'.2.item.id = e.2.item.id
    · rw [howner, ← hid, hs.keyed e' he']
    · exact absurd hhash (h e' he' e he hp hid)

/-- Each item that is no record yet has a hash that belongs to none. -/
def Fresh (p : String) (s : Store) (items : List EvidenceItem) : Prop :=
  ∀ item ∈ items, get? s.evidence (p, item.id) = none →
    get? s.evidenceHashes (p, item.contentHash) = none

theorem unique_insertItem (hu : Unique s) (hfresh : get? s.evidence (p, item.id) = none →
      get? s.evidenceHashes (p, item.contentHash) = none) :
    Unique (insertItem p s item) := by
  cases h : get? s.evidence (p, item.id) with
  | some v => rw [insertItem_present (by simp [h])]; exact hu
  | none =>
    -- an older record with this hash would have an entry in the index
    have hnew : ∀ e ∈ s.evidence, e.1.1 = p → e.2.item.contentHash ≠ item.contentHash := by
      intro e he hp hhash
      obtain ⟨_, _, _, _, howner⟩ := hs.owner e he
      rw [hp, hhash, hfresh h] at howner
      cases howner
    rw [insertItem_new h]
    intro e₁ he₁ e₂ he₂ hp hid
    rcases List.mem_append.mp he₁ with he₁ | he₁ <;> rcases List.mem_append.mp he₂ with he₂ | he₂
    · exact hu e₁ he₁ e₂ he₂ hp hid
    · rw [List.mem_singleton.mp he₂] at hp ⊢
      exact hnew e₁ he₁ hp
    · rw [List.mem_singleton.mp he₁] at hp ⊢
      exact (hnew e₂ he₂ hp.symm).symm
    · rw [List.mem_singleton.mp he₁, List.mem_singleton.mp he₂] at hid
      exact absurd rfl hid

theorem unique_insertItems {items : List EvidenceItem} (hu : Unique s)
    (hfresh : Fresh p s items) (hids : (items.map (·.id)).Nodup)
    (hhashes : (items.map (·.contentHash)).Nodup) :
    Unique (items.foldl (insertItem p) s) := by
  induction items generalizing s with
  | nil => exact hu
  | cons item items ih =>
    rw [List.map_cons, List.nodup_cons] at hids hhashes
    refine ih (indexed_insertItem hs) ?_ ?_ hids.2 hhashes.2
    · exact unique_insertItem hs hu (hfresh item List.mem_cons_self)
    · intro j hj hnone
      have hid : j.id ≠ item.id := fun heq => hids.1 (heq ▸ List.mem_map_of_mem hj)
      have hhash : j.contentHash ≠ item.contentHash :=
        fun heq => hhashes.1 (heq ▸ List.mem_map_of_mem hj)
      rw [insertItem_frame hid] at hnone
      rw [insertItem_frame_hash hhash]
      exact hfresh j (List.mem_cons_of_mem _ hj) hnone

omit hs

end Items

/-! ## One call -/

section Call

variable {sha256 : String → String} {dateParse : String → Option Int} {s t : Store}

/-- The items of a bundle agree with the records that have their ids. -/
theorem checkItem_ok {p : String} {item : EvidenceItem} (h : checkItem s p item = .ok ()) :
    (∀ v, get? s.evidence (p, item.id) = some v →
      v.item.contentHash = item.contentHash) ∧
    ∀ id, get? s.evidenceHashes (p, item.contentHash) = some id → id = item.id := by
  unfold checkItem conflictError at h
  split at h
  · cases h
  · rename_i hsame
    refine ⟨?_, ?_⟩
    · intro v hv
      have heq : canonicalJson v.toJson = canonicalJson item.verified.toJson := by
        simpa [hv] using hsame
      obtain ⟨w, hw, hcanonical⟩ := field_of_canonicalJson heq
        (k := "contentHash") (v := .str v.item.contentHash) (by simp [EvidenceItem.fields])
      have hw : w = .str item.contentHash := by
        simpa [EvidenceItem.fields, EvidenceItem.verified] using hw
      rw [hw] at hcanonical
      simpa [canonicalizeValue] using hcanonical.symm
    · intro id hid
      rw [hid] at h
      by_contra hne
      simp [hne] at h

/-- A successful call: all items were checked against the store as it was. -/
theorem submit_some {a : Submission sha256 dateParse} (h : submit s a = some t) :
    (∀ item ∈ a.bundle.evidence, checkItem s a.projectId item = .ok ()) ∧
    t = a.bundle.evidence.foldl (insertItem a.projectId)
      (insertExecution s a.projectId a.bundle.execution a.attestation) := by
  unfold submit at h
  obtain ⟨⟨u, receipt⟩, hok, rfl⟩ := Option.map_eq_some_iff.mp h
  cases happend : appendExecutionEvidenceBundle s a.projectId a.bundle a.attestation with
  | error e => rw [happend] at hok; cases hok
  | ok r =>
    rw [happend] at hok
    cases hok
    unfold appendExecutionEvidenceBundle at happend
    obtain ⟨_, _, happend⟩ := bind_ok happend
    obtain ⟨_, hchecks, happend⟩ := bind_ok happend
    cases happend
    refine ⟨?_, rfl⟩
    intro item hitem
    obtain ⟨_, _, hcheck⟩ := exists_of_mem (mapM_ok hchecks) hitem
    exact hcheck

theorem indexed_insertExecution {p : String} {e : TestExecution} {att : Option Json}
    (hs : Indexed s) : Indexed (insertExecution s p e att) := by
  unfold insertExecution
  split
  · exact hs
  · exact ⟨hs.keyed, hs.owner, hs.named⟩

theorem insertExecution_evidence (p : String) (e : TestExecution) (att : Option Json) :
    (insertExecution s p e att).evidence = s.evidence ∧
      (insertExecution s p e att).evidenceHashes = s.evidenceHashes := by
  unfold insertExecution
  split
  · exact ⟨rfl, rfl⟩
  · exact ⟨rfl, rfl⟩

variable {a : Submission sha256 dateParse}

theorem submit_indexed (hs : Indexed s) (h : submit s a = some t) : Indexed t := by
  obtain ⟨_, rfl⟩ := submit_some h
  exact indexed_insertItems (indexed_insertExecution hs) _

theorem submit_keeps (hs : Indexed s) (hu : Unique s) (hd : DistinctHashes s a)
    (h : submit s a = some t) : Unique t := by
  obtain ⟨hchecks, rfl⟩ := submit_some h
  obtain ⟨hevidence, hhashes⟩ := @insertExecution_evidence s a.projectId a.bundle.execution
    a.attestation
  refine unique_insertItems (indexed_insertExecution hs) ?_ ?_
    (evidence_ids_nodup sha256 dateParse a.accepted) hd
  · unfold Unique
    rw [hevidence]
    exact hu
  · intro item hitem hnone
    rw [hevidence] at hnone
    rw [hhashes]
    cases howner : get? s.evidenceHashes (a.projectId, item.contentHash) with
    | none => rfl
    | some id =>
      -- the index names the item itself, which then is a record already
      obtain ⟨v, hv, _⟩ := hs.named _ _ _ howner
      rw [(checkItem_ok (hchecks item hitem)).2 id howner, hnone] at hv
      cases hv

theorem submit_breaks (hs : Indexed s) (hd : ¬ DistinctHashes s a) (h : submit s a = some t) :
    ¬ Unique t := by
  obtain ⟨hchecks, rfl⟩ := submit_some h
  have hids := evidence_ids_nodup sha256 dateParse a.accepted
  obtain ⟨hevidence, _⟩ := @insertExecution_evidence s a.projectId a.bundle.execution a.attestation
  intro hu
  refine hd ((List.nodup_map_iff_inj_on (List.Nodup.of_map _ hids)).mpr ?_)
  intro i hi j hj hhash
  by_contra hne
  have hid : i.id ≠ j.id := fun heq => hne ((List.nodup_map_iff_inj_on
    (List.Nodup.of_map _ hids)).mp hids i hi j hj heq)
  have hstored : ∀ item ∈ a.bundle.evidence, ∃ e ∈ (a.bundle.evidence.foldl
      (insertItem a.projectId) (insertExecution s a.projectId a.bundle.execution
        a.attestation)).evidence, e.1.1 = a.projectId ∧ e.2.item.id = item.id ∧
      e.2.item.contentHash = item.contentHash := by
    intro item hitem
    refine stored_insertItems (indexed_insertExecution hs) hids hitem ?_
    rw [hevidence]
    exact (checkItem_ok (hchecks item hitem)).1
  obtain ⟨e, he, hp, hei, heh⟩ := hstored i hi
  obtain ⟨f, hf, hq, hfj, hfh⟩ := hstored j hj
  refine hu e he f hf (hp.trans hq.symm) ?_ ?_
  · rw [hei, hfj]
    exact hid
  · rw [heh, hfh, hhash]

theorem submit_stays (hu : ¬ Unique s) (h : submit s a = some t) : ¬ Unique t := by
  obtain ⟨_, rfl⟩ := submit_some h
  intro ht
  apply hu
  intro e₁ he₁ e₂ he₂
  have hsub := evidence_insertItems a.projectId
    (insertExecution s a.projectId a.bundle.execution a.attestation) a.bundle.evidence
  rw [(insertExecution_evidence _ _ _).1] at hsub
  exact ht e₁ (hsub he₁) e₂ (hsub he₂)

theorem indexed_start (testSpecs : List (String × String × Number))
    (manifests : List ((String × String) × Json)) : Indexed (Store.start testSpecs manifests) := by
  constructor
  · intro e he
    cases he
  · intro e he
    cases he
  · intro p k id hid
    cases hid

theorem unique_start (testSpecs : List (String × String × Number))
    (manifests : List ((String × String) × Json)) : Unique (Store.start testSpecs manifests) := by
  intro e he
  cases he

/-- Content hashes are owned once after a run exactly when no bundle of the run had two items
with one hash. -/
theorem hashes_owned_once_iff_distinct_in_bundles (testSpecs : List (String × String × Number))
    (manifests : List ((String × String) × Json)) {t : Store}
    {submissions : List (Submission sha256 dateParse)}
    (h : Machine.run submit (Store.start testSpecs manifests) submissions = some t) :
    HashesOwnedOnce t ↔
      Machine.Along submit DistinctHashes (Store.start testSpecs manifests) submissions := by
  have hindexed : Indexed t := Machine.run_keeps (fun _ _ _ hs => submit_indexed hs) h
    (indexed_start testSpecs manifests)
  rw [hashesOwnedOnce_iff hindexed]
  exact Machine.run_keeps_iff_along (fun _ _ _ hs => submit_indexed hs)
    (fun _ _ _ hs hu hd => submit_keeps hs hu hd) (fun _ _ _ hs _ hd => submit_breaks hs hd)
    (fun _ _ _ _ hu => submit_stays hu) h (indexed_start testSpecs manifests)
    (unique_start testSpecs manifests)

end Call

/-! ## One manifest under two ids -/

def newYear : Instant := { time := 1767225600000, iso := "2026-01-01T00:00:00.000Z" }

def newYearParse (text : String) : Option Int :=
  if text = newYear.iso then some newYear.time else none

def componentInput (id : String) : Json :=
  .obj [("id", .str id), ("digest", .str
    "sha256:abababababababababababababababababababababababababababababababab")]

def manifestInput : Json :=
  .obj [("executionId", .str "EX"), ("testSpecId", .str "TS"),
    ("testSpecVersion", .num (Number.ofNat 1)), ("snapshotManifestId", .str "SM"),
    ("deploymentId", .str "D"), ("runnerId", .str "R"), ("runnerVersion", .str "1"),
    ("redactions", .arr []),
    ("snapshotComponents", .obj [("source", componentInput "S"), ("build", componentInput "B"),
      ("deployment", componentInput "D"), ("runtime", componentInput "T")])]

/-- SHA-256 on the text of the manifest. -/
def manifestDigest (_ : String) : String :=
  "97e9b5f1095af200862995ec80eff1ad30f06480eeffcef64901df310f15e75c"

def logInput (id : String) : Json :=
  .obj [("id", .str id), ("type", .str "LOG"), ("manifest", manifestInput)]

def bundleInput (evidenceIds : List String) : Json :=
  .obj [("execution", .obj [("id", .str "EX"), ("startedAt", .str newYear.iso),
      ("finishedAt", .str newYear.iso), ("testSpecId", .str "TS"),
      ("testSpecVersion", .num (Number.ofNat 1)), ("snapshotManifestId", .str "SM"),
      ("deploymentId", .str "D"),
      ("runner", .obj [("id", .str "R"), ("version", .str "1")])]),
    ("evidence", .arr (evidenceIds.map logInput))]

def bundleOf (evidenceIds : List String) : Except Failure ExecutionEvidenceBundle :=
  createExecutionEvidenceBundle manifestDigest newYearParse (bundleInput evidenceIds)
    fun _ => newYear

def submissionOf (evidenceIds : List String)
    (h : (bundleOf evidenceIds).toOption.isSome = true) :
    Submission manifestDigest newYearParse where
  projectId := "P"
  input := bundleInput evidenceIds
  clock := fun _ => newYear
  attestation := none
  bundle := (bundleOf evidenceIds).toOption.get h
  accepted := ok_get h

def emptyStore : Store :=
  Store.start [("P", "TS", Number.ofNat 1)]
    [(("P", "SM"), .obj [("components", .obj [("deployment", .obj [("id", .str "D")])])])]

def oneLog : Submission manifestDigest newYearParse := submissionOf ["E1"] (by decide +kernel)

def twoLogs : Submission manifestDigest newYearParse :=
  submissionOf ["E1", "E2"] (by decide +kernel)

theorem one_log_is_owned_once :
    ∃ t, Machine.run submit emptyStore [oneLog] = some t ∧ HashesOwnedOnce t := by
  obtain ⟨t, ht⟩ := Option.isSome_iff_exists.mp
    (show (Machine.run submit emptyStore [oneLog]).isSome = true by decide +kernel)
  refine ⟨t, ht, (hashes_owned_once_iff_distinct_in_bundles _ _ ht).mpr ⟨?_, ?_⟩⟩
  · unfold DistinctHashes
    decide +kernel
  · cases submit (Store.start _ _) oneLog with
    | none => trivial
    | some u => trivial

/-- Two items of a bundle with one manifest are stored as two records with one hash. -/
theorem two_logs_share_a_hash :
    ¬ ∀ (sha256 : String → String) (dateParse : String → Option Int)
      (testSpecs : List (String × String × Number))
      (manifests : List ((String × String) × Json))
      (submissions : List (Submission sha256 dateParse)) (t : Store),
      Machine.run submit (Store.start testSpecs manifests) submissions = some t →
        HashesOwnedOnce t := by
  intro h
  obtain ⟨t, ht⟩ := Option.isSome_iff_exists.mp
    (show (Machine.run submit emptyStore [twoLogs]).isSome = true by decide +kernel)
  have hseen : (Machine.run submit emptyStore [twoLogs]).map (fun t => t.evidence.map fun e =>
      (e.1.1, e.2.item.id, e.2.item.contentHash)) =
      some [("P", "E1", "sha256:" ++ manifestDigest ""),
        ("P", "E2", "sha256:" ++ manifestDigest "")] := by
    decide +kernel
  rw [ht, Option.map_some, Option.some.injEq] at hseen
  obtain ⟨e₁, e₂, hevidence⟩ : ∃ e₁ e₂, t.evidence = [e₁, e₂] := by
    obtain ⟨e₁, rest, h1, _, h2⟩ := List.map_eq_cons_iff.mp hseen
    obtain ⟨e₂, rest', h3, _, h4⟩ := List.map_eq_cons_iff.mp h2
    exact ⟨e₁, e₂, by rw [h1, h3, List.map_eq_nil_iff.mp h4]⟩
  rw [hevidence] at hseen
  simp only [List.map_cons, List.map_nil, List.cons.injEq, Prod.mk.injEq, and_true] at hseen
  obtain ⟨⟨hp, hid, hhash⟩, hq, hid', hhash'⟩ := hseen
  refine (h _ _ _ _ _ t ht).unique e₁ (by simp [hevidence]) e₂ (by simp [hevidence])
    (hp.trans hq.symm) ?_ (hhash.trans hhash'.symm)
  rw [hid, hid']
  decide

end Traqen.ExecutionEvidence
