-- The fact bundles of the memory store (`appendFactBundle`), and the two readers that take
-- the latest bundle of each extractor: `queryFacts` goes by the instant of the observation,
-- `getSnapshotFactGraph` by its text. A storage key and a group's identity are texts joined
-- with a NUL, as in the store.
import Mathlib.Data.Prod.Lex
import Traqen.Facts
import Traqen.Lib.CodeUnits
import Traqen.Lib.FirstMaximum

open Js FirstMaximum

namespace Traqen.FactBundleStore

open Facts

/-! ## The store -/

structure AttestedBundle (dateParse : String → Option Int) where
  bundle : FactBundle dateParse
  attestation : Option Json

structure Store (dateParse : String → Option Int) where
  manifests : List (String × Json)
  factBundles : List (String × AttestedBundle dateParse)

structure Receipt where
  bundleId : String
  snapshotManifestId : String
  sourceComponentId : String
  nodeCount : Nat
  edgeCount : Nat
  complete : Bool

def key (projectId id : String) : String := projectId ++ "\x00" ++ id

/-- `storageKey.startsWith(...)`, for the keys of a project. -/
def ofProject (projectId storageKey : String) : Bool :=
  (key projectId "").toList.isPrefixOf storageKey.toList

/-- The manifest without its creation time. -/
def manifestIdentity : Json → Json
  | .obj fields => .obj (fields.filter fun f => f.1 ≠ "createdAt")
  | v => v

section Store

variable {dateParse : String → Option Int}

def Store.empty : Store dateParse where
  manifests := []
  factBundles := []

/-- `{ ...normalized, attestation }`; a field that is undefined has no text. -/
def AttestedBundle.toJson (b : AttestedBundle dateParse) : Json :=
  .obj (b.bundle.fields ++ (b.attestation.map fun a => ("attestation", a)).toList)

def appendSnapshotManifest (s : Store dateParse) (projectId id : String) (manifest : Json) :
    Except Failure (Store dateParse) :=
  match OrderedMap.get? s.manifests (key projectId id) with
  | some existing =>
    if canonicalJson (manifestIdentity existing) ≠ canonicalJson (manifestIdentity manifest) then
      conflictError ("Snapshot manifest " ++ id ++ " conflicts with an existing immutable record")
    else .ok s
  | none => .ok { s with manifests := OrderedMap.set s.manifests (key projectId id) manifest }

/-- The manifest that the bundle names has the component that the bundle names. -/
def checkManifest (s : Store dateParse) (projectId : String) (bundle : FactBundle dateParse) :
    Except Failure Unit :=
  match OrderedMap.get? s.manifests (key projectId bundle.snapshotManifestId) with
  | none => conflictError ("Snapshot manifest " ++ bundle.snapshotManifestId ++
      " does not exist in project " ++ projectId)
  | some manifest =>
    if path manifest ["components", "source", "id"] ≠ some (.str bundle.sourceComponentId) ||
        path manifest ["components", "source", "digest"] ≠ some (.str bundle.sourceDigest) then
      conflictError
        "FactBundle source component ID and digest must match the referenced snapshot manifest"
    else .ok ()

def appendFactBundle (s : Store dateParse) (projectId : String) (b : AttestedBundle dateParse) :
    Except Failure (Store dateParse × Receipt) := do
  checkManifest s projectId b.bundle
  let storageKey := key projectId b.bundle.id
  let receipt : Receipt :=
    { bundleId := b.bundle.id
      snapshotManifestId := b.bundle.snapshotManifestId
      sourceComponentId := b.bundle.sourceComponentId
      nodeCount := b.bundle.nodes.length
      edgeCount := b.bundle.edges.length
      complete := b.bundle.complete }
  match OrderedMap.get? s.factBundles storageKey with
  | some existing =>
    if canonicalJson existing.toJson ≠ canonicalJson b.toJson then
      conflictError ("FactBundle " ++ b.bundle.id ++ " conflicts with an existing immutable record")
    else return (s, receipt)
  | none => return ({ s with factBundles := OrderedMap.set s.factBundles storageKey b }, receipt)

/-- The bundles that a reader of the project sees, in the order they were stored. -/
def Store.bundlesOf (s : Store dateParse) (projectId : String) : List (AttestedBundle dateParse) :=
  (s.factBundles.filter fun e => ofProject projectId e.1).map (·.2)

/-! ## The two readers -/

/-- `Date.parse(bundle.observedAt)`. -/
def AttestedBundle.time (b : AttestedBundle dateParse) : Int := b.bundle.observedAt.time

/-- The bundle replaces the current one of its group in `getSnapshotFactGraph`. -/
def replaces (bundle current : AttestedBundle dateParse) : Bool :=
  textGt bundle.bundle.observedAt.text current.bundle.observedAt.text ||
    (bundle.bundle.observedAt.text = current.bundle.observedAt.text &&
      textGt bundle.bundle.id current.bundle.id)

/-- `${snapshotManifestId}\u0000${sourceComponentId}\u0000${extractor.id}`. -/
def queryIdentity (b : AttestedBundle dateParse) : String :=
  key b.bundle.snapshotManifestId (key b.bundle.sourceComponentId b.bundle.extractor.id)

/-- `${sourceComponentId}\u0000${extractor.id}`. -/
def graphIdentity (b : AttestedBundle dateParse) : String :=
  key b.bundle.sourceComponentId b.bundle.extractor.id

/-- `!filters.snapshotManifestId || bundle.snapshotManifestId === filters.snapshotManifestId`. -/
def selects (snapshotManifestId : Option String) (b : AttestedBundle dateParse) : Bool :=
  match snapshotManifestId with
  | none => true
  | some id => id = "" || b.bundle.snapshotManifestId = id

/-- The latest bundles of `queryFacts`. -/
def queryBundles (s : Store dateParse) (projectId : String) (snapshotManifestId : Option String) :
    List (AttestedBundle dateParse) :=
  let observedBundles := ((s.bundlesOf projectId).filter (selects snapshotManifestId)).insertionSort
    fun left right => right.time ≤ left.time
  (keepFirst queryIdentity observedBundles).map (·.2)

/-- The latest bundles of `getSnapshotFactGraph`. -/
def graphBundles (s : Store dateParse) (projectId snapshotManifestId : String) :
    List (AttestedBundle dateParse) :=
  (keepGreatest replaces graphIdentity ((s.bundlesOf projectId).filter fun b =>
    b.bundle.snapshotManifestId = snapshotManifestId)).map (·.2)

end Store

/-! ## Runs -/

inductive Call where
  | appendSnapshotManifest (projectId id : String) (manifest : Json)
  /-- The bundle that `createFactBundle` makes of the input. -/
  | appendFactBundle (projectId : String) (input attestation : Option Json)

section Runs

variable (sha256 : String → String) (localeCompare : String → String → Ordering)
  (dateParse : String → Option Int)

/-- A call that fails leaves the store as it is. -/
def call (s : Store dateParse) : Call → Store dateParse
  | .appendSnapshotManifest projectId id manifest =>
    (appendSnapshotManifest s projectId id manifest).toOption.getD s
  | .appendFactBundle projectId input attestation =>
    let result : Except Failure (Store dateParse × Receipt) := do
      let bundle ← createFactBundle sha256 localeCompare dateParse input
      appendFactBundle s projectId { bundle, attestation }
    (result.toOption.map (·.1)).getD s

/-- The store after the calls. -/
def after (calls : List Call) : Store dateParse :=
  calls.foldl (call sha256 localeCompare dateParse) Store.empty

end Runs

/-- A snapshot, a component of it, and an extractor. -/
structure Group where
  snapshotManifestId : String
  sourceComponentId : String
  extractorId : String
deriving DecidableEq

section Readers

variable {dateParse : String → Option Int}

def AttestedBundle.group (b : AttestedBundle dateParse) : Group where
  snapshotManifestId := b.bundle.snapshotManifestId
  sourceComponentId := b.bundle.sourceComponentId
  extractorId := b.bundle.extractor.id

def Store.groupOf (s : Store dateParse) (projectId : String) (g : Group) :
    List (AttestedBundle dateParse) :=
  (s.bundlesOf projectId).filter fun b => b.group = g

/-- Both readers use one bundle of the group, and no bundle of the group is of a later
instant. -/
def SameCurrent (s : Store dateParse) (projectId : String) (g : Group) : Prop :=
  ∀ filter ∈ [none, some g.snapshotManifestId], ∃ b,
    (∀ x, (x ∈ queryBundles s projectId filter ∧ x.group = g) ↔ x = b) ∧
    (∀ x, (x ∈ graphBundles s projectId g.snapshotManifestId ∧ x.group = g) ↔ x = b) ∧
    ∀ x ∈ s.groupOf projectId g, x.time ≤ b.time

/-- Both readers see the same current bundle of each group that has a bundle. -/
def ReadersAgree (s : Store dateParse) (projectId : String) : Prop :=
  ∀ g, s.groupOf projectId g ≠ [] → SameCurrent s projectId g

/-- What the texts of the readers are compared by: the text of the instant, and then the
id. -/
def AttestedBundle.textRank (b : AttestedBundle dateParse) : List Nat ×ₗ List Nat :=
  toLex (codeUnits b.bundle.observedAt.text, codeUnits b.bundle.id)

/-- The bundle that is the first of the latest ones in its group has the greatest text, too,
and no two groups have one identity. -/
structure TextsFollowInstants (s : Store dateParse) (projectId : String) : Prop where
  apart : ∀ x ∈ s.bundlesOf projectId, ∀ y ∈ s.bundlesOf projectId,
    queryIdentity x = queryIdentity y → x.group = y.group
  latest : ∀ g, s.groupOf projectId g ≠ [] → ∃ b,
    FirstMax AttestedBundle.time (s.groupOf projectId g) b ∧
    FirstMax AttestedBundle.textRank (s.groupOf projectId g) b

/-! ## What the readers find -/

variable {s : Store dateParse} {projectId : String} {g : Group}

/-- The order of `getSnapshotFactGraph` is that of the pair of texts. -/
theorem replaces_iff (x y : AttestedBundle dateParse) :
    replaces x y = true ↔ y.textRank < x.textRank := by
  unfold replaces textGt AttestedBundle.textRank
  rw [Prod.Lex.toLex_lt_toLex, Bool.or_eq_true, Bool.and_eq_true, decide_eq_true_eq,
    decide_eq_true_eq, decide_eq_true_eq]
  have htext : x.bundle.observedAt.text = y.bundle.observedAt.text ↔
      codeUnits y.bundle.observedAt.text = codeUnits x.bundle.observedAt.text :=
    ⟨fun h => by rw [h], fun h => (codeUnits_injective h).symm⟩
  rw [htext]

/-- The identity of a group in `queryFacts`. -/
def Group.identity (g : Group) : String :=
  key g.snapshotManifestId (key g.sourceComponentId g.extractorId)

variable {x : AttestedBundle dateParse}

theorem queryIdentity_of_group (h : x.group = g) : queryIdentity x = g.identity := by
  rw [← h]
  rfl

theorem queryIdentity_of_graphIdentity {y : AttestedBundle dateParse}
    (hsnapshot : x.bundle.snapshotManifestId = y.bundle.snapshotManifestId)
    (h : graphIdentity x = graphIdentity y) : queryIdentity x = queryIdentity y := by
  unfold graphIdentity at h
  unfold queryIdentity
  rw [hsnapshot, h]

variable {filter : Option String}

theorem selects_group (h : x.group = g)
    (hfilter : filter ∈ [none, some g.snapshotManifestId]) : selects filter x = true := by
  rcases List.mem_cons.mp hfilter with rfl | hfilter
  · rfl
  · rw [List.mem_singleton.mp hfilter, ← h]
    simp [selects, AttestedBundle.group]

section Apart

/-- No two groups of the bundles have one identity. -/
def Apart (bundles : List (AttestedBundle dateParse)) : Prop :=
  ∀ x ∈ bundles, ∀ y ∈ bundles, queryIdentity x = queryIdentity y → x.group = y.group

variable (happart : Apart (s.bundlesOf projectId)) (hsome : s.groupOf projectId g ≠ [])
include happart hsome

/-- Then the bundles with the identity of the group are those of the group. -/
theorem group_of_identity (hx : x ∈ s.bundlesOf projectId)
    (h : queryIdentity x = g.identity) : x.group = g := by
  obtain ⟨y, hy⟩ := List.exists_mem_of_ne_nil _ hsome
  unfold Store.groupOf at hy
  rw [List.mem_filter, decide_eq_true_eq] at hy
  rw [← hy.2]
  exact happart x hx y hy.1 (h.trans (queryIdentity_of_group hy.2).symm)

theorem identity_group (hfilter : filter ∈ [none, some g.snapshotManifestId]) :
    ((s.bundlesOf projectId).filter (selects filter)).filter
      (fun x => queryIdentity x = g.identity) = s.groupOf projectId g := by
  unfold Store.groupOf
  rw [List.filter_filter]
  apply List.filter_congr
  intro x hx
  by_cases hg : x.group = g
  · simp [hg, selects_group hg hfilter, queryIdentity_of_group hg]
  · have hne : queryIdentity x ≠ g.identity := fun h => hg (group_of_identity happart hsome hx h)
    simp [hg, hne]

theorem graphIdentity_group {b : AttestedBundle dateParse} (hb : b.group = g) :
    ((s.bundlesOf projectId).filter fun x =>
        x.bundle.snapshotManifestId = g.snapshotManifestId).filter
      (fun x => graphIdentity x = graphIdentity b) = s.groupOf projectId g := by
  unfold Store.groupOf
  rw [List.filter_filter]
  apply List.filter_congr
  intro x hx
  have hsnapshot : b.bundle.snapshotManifestId = g.snapshotManifestId := by
    rw [← hb]
    rfl
  by_cases hg : x.group = g
  · have heq : x.group = b.group := hg.trans hb.symm
    simp only [AttestedBundle.group, Group.mk.injEq] at heq
    simp [hg, graphIdentity, heq.1, heq.2.1, heq.2.2, hsnapshot]
  · have hne : ¬ (graphIdentity x = graphIdentity b ∧
        x.bundle.snapshotManifestId = g.snapshotManifestId) := by
      rintro ⟨hid, hs⟩
      have hquery := queryIdentity_of_graphIdentity (hs.trans hsnapshot.symm) hid
      exact hg (group_of_identity happart hsome hx
        (hquery.trans (queryIdentity_of_group hb)))
    simpa [hg] using hne

/-- `queryFacts` uses the first of the latest bundles of the group. -/
theorem queryBundles_iff
    (hfilter : filter ∈ [none, some g.snapshotManifestId]) (x : AttestedBundle dateParse) :
    (x ∈ queryBundles s projectId filter ∧ x.group = g) ↔
      FirstMax AttestedBundle.time (s.groupOf projectId g) x := by
  unfold queryBundles
  rw [(kept_keepFirst _ _).mem_iff, get?_keepFirst, find?_insertionSort]
  constructor
  · rintro ⟨hfirst, hg⟩
    rw [queryIdentity_of_group hg, identity_group happart hsome hfilter] at hfirst
    exact firstMax?_eq_some.mp hfirst
  · intro hfirst
    have hg : x.group = g := by
      have hx := hfirst.mem
      unfold Store.groupOf at hx
      simpa using (List.mem_filter.mp hx).2
    refine ⟨?_, hg⟩
    rw [queryIdentity_of_group hg, identity_group happart hsome hfilter]
    exact firstMax?_eq_some.mpr hfirst

/-- `getSnapshotFactGraph` uses the first of the bundles with the greatest texts. -/
theorem graphBundles_iff (x : AttestedBundle dateParse) :
    (x ∈ graphBundles s projectId g.snapshotManifestId ∧ x.group = g) ↔
      FirstMax AttestedBundle.textRank (s.groupOf projectId g) x := by
  unfold graphBundles
  rw [(kept_keepGreatest _ _ _).mem_iff, get?_keepGreatest replaces_iff]
  constructor
  · rintro ⟨hfirst, hg⟩
    rw [graphIdentity_group happart hsome hg] at hfirst
    exact firstMax?_eq_some.mp hfirst
  · intro hfirst
    have hg : x.group = g := by
      have hx := hfirst.mem
      unfold Store.groupOf at hx
      simpa using (List.mem_filter.mp hx).2
    refine ⟨?_, hg⟩
    rw [graphIdentity_group happart hsome hg]
    exact firstMax?_eq_some.mpr hfirst

theorem sameCurrent_iff : SameCurrent s projectId g ↔ ∃ b,
    FirstMax AttestedBundle.time (s.groupOf projectId g) b ∧
      FirstMax AttestedBundle.textRank (s.groupOf projectId g) b := by
  constructor
  · intro h
    obtain ⟨b, hquery, hgraph, _⟩ := h none (by simp)
    refine ⟨b, ?_, ?_⟩
    · exact (queryBundles_iff happart hsome (by simp) b).mp ((hquery b).mpr rfl)
    · exact (graphBundles_iff happart hsome b).mp ((hgraph b).mpr rfl)
  · rintro ⟨b, htime, htext⟩ filter hfilter
    refine ⟨b, ?_, ?_, ?_⟩
    · intro x
      rw [queryBundles_iff happart hsome hfilter]
      exact ⟨fun hx => firstMax_unique hx htime, fun hx => hx ▸ htime⟩
    · intro x
      rw [graphBundles_iff happart hsome]
      exact ⟨fun hx => firstMax_unique hx htext, fun hx => hx ▸ htext⟩
    · intro x hx
      exact htime.le hx

end Apart

/-- Two groups with one identity cannot both have their bundle in `queryFacts`. -/
theorem apart_of_readersAgree (h : ReadersAgree s projectId) : Apart (s.bundlesOf projectId) := by
  intro x hx y hy hid
  have hused : ∀ z ∈ s.bundlesOf projectId, ∃ b, b.group = z.group ∧
      OrderedMap.get? (keepFirst queryIdentity (((s.bundlesOf projectId).filter
        (selects none)).insertionSort fun left right => right.time ≤ left.time))
        (queryIdentity z) = some b := by
    intro z hz
    have hne : s.groupOf projectId z.group ≠ [] := by
      apply List.ne_nil_of_mem (a := z)
      exact List.mem_filter.mpr ⟨hz, by simp⟩
    obtain ⟨b, hquery, _, _⟩ := h z.group hne none (by simp)
    obtain ⟨hb, hg⟩ := (hquery b).mpr rfl
    unfold queryBundles at hb
    rw [(kept_keepFirst _ _).mem_iff] at hb
    refine ⟨b, hg, ?_⟩
    rw [queryIdentity_of_group rfl, ← queryIdentity_of_group hg]
    exact hb
  obtain ⟨b, hbx, hb⟩ := hused x hx
  obtain ⟨c, hcy, hc⟩ := hused y hy
  rw [hid, hc] at hb
  cases hb
  exact hbx.symm.trans hcy

theorem readersAgree_iff (s : Store dateParse) (projectId : String) :
    ReadersAgree s projectId ↔ TextsFollowInstants s projectId := by
  constructor
  · intro h
    have happart := apart_of_readersAgree h
    refine ⟨happart, ?_⟩
    intro g hsome
    exact (sameCurrent_iff happart hsome).mp (h g hsome)
  · intro h g hsome
    exact (sameCurrent_iff h.apart hsome).mpr (h.latest g hsome)

/-- After every sequence of calls, both readers use the same latest bundle of each group
exactly when the texts of the observations follow their instants. -/
theorem readers_agree_iff_texts_follow_instants (sha256 : String → String)
    (localeCompare : String → String → Ordering) (dateParse : String → Option Int)
    (calls : List Call) (projectId : String) :
    ReadersAgree (after sha256 localeCompare dateParse calls) projectId ↔
      TextsFollowInstants (after sha256 localeCompare dateParse calls) projectId :=
  readersAgree_iff _ projectId

end Readers

/-! ## An earlier instant with a greater text -/

/-- Ten o'clock, and nine o'clock as another time zone writes it. -/
def tenOClock : String := "2026-01-01T10:00:00Z"

def nineOClock : String := "2026-01-01T11:00:00+02:00"

def morningParse (text : String) : Option Int :=
  if text = tenOClock then some 1767261600000
  else if text = nineOClock then some 1767258000000
  else none

/-- SHA-256 on the texts of the two bundles: the instant of the shorter one is ten o'clock. -/
def morningDigest (text : String) : String :=
  if text.utf8ByteSize = 259 then
    "b37062660e105e13070f93b2d35bb3e6d7d8a821c3a2f7f4634cb2ed3e206d13"
  else "4d907ed87f0646e5db23ac89e448ef8094e5d45a63db9c76b712b8aa1bb3b1c5"

def sourceDigest : String :=
  "sha256:abababababababababababababababababababababababababababababababab"

def bundleInput (observedAt : String) : Json :=
  .obj [("projectId", .str "P"), ("snapshotManifestId", .str "SM"), ("sourceComponentId", .str "S"),
    ("sourceDigest", .str sourceDigest),
    ("extractor", .obj [("id", .str "X"), ("version", .str "1")]),
    ("observedAt", .str observedAt), ("complete", .bool true), ("nodes", .arr []),
    ("edges", .arr [])]

def sourceManifest : Json :=
  .obj [("id", .str "SM"), ("components", .obj [("source", .obj [("id", .str "S"),
    ("digest", .str sourceDigest)])])]

def twoObservations : List Call :=
  [.appendSnapshotManifest "P" "SM" sourceManifest,
    .appendFactBundle "P" (some (bundleInput tenOClock)) none,
    .appendFactBundle "P" (some (bundleInput nineOClock)) none]

/-- `queryFacts` uses the bundle of ten o'clock, `getSnapshotFactGraph` that of nine. -/
theorem readers_use_different_bundles :
    ¬ ∀ (sha256 : String → String) (localeCompare : String → String → Ordering)
      (dateParse : String → Option Int) (calls : List Call) (projectId : String),
      ReadersAgree (after sha256 localeCompare dateParse calls) projectId := by
  intro h
  have hagree := h morningDigest (fun _ _ => .eq) morningParse twoObservations "P"
  -- one evaluation of the calls answers all three
  obtain ⟨hsome, hten, hnine⟩ :
      (after morningDigest (fun _ _ => .eq) morningParse twoObservations).groupOf "P"
          ⟨"SM", "S", "X"⟩ ≠ [] ∧
        (queryBundles (after morningDigest (fun _ _ => .eq) morningParse twoObservations)
          "P" none).all (fun x => x.bundle.observedAt.text = tenOClock) = true ∧
        (graphBundles (after morningDigest (fun _ _ => .eq) morningParse twoObservations)
          "P" "SM").all (fun x => x.bundle.observedAt.text = nineOClock) = true := by
    decide +kernel
  obtain ⟨b, hquery, hgraph, _⟩ := hagree ⟨"SM", "S", "X"⟩ hsome none (by simp)
  have hb := List.all_eq_true.mp hten b ((hquery b).mpr rfl).1
  rw [decide_eq_true_eq] at hb
  have hb' := List.all_eq_true.mp hnine b ((hgraph b).mpr rfl).1
  rw [decide_eq_true_eq, hb] at hb'
  exact absurd hb' (by decide)

end Traqen.FactBundleStore
