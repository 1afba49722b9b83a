-- What is published: a list that is accepted gives its own records in one order, closed under
-- reference, and the version of the graph names the list up to the order of the records and of the
-- keys in their payloads.
import Mathlib.Data.List.Forall2
import Mathlib.Logic.Relation
import Traqen.RecordClosure

open Js

namespace Traqen.RecordVerification

open ScopeLifecycle (canonicalDigest)
open SourceIdentity (sortKeys SameUpToOrder DistinctKeys canonicalEncode)
open SourceIdentity (encodeFields canonicalEncode_eq_iff_sortKeys sortItems_eq sortFields
  sortedByKey sortFields_eq canonicalEncode_same listedDigest)
open FactIdentity (field_eq requireString_ok)

/-! ## One order -/

/-- The kind and the id come before. -/
def Precedes (a b : Record) : Prop := a.kind < b.kind ∨ a.kind = b.kind ∧ a.id < b.id

theorem recordBefore_total (a b : Record) : recordBefore a b ∨ recordBefore b a := by
  unfold recordBefore
  rcases lt_trichotomy a.kind b.kind with h | h | h
  · exact Or.inl (Or.inl h)
  · rcases le_total a.id b.id with hid | hid
    · exact Or.inl (Or.inr ⟨h, hid⟩)
    · exact Or.inr (Or.inr ⟨h.symm, hid⟩)
  · exact Or.inr (Or.inl h)

variable {a b : Record}

theorem recordBefore_trans {c : Record} (hab : recordBefore a b) (hbc : recordBefore b c) :
    recordBefore a c := by
  unfold recordBefore at *
  rcases hab with hab | ⟨hab, hid⟩
  · rcases hbc with hbc | ⟨hbc, -⟩
    · exact Or.inl (hab.trans hbc)
    · exact Or.inl (hbc ▸ hab)
  · rcases hbc with hbc | ⟨hbc, hid'⟩
    · exact Or.inl (hab ▸ hbc)
    · exact Or.inr ⟨hab.trans hbc, hid.trans hid'⟩

theorem Precedes.trans {c : Record} (hab : Precedes a b) (hbc : Precedes b c) :
    Precedes a c := by
  unfold Precedes at *
  rcases hab with hab | ⟨hab, hid⟩
  · rcases hbc with hbc | ⟨hbc, -⟩
    · exact Or.inl (hab.trans hbc)
    · exact Or.inl (hbc ▸ hab)
  · rcases hbc with hbc | ⟨hbc, hid'⟩
    · exact Or.inl (hab ▸ hbc)
    · exact Or.inr ⟨hab.trans hbc, hid.trans hid'⟩

theorem Precedes.recordBefore (h : Precedes a b) : recordBefore a b :=
  h.imp_right fun h => ⟨h.1, h.2.le⟩

theorem Precedes.asymm (hab : Precedes a b) (hba : Precedes b a) : False := by
  rcases hab.trans hba with h | ⟨-, h⟩
  · exact lt_irrefl _ h
  · exact lt_irrefl _ h

theorem sorted (records : List Record) :
    (records.insertionSort recordBefore).Pairwise recordBefore := by
  have : Std.Total recordBefore := ⟨recordBefore_total⟩
  have : IsTrans Record recordBefore := ⟨fun _ _ _ => recordBefore_trans⟩
  exact List.pairwise_insertionSort _ _

variable {as bs records : List Record}

/-- Sorted, and no two neighbours alike: every record precedes all after it. -/
theorem precedes_of_noDuplicates (hsorted : records.Pairwise recordBefore)
    (h : noDuplicates records = .ok ()) : records.Pairwise Precedes := by
  induction records with
  | nil => exact .nil
  | cons a rest ih =>
    cases rest with
    | nil => exact List.pairwise_singleton _ _
    | cons b rest =>
      obtain ⟨hbefore, hrest⟩ := List.pairwise_cons.mp hsorted
      obtain ⟨u, hdiffer, h⟩ := bind_ok h
      have htail := ih hrest h
      have hab : Precedes a b := by
        rcases hbefore b List.mem_cons_self with hlt | ⟨hkind, hid⟩
        · exact Or.inl hlt
        · refine Or.inr ⟨hkind, lt_of_le_of_ne hid ?_⟩
          exact (checked_ok hdiffer).resolve_left (not_not.mpr hkind)
      refine List.pairwise_cons.mpr ⟨?_, htail⟩
      rintro c hc
      rcases List.mem_cons.mp hc with rfl | hc
      · exact hab
      · exact hab.trans ((List.pairwise_cons.mp htail).1 c hc)

theorem unique_of_precedes (h : records.Pairwise Precedes) :
    (records.map fun r => (r.kind, r.id)).Nodup := by
  refine List.pairwise_map.mpr (h.imp ?_)
  intro a b hab heq
  obtain ⟨hkind, hid⟩ := Prod.mk.injEq .. ▸ heq
  rcases hab with hlt | ⟨-, hlt⟩
  · exact hlt.ne hkind
  · exact hlt.ne hid

/-! ## What is accepted -/

section Law

variable {sha256 : String → String} {rules : Rules} {context : Context}

theorem validateRecord_ok {record : Json} {r : Record}
    (h : validateRecord sha256 rules context record = .ok r) :
    r = canonical record ∧ validatePayload sha256 rules context r = .ok () := by
  unfold validateRecord at h
  obtain ⟨u, -, h⟩ := bind_ok h
  obtain ⟨u, -, h⟩ := bind_ok h
  obtain ⟨u, -, h⟩ := bind_ok h
  obtain ⟨u, -, h⟩ := bind_ok h
  obtain ⟨u, hpayload, h⟩ := bind_ok h
  cases h
  exact ⟨rfl, hpayload⟩

theorem evidence_digest {r : Record} (hkind : r.kind = "EVIDENCE")
    (h : validatePayload sha256 rules context r = .ok ()) :
    isText (r.payload.get? "contentDigest") = true := by
  unfold validatePayload at h
  rw [hkind] at h
  obtain ⟨u, -, h⟩ := bind_ok h
  obtain ⟨u, -, h⟩ := bind_ok h
  obtain ⟨u, hdigest, -⟩ := bind_ok h
  exact (checked_ok hdigest).1

/-- What an accepted list gives. -/
structure Accepted (records : List Json) (out : List Record) : Prop where
  perm : out.Perm (records.map canonical)
  ordered : out.Pairwise Precedes
  closed : Closed out

theorem normalizeCanonicalRecords_ok {records : List Json} {out : List Record}
    (h : normalizeCanonicalRecords sha256 rules context records = .ok out) :
    Accepted records out := by
  unfold normalizeCanonicalRecords at h
  obtain ⟨u, -, h⟩ := bind_ok h
  obtain ⟨u, -, h⟩ := bind_ok h
  obtain ⟨validated, hvalidated, h⟩ := bind_ok h
  obtain ⟨u, hduplicates, h⟩ := bind_ok h
  obtain ⟨u, hclosure, h⟩ := bind_ok h
  cases h
  have hcanonical : validated = records.map canonical := by
    have hmap := mapM_ok_map (g := id) hvalidated fun x y hxy => (validateRecord_ok hxy).1
    rwa [List.map_id] at hmap
  have hperm := List.perm_insertionSort recordBefore validated
  have hordered := precedes_of_noDuplicates (sorted validated) hduplicates
  refine ⟨hcanonical ▸ hperm, hordered, ?_⟩
  apply closed_of_validateClosure (unique_of_precedes hordered) _ hclosure
  intro id payload hlisted
  obtain ⟨record, -, hrecord⟩ := exists_source (mapM_ok hvalidated) (hperm.mem_iff.mp hlisted)
  exact evidence_digest rfl (validateRecord_ok hrecord).2

/-! ## The digest of the records -/

/-- Alike, up to the order of the keys in the payloads. -/
def SameText (a b : Record) : Prop :=
  a.kind = b.kind ∧ a.id = b.id ∧ sortKeys a.payload = sortKeys b.payload

theorem canonicalDigest_congr (domain : String) {v w : Json} (h : sortKeys v = sortKeys w) :
    canonicalDigest sha256 domain v = canonicalDigest sha256 domain w := by
  have htext := canonicalEncode_eq_iff_sortKeys.mpr h
  unfold canonicalDigest
  simp only [canonicalEncode, encodeFields, htext]

theorem sortKeys_toJson : sortKeys a.toJson = sortKeys b.toJson ↔ SameText a b := by
  constructor
  · intro h
    have hkind := field_eq h "kind" (.str a.kind) (.str b.kind) (by simp) (by simp)
    have hid := field_eq h "id" (.str a.id) (.str b.id) (by simp) (by simp)
    have hpayload := field_eq h "payload" a.payload b.payload (by simp) (by simp)
    exact ⟨Json.str.inj hkind, Json.str.inj hid, hpayload⟩
  · rintro ⟨hkind, hid, hpayload⟩
    have htext := canonicalEncode_eq_iff_sortKeys.mpr hpayload
    rw [← canonicalEncode_eq_iff_sortKeys]
    simp only [Record.toJson, canonicalEncode, encodeFields, htext, hkind, hid]

theorem sortKeys_records {items others : List Json} :
    sortKeys (.obj [("records", .arr items)]) = sortKeys (.obj [("records", .arr others)]) ↔
      items.map sortKeys = others.map sortKeys := by
  rw [← sortItems_eq, ← sortItems_eq]
  constructor
  · intro h
    exact Json.arr.inj (field_eq h "records" (.arr items) (.arr others) (by simp)
      (by simp))
  · intro h
    simp only [sortKeys, sortFields, h]

/-- The digest names the records in their order. -/
theorem recordDigestOf_eq (hsha : Function.Injective sha256) :
    recordDigestOf sha256 as = recordDigestOf sha256 bs ↔ List.Forall₂ SameText as bs := by
  have hlist : sortKeys (.obj [("records", .arr (as.map Record.toJson))]) =
      sortKeys (.obj [("records", .arr (bs.map Record.toJson))]) ↔ List.Forall₂ SameText as bs := by
    rw [sortKeys_records, ← List.forall₂_eq_eq_eq, List.map_map, List.map_map,
      List.forall₂_map_left_iff, List.forall₂_map_right_iff]
    exact ⟨fun h => h.imp fun _ _ => sortKeys_toJson.mp, fun h => h.imp fun _ _ =>
      sortKeys_toJson.mpr⟩
  rw [← hlist]
  exact ⟨FactIdentity.canonicalDigest_injective hsha, canonicalDigest_congr _⟩

/-! ## The version of the graph -/

def keysOfRecords (records : List Record) : List (String × String) :=
  records.map fun r => (r.kind, r.id)

/-- What a graph version is the digest of. -/
def versionPayload (workspaceId bundleId scopeId : String) (schemaVersion : Option Json)
    (fields : List (String × Json)) (keys : List (String × String)) : Json :=
  .obj [("workspaceId", .str workspaceId), ("bundleId", .str bundleId), ("scopeId", .str scopeId),
    ("schemaVersion", schemaVersion.getD .null), ("ruleConfig", sortKeys (.obj fields)),
    ("records", .arr (keys.map fun key => .obj [("kind", .str key.1), ("id", .str key.2)]))]

variable {bundleId scopeId workspaceId : String}

theorem createGraphVersionId_ok {id : String}
    {schemaVersion : Option Json} {ruleConfig : Option (List (String × Json))}
    (hordered : records.Pairwise Precedes)
    (h : createGraphVersionId sha256 workspaceId bundleId scopeId schemaVersion ruleConfig
      records = .ok id) :
    ∃ fields, ruleConfig = some fields ∧ id = canonicalDigest sha256 "GRAPH_VERSION"
      (versionPayload workspaceId bundleId scopeId schemaVersion fields
        (keysOfRecords records)) := by
  unfold createGraphVersionId at h
  obtain ⟨u, -, h⟩ := bind_ok h
  obtain ⟨named, hnamed, h⟩ := bind_ok h
  obtain ⟨u, -, h⟩ := bind_ok h
  obtain ⟨w, hw, h⟩ := bind_ok h
  obtain ⟨b, hb, h⟩ := bind_ok h
  obtain ⟨s, hs, h⟩ := bind_ok h
  obtain ⟨config, hconfig, h⟩ := bind_ok h
  obtain rfl := requireString_ok hw
  obtain rfl := Option.some.inj (FactIdentity.requireHexId_ok hb).1
  obtain rfl := requireString_ok hs
  have hsame : named = records := by
    have hmap : named.map (fun r => r) = records.map (fun r => r) :=
      mapM_ok_map hnamed fun r named hr => by
        obtain ⟨kind, hkind, hr⟩ := bind_ok hr
        obtain ⟨id, hid, hr⟩ := bind_ok hr
        cases hr
        rw [requireString_ok hkind, requireString_ok hid]
    rwa [List.map_id', List.map_id'] at hmap
  have hsorted : named.insertionSort recordBefore = records := by
    rw [hsame]
    exact List.Pairwise.insertionSort_eq (hordered.imp Precedes.recordBefore)
  cases ruleConfig with
  | none => cases hconfig
  | some fields =>
    cases hconfig
    cases h
    refine ⟨fields, rfl, ?_⟩
    rw [hsorted]
    rfl

/-- A field of a value that was sorted already. -/
theorem field_of_sorted {fs gs : List (String × Json)}
    (h : sortKeys (sortKeys (.obj fs)) = sortKeys (sortKeys (.obj gs))) (key : String) {v w : Json}
    (hv : (key, v) ∈ fs) (hw : ∀ x, (key, x) ∈ gs → x = w) :
    sortKeys (sortKeys v) = sortKeys (sortKeys w) := by
  have hsorted : ∀ fields : List (String × Json), ∀ k x,
      (k, x) ∈ sortedByKey (sortFields fields) ↔
        ∃ y, (k, y) ∈ fields ∧ sortKeys y = x := by
    intro fields k x
    rw [(SourceIdentity.sortedByKey_perm_self _).mem_iff, sortFields_eq]
    simp
  refine field_eq h key (sortKeys v) (sortKeys w) ?_ ?_
  · exact (hsorted fs key _).mpr ⟨v, hv, rfl⟩
  · intro x hx
    obtain ⟨y, hy, rfl⟩ := (hsorted gs key x).mp hx
    rw [hw y hy]

variable {profile : Json}

theorem ruleConfigOf_some {digest : String} {fields : List (String × Json)}
    (h : ruleConfigOf profile digest = some fields) :
    ("recordDigest", Json.str digest) ∈ fields ∧
      ∀ x, ("recordDigest", x) ∈ fields → x = .str digest := by
  unfold ruleConfigOf at h
  simp only [Option.bind_eq_bind, Option.bind_eq_some_iff, Option.pure_def,
    Option.some.injEq] at h
  obtain ⟨id, -, schemaVersion, -, ruleVersions, -, version, -, rfl⟩ := h
  simp

/-- What a publication is made of. -/
theorem verifyPublication_ok
    {records : List Json} {p : Publication}
    (h : verifyPublication sha256 rules workspaceId bundleId scopeId profile records = .ok p) :
    Accepted records p.records ∧ ∃ fields,
      ruleConfigOf profile (recordDigestOf sha256 p.records) = some fields ∧
      p.graphVersionId = canonicalDigest sha256 "GRAPH_VERSION" (versionPayload workspaceId bundleId
        scopeId (profile.get? "schemaVersion") fields (keysOfRecords p.records)) := by
  unfold verifyPublication at h
  obtain ⟨u, -, h⟩ := bind_ok h
  obtain ⟨out, hout, h⟩ := bind_ok h
  obtain ⟨id, hid, h⟩ := bind_ok h
  cases h
  have haccepted := normalizeCanonicalRecords_ok hout
  exact ⟨haccepted, createGraphVersionId_ok haccepted.ordered (identified_ok hid)⟩

theorem keys_of_same (h : List.Forall₂ SameText as bs) :
    keysOfRecords as = keysOfRecords bs := by
  unfold keysOfRecords
  rw [← List.forall₂_eq_eq_eq, List.forall₂_map_left_iff, List.forall₂_map_right_iff]
  exact h.imp fun a b hab => Prod.ext hab.1 hab.2.1

/-- Kind and id decide the order. -/
theorem precedes_keys : records.Pairwise Precedes ↔
    (keysOfRecords records).Pairwise fun a b => a.1 < b.1 ∨ a.1 = b.1 ∧ a.2 < b.2 := by
  unfold keysOfRecords
  rw [List.pairwise_map]
  rfl

/-- Two lists with one key each, both in order, are alike where their records are. -/
theorem forall₂_of_perm {cs : List Record} (has : as.Pairwise Precedes)
    (hbs : bs.Pairwise Precedes) (hperm : as.Perm cs) (hsame : List.Forall₂ SameText cs bs) :
    List.Forall₂ SameText as bs := by
  have hcs : cs.Pairwise Precedes := by
    rw [precedes_keys] at hbs ⊢
    rwa [keys_of_same hsame]
  have heq : as = cs := hperm.eq_of_pairwise (fun a b _ _ hab hba => (hab.asymm hba).elim) has hcs
  exact heq ▸ hsame

theorem graphVersionId_eq (hsha : Function.Injective sha256)
    {records others : List Json}
    {p q : Publication}
    (hp : verifyPublication sha256 rules workspaceId bundleId scopeId profile records = .ok p)
    (hq : verifyPublication sha256 rules workspaceId bundleId scopeId profile others = .ok q) :
    p.graphVersionId = q.graphVersionId ↔ List.Forall₂ SameText p.records q.records := by
  obtain ⟨-, fields, hfields, hid⟩ := verifyPublication_ok hp
  obtain ⟨-, fields', hfields', hid'⟩ := verifyPublication_ok hq
  rw [← recordDigestOf_eq hsha, hid, hid']
  constructor
  · intro h
    have hpayload := FactIdentity.canonicalDigest_injective hsha h
    have hconfig := field_eq hpayload "ruleConfig" (sortKeys (.obj fields))
      (sortKeys (.obj fields')) (by simp) (by simp)
    exact Json.str.inj (field_of_sorted hconfig "recordDigest" (ruleConfigOf_some hfields).1
      (ruleConfigOf_some hfields').2)
  · intro h
    have hkeys : keysOfRecords p.records = keysOfRecords q.records :=
      keys_of_same ((recordDigestOf_eq hsha).mp h)
    rw [h, hfields'] at hfields
    cases hfields
    rw [hkeys]

/-! ## The law -/

/-- Alike, with the keys of the payloads in any order. -/
def SameRecord (a b : Record) : Prop :=
  a.kind = b.kind ∧ a.id = b.id ∧ SameUpToOrder a.payload b.payload

/-- A permutation, up to the order of the keys in the payloads. -/
def SameSet : List Record → List Record → Prop :=
  Relation.Comp List.Perm (List.Forall₂ SameRecord)

theorem distinctFields_iff {fields : List (String × Json)} :
    SourceIdentity.DistinctFields fields ↔ ∀ e ∈ fields, DistinctKeys e.2 := by
  induction fields with
  | nil => simp [SourceIdentity.DistinctFields]
  | cons e rest ih => simp [SourceIdentity.DistinctFields, ih]

theorem distinct_canonical {record : Json} (h : DistinctKeys record) :
    DistinctKeys (canonical record).payload := by
  have hfields : ((fieldsOf (some record)).map (·.1)).Nodup ∧
      ∀ e ∈ fieldsOf (some record), DistinctKeys e.2 := by
    cases record with
    | obj fields => exact ⟨h.1, distinctFields_iff.mp h.2⟩
    | _ => exact ⟨List.nodup_nil, nofun⟩
  unfold canonical normalizedPayload
  dsimp only
  split
  · next payload hpayload =>
    cases record with
    | obj fields =>
      rw [Json.get?, OrderedMap.lookup_eq_get?] at hpayload
      exact hfields.2 _ (OrderedMap.get?_mem hpayload)
    | _ => cases hpayload
  · refine ⟨hfields.1.sublist ((List.filter_sublist).map _), distinctFields_iff.mpr ?_⟩
    intro e he
    exact hfields.2 e (List.mem_of_mem_filter he)

theorem sameText_iff (ha : DistinctKeys a.payload) (hb : DistinctKeys b.payload) :
    SameText a b ↔ SameRecord a b := by
  unfold SameText SameRecord
  rw [← canonicalEncode_eq_iff_sortKeys]
  refine and_congr_right fun _ => and_congr_right fun _ => ⟨?_, ?_⟩
  · exact SourceIdentity.same_of_canonicalEncode ha hb
  · exact canonicalEncode_same

theorem forall₂_sameText_iff (has : ∀ a ∈ as, DistinctKeys a.payload)
    (hbs : ∀ b ∈ bs, DistinctKeys b.payload) :
    List.Forall₂ SameText as bs ↔ List.Forall₂ SameRecord as bs := by
  induction as generalizing bs with
  | nil => simp
  | cons a as ih =>
    cases bs with
    | nil => simp
    | cons b bs =>
      rw [List.forall₂_cons, List.forall₂_cons, sameText_iff (has a List.mem_cons_self)
        (hbs b List.mem_cons_self), ih (fun c hc => has c (List.mem_cons_of_mem a hc))
        (fun c hc => hbs c (List.mem_cons_of_mem b hc))]

/-- The versions are one exactly where the lists are one set of records. -/
theorem sameSet_iff (hsha : Function.Injective sha256)
    {records others : List Json}
    {p q : Publication}
    (hp : verifyPublication sha256 rules workspaceId bundleId scopeId profile records = .ok p)
    (hq : verifyPublication sha256 rules workspaceId bundleId scopeId profile others = .ok q)
    (hrecords : ∀ r ∈ records, DistinctKeys r) (hothers : ∀ r ∈ others, DistinctKeys r) :
    p.graphVersionId = q.graphVersionId ↔
      SameSet (records.map canonical) (others.map canonical) := by
  obtain ⟨haccepted, -⟩ := verifyPublication_ok hp
  obtain ⟨haccepted', -⟩ := verifyPublication_ok hq
  rw [graphVersionId_eq hsha hp hq]
  have hdistinct : ∀ {rs : List Json}, (∀ r ∈ rs, DistinctKeys r) →
      ∀ r ∈ rs.map canonical, DistinctKeys r.payload := by
    intro rs hrs r hr
    obtain ⟨record, hmem, rfl⟩ := List.mem_map.mp hr
    exact distinct_canonical (hrs record hmem)
  constructor
  · intro h
    have hcomp : Relation.Comp (List.Forall₂ SameText) List.Perm p.records
        (others.map canonical) := ⟨q.records, h, haccepted'.perm⟩
    rw [List.forall₂_comp_perm_eq_perm_comp_forall₂] at hcomp
    obtain ⟨cs, hperm, hsame⟩ := hcomp
    have hcs : (records.map canonical).Perm cs := haccepted.perm.symm.trans hperm
    refine ⟨cs, hcs, (forall₂_sameText_iff ?_ (hdistinct hothers)).mp hsame⟩
    exact fun r hr => hdistinct hrecords r (hcs.mem_iff.mpr hr)
  · rintro ⟨cs, hcs, hsame⟩
    have hdistinctCs : ∀ r ∈ cs, DistinctKeys r.payload := fun r hr =>
      hdistinct hrecords r (hcs.mem_iff.mpr hr)
    have hcomp : Relation.Comp (List.Forall₂ SameText) List.Perm cs q.records :=
      ⟨_, (forall₂_sameText_iff hdistinctCs (hdistinct hothers)).mpr hsame, haccepted'.perm.symm⟩
    rw [List.forall₂_comp_perm_eq_perm_comp_forall₂] at hcomp
    obtain ⟨ds, hperm, hsame⟩ := hcomp
    exact forall₂_of_perm haccepted.ordered haccepted'.ordered
      ((haccepted.perm.trans hcs).trans hperm) hsame

end Law

/-! ## One gap -/

/-- The id of the gap. -/
def gapHex : String := String.ofList (List.replicate 64 'a')

def gapText : String :=
  canonicalEncode (.obj [("domain", .str "F002.GAP"), ("version", .num (Number.ofNat 1)),
    ("payload", .obj [("origin", .str "F002"), ("scopeId", .null), ("materialId", .null),
      ("objectId", .null), ("capability", .str "json"), ("code", .str "LIMIT"),
      ("location", .null), ("reason", .obj [])])])

def gapDigest : String → String := listedDigest [(gapText, gapHex)]

theorem gapDigest_injective : Function.Injective gapDigest := by
  apply SourceIdentity.listedDigest_injective (by simp)
  intro e he
  rw [List.mem_singleton.mp he]
  decide

def gapPayload : List (String × Json) :=
  [("gapId", .str gapHex), ("origin", .str "F002"), ("capability", .str "json"),
    ("code", .str "LIMIT"), ("reason", .obj [])]

/-- A gap with its payload, and with a field besides that no one reads. -/
def gapRecord (besides : List (String × Json)) : Json :=
  .obj ([("kind", .str "GAP"), ("id", .str gapHex), ("payload", .obj gapPayload)] ++ besides)

def noted : List (String × Json) := [("note", .null)]

def gapProfile : Json :=
  .obj [("id", .str "p"), ("schemaVersion", .num (Number.ofNat 1)),
    ("ruleVersions", .arr [.str "json@2"]), ("canonicalizationVersion", .str "rfc8785")]

def gapRules : Rules :=
  { containsPrivateKey := fun _ => false, recordRules := fun _ _ => .ok ()
    factRules := fun _ _ _ => .ok (), tableRules := fun _ _ => .ok () }

def publishGap (besides : List (String × Json)) : Except Thrown Publication :=
  verifyPublication gapDigest gapRules "w" gapHex "s" gapProfile [gapRecord besides]

theorem publishGap_ok : (publishGap []).toOption.isSome = true := by decide +kernel

theorem publishGap_noted : publishGap noted = publishGap [] := rfl

theorem distinct_gapRecord : DistinctKeys (gapRecord []) ∧ DistinctKeys (gapRecord noted) := by
  constructor
  · simp [gapRecord, gapPayload, DistinctKeys, SourceIdentity.DistinctFields]
  · simp [gapRecord, gapPayload, noted, DistinctKeys, SourceIdentity.DistinctFields]

theorem publishGap_both : ∃ p, publishGap [] = .ok p ∧ publishGap noted = .ok p := by
  have hok := publishGap_ok
  rw [publishGap_noted]
  cases h : publishGap [] with
  | error e =>
    rw [h] at hok
    cases hok
  | ok p => exact ⟨p, rfl, rfl⟩

end Traqen.RecordVerification
