-- Scopes (`deterministic-facts/identity.js`): the selections of a scope are read, what another one
-- covers is dropped, and the rest is put in one order.
import Mathlib.Data.List.Sort
import Traqen.RecordClosure

open Js

namespace Traqen.ScopeNormalization

open FactIdentity (requireHexId requireString)
open RecordVerification (decodePathBytes base64url)
open ScopeLifecycle (canonicalDigest isHexId)

/-! ## Selections -/

inductive ScopeKind where
  | COMPONENT | DIRECTORY | ENTRY
  deriving Repr, DecidableEq

namespace ScopeKind

def text : ScopeKind → String
  | COMPONENT => "COMPONENT"
  | DIRECTORY => "DIRECTORY"
  | ENTRY => "ENTRY"

/-- `scopeKinds.get(kind)`. -/
def rank : ScopeKind → Nat
  | COMPONENT => 0
  | DIRECTORY => 1
  | ENTRY => 2

end ScopeKind

def scopeKind? : Option Json → Option ScopeKind
  | some (.str "COMPONENT") => some .COMPONENT
  | some (.str "DIRECTORY") => some .DIRECTORY
  | some (.str "ENTRY") => some .ENTRY
  | _ => none

structure Selection where
  kind : ScopeKind
  componentId : String
  pathBytes : Option String
  rawPath : List UInt8
  deriving DecidableEq

def Selection.toJson (s : Selection) : Json :=
  match s.pathBytes with
  | none => .obj [("kind", .str s.kind.text), ("componentId", .str s.componentId)]
  | some pathBytes => .obj [("kind", .str s.kind.text), ("componentId", .str s.componentId),
      ("pathBytes", .str pathBytes)]

/-- A value that is a text. -/
def asText : Option Json → Option String
  | some (.str text) => some text
  | _ => none

/-- The path of a directory or of an entry. -/
def pathOf (kind : ScopeKind) (value : Option Json) : Except Failure (String × List UInt8) :=
  match value with
  | some (.str pathBytes) => do
    let rawPath ← decodePathBytes pathBytes
    return (pathBytes, rawPath)
  | _ => typeError (kind.text ++ " selection requires pathBytes")

def selector (input : Json) : Except Failure Selection :=
  if input.isObject = false then typeError "scope selection must be an object"
  else
    match scopeKind? (input.get? "kind") with
    | none => typeError "scope selection kind must be COMPONENT, DIRECTORY, or ENTRY"
    | some kind => do
      let componentId ← requireHexId (asText (input.get? "componentId")) "selection.componentId"
      if kind = .COMPONENT then
        if (input.get? "pathBytes").isSome then
          typeError "COMPONENT selection must not contain pathBytes"
        else return { kind, componentId, pathBytes := none, rawPath := [] }
      else do
        let (pathBytes, rawPath) ← pathOf kind (input.get? "pathBytes")
        return { kind, componentId, pathBytes := some pathBytes, rawPath }

def covers (cover selected : Selection) : Bool :=
  if cover.componentId ≠ selected.componentId then false
  else if cover.kind = .COMPONENT then true
  else if cover.kind ≠ .DIRECTORY ∨ selected.kind = .COMPONENT then false
  else
    decide (selected.rawPath = cover.rawPath) ||
      (decide (cover.rawPath.length < selected.rawPath.length) &&
        decide (selected.rawPath.take cover.rawPath.length = cover.rawPath) &&
        decide (selected.rawPath[cover.rawPath.length]? = some 47))

/-! ## The scope -/

/-- The key of a selection in the map. -/
def keyOf (s : Selection) : ScopeKind × String × String :=
  (s.kind, s.componentId, s.pathBytes.getD "")

def deduplicated (values : List Selection) : List Selection :=
  (OrderedMap.ofList (values.map fun v => (keyOf v, v))).map (·.2)

/-- No other one covers it. -/
def uncovered (values : List Selection) (candidate : Selection) : Bool :=
  !values.any fun cover => decide (cover ≠ candidate) && covers cover candidate

/-- The bytes of the path, to be compared. -/
def codes (s : Selection) : List Nat := s.rawPath.map UInt8.toNat

def Before (a b : Selection) : Prop :=
  a.componentId < b.componentId ∨ a.componentId = b.componentId ∧
    (codes a < codes b ∨ codes a = codes b ∧ a.kind.rank ≤ b.kind.rank)

instance (a b : Selection) : Decidable (Before a b) := inferInstanceAs (Decidable (_ ∨ _))

/-- The selections that stay, in their order. -/
def normal (values : List Selection) : List Selection :=
  ((deduplicated values).filter (uncovered (deduplicated values))).insertionSort Before

def normalizeScope (selections : Option Json) : Except Failure (List Json) :=
  match selections with
  | some (.arr inputs) =>
    if inputs = [] ∨ 256 < inputs.length then
      typeError "scope selections must contain 1–256 entries"
    else do
      let values ← inputs.mapM selector
      return (normal values).map Selection.toJson
  | _ => typeError "scope selections must contain 1–256 entries"

def createScopeId (sha256 : String → String) (workspaceId : String)
    (bundleId profileId : Option String) (selections : Option Json) : Except Failure String := do
  let workspaceId ← requireString workspaceId "workspaceId"
  let bundleId ← requireHexId bundleId "bundleId"
  let profileId ← requireHexId profileId "profileId"
  let selections ← normalizeScope selections
  return canonicalDigest sha256 "SCOPE" (.obj [("workspaceId", .str workspaceId),
    ("bundleId", .str bundleId), ("profileId", .str profileId), ("selections", .arr selections)])

/-! ## What is selected -/

/-- The path itself, or a path below it. -/
def Within (path below : List UInt8) : Prop := below = path ∨ path ++ [47] <+: below

/-- The entries of a component that a selection is about. -/
def Selects (s : Selection) (componentId : String) (path : List UInt8) : Prop :=
  s.componentId = componentId ∧
    match s.kind with
    | .COMPONENT => True
    | .DIRECTORY => Within s.rawPath path
    | .ENTRY => path = s.rawPath

/-- A selection that was read. -/
structure Valid (s : Selection) : Prop where
  componentId : isHexId s.componentId = true
  place : s.kind = .COMPONENT ∧ s.pathBytes = none ∧ s.rawPath = [] ∨
    s.kind ≠ .COMPONENT ∧ ∃ pathBytes, s.pathBytes = some pathBytes ∧
      decodePathBytes pathBytes = .ok s.rawPath

/-- A selection that nothing else covers. -/
def Maximal (values : List Selection) (s : Selection) : Prop :=
  s ∈ values ∧ ∀ cover ∈ values, cover ≠ s → covers cover s = false

section Reading

variable {s a b c : Selection}

theorem selector_valid {input : Json} (h : selector input = .ok s) : Valid s := by
  unfold selector at h
  by_cases hobject : input.isObject = false
  · rw [if_pos hobject] at h
    cases h
  rw [if_neg hobject] at h
  cases hkind : scopeKind? (input.get? "kind") with
  | none =>
    rw [hkind] at h
    cases h
  | some kind =>
    rw [hkind] at h
    obtain ⟨componentId, hid, h⟩ := bind_ok h
    obtain ⟨-, hhex⟩ := FactIdentity.requireHexId_ok hid
    split_ifs at h with hcomponent hpath
    · cases h
    · cases h
      exact ⟨hhex, Or.inl ⟨hcomponent, rfl, rfl⟩⟩
    · obtain ⟨⟨pathBytes, rawPath⟩, hplace, h⟩ := bind_ok h
      cases h
      refine ⟨hhex, Or.inr ⟨hcomponent, pathBytes, rfl, ?_⟩⟩
      unfold pathOf at hplace
      split at hplace
      · obtain ⟨bytes, hbytes, hplace⟩ := bind_ok hplace
        cases hplace
        exact hbytes
      · cases hplace

theorem scopeKind?_text (kind : ScopeKind) : scopeKind? (some (.str kind.text)) = some kind := by
  cases kind <;> rfl

/-- What is written of a selection is read as the selection. -/
theorem selector_toJson (h : Valid s) : selector s.toJson = .ok s := by
  have hid : requireHexId (some s.componentId) "selection.componentId" = .ok s.componentId := by
    unfold requireHexId
    rw [Option.filter_some, if_pos h.componentId]
  obtain ⟨kind, componentId, pathBytes, rawPath⟩ := s
  unfold Selection.toJson
  rcases h.place with ⟨hkind, hnone, hempty⟩ | ⟨hkind, text, hsome, hdecode⟩
  · dsimp only at hkind hnone hempty hid ⊢
    subst hkind hnone hempty
    change (do
      let id ← requireHexId (some componentId) "selection.componentId"
      return Selection.mk .COMPONENT id none []) = _
    rw [hid]
    rfl
  · dsimp only at hkind hsome hdecode hid ⊢
    subst hsome
    dsimp only
    have hpath : pathOf kind (some (.str text)) = .ok (text, rawPath) := by
      unfold pathOf
      dsimp only
      rw [hdecode]
      rfl
    unfold selector
    rw [if_neg (by simp [Json.isObject])]
    have hget : (Json.obj [("kind", .str kind.text), ("componentId", .str componentId),
        ("pathBytes", .str text)]).get? "kind" = some (.str kind.text) := rfl
    rw [hget, scopeKind?_text]
    change (do
      let id ← requireHexId (some componentId) "selection.componentId"
      if kind = ScopeKind.COMPONENT then
        if (some (Json.str text)).isSome = true then
          typeError "COMPONENT selection must not contain pathBytes"
        else return Selection.mk kind id none []
      else do
        let (pathBytes, rawPath) ← pathOf kind (some (.str text))
        return Selection.mk kind id (some pathBytes) rawPath) = _
    rw [hid]
    change (if kind = .COMPONENT then _ else _) = _
    rw [if_neg hkind, hpath]
    rfl

theorem decodePathBytes_base64url {text : String} {bytes : List UInt8}
    (h : decodePathBytes text = .ok bytes) : text = base64url bytes := by
  unfold decodePathBytes at h
  split_ifs at h
  · cases h
  dsimp only at h
  split_ifs at h with hsafe hsame
  · cases h
  · cases h
  · cases h
    exact (not_not.mp hsame).symm

/-- A selection is known by its kind, its component and its path. -/
theorem Valid.ext (ha : Valid a) (hb : Valid b) (hkind : a.kind = b.kind)
    (hcomponent : a.componentId = b.componentId) (hpath : a.rawPath = b.rawPath) : a = b := by
  have htext : a.pathBytes = b.pathBytes := by
    rcases ha.place with ⟨hka, hna, -⟩ | ⟨hka, ta, hsa, hda⟩
    · rcases hb.place with ⟨-, hnb, -⟩ | ⟨hkb, -⟩
      · rw [hna, hnb]
      · exact absurd (hkind ▸ hka) hkb
    · rcases hb.place with ⟨hkb, -⟩ | ⟨-, tb, hsb, hdb⟩
      · exact absurd (hkind.trans hkb) hka
      · rw [hsa, hsb, decodePathBytes_base64url hda, decodePathBytes_base64url hdb, hpath]
  cases a
  cases b
  simp_all

theorem Valid.keyOf_inj (ha : Valid a) (hb : Valid b) (h : keyOf a = keyOf b) : a = b := by
  obtain ⟨hkind, hrest⟩ := Prod.mk.inj h
  obtain ⟨hcomponent, htext⟩ := Prod.mk.inj hrest
  refine ha.ext hb hkind hcomponent ?_
  rcases ha.place with ⟨hka, -, hea⟩ | ⟨hka, ta, hsa, hda⟩
  · rcases hb.place with ⟨-, -, heb⟩ | ⟨hkb, -⟩
    · rw [hea, heb]
    · exact absurd (hkind ▸ hka) hkb
  · rcases hb.place with ⟨hkb, -⟩ | ⟨-, tb, hsb, hdb⟩
    · exact absurd (hkind.trans hkb) hka
    · rw [hsa, hsb, Option.getD_some, Option.getD_some] at htext
      rw [htext, hdb] at hda
      exact (Except.ok.inj hda).symm

/-! ## Covering -/

theorem within_iff {path below : List UInt8} : Within path below ↔ below = path ∨
    path.length < below.length ∧ below.take path.length = path ∧
      below[path.length]? = some 47 := by
  unfold Within
  refine or_congr_right ⟨?_, ?_⟩
  · rintro ⟨rest, rfl⟩
    simp
  · rintro ⟨-, htake, hslash⟩
    refine ⟨below.drop (path.length + 1), ?_⟩
    conv_rhs => rw [← List.take_append_drop (path.length + 1) below]
    rw [List.take_add_one, htake, hslash]
    rfl

theorem covers_iff : covers a b = true ↔ a.componentId = b.componentId ∧
    (a.kind = .COMPONENT ∨ a.kind = .DIRECTORY ∧ b.kind ≠ .COMPONENT ∧
      Within a.rawPath b.rawPath) := by
  unfold covers
  rw [within_iff]
  split_ifs with hcomponent hkind hother
  · simp [hcomponent]
  · simp [not_not.mp hcomponent, hkind]
  · constructor
    · intro h
      cases h
    · rintro ⟨-, hcover | ⟨hdirectory, hbelow, -⟩⟩
      · exact absurd hcover hkind
      · exact absurd hother (by simp [hdirectory, hbelow])
  · simp only [not_or, not_not] at hother hcomponent
    simp [hcomponent, hother, and_assoc]

theorem Within.trans {p q r : List UInt8} (h : Within p q) (h' : Within q r) : Within p r := by
  rcases h with rfl | h
  · exact h'
  · rcases h' with rfl | h'
    · exact Or.inr h
    · exact Or.inr (h.trans ((List.prefix_append q [47]).trans h'))

theorem covers_trans (h : covers a b = true) (h' : covers b c = true) : covers a c = true := by
  rw [covers_iff] at *
  obtain ⟨hcomponent, hcover⟩ := h
  obtain ⟨hcomponent', hcover'⟩ := h'
  refine ⟨hcomponent.trans hcomponent', ?_⟩
  rcases hcover with hcover | ⟨hdirectory, hbelow, hwithin⟩
  · exact Or.inl hcover
  · rcases hcover' with hcover' | ⟨-, hbelow', hwithin'⟩
    · exact absurd hcover' hbelow
    · exact Or.inr ⟨hdirectory, hbelow', hwithin.trans hwithin'⟩

/-- What is covered is selected by what covers it. -/
theorem Selects.of_covers (h : covers a b = true) {componentId : String} {path : List UInt8}
    (hb : Selects b componentId path) : Selects a componentId path := by
  obtain ⟨hcomponent, hcover⟩ := covers_iff.mp h
  obtain ⟨hid, hb⟩ := hb
  refine ⟨hcomponent.trans hid, ?_⟩
  rcases hcover with hkind | ⟨hkind, hbelow, hwithin⟩
  · rw [hkind]
    trivial
  · rw [hkind]
    dsimp only
    cases hb' : b.kind with
    | COMPONENT => exact absurd hb' hbelow
    | DIRECTORY =>
      rw [hb'] at hb
      exact hwithin.trans hb
    | ENTRY =>
      rw [hb'] at hb
      exact hwithin.trans (Or.inl hb)

/-- How far a selection reaches down. -/
def depth (s : Selection) : Nat :=
  match s.kind with
  | .COMPONENT => 0
  | .DIRECTORY => 1 + 2 * s.rawPath.length
  | .ENTRY => 2 + 2 * s.rawPath.length

/-- What covers another selection reaches less far down. -/
theorem depth_lt (ha : Valid a) (hb : Valid b) (h : covers a b = true) (hne : a ≠ b) :
    depth a < depth b := by
  obtain ⟨hcomponent, hcover⟩ := covers_iff.mp h
  unfold depth
  rcases hcover with hkind | ⟨hkind, hbelow, hwithin⟩
  · rw [hkind]
    cases hb' : b.kind with
    | COMPONENT =>
      have hpath : a.rawPath = b.rawPath := by
        rcases ha.place with ⟨-, -, hea⟩ | ⟨hka, -⟩
        · rcases hb.place with ⟨-, -, heb⟩ | ⟨hkb, -⟩
          · rw [hea, heb]
          · exact absurd hb' hkb
        · exact absurd hkind hka
      exact absurd (ha.ext hb (hkind.trans hb'.symm) hcomponent hpath) hne
    | DIRECTORY =>
      dsimp only
      omega
    | ENTRY =>
      dsimp only
      omega
  · rw [hkind]
    rcases hwithin with hsame | hwithin
    · cases hb' : b.kind with
      | COMPONENT => exact absurd hb' hbelow
      | DIRECTORY =>
        exact absurd (ha.ext hb (hkind.trans hb'.symm) hcomponent hsame.symm) hne
      | ENTRY =>
        dsimp only
        rw [hsame]
        omega
    · have hlength := hwithin.length_le
      rw [List.length_append, List.length_singleton] at hlength
      cases hb' : b.kind with
      | COMPONENT => exact absurd hb' hbelow
      | DIRECTORY =>
        dsimp only
        omega
      | ENTRY =>
        dsimp only
        omega

/-- Above every selection there is one that nothing covers. -/
theorem exists_maximal {values : List Selection} (hvalid : ∀ v ∈ values, Valid v)
    (hs : s ∈ values) : ∃ m, Maximal values m ∧ (m = s ∨ covers m s = true) := by
  induction hdepth : depth s using Nat.strong_induction_on generalizing s with
  | _ n ih =>
    by_cases hmaximal : ∀ cover ∈ values, cover ≠ s → covers cover s = false
    · exact ⟨s, ⟨hs, hmaximal⟩, Or.inl rfl⟩
    · simp only [not_forall, Bool.not_eq_false] at hmaximal
      obtain ⟨cover, hmem, hne, hcovers⟩ := hmaximal
      have hless := depth_lt (hvalid cover hmem) (hvalid s hs) hcovers hne
      obtain ⟨m, hm, habove⟩ := ih (depth cover) (hdepth ▸ hless) hmem rfl
      refine ⟨m, hm, Or.inr ?_⟩
      rcases habove with rfl | habove
      · exact hcovers
      · exact covers_trans habove hcovers

end Reading

/-! ## What stays -/

section Normal

variable {values others : List Selection} {s : Selection}

theorem mem_deduplicated (hvalid : ∀ v ∈ values, Valid v) :
    s ∈ deduplicated values ↔ s ∈ values := by
  unfold deduplicated
  constructor
  · intro h
    obtain ⟨e, he, rfl⟩ := List.mem_map.mp h
    obtain ⟨v, hv, rfl⟩ := List.mem_map.mp (OrderedMap.mem_of_mem_ofList he)
    exact hv
  · intro h
    have hget : OrderedMap.get? (OrderedMap.ofList (values.map fun v => (keyOf v, v))) (keyOf s) =
        some s := by
      apply OrderedMap.get?_ofList_of_forall ⟨_, List.mem_map_of_mem h, rfl⟩
      intro e he hkey
      obtain ⟨v, hv, rfl⟩ := List.mem_map.mp he
      exact (hvalid v hv).keyOf_inj (hvalid s h) hkey
    exact List.mem_map.mpr ⟨_, OrderedMap.get?_mem hget, rfl⟩

theorem nodup_deduplicated (values : List Selection) : (deduplicated values).Nodup := by
  have hkeyed := OrderedMap.keyed_ofList (values.map fun v => (keyOf v, v))
  unfold OrderedMap.Keyed at hkeyed
  unfold deduplicated
  have hkeys : (OrderedMap.ofList (values.map fun v => (keyOf v, v))).map (·.1) =
      ((OrderedMap.ofList (values.map fun v => (keyOf v, v))).map (·.2)).map keyOf := by
    rw [List.map_map]
    apply List.map_congr_left
    intro e he
    obtain ⟨v, -, rfl⟩ := List.mem_map.mp (OrderedMap.mem_of_mem_ofList he)
    rfl
  rw [hkeys] at hkeyed
  exact hkeyed.of_map

/-- The selections that stay are those that nothing covers. -/
theorem mem_normal (hvalid : ∀ v ∈ values, Valid v) : s ∈ normal values ↔ Maximal values s := by
  unfold normal Maximal uncovered
  rw [List.mem_insertionSort, List.mem_filter, mem_deduplicated hvalid]
  refine and_congr_right fun _ => ?_
  rw [Bool.not_eq_true', List.any_eq_false]
  refine forall_congr' fun cover => ?_
  rw [mem_deduplicated hvalid]
  refine imp_congr_right fun _ => ?_
  rw [Bool.and_eq_true, decide_eq_true_eq, not_and, Bool.not_eq_true]

theorem nodup_normal (values : List Selection) : (normal values).Nodup :=
  (List.perm_insertionSort _ _).nodup_iff.mpr ((nodup_deduplicated values).filter _)

theorem before_total (a b : Selection) : Before a b ∨ Before b a := by
  unfold Before
  rcases lt_trichotomy a.componentId b.componentId with h | h | h
  · exact Or.inl (Or.inl h)
  · rcases lt_trichotomy (codes a) (codes b) with hpath | hpath | hpath
    · exact Or.inl (Or.inr ⟨h, Or.inl hpath⟩)
    · rcases Nat.le_total a.kind.rank b.kind.rank with hrank | hrank
      · exact Or.inl (Or.inr ⟨h, Or.inr ⟨hpath, hrank⟩⟩)
      · exact Or.inr (Or.inr ⟨h.symm, Or.inr ⟨hpath.symm, hrank⟩⟩)
    · exact Or.inr (Or.inr ⟨h.symm, Or.inl hpath⟩)
  · exact Or.inr (Or.inl h)

theorem before_trans {a b c : Selection} (hab : Before a b) (hbc : Before b c) : Before a c := by
  unfold Before at *
  rcases hab with hab | ⟨hab, hpath⟩
  · rcases hbc with hbc | ⟨hbc, -⟩
    · exact Or.inl (hab.trans hbc)
    · exact Or.inl (hbc ▸ hab)
  · rcases hbc with hbc | ⟨hbc, hpath'⟩
    · exact Or.inl (hab ▸ hbc)
    · refine Or.inr ⟨hab.trans hbc, ?_⟩
      rcases hpath with hpath | ⟨hpath, hrank⟩
      · rcases hpath' with hpath' | ⟨hpath', -⟩
        · exact Or.inl (hpath.trans hpath')
        · exact Or.inl (hpath' ▸ hpath)
      · rcases hpath' with hpath' | ⟨hpath', hrank'⟩
        · exact Or.inl (hpath ▸ hpath')
        · exact Or.inr ⟨hpath.trans hpath', hrank.trans hrank'⟩

theorem rank_injective : Function.Injective ScopeKind.rank := by
  intro a b h
  cases a <;> cases b <;> first | rfl | cases h

theorem before_antisymm {a b : Selection} (ha : Valid a) (hb : Valid b) (hab : Before a b)
    (hba : Before b a) : a = b := by
  unfold Before at hab hba
  rcases hab with hab | ⟨hcomponent, hab⟩
  · rcases hba with hba | ⟨hba, -⟩
    · exact absurd hba (lt_asymm hab)
    · exact absurd (hba ▸ hab) (lt_irrefl _)
  · rcases hba with hba | ⟨-, hba⟩
    · exact absurd (hcomponent ▸ hba) (lt_irrefl _)
    · rcases hab with hab | ⟨hpath, hrank⟩
      · rcases hba with hba | ⟨hba, -⟩
        · exact absurd hba (lt_asymm hab)
        · exact absurd (hba ▸ hab) (lt_irrefl _)
      · rcases hba with hba | ⟨-, hrank'⟩
        · exact absurd (hpath ▸ hba) (lt_irrefl _)
        · refine ha.ext hb (rank_injective (Nat.le_antisymm hrank hrank')) hcomponent ?_
          exact List.map_injective_iff.mpr (fun _ _ h => UInt8.toNat_inj.mp h) hpath

theorem sorted_normal (values : List Selection) : (normal values).Pairwise Before := by
  have : Std.Total Before := ⟨before_total⟩
  have : IsTrans Selection Before := ⟨fun _ _ _ => before_trans⟩
  exact List.pairwise_insertionSort _ _

variable (hvalid : ∀ v ∈ values, Valid v)
include hvalid

/-- The scope is known by the selections that nothing covers. -/
theorem normal_congr (hothers : ∀ v ∈ others, Valid v)
    (h : ∀ s, Maximal values s ↔ Maximal others s) : normal values = normal others := by
  have hperm : (normal values).Perm (normal others) := by
    rw [List.perm_ext_iff_of_nodup (nodup_normal values) (nodup_normal others)]
    intro s
    rw [mem_normal hvalid, mem_normal hothers, h]
  refine List.Perm.eq_of_pairwise ?_ (sorted_normal values) (sorted_normal others) hperm
  intro a b ha hb hab hba
  exact before_antisymm (hvalid a ((mem_normal hvalid).mp ha).1)
    (hothers b ((mem_normal hothers).mp hb).1) hab hba

theorem valid_normal : ∀ v ∈ normal values, Valid v :=
  fun v hv => hvalid v ((mem_normal hvalid).mp hv).1

/-- What stays is all that nothing covers among it. -/
theorem maximal_normal : Maximal (normal values) s ↔ Maximal values s := by
  constructor
  · exact fun h => (mem_normal hvalid).mp h.1
  · intro h
    refine ⟨(mem_normal hvalid).mpr h, ?_⟩
    intro cover hcover hne
    exact h.2 cover ((mem_normal hvalid).mp hcover).1 hne

theorem normal_normal : normal (normal values) = normal values :=
  normal_congr (valid_normal hvalid) hvalid fun _ => maximal_normal hvalid

omit hvalid in
theorem length_normal_le (values : List Selection) : (normal values).length ≤ values.length := by
  unfold normal
  rw [List.length_insertionSort]
  refine (List.length_filter_le _ _).trans ?_
  unfold deduplicated
  rw [List.length_map]
  exact (OrderedMap.length_ofList_le _).trans (by rw [List.length_map])

theorem normal_ne_nil (hne : values ≠ []) : normal values ≠ [] := by
  obtain ⟨v, hv⟩ := List.exists_mem_of_ne_nil values hne
  obtain ⟨m, hm, -⟩ := exists_maximal hvalid hv
  exact List.ne_nil_of_mem ((mem_normal hvalid).mpr hm)

/-- The entries are those of the input. -/
theorem selects_normal (componentId : String)
    (path : List UInt8) : (∃ s ∈ normal values, Selects s componentId path) ↔
      ∃ s ∈ values, Selects s componentId path := by
  constructor
  · rintro ⟨s, hs, hselects⟩
    exact ⟨s, ((mem_normal hvalid).mp hs).1, hselects⟩
  · rintro ⟨s, hs, hselects⟩
    obtain ⟨m, hm, habove⟩ := exists_maximal hvalid hs
    refine ⟨m, (mem_normal hvalid).mpr hm, ?_⟩
    rcases habove with rfl | habove
    · exact hselects
    · exact hselects.of_covers habove

theorem antichain_normal :
    (normal values).Pairwise fun a b => covers a b = false ∧ covers b a = false := by
  refine List.Pairwise.imp_of_mem ?_ (nodup_normal values)
  intro a b ha hb hne
  have ha := (mem_normal hvalid).mp ha
  have hb := (mem_normal hvalid).mp hb
  exact ⟨hb.2 a ha.1 hne, ha.2 b hb.1 hne.symm⟩

omit hvalid

theorem maximal_of_same (h : ∀ v, v ∈ values ↔ v ∈ others) :
    Maximal values s ↔ Maximal others s := by
  unfold Maximal
  simp only [h]

end Normal

/-! ## The scope -/

section Scope

variable {inputs others scope : List Json} {values : List Selection}

theorem normalizeScope_ok (h : normalizeScope (some (.arr inputs)) = .ok scope) :
    ∃ values, (inputs ≠ [] ∧ inputs.length ≤ 256) ∧ inputs.mapM selector = .ok values ∧
      scope = (normal values).map Selection.toJson := by
  unfold normalizeScope at h
  dsimp only at h
  split_ifs at h with hlength
  · cases h
  · obtain ⟨values, hvalues, h⟩ := bind_ok h
    cases h
    rw [not_or] at hlength
    exact ⟨values, ⟨hlength.1, not_lt.mp hlength.2⟩, hvalues, rfl⟩

theorem normalizeScope_of (hne : inputs ≠ []) (hlength : inputs.length ≤ 256)
    (hvalues : inputs.mapM selector = .ok values) :
    normalizeScope (some (.arr inputs)) = .ok ((normal values).map Selection.toJson) := by
  unfold normalizeScope
  dsimp only
  rw [if_neg (not_or.mpr ⟨hne, not_lt.mpr hlength⟩), hvalues]
  rfl

theorem valid_of_mapM (h : inputs.mapM selector = .ok values) : ∀ v ∈ values, Valid v := by
  intro v hv
  obtain ⟨input, -, hselector⟩ := exists_source (mapM_ok h) hv
  exact selector_valid hselector

theorem mapM_toJson (hvalid : ∀ v ∈ values, Valid v) :
    (values.map Selection.toJson).mapM selector = .ok values := by
  induction values with
  | nil => rfl
  | cons v values ih =>
    rw [List.map_cons, List.mapM_cons, selector_toJson (hvalid v List.mem_cons_self),
      ih fun w hw => hvalid w (List.mem_cons_of_mem v hw)]
    rfl

/-- Lists with the same items have the same selections. -/
theorem mapM_of_same (h : inputs.mapM selector = .ok values)
    (hsame : ∀ x, x ∈ inputs ↔ x ∈ others) :
    ∃ more, others.mapM selector = .ok more ∧ ∀ v, v ∈ values ↔ v ∈ more := by
  have htotal : ∀ xs : List Json, (∀ x ∈ xs, x ∈ inputs) → ∃ ys, xs.mapM selector = .ok ys := by
    intro xs hxs
    induction xs with
    | nil => exact ⟨[], rfl⟩
    | cons x xs ih =>
      obtain ⟨ys, hys⟩ := ih fun y hy => hxs y (List.mem_cons_of_mem x hy)
      obtain ⟨v, -, hv⟩ := exists_of_mem (mapM_ok h) (hxs x List.mem_cons_self)
      exact ⟨v :: ys, by rw [List.mapM_cons, hv, hys]; rfl⟩
  obtain ⟨more, hmore⟩ := htotal others fun x hx => (hsame x).mpr hx
  refine ⟨more, hmore, fun v => ⟨?_, ?_⟩⟩
  · intro hv
    obtain ⟨x, hx, hselector⟩ := exists_source (mapM_ok h) hv
    obtain ⟨w, hw, hsame'⟩ := exists_of_mem (mapM_ok hmore) ((hsame x).mp hx)
    rw [hselector] at hsame'
    cases hsame'
    exact hw
  · intro hv
    obtain ⟨x, hx, hselector⟩ := exists_source (mapM_ok hmore) hv
    obtain ⟨w, hw, hsame'⟩ := exists_of_mem (mapM_ok h) ((hsame x).mpr hx)
    rw [hselector] at hsame'
    cases hsame'
    exact hw

/-- What the scope of an input is. -/
structure Canonical (inputs scope : List Json) : Prop where
  /-- No selection of the scope covers another one, and together they select what the input
  does. -/
  same : ∃ values result, inputs.mapM selector = .ok values ∧ scope.mapM selector = .ok result ∧
    result.Pairwise (fun a b => covers a b = false ∧ covers b a = false) ∧
    ∀ componentId path, (∃ s ∈ result, Selects s componentId path) ↔
      ∃ s ∈ values, Selects s componentId path
  idempotent : normalizeScope (some (.arr scope)) = .ok scope
  /-- Neither the order nor a repetition matters. -/
  unordered : ∀ others : List Json, others.length ≤ 256 → (∀ x, x ∈ inputs ↔ x ∈ others) →
    normalizeScope (some (.arr others)) = .ok scope
  /-- The selections that nothing covers decide on the scope and on its id. -/
  maximal : ∀ others scope' values values', normalizeScope (some (.arr others)) = .ok scope' →
    inputs.mapM selector = .ok values → others.mapM selector = .ok values' →
    (∀ s, Maximal values s ↔ Maximal values' s) → scope = scope' ∧
      ∀ (sha256 : String → String) workspaceId bundleId profileId,
        createScopeId sha256 workspaceId bundleId profileId (some (.arr inputs)) =
          createScopeId sha256 workspaceId bundleId profileId (some (.arr others))

/-- Every scope is canonical. -/
theorem normalizeScope_canonical (h : normalizeScope (some (.arr inputs)) = .ok scope) :
    Canonical inputs scope := by
  obtain ⟨values, ⟨hne, hlength⟩, hvalues, rfl⟩ := normalizeScope_ok h
  have hvalid := valid_of_mapM hvalues
  have hcount : values.length = inputs.length := ((mapM_ok hvalues).length_eq).symm
  have hvaluesNe : values ≠ [] := by
    rw [← List.length_pos_iff_ne_nil, hcount]
    exact List.length_pos_of_ne_nil hne
  have hresult := mapM_toJson (valid_normal hvalid)
  refine ⟨⟨values, normal values, hvalues, hresult, antichain_normal hvalid,
    selects_normal hvalid⟩, ?_, ?_, ?_⟩
  · rw [normalizeScope_of ?_ ?_ hresult, normal_normal hvalid]
    · simpa using normal_ne_nil hvalid hvaluesNe
    · rw [List.length_map]
      exact (length_normal_le values).trans (hcount ▸ hlength)
  · intro others hothers hsame
    obtain ⟨more, hmore, hmem⟩ := mapM_of_same hvalues hsame
    have hothersNe : others ≠ [] := by
      obtain ⟨x, hx⟩ := List.exists_mem_of_ne_nil inputs hne
      exact List.ne_nil_of_mem ((hsame x).mp hx)
    rw [normalizeScope_of hothersNe hothers hmore,
      normal_congr hvalid (valid_of_mapM hmore) fun _ => maximal_of_same hmem]
  · intro others scope' values₁ values₂ hscope hvalues₁ hvalues₂ hmaximal
    rw [hvalues] at hvalues₁
    cases hvalues₁
    obtain ⟨values₃, -, hvalues₃, rfl⟩ := normalizeScope_ok hscope
    rw [hvalues₂] at hvalues₃
    cases hvalues₃
    have hnormal := normal_congr hvalid (valid_of_mapM hvalues₂) hmaximal
    refine ⟨congrArg _ hnormal, ?_⟩
    intro sha256 workspaceId bundleId profileId
    unfold createScopeId
    rw [h, hscope, hnormal]

end Scope

/-! ## A directory of a component -/

def componentId : String := String.ofList (List.replicate 64 'c')

def wholeComponent : Json :=
  .obj [("kind", .str "COMPONENT"), ("componentId", .str componentId)]

/-- The directory `src`. -/
def sourceDirectory : Json :=
  .obj [("kind", .str "DIRECTORY"), ("componentId", .str componentId), ("pathBytes", .str "c3Jj")]

/-- The component stays, its directory does not. -/
theorem component_alone :
    normalizeScope (some (.arr [sourceDirectory, wholeComponent])) = .ok [wholeComponent] ∧
      Canonical [sourceDirectory, wholeComponent] [wholeComponent] :=
  ⟨by decide +kernel, normalizeScope_canonical (by decide +kernel)⟩

end Traqen.ScopeNormalization
