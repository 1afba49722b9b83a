-- Identities of sources (`source-truth/identity.js`): the canonical text of a value, which does not
-- depend on the order of its keys, and the digest of an array whose rows are streamed.
import Mathlib.Data.List.Sort
import Traqen.Lib.CodeUnits
import Traqen.Lib.JsonText
import Traqen.Model

open Js

namespace Traqen.SourceIdentity

/-! ## Canonical texts -/

/-- The comparison of the default `sort`, of the keys of two entries. -/
def keyBefore {ν : Type} (a b : String × ν) : Prop := codeUnits a.1 ≤ codeUnits b.1

instance {ν : Type} : DecidableRel (keyBefore (ν := ν)) := fun a b =>
  inferInstanceAs (Decidable (codeUnits a.1 ≤ codeUnits b.1))

def sortedByKey {ν : Type} (entries : List (String × ν)) : List (String × ν) :=
  entries.insertionSort keyBefore

/-- The text of an entry, of the text of its value. -/
def entryText (entry : String × String) : String := quote entry.1 ++ ":" ++ entry.2

mutual

def canonicalEncode : Json → String
  | .null => "null"
  | .bool b => if b then "true" else "false"
  | .num n => n.toText
  | .str s => quote s
  | .arr items => "[" ++ ",".intercalate (encodeItems items) ++ "]"
  | .obj fields =>
    "\x7b" ++ ",".intercalate ((sortedByKey (encodeFields fields)).map entryText) ++ "\x7d"

def encodeItems : List Json → List String
  | [] => []
  | v :: vs => canonicalEncode v :: encodeItems vs

def encodeFields : List (String × Json) → List (String × String)
  | [] => []
  | (key, value) :: rest => (key, canonicalEncode value) :: encodeFields rest

end

/-! ## Digests -/

def domains : List String :=
  ["material", "manifest", "coverage", "component", "inventory", "gaps", "bundle"]

def requireDomain (domain : String) : Except Failure Unit :=
  if domain ∈ domains then .ok () else typeError "Unknown identity domain"

section Digests

variable (sha256 : String → String)

def structureDigest (domain : String) (payload : Json) : Except Failure String := do
  requireDomain domain
  return sha256 (canonicalEncode (.obj [("domain", .str domain),
    ("version", .num (Number.ofNat 1)), ("payload", payload)]))

/-- What is hashed of the rows, in the turn of the array key. -/
def streamedRows : Bool → List Json → String
  | _, [] => ""
  | firstRow, row :: rows =>
    (if firstRow then "" else ",") ++ canonicalEncode row ++ streamedRows false rows

/-- What is hashed of one key, after the comma. -/
def streamedField (fields : List (String × Json)) (arrayKey : String) (rows : List Json)
    (key : String) : String :=
  canonicalEncode (.str key) ++ ":" ++
    if key ≠ arrayKey then
      match fields.lookup key with
      | some value => canonicalEncode value
      | none => ""
    else "[" ++ streamedRows true rows ++ "]"

/-- What is hashed in the loop over the sorted keys. -/
def streamedFields (fields : List (String × Json)) (arrayKey : String) (rows : List Json) :
    Bool → List String → String
  | _, [] => ""
  | firstField, key :: keys =>
    (if firstField then "" else ",") ++ streamedField fields arrayKey rows key ++
      streamedFields fields arrayKey rows false keys

/-- All that is hashed, from the first update to the last. -/
def streamedText (domain : String) (fields : List (String × Json)) (arrayKey : String)
    (rows : List Json) : String :=
  "\x7b\"domain\":" ++ canonicalEncode (.str domain) ++ ",\"payload\":\x7b" ++
    streamedFields fields arrayKey rows true (sortTexts (fields.map (·.1) ++ [arrayKey])) ++
    "\x7d,\"version\":1\x7d"

def orderedArrayDigest (domain : String) (fields : List (String × Json)) (arrayKey : String)
    (rows : List Json) : Except Failure String := do
  requireDomain domain
  if arrayKey ∈ fields.map (·.1) then typeError "Array field already exists"
  else return sha256 (streamedText domain fields arrayKey rows)

end Digests

/-- `{ ...fields, [arrayKey]: rows }`. -/
def withArray (fields : List (String × Json)) (arrayKey : String) (rows : List Json) : Json :=
  .obj (fromEntries (fields ++ [(arrayKey, .arr rows)]))

/-! ## Values up to the order of their keys -/

/-- One value, up to the order of the keys of its objects. -/
inductive SameUpToOrder : Json → Json → Prop where
  | refl (v : Json) : SameUpToOrder v v
  | symm {v w : Json} : SameUpToOrder v w → SameUpToOrder w v
  | trans {u v w : Json} : SameUpToOrder u v → SameUpToOrder v w → SameUpToOrder u w
  | keys {fs gs : List (String × Json)} (distinct : (fs.map (·.1)).Nodup) (order : fs.Perm gs) :
      SameUpToOrder (.obj fs) (.obj gs)
  | item {v w : Json} (before after : List Json) :
      SameUpToOrder v w → SameUpToOrder (.arr (before ++ v :: after)) (.arr (before ++ w :: after))
  | field {v w : Json} (key : String) (before after : List (String × Json)) :
      SameUpToOrder v w →
        SameUpToOrder (.obj (before ++ (key, v) :: after)) (.obj (before ++ (key, w) :: after))

mutual

/-- No object has two fields of one name, at any depth. -/
def DistinctKeys : Json → Prop
  | .arr items => DistinctItems items
  | .obj fields => (fields.map (·.1)).Nodup ∧ DistinctFields fields
  | _ => True

def DistinctItems : List Json → Prop
  | [] => True
  | v :: vs => DistinctKeys v ∧ DistinctItems vs

def DistinctFields : List (String × Json) → Prop
  | [] => True
  | (_, v) :: rest => DistinctKeys v ∧ DistinctFields rest

end

/-! ## Sorted keys -/

mutual

/-- The value with the keys of its objects in their sorted order. -/
def sortKeys : Json → Json
  | .arr items => .arr (sortItems items)
  | .obj fields => .obj (sortedByKey (sortFields fields))
  | v => v

def sortItems : List Json → List Json
  | [] => []
  | v :: vs => sortKeys v :: sortItems vs

def sortFields : List (String × Json) → List (String × Json)
  | [] => []
  | (key, value) :: rest => (key, sortKeys value) :: sortFields rest

end

theorem encodeItems_eq (items : List Json) : encodeItems items = items.map canonicalEncode := by
  induction items with
  | nil => rfl
  | cons v vs ih => rw [encodeItems, List.map_cons, ih]

theorem encodeFields_eq (fields : List (String × Json)) :
    encodeFields fields = fields.map fun e => (e.1, canonicalEncode e.2) := by
  induction fields with
  | nil => rfl
  | cons e rest ih => rw [encodeFields, List.map_cons, ih]

theorem sortItems_eq (items : List Json) : sortItems items = items.map sortKeys := by
  induction items with
  | nil => rfl
  | cons v vs ih => rw [sortItems, List.map_cons, ih]

theorem sortFields_eq (fields : List (String × Json)) :
    sortFields fields = fields.map fun e => (e.1, sortKeys e.2) := by
  induction fields with
  | nil => rfl
  | cons e rest ih => rw [sortFields, List.map_cons, ih]

theorem stringifyFields_eq (fields : List (String × Json)) :
    Json.stringifyFields fields = fields.map fun e => entryText (e.1, e.2.stringify) := by
  induction fields with
  | nil => rfl
  | cons e rest ih => rw [Json.stringifyFields, List.map_cons, ih, entryText]

/-- Sorting by keys leaves the values where their keys go. -/
theorem sortedByKey_map {ν μ : Type} (f : ν → μ) (entries : List (String × ν)) :
    (sortedByKey entries).map (fun e => (e.1, f e.2)) =
      sortedByKey (entries.map fun e => (e.1, f e.2)) := by
  unfold sortedByKey
  exact List.map_insertionSort keyBefore keyBefore (fun e => (e.1, f e.2)) entries
    fun _ _ _ _ => Iff.rfl

theorem sortedByKey_perm_self {ν : Type} (entries : List (String × ν)) :
    (sortedByKey entries).Perm entries :=
  List.perm_insertionSort _ entries

theorem sortedByKey_sorted {ν : Type} (entries : List (String × ν)) :
    (sortedByKey entries).Pairwise keyBefore := by
  have : Std.Total (keyBefore (ν := ν)) := ⟨fun a b => le_total (codeUnits a.1) (codeUnits b.1)⟩
  have : IsTrans (String × ν) keyBefore := ⟨fun a b c hab hbc => le_trans hab hbc⟩
  exact List.pairwise_insertionSort _ entries

/-- Entries of distinct keys have one sorted order. -/
theorem sortedByKey_perm {ν : Type} {entries others : List (String × ν)}
    (hdistinct : (entries.map (·.1)).Nodup) (h : entries.Perm others) :
    sortedByKey entries = sortedByKey others := by
  have hperm : (sortedByKey entries).Perm (sortedByKey others) :=
    ((sortedByKey_perm_self entries).trans h).trans (sortedByKey_perm_self others).symm
  refine List.Perm.eq_of_pairwise ?_ (sortedByKey_sorted entries) (sortedByKey_sorted others) hperm
  intro a b ha hb hab hba
  have hkey : a.1 = b.1 := codeUnits_injective (le_antisymm hab hba)
  have ha' : a ∈ entries := (sortedByKey_perm_self entries).mem_iff.mp ha
  have hb' : b ∈ entries :=
    h.mem_iff.mpr ((sortedByKey_perm_self others).mem_iff.mp hb)
  exact List.inj_on_of_nodup_map hdistinct ha' hb' hkey

mutual

/-- The canonical text is the plain text of the value with sorted keys. -/
theorem canonicalEncode_eq : ∀ v, canonicalEncode v = (sortKeys v).stringify
  | .null => rfl
  | .bool _ => rfl
  | .num _ => rfl
  | .str _ => rfl
  | .arr items => by
    simp only [canonicalEncode, sortKeys, Json.stringify]
    rw [encodeItems_sorted items]
  | .obj fields => by
    simp only [canonicalEncode, sortKeys, Json.stringify]
    rw [encodeFields_sorted fields, stringifyFields_eq, ← sortedByKey_map, List.map_map]
    rfl

theorem encodeItems_sorted : ∀ items,
    encodeItems items = Json.stringifyItems (sortItems items)
  | [] => rfl
  | v :: vs => by
    simp only [encodeItems, sortItems, Json.stringifyItems]
    rw [canonicalEncode_eq v, encodeItems_sorted vs]

theorem encodeFields_sorted : ∀ fields,
    encodeFields fields = (sortFields fields).map fun e => (e.1, e.2.stringify)
  | [] => rfl
  | (key, value) :: rest => by
    simp only [encodeFields, sortFields, List.map_cons]
    rw [canonicalEncode_eq value, encodeFields_sorted rest]

end

variable {v w : Json}

theorem canonicalEncode_eq_iff_sortKeys :
    canonicalEncode v = canonicalEncode w ↔ sortKeys v = sortKeys w := by
  rw [canonicalEncode_eq, canonicalEncode_eq]
  exact Json.stringify_injective.eq_iff

/-! ## Values and their canonical texts -/

theorem canonicalEncode_keys {fs gs : List (String × Json)} (hdistinct : (fs.map (·.1)).Nodup)
    (h : fs.Perm gs) : canonicalEncode (.obj fs) = canonicalEncode (.obj gs) := by
  have hsorted : sortedByKey (encodeFields fs) = sortedByKey (encodeFields gs) := by
    rw [encodeFields_eq, encodeFields_eq]
    refine sortedByKey_perm ?_ (h.map _)
    rw [List.map_map]
    exact hdistinct
  simp only [canonicalEncode]
  rw [hsorted]

/-- The canonical text does not depend on the order of keys. -/
theorem canonicalEncode_same (h : SameUpToOrder v w) :
    canonicalEncode v = canonicalEncode w := by
  induction h with
  | refl v => rfl
  | symm _ ih => exact ih.symm
  | trans _ _ ih₁ ih₂ => exact ih₁.trans ih₂
  | keys hdistinct horder => exact canonicalEncode_keys hdistinct horder
  | item before after _ ih =>
    simp only [canonicalEncode, encodeItems_eq, List.map_append, List.map_cons, ih]
  | field key before after _ ih =>
    simp only [canonicalEncode, encodeFields_eq, List.map_append, List.map_cons, ih]

theorem same_items (before : List Json) {items others : List Json}
    (h : List.Forall₂ SameUpToOrder items others) :
    SameUpToOrder (.arr (before ++ items)) (.arr (before ++ others)) := by
  induction h generalizing before with
  | nil => exact .refl _
  | @cons v w vs ws hvw _ ih =>
    have hhead : SameUpToOrder (.arr (before ++ v :: vs)) (.arr (before ++ w :: vs)) :=
      .item before vs hvw
    have htail := ih (before ++ [w])
    rw [List.append_assoc, List.append_assoc] at htail
    exact hhead.trans htail

theorem same_fields (before : List (String × Json)) {fields others : List (String × Json)}
    (h : List.Forall₂ (fun e f => e.1 = f.1 ∧ SameUpToOrder e.2 f.2) fields others) :
    SameUpToOrder (.obj (before ++ fields)) (.obj (before ++ others)) := by
  induction h generalizing before with
  | nil => exact .refl _
  | @cons e f es fs hef _ ih =>
    obtain ⟨key, v⟩ := e
    obtain ⟨key', w⟩ := f
    obtain ⟨hkey, hvw⟩ := hef
    dsimp only at hkey hvw
    subst hkey
    have hhead : SameUpToOrder (.obj (before ++ (key, v) :: es)) (.obj (before ++ (key, w) :: es)) :=
      .field key before es hvw
    have htail := ih (before ++ [(key, w)])
    rw [List.append_assoc, List.append_assoc] at htail
    exact hhead.trans htail

mutual

/-- A value of distinct keys is the one with sorted keys, up to their order. -/
theorem same_sortKeys : ∀ v, DistinctKeys v → SameUpToOrder v (sortKeys v)
  | .null, _ => .refl _
  | .bool _, _ => .refl _
  | .num _, _ => .refl _
  | .str _, _ => .refl _
  | .arr items, h => by
    simp only [DistinctKeys] at h
    simp only [sortKeys]
    exact same_items [] (same_sortItems items h)
  | .obj fields, h => by
    simp only [DistinctKeys] at h
    simp only [sortKeys]
    have hvalues : SameUpToOrder (.obj fields) (.obj (sortFields fields)) :=
      same_fields [] (same_sortFields fields h.2)
    refine hvalues.trans (.keys ?_ (sortedByKey_perm_self _).symm)
    rw [sortFields_eq, List.map_map]
    exact h.1

theorem same_sortItems : ∀ items, DistinctItems items →
    List.Forall₂ SameUpToOrder items (sortItems items)
  | [], _ => .nil
  | v :: vs, h => by
    simp only [DistinctItems] at h
    exact .cons (same_sortKeys v h.1) (same_sortItems vs h.2)

theorem same_sortFields : ∀ fields, DistinctFields fields →
    List.Forall₂ (fun e f => e.1 = f.1 ∧ SameUpToOrder e.2 f.2) fields (sortFields fields)
  | [], _ => .nil
  | (key, value) :: rest, h => by
    simp only [DistinctFields] at h
    exact .cons ⟨rfl, same_sortKeys value h.1⟩ (same_sortFields rest h.2)

end

/-- One canonical text, one value up to the order of keys. -/
theorem same_of_canonicalEncode (hv : DistinctKeys v) (hw : DistinctKeys w)
    (h : canonicalEncode v = canonicalEncode w) : SameUpToOrder v w := by
  have hsorted := canonicalEncode_eq_iff_sortKeys.mp h
  have hleft := same_sortKeys v hv
  rw [hsorted] at hleft
  exact hleft.trans (same_sortKeys w hw).symm

/-! ## What is streamed -/

/-- Texts with commas before all but the first. -/
theorem joined_texts {α : Type} {joined : Bool → List α → String} (text : α → String)
    (hnil : ∀ first, joined first [] = "")
    (hcons : ∀ first x xs,
      joined first (x :: xs) = (if first then "" else ",") ++ text x ++ joined false xs)
    (xs : List α) : joined true xs = ",".intercalate (xs.map text) := by
  cases xs with
  | nil => rw [hnil, List.map_nil, String.intercalate_nil]
  | cons x xs =>
    induction xs generalizing x with
    | nil => simp [hcons, hnil, String.intercalate_singleton]
    | cons y ys ih =>
      have hrest : joined false (y :: ys) = "," ++ ",".intercalate ((y :: ys).map text) := by
        rw [← ih y, hcons, hcons]
        simp [String.append_assoc]
      rw [hcons, hrest]
      simp only [List.map_cons]
      rw [String.intercalate_cons_cons]
      simp [String.append_assoc]

theorem streamedRows_eq (rows : List Json) :
    streamedRows true rows = ",".intercalate (rows.map canonicalEncode) :=
  joined_texts canonicalEncode (fun _ => rfl) (fun _ _ _ => rfl) rows

section Streamed

variable {fields : List (String × Json)} {arrayKey : String}

theorem lookup_of_distinct (hdistinct : (fields.map (·.1)).Nodup) {e : String × Json}
    (he : e ∈ fields) : fields.lookup e.1 = some e.2 := by
  induction fields with
  | nil => cases he
  | cons f rest ih =>
    rw [List.map_cons, List.nodup_cons] at hdistinct
    obtain rfl | he := List.mem_cons.mp he
    · simp [List.lookup]
    · have hne : e.1 ≠ f.1 := fun heq => hdistinct.1 (heq ▸ List.mem_map_of_mem he)
      rw [List.lookup, beq_eq_false_iff_ne.mpr hne]
      exact ih hdistinct.2 he

theorem sortTexts_eq (entries : List (String × Json)) :
    sortTexts (entries.map (·.1)) = (sortedByKey entries).map (·.1) := by
  unfold sortedByKey sortTexts
  exact (List.map_insertionSort keyBefore _ (fun e => e.1) entries fun _ _ _ _ => Iff.rfl).symm

/-- Each key is streamed as the encoder writes its field. -/
theorem streamedField_eq (rows : List Json) (hdistinct : (fields.map (·.1)).Nodup)
    (hfree : arrayKey ∉ fields.map (·.1)) {e : String × Json}
    (he : e ∈ fields ++ [(arrayKey, .arr rows)]) :
    streamedField fields arrayKey rows e.1 = entryText (e.1, canonicalEncode e.2) := by
  obtain he | he := List.mem_append.mp he
  · have hne : e.1 ≠ arrayKey := fun heq => hfree (heq ▸ List.mem_map_of_mem he)
    unfold streamedField entryText
    rw [if_pos hne, lookup_of_distinct hdistinct he]
    rfl
  · rw [List.mem_singleton] at he
    subst he
    unfold streamedField entryText
    rw [if_neg (not_not_intro rfl), streamedRows_eq]
    simp only [canonicalEncode, encodeItems_eq]

theorem withArray_distinct (rows : List Json) (hdistinct : (fields.map (·.1)).Nodup)
    (hfree : arrayKey ∉ fields.map (·.1)) :
    ((fields ++ [(arrayKey, Json.arr rows)]).map (·.1)).Nodup := by
  rw [List.map_append, List.nodup_append]
  refine ⟨hdistinct, List.nodup_singleton _, ?_⟩
  intro key hkey other hother heq
  rw [List.map_singleton, List.mem_singleton] at hother
  have harray : key = arrayKey := heq.trans hother
  exact hfree (harray ▸ hkey)

/-- The fields are streamed as the encoder writes the object with the array. -/
theorem streamedFields_eq (rows : List Json) (hdistinct : (fields.map (·.1)).Nodup)
    (hfree : arrayKey ∉ fields.map (·.1)) :
    "\x7b" ++ streamedFields fields arrayKey rows true
        (sortTexts (fields.map (·.1) ++ [arrayKey])) ++ "\x7d" =
      canonicalEncode (withArray fields arrayKey rows) := by
  have hnames : fields.map (·.1) ++ [arrayKey] =
      (fields ++ [(arrayKey, Json.arr rows)]).map (·.1) := by
    rw [List.map_append, List.map_singleton]
  have hjoined : streamedFields fields arrayKey rows true
      (sortTexts (fields.map (·.1) ++ [arrayKey])) =
        ",".intercalate ((sortTexts (fields.map (·.1) ++ [arrayKey])).map
          (streamedField fields arrayKey rows)) :=
    joined_texts (streamedField fields arrayKey rows) (fun _ => rfl) (fun _ _ _ => rfl) _
  have hperm := fromEntries_perm (fields ++ [(arrayKey, Json.arr rows)])
  have hkeys := withArray_distinct rows hdistinct hfree
  have hwith : canonicalEncode (withArray fields arrayKey rows) =
      canonicalEncode (.obj (fields ++ [(arrayKey, Json.arr rows)])) :=
    (canonicalEncode_keys hkeys hperm.symm).symm
  rw [hwith, hjoined, hnames, sortTexts_eq]
  simp only [canonicalEncode]
  rw [encodeFields_eq, ← sortedByKey_map, List.map_map, List.map_map]
  congr 3
  refine List.map_congr_left fun e he => ?_
  exact streamedField_eq rows hdistinct hfree ((sortedByKey_perm_self _).mem_iff.mp he)

end Streamed

/-- The text of a payload under its domain. -/
theorem structure_text (domain : String) (payload : Json) :
    canonicalEncode (.obj [("domain", .str domain), ("version", .num (Number.ofNat 1)),
      ("payload", payload)]) =
    "\x7b\"domain\":" ++ canonicalEncode (.str domain) ++ ",\"payload\":" ++
      canonicalEncode payload ++ ",\"version\":1\x7d" := by
  have horder : [("domain", Json.str domain), ("version", .num (Number.ofNat 1)),
      ("payload", payload)].Perm [("domain", .str domain), ("payload", payload),
        ("version", .num (Number.ofNat 1))] :=
    List.Perm.cons _ (List.Perm.swap _ _ _)
  have hdistinct : ([("domain", Json.str domain), ("version", .num (Number.ofNat 1)),
      ("payload", payload)].map (·.1)).Nodup := by
    show ["domain", "version", "payload"].Nodup
    decide
  rw [canonicalEncode_keys hdistinct horder]
  simp only [canonicalEncode, encodeFields]
  have hsorted : ∀ d p v : String, sortedByKey [("domain", d), ("payload", p), ("version", v)] =
      [("domain", d), ("payload", p), ("version", v)] := by
    intro d p v
    refine List.Pairwise.insertionSort_eq ?_
    have hdp : codeUnits "domain" ≤ codeUnits "payload" := by decide
    have hdv : codeUnits "domain" ≤ codeUnits "version" := by decide
    have hpv : codeUnits "payload" ≤ codeUnits "version" := by decide
    simp [keyBefore, hdp, hdv, hpv]
  have hopen : "\x7b\"domain\":" = "\x7b" ++ quote "domain" ++ ":" := by decide
  have hpayload : ",\"payload\":" = "," ++ quote "payload" ++ ":" := by decide
  have hclose : ",\"version\":1\x7d" =
      "," ++ quote "version" ++ ":" ++ (Number.ofNat 1).toText ++ "\x7d" := by decide
  rw [hsorted, hopen, hpayload, hclose]
  simp [entryText, String.intercalate_cons_cons, String.append_assoc]

/-- What is streamed is the canonical text of the payload under its domain. -/
theorem streamedText_eq {fields : List (String × Json)} {arrayKey : String} (domain : String)
    (rows : List Json) (hdistinct : (fields.map (·.1)).Nodup)
    (hfree : arrayKey ∉ fields.map (·.1)) :
    streamedText domain fields arrayKey rows =
      canonicalEncode (.obj [("domain", .str domain), ("version", .num (Number.ofNat 1)),
        ("payload", withArray fields arrayKey rows)]) := by
  have hpayload : ",\"payload\":\x7b" = ",\"payload\":" ++ "\x7b" := by decide
  have hclose : "\x7d,\"version\":1\x7d" = "\x7d" ++ ",\"version\":1\x7d" := by decide
  rw [structure_text, ← streamedFields_eq rows hdistinct hfree]
  unfold streamedText
  rw [hpayload, hclose]
  simp only [String.append_assoc]

theorem requireDomain_ok {domain : String} (h : domain ∈ domains) :
    requireDomain domain = .ok () :=
  if_pos h

theorem structureDigest_ok {sha256 : String → String} {domain digest : String} {payload : Json}
    (h : structureDigest sha256 domain payload = .ok digest) :
    sha256 (canonicalEncode (.obj [("domain", .str domain), ("version", .num (Number.ofNat 1)),
      ("payload", payload)])) = digest := by
  obtain ⟨_, _, h⟩ := bind_ok h
  exact Except.ok.inj h

theorem orderedArrayDigest_eq (sha256 : String → String) {fields : List (String × Json)}
    {arrayKey : String} (domain : String) (rows : List Json)
    (hdistinct : (fields.map (·.1)).Nodup) (hfree : arrayKey ∉ fields.map (·.1)) :
    orderedArrayDigest sha256 domain fields arrayKey rows =
      structureDigest sha256 domain (withArray fields arrayKey rows) := by
  unfold orderedArrayDigest structureDigest
  rw [if_neg hfree, streamedText_eq domain rows hdistinct hfree]

/-- Objects that sort to one value have the same fields. -/
theorem field_of_sortKeys {fs gs : List (String × Json)}
    (h : sortKeys (.obj fs) = sortKeys (.obj gs)) (key : String) (hv : (key, v) ∈ fs) :
    ∃ w, (key, w) ∈ gs ∧ sortKeys v = sortKeys w := by
  simp only [sortKeys, Json.obj.injEq, sortFields_eq] at h
  have hmem : (key, sortKeys v) ∈ sortedByKey (fs.map fun e => (e.1, sortKeys e.2)) :=
    (sortedByKey_perm_self _).mem_iff.mpr
      (List.mem_map_of_mem (f := fun e : String × Json => (e.1, sortKeys e.2)) hv)
  rw [h] at hmem
  obtain ⟨⟨other, w⟩, hw, heq⟩ := List.mem_map.mp ((sortedByKey_perm_self _).mem_iff.mp hmem)
  obtain ⟨rfl, hvalue⟩ := Prod.mk.inj heq
  exact ⟨w, hw, hvalue.symm⟩

/-- The text of a domain and a payload tells both, but for the order of keys. -/
theorem payload_of_text {domain other : String}
    (h : canonicalEncode (.obj [("domain", .str domain), ("version", .num (Number.ofNat 1)),
      ("payload", v)]) =
      canonicalEncode (.obj [("domain", .str other), ("version", .num (Number.ofNat 1)),
        ("payload", w)])) : domain = other ∧ sortKeys v = sortKeys w := by
  have hsorted := canonicalEncode_eq_iff_sortKeys.mp h
  obtain ⟨name, hname, hdomain⟩ := field_of_sortKeys hsorted "domain" List.mem_cons_self
  obtain ⟨value, hvalue, hpayload⟩ := field_of_sortKeys hsorted "payload" (v := v)
    (by simp)
  obtain rfl : name = .str other := by simpa using hname
  obtain rfl : value = w := by simpa using hvalue
  exact ⟨Json.str.inj hdomain, hpayload⟩

/-- The text of a domain and a payload tells both, up to the order of keys. -/
theorem same_payload {domain other : String} (hv : DistinctKeys v)
    (hw : DistinctKeys w)
    (h : canonicalEncode (.obj [("domain", .str domain), ("version", .num (Number.ofNat 1)),
      ("payload", v)]) =
      canonicalEncode (.obj [("domain", .str other), ("version", .num (Number.ofNat 1)),
        ("payload", w)])) : domain = other ∧ SameUpToOrder v w := by
  obtain ⟨hdomain, hvalues⟩ := payload_of_text h
  exact ⟨hdomain, same_of_canonicalEncode hv hw (canonicalEncode_eq_iff_sortKeys.mpr hvalues)⟩

/-- Streamed and materialized identities agree, and a canonical text tells the value up to the
order of its keys: with digests of one text each, equal digests mean equal payloads. -/
theorem identities_agree (sha256 : String → String) (hsha : Function.Injective sha256) :
    (∀ domain fields arrayKey rows, (fields.map (·.1)).Nodup → arrayKey ∉ fields.map (·.1) →
      streamedText domain fields arrayKey rows =
        canonicalEncode (.obj [("domain", .str domain), ("version", .num (Number.ofNat 1)),
          ("payload", withArray fields arrayKey rows)]) ∧
      orderedArrayDigest sha256 domain fields arrayKey rows =
        structureDigest sha256 domain (withArray fields arrayKey rows)) ∧
    (∀ v w, DistinctKeys v → DistinctKeys w →
      (canonicalEncode v = canonicalEncode w ↔ SameUpToOrder v w)) ∧
    (∀ domain other v w digest, DistinctKeys v → DistinctKeys w →
      structureDigest sha256 domain v = .ok digest →
      structureDigest sha256 other w = .ok digest → domain = other ∧ SameUpToOrder v w) := by
  refine ⟨?_, ?_, ?_⟩
  · intro domain fields arrayKey rows hdistinct hfree
    exact ⟨streamedText_eq domain rows hdistinct hfree,
      orderedArrayDigest_eq sha256 domain rows hdistinct hfree⟩
  · intro v w hv hw
    exact ⟨same_of_canonicalEncode hv hw, canonicalEncode_same⟩
  · intro domain other v w digest hv hw hleft hright
    apply same_payload hv hw
    apply hsha
    rw [structureDigest_ok hleft, structureDigest_ok hright]

/-- A digest that is known on some texts; the others keep theirs apart. -/
def listedDigest (table : List (String × String)) (text : String) : String :=
  (table.lookup text).getD ("~" ++ text)

theorem listedDigest_injective {table : List (String × String)} (hdistinct : (table.map (·.2)).Nodup)
    (hapart : ∀ e ∈ table, e.2.toList.head? ≠ some '~') :
    Function.Injective (listedDigest table) := by
  have hlisted : ∀ {text digest}, table.lookup text = some digest → (text, digest) ∈ table := by
    intro text digest h
    obtain ⟨before, after, rfl, -⟩ := List.lookup_eq_some_iff.mp h
    simp
  have hfirst : ∀ {text digest other}, table.lookup text = some digest → digest ≠ "~" ++ other := by
    rintro text digest other h rfl
    exact hapart _ (hlisted h) (by simp)
  intro a b h
  unfold listedDigest at h
  cases ha : table.lookup a with
  | none =>
    cases hb : table.lookup b with
    | none =>
      rw [ha, hb, Option.getD_none, Option.getD_none] at h
      have hlists := congrArg String.toList h
      rw [String.toList_append, String.toList_append] at hlists
      exact String.toList_injective (List.append_cancel_left hlists)
    | some digest =>
      rw [ha, hb, Option.getD_none, Option.getD_some] at h
      exact absurd h.symm (hfirst hb)
  | some digest =>
    cases hb : table.lookup b with
    | none =>
      rw [ha, hb, Option.getD_none, Option.getD_some] at h
      exact absurd h (hfirst ha)
    | some other =>
      rw [ha, hb, Option.getD_some, Option.getD_some] at h
      have heq := List.inj_on_of_nodup_map hdistinct (hlisted ha) (hlisted hb) h
      exact (Prod.mk.inj heq).1

def inventoryFields : List (String × Json) := [("2", .null), ("kind", .str "GIT")]

def inventoryRows : List Json := [.num (Number.ofNat 7), .obj [("b", .bool true), ("a", .str "x")]]

def inventoryText : String :=
  "\x7b\"domain\":\"manifest\",\"payload\":\x7b\"10\":[7,\x7b\"a\":\"x\",\"b\":true\x7d]," ++
    "\"2\":null,\"kind\":\"GIT\"\x7d,\"version\":1\x7d"

/-- The digest of the text of the inventory; other texts keep theirs apart. -/
def inventoryDigest (text : String) : String :=
  if text = inventoryText then
    "3e237b35ce5b1cc9e3405462c13f570aea4cbdcd2788cbe855f6f38fe0bc7472"
  else "~" ++ text

theorem inventoryDigest_injective : Function.Injective inventoryDigest := by
  have hfirst : ∀ text, "3e237b35ce5b1cc9e3405462c13f570aea4cbdcd2788cbe855f6f38fe0bc7472" ≠
      "~" ++ text := by
    intro text h
    have hlists := congrArg String.toList h
    simp at hlists
  intro a b h
  unfold inventoryDigest at h
  by_cases ha : a = inventoryText <;> by_cases hb : b = inventoryText
  · rw [ha, hb]
  · rw [if_pos ha, if_neg hb] at h
    exact absurd h (hfirst b)
  · rw [if_neg ha, if_pos hb] at h
    exact absurd h.symm (hfirst a)
  · rw [if_neg ha, if_neg hb] at h
    have hlists := congrArg String.toList h
    rw [String.toList_append, String.toList_append] at hlists
    exact String.toList_injective (List.append_cancel_left hlists)

theorem inventory_is_streamed :
    streamedText "manifest" inventoryFields "10" inventoryRows = inventoryText ∧
    orderedArrayDigest inventoryDigest "manifest" inventoryFields "10" inventoryRows =
      structureDigest inventoryDigest "manifest" (withArray inventoryFields "10" inventoryRows) :=
  have htext : streamedText "manifest" inventoryFields "10" inventoryRows = inventoryText := by
    decide +kernel
  ⟨htext, ((identities_agree inventoryDigest inventoryDigest_injective).1 "manifest"
    inventoryFields "10" inventoryRows (by decide) (by decide)).2⟩

end Traqen.SourceIdentity
