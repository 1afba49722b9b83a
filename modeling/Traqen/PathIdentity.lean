-- The bytes of a path and their encoding (`source-truth/identity.js`): which paths are safe, and
-- that an encoding and a path shown to a reader each tell the bytes.
import Traqen.Lib.Utf8
import Traqen.RecordVerification

open Js

namespace Traqen.PathIdentity

open RecordVerification (base64url urlLetter)

/-! ## Paths and encodings -/

def solidus : UInt8 := 0x2F

/-- `bytes.toString("latin1").split("/")`. -/
def segmentsOf (bytes : List UInt8) : List (List UInt8) := bytes.splitOn solidus

/-- `/^[A-Za-z]:/`. -/
def hasDrive : List UInt8 → Bool
  | first :: second :: _ =>
    ((0x41 ≤ first && first ≤ 0x5A) || (0x61 ≤ first && first ≤ 0x7A)) && second == 0x3A
  | _ => false

/-- A control byte, DEL or a backslash. -/
def isUnsafe (byte : UInt8) : Bool := byte < 32 || byte == 127 || byte == 92

/-- A segment that is empty, or leads to the same or the upper directory. -/
def isUnsafeSegment (part : List UInt8) : Bool :=
  part == [] || part == [0x2E] || part == [0x2E, 0x2E]

def pathBytes (bytes : List UInt8) : Except Failure String :=
  if bytes = [] ∨ 8192 < bytes.length ∨ bytes.head? = some solidus ∨ bytes.getLast? = some solidus ∨
      bytes.any isUnsafe = true ∨ hasDrive bytes = true then
    typeError "Unsafe relative path"
  else if 128 < (segmentsOf bytes).length ∨ (segmentsOf bytes).any isUnsafeSegment = true then
    typeError "Unsafe relative path segments"
  else .ok (base64url bytes)

/-- `/^[A-Za-z0-9_-]+$/`. -/
def isEncoded (encoded : String) : Bool :=
  !encoded.toList.isEmpty && encoded.toList.all fun c => c.isAlphanum || c == '_' || c == '-'

def decodePathBytes (encoded : String) : Except Failure (List UInt8) :=
  if isEncoded encoded = false then typeError "Invalid pathBytes encoding"
  else do
    let bytes := Base64.decode encoded.toList
    let canonical ← pathBytes bytes
    if canonical = encoded then .ok bytes else typeError "Non-canonical pathBytes encoding"

/-- `\x` and two digits. -/
def escapeByte (byte : UInt8) : List Char :=
  ['\\', 'x', hexDigit (byte.toNat / 16), hexDigit (byte.toNat % 16)]

def displayPath (encoded : String) : Except Failure (List Char) := do
  let bytes ← decodePathBytes encoded
  let text := Utf8.decode bytes
  return if Utf8.encode text = bytes then text else bytes.flatMap escapeByte

/-! ## Safe paths -/

/-- Segments with a solidus between each two. -/
structure SafePath (bytes : List UInt8) : Prop where
  short : bytes.length ≤ 8192
  segments : ∃ parts, bytes = [solidus].intercalate parts ∧ parts ≠ [] ∧ parts.length ≤ 128 ∧
    ∀ part ∈ parts, solidus ∉ part ∧ part ≠ [] ∧ part ≠ [0x2E] ∧ part ≠ [0x2E, 0x2E]
  shown : ∀ byte ∈ bytes, 32 ≤ byte ∧ byte ≠ 127 ∧ byte ≠ 92
  noDrive : ¬ ∃ letter rest, bytes = letter :: 0x3A :: rest ∧
    (0x41 ≤ letter ∧ letter ≤ 0x5A ∨ 0x61 ≤ letter ∧ letter ≤ 0x7A)

variable {bytes : List UInt8}

theorem not_mem_segmentsOf {part : List UInt8} (h : part ∈ segmentsOf bytes) :
    solidus ∉ part := by
  unfold segmentsOf at h
  induction bytes generalizing part with
  | nil =>
    rw [List.splitOn_nil, List.mem_singleton] at h
    simp [h]
  | cons byte bytes ih =>
    obtain ⟨first, rest, hsplit⟩ := List.exists_cons_of_ne_nil (List.splitOn_ne_nil solidus bytes)
    rw [List.splitOn_cons_eq_if_modifyHead, hsplit] at h
    rw [hsplit] at ih
    split at h
    · rcases List.mem_cons.mp h with rfl | h
      · simp
      · exact ih h
    · next hbyte =>
      rcases List.mem_cons.mp h with rfl | h
      · intro hmem
        rcases List.mem_cons.mp hmem with heq | hmem
        · exact hbyte (beq_iff_eq.mpr heq.symm)
        · exact ih List.mem_cons_self hmem
      · exact ih (List.mem_cons_of_mem first h)

/-- Where no segment is empty there is one, and neither end is a solidus. -/
theorem ends_of_segments (h : ∀ part ∈ segmentsOf bytes, part ≠ []) :
    bytes ≠ [] ∧ bytes.head? ≠ some solidus ∧ bytes.getLast? ≠ some solidus := by
  refine ⟨?_, fun hhead => ?_, fun hlast => ?_⟩
  · rintro rfl
    exact h [] (by simp [segmentsOf]) rfl
  · obtain ⟨rest, rfl⟩ := List.head?_eq_some_iff.mp hhead
    refine h [] ?_ rfl
    unfold segmentsOf
    rw [← List.nil_append (solidus :: rest), List.splitOn_append_cons_self]
    simp
  · obtain ⟨front, rfl⟩ := List.getLast?_eq_some_iff.mp hlast
    refine h [] ?_ rfl
    unfold segmentsOf
    rw [List.splitOn_append_cons_self]
    simp

theorem hasDrive_iff : hasDrive bytes = true ↔
    ∃ letter rest, bytes = letter :: 0x3A :: rest ∧
      (0x41 ≤ letter ∧ letter ≤ 0x5A ∨ 0x61 ≤ letter ∧ letter ≤ 0x7A) := by
  match bytes with
  | [] => simp [hasDrive]
  | [a] => simp [hasDrive]
  | a :: b :: rest =>
    simp only [hasDrive, Bool.and_eq_true, Bool.or_eq_true, decide_eq_true_eq, beq_iff_eq,
      List.cons.injEq]
    constructor
    · rintro ⟨hletter, rfl⟩
      exact ⟨a, rest, ⟨rfl, rfl, rfl⟩, hletter⟩
    · rintro ⟨letter, rest', ⟨rfl, rfl, rfl⟩, hletter⟩
      exact ⟨hletter, rfl⟩

theorem any_isUnsafe : bytes.any isUnsafe = false ↔
    ∀ byte ∈ bytes, 32 ≤ byte ∧ byte ≠ 127 ∧ byte ≠ 92 := by
  rw [List.any_eq_false]
  refine forall₂_congr fun byte _ => ?_
  simp [isUnsafe, and_assoc]

theorem any_isUnsafeSegment {parts : List (List UInt8)} : parts.any isUnsafeSegment = false ↔
    ∀ part ∈ parts, part ≠ [] ∧ part ≠ [0x2E] ∧ part ≠ [0x2E, 0x2E] := by
  rw [List.any_eq_false]
  refine forall₂_congr fun part _ => ?_
  simp [isUnsafeSegment, and_assoc]

theorem pathBytes_ok {encoded : String} :
    pathBytes bytes = .ok encoded ↔ SafePath bytes ∧ encoded = base64url bytes := by
  unfold pathBytes
  constructor
  · intro h
    split at h
    · cases h
    · next hwhole =>
      split at h
      · cases h
      · next hparts =>
        simp only [not_or, Bool.not_eq_true] at hwhole hparts
        obtain ⟨-, hshort, -, -, hbad, hdrive⟩ := hwhole
        obtain ⟨hcount, hsegments⟩ := hparts
        cases h
        refine ⟨⟨Nat.not_lt.mp hshort, ⟨segmentsOf bytes, (List.intercalate_splitOn solidus).symm,
          List.splitOn_ne_nil _ _, Nat.not_lt.mp hcount, fun part hpart => ?_⟩,
          any_isUnsafe.mp hbad, fun hletter => ?_⟩, rfl⟩
        · exact ⟨not_mem_segmentsOf hpart, any_isUnsafeSegment.mp hsegments part hpart⟩
        · rw [hasDrive_iff.mpr hletter] at hdrive
          cases hdrive
  · rintro ⟨⟨hshort, ⟨parts, hjoined, hparts, hcount, hall⟩, hshown, hdrive⟩, rfl⟩
    have hsegments : segmentsOf bytes = parts := by
      rw [hjoined]
      exact List.splitOn_intercalate solidus (fun part hpart => (hall part hpart).1) hparts
    have hfilled : ∀ part ∈ segmentsOf bytes, part ≠ [] := by
      rw [hsegments]
      exact fun part hpart => (hall part hpart).2.1
    obtain ⟨hnonempty, hhead, hlast⟩ := ends_of_segments hfilled
    have hbad := any_isUnsafe.mpr hshown
    have hdrive' : hasDrive bytes = false :=
      Bool.eq_false_iff.mpr fun htrue => hdrive (hasDrive_iff.mp htrue)
    have hpartsSafe := any_isUnsafeSegment.mpr fun part hpart => (hall part hpart).2
    rw [if_neg, if_neg]
    · rw [hsegments, hpartsSafe]
      simpa using hcount
    · rw [hbad, hdrive']
      simp [hnonempty, hhead, hlast, hshort]

/-! ## Encodings -/

theorem sextet?_urlLetter (c : Char) : Base64.sextet? (urlLetter c) = Base64.sextet? c := by
  unfold urlLetter
  split_ifs with hplus hslash
  · rw [hplus]
    decide
  · rw [hslash]
    decide
  · rfl

theorem decode_base64url (bytes : List UInt8) : Base64.decode (base64url bytes).toList = bytes := by
  have hpadding : ∀ text : List Char,
      (text.filter fun c => c ≠ '=').filterMap Base64.sextet? = text.filterMap Base64.sextet? := by
    intro text
    induction text with
    | nil => rfl
    | cons c text ih =>
      by_cases hc : c = '='
      · rw [hc, List.filter_cons_of_neg (by decide),
          List.filterMap_cons_none Base64.sextet?_padding, ih]
      · rw [List.filter_cons_of_pos (by simpa using hc), List.filterMap_cons, List.filterMap_cons,
          ih]
  conv_rhs => rw [← Base64.decode_encode bytes]
  unfold base64url Base64.decode
  rw [String.toList_ofList, List.filterMap_map]
  have hsame : Base64.sextet? ∘ urlLetter = Base64.sextet? := funext sextet?_urlLetter
  rw [hsame, hpadding]

theorem isEncoded_base64url (h : bytes ≠ []) :
    isEncoded (base64url bytes) = true := by
  have hletters : ∀ c ∈ (base64url bytes).toList,
      (c.isAlphanum || c == '_' || c == '-') = true := by
    intro c hc
    unfold base64url at hc
    rw [String.toList_ofList] at hc
    obtain ⟨d, hd, rfl⟩ := List.mem_map.mp hc
    obtain ⟨hd, hpadding⟩ := List.mem_filter.mp hd
    have hall : ("ABCDEFGHIJKLMNOPQRSTUVWXYZabcdefghijklmnopqrstuvwxyz0123456789+/=".toList.all
        fun d => d == '=' || ((urlLetter d).isAlphanum || urlLetter d == '_' ||
          urlLetter d == '-')) = true := by decide +kernel
    have hd := List.all_eq_true.mp hall d (Base64.mem_encode hd)
    rcases Bool.or_eq_true_iff.mp hd with heq | hletter
    · exact absurd (beq_iff_eq.mp heq) (of_decide_eq_true hpadding)
    · exact hletter
  have hnonempty : (base64url bytes).toList ≠ [] := by
    intro hnil
    apply h
    rw [← decode_base64url bytes, hnil]
    rfl
  unfold isEncoded
  rw [List.all_eq_true.mpr hletters, Bool.and_true]
  simpa using hnonempty

theorem decodePathBytes_ok {encoded : String} :
    decodePathBytes encoded = .ok bytes ↔ pathBytes bytes = .ok encoded := by
  unfold decodePathBytes
  constructor
  · intro h
    split at h
    · cases h
    · obtain ⟨canonical, hpath, h⟩ := bind_ok h
      split at h
      · next heq =>
        cases h
        rw [hpath, heq]
      · cases h
  · intro h
    obtain ⟨hsafe, rfl⟩ := pathBytes_ok.mp h
    have hnonempty : bytes ≠ [] := by
      rintro rfl
      cases h
    rw [if_neg (by rw [isEncoded_base64url hnonempty]; decide), decode_base64url]
    dsimp only
    rw [h]
    exact if_pos rfl

-- The bytes of "a/b".
example : (decodePathBytes "YS9i").toOption = some [97, 47, 98] := by decide +kernel

/-! ## What a reader sees -/

theorem hexDigit_injective : ∀ m < 16, ∀ n < 16, hexDigit m = hexDigit n → m = n := by
  decide +kernel

theorem escapeByte_injective {a b : UInt8} (h : escapeByte a = escapeByte b) : a = b := by
  unfold escapeByte at h
  simp only [List.cons.injEq, true_and, and_true] at h
  have ha := a.toNat_lt
  have hb := b.toNat_lt
  have hhigh := hexDigit_injective _ (by omega) _ (by omega) h.1
  have hlow := hexDigit_injective _ (Nat.mod_lt _ (by decide)) _ (Nat.mod_lt _ (by decide)) h.2
  apply UInt8.toNat_inj.mp
  omega

theorem escaped_injective {bytes' : List UInt8}
    (h : bytes.flatMap escapeByte = bytes'.flatMap escapeByte) : bytes = bytes' := by
  induction bytes generalizing bytes' with
  | nil =>
    cases bytes' with
    | nil => rfl
    | cons => cases h
  | cons byte bytes ih =>
    cases bytes' with
    | nil => cases h
    | cons byte' bytes' =>
      rw [List.flatMap_cons, List.flatMap_cons] at h
      obtain ⟨hfirst, hrest⟩ := List.append_inj h rfl
      rw [escapeByte_injective hfirst, ih hrest]

/-- The text of a path, or its bytes spelled out. -/
theorem displayPath_ok {encoded : String} {shown : List Char}
    (h : displayPath encoded = .ok shown) : ∃ bytes, pathBytes bytes = .ok encoded ∧
      (Utf8.encode shown = bytes ∨ shown = bytes.flatMap escapeByte) := by
  unfold displayPath at h
  obtain ⟨bytes, hdecoded, h⟩ := bind_ok h
  refine ⟨bytes, decodePathBytes_ok.mp hdecoded, ?_⟩
  cases h
  split_ifs with htext
  · exact Or.inl htext
  · exact Or.inr rfl

/-- No text of a safe path looks like spelled bytes. -/
theorem text_ne_escaped {bytes' : List UInt8} {shown : List Char} (h : SafePath bytes)
    (htext : Utf8.encode shown = bytes) (hnonempty : bytes' ≠ []) :
    shown ≠ bytes'.flatMap escapeByte := by
  intro heq
  obtain ⟨byte, rest, rfl⟩ := List.exists_cons_of_ne_nil hnonempty
  have hbackslash : (92 : UInt8) ∈ bytes := by
    rw [← htext, heq, List.flatMap_cons]
    have hencoded : String.utf8EncodeChar '\\' = [92] := by decide
    unfold escapeByte
    rw [List.cons_append, Utf8.encode_cons, hencoded]
    exact List.mem_cons_self
  exact (h.shown 92 hbackslash).2.2 rfl

/-- Safe paths, their encodings and what is shown of them tell each other. -/
theorem path_bijection :
    (∀ bytes, (∃ encoded, pathBytes bytes = .ok encoded) ↔ SafePath bytes) ∧
    (∀ bytes encoded, pathBytes bytes = .ok encoded → decodePathBytes encoded = .ok bytes) ∧
    (∀ encoded, (∃ bytes, decodePathBytes encoded = .ok bytes) ↔
      ∃ bytes, pathBytes bytes = .ok encoded) ∧
    (∀ encoded encoded' bytes, decodePathBytes encoded = .ok bytes →
      decodePathBytes encoded' = .ok bytes → encoded = encoded') ∧
    ∀ encoded encoded' shown, displayPath encoded = .ok shown → displayPath encoded' = .ok shown →
      encoded = encoded' := by
  refine ⟨fun bytes => ⟨?_, fun h => ⟨_, pathBytes_ok.mpr ⟨h, rfl⟩⟩⟩,
    fun bytes encoded h => decodePathBytes_ok.mpr h,
    fun encoded => exists_congr fun bytes => decodePathBytes_ok, ?_, ?_⟩
  · rintro ⟨encoded, h⟩
    exact (pathBytes_ok.mp h).1
  · intro encoded encoded' bytes h h'
    have hsame := (decodePathBytes_ok.mp h).symm.trans (decodePathBytes_ok.mp h')
    exact Except.ok.inj hsame
  · intro encoded encoded' shown h h'
    obtain ⟨bytes, hpath, hshown⟩ := displayPath_ok h
    obtain ⟨bytes', hpath', hshown'⟩ := displayPath_ok h'
    have hsafe := (pathBytes_ok.mp hpath).1
    have hsafe' := (pathBytes_ok.mp hpath').1
    have hnonempty : ∀ {b e}, pathBytes b = .ok e → b ≠ [] := by
      rintro b e hb rfl
      cases hb
    have hsame : bytes = bytes' := by
      rcases hshown with htext | hescaped
      · rcases hshown' with htext' | hescaped'
        · exact htext.symm.trans htext'
        · exact absurd hescaped' (text_ne_escaped hsafe htext (hnonempty hpath'))
      · rcases hshown' with htext' | hescaped'
        · exact absurd hescaped (text_ne_escaped hsafe' htext' (hnonempty hpath))
        · exact escaped_injective (hescaped.symm.trans hescaped')
    rw [hsame] at hpath
    exact Except.ok.inj (hpath.symm.trans hpath')

end Traqen.PathIdentity
