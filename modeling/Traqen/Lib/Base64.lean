-- Base64: three bytes are four letters, and what is left over is padded. Reading drops what is
-- no letter of either alphabet, padding included.
import Mathlib.Data.List.Basic

namespace Base64

/-- The letter of six bits. -/
def letter (n : Nat) : Char :=
  "ABCDEFGHIJKLMNOPQRSTUVWXYZabcdefghijklmnopqrstuvwxyz0123456789+/".toList.getD n '='

/-- The six bits of a letter, of the plain alphabet or of the one for names. -/
def sextet? (c : Char) : Option Nat :=
  if c.isUpper = true then some (c.toNat - 65)
  else if c.isLower = true then some (c.toNat - 71)
  else if c.isDigit = true then some (c.toNat + 4)
  else if c = '+' ∨ c = '-' then some 62
  else if c = '/' ∨ c = '_' then some 63
  else none

def encode : List UInt8 → List Char
  | a :: b :: c :: rest =>
    letter (a.toNat / 4) :: letter (a.toNat % 4 * 16 + b.toNat / 16) ::
      letter (b.toNat % 16 * 4 + c.toNat / 64) :: letter (c.toNat % 64) :: encode rest
  | [a, b] =>
    [letter (a.toNat / 4), letter (a.toNat % 4 * 16 + b.toNat / 16), letter (b.toNat % 16 * 4), '=']
  | [a] => [letter (a.toNat / 4), letter (a.toNat % 4 * 16), '=', '=']
  | [] => []

/-- The bytes of sextets; bits that fill no byte are dropped. -/
def bytesOf : List Nat → List UInt8
  | p :: q :: r :: s :: rest =>
    UInt8.ofNat (p * 4 + q / 16) :: UInt8.ofNat (q % 16 * 16 + r / 4) ::
      UInt8.ofNat (r % 4 * 64 + s) :: bytesOf rest
  | [p, q, r] => [UInt8.ofNat (p * 4 + q / 16), UInt8.ofNat (q % 16 * 16 + r / 4)]
  | [p, q] => [UInt8.ofNat (p * 4 + q / 16)]
  | _ => []

def decode (text : List Char) : List UInt8 := bytesOf (text.filterMap sextet?)

theorem sextet?_letter : ∀ n < 64, sextet? (letter n) = some n := by decide +kernel

theorem sextet?_padding : sextet? '=' = none := by decide

theorem ofNat_toNat {n : Nat} {a : UInt8} (h : n = a.toNat) : UInt8.ofNat n = a := by
  rw [h, UInt8.ofNat_toNat]

/-- What is encoded is read back. -/
theorem decode_encode (bytes : List UInt8) : decode (encode bytes) = bytes := by
  unfold decode
  induction bytes using encode.induct with
  | case1 a b c rest ih =>
    have ha := a.toNat_lt
    have hb := b.toNat_lt
    have hc := c.toNat_lt
    rw [encode, List.filterMap_cons_some (sextet?_letter _ (by omega)),
      List.filterMap_cons_some (sextet?_letter _ (by omega)),
      List.filterMap_cons_some (sextet?_letter _ (by omega)),
      List.filterMap_cons_some (sextet?_letter _ (by omega)), bytesOf, ih,
      ofNat_toNat (a := a) (by omega), ofNat_toNat (a := b) (by omega),
      ofNat_toNat (a := c) (by omega)]
  | case2 a b =>
    have ha := a.toNat_lt
    have hb := b.toNat_lt
    rw [encode, List.filterMap_cons_some (sextet?_letter _ (by omega)),
      List.filterMap_cons_some (sextet?_letter _ (by omega)),
      List.filterMap_cons_some (sextet?_letter _ (by omega)),
      List.filterMap_cons_none sextet?_padding, List.filterMap_nil, bytesOf,
      ofNat_toNat (a := a) (by omega), ofNat_toNat (a := b) (by omega)]
  | case3 a =>
    have ha := a.toNat_lt
    rw [encode, List.filterMap_cons_some (sextet?_letter _ (by omega)),
      List.filterMap_cons_some (sextet?_letter _ (by omega)),
      List.filterMap_cons_none sextet?_padding, List.filterMap_cons_none sextet?_padding,
      List.filterMap_nil, bytesOf, ofNat_toNat (a := a) (by omega)]
  | case4 => rfl

theorem letter_mem (n : Nat) : letter n ∈
    "ABCDEFGHIJKLMNOPQRSTUVWXYZabcdefghijklmnopqrstuvwxyz0123456789+/=".toList := by
  unfold letter
  rw [List.getD_eq_getElem?_getD]
  cases hletter : "ABCDEFGHIJKLMNOPQRSTUVWXYZabcdefghijklmnopqrstuvwxyz0123456789+/".toList[n]? with
  | none => decide +kernel
  | some c =>
    have hsub : "ABCDEFGHIJKLMNOPQRSTUVWXYZabcdefghijklmnopqrstuvwxyz0123456789+/=".toList =
        "ABCDEFGHIJKLMNOPQRSTUVWXYZabcdefghijklmnopqrstuvwxyz0123456789+/".toList ++ ['='] := by
      decide +kernel
    rw [hsub]
    exact List.mem_append_left _ (List.mem_of_getElem? hletter)

/-- An encoding is made of letters and padding. -/
theorem mem_encode {bytes : List UInt8} {c : Char} (h : c ∈ encode bytes) : c ∈
    "ABCDEFGHIJKLMNOPQRSTUVWXYZabcdefghijklmnopqrstuvwxyz0123456789+/=".toList := by
  induction bytes using encode.induct with
  | case1 a b d rest ih =>
    rw [encode] at h
    simp only [List.mem_cons] at h
    obtain rfl | rfl | rfl | rfl | h := h
    · exact letter_mem _
    · exact letter_mem _
    · exact letter_mem _
    · exact letter_mem _
    · exact ih h
  | case2 a b =>
    rw [encode] at h
    simp only [List.mem_cons, List.not_mem_nil, or_false] at h
    obtain rfl | rfl | rfl | rfl := h
    · exact letter_mem _
    · exact letter_mem _
    · exact letter_mem _
    · decide +kernel
  | case3 a =>
    rw [encode] at h
    simp only [List.mem_cons, List.not_mem_nil, or_false] at h
    obtain rfl | rfl | rfl | rfl := h
    · exact letter_mem _
    · exact letter_mem _
    · decide +kernel
    · decide +kernel
  | case4 => cases h

end Base64
