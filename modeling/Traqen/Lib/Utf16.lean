-- A text as the list of its UTF-16 code units: which lists are texts of whole characters, how many
-- bytes and code points they take, hexadecimal digits, and the units between two places.
import Mathlib.Data.List.Basic

namespace Utf16

/-- `/[a-fA-F0-9]/`, with the digit. -/
def hexDigit (c : Nat) : Option Nat :=
  if 0x30 ≤ c ∧ c ≤ 0x39 then some (c - 0x30)
  else if 0x61 ≤ c ∧ c ≤ 0x66 then some (c - 0x61 + 10)
  else if 0x41 ≤ c ∧ c ≤ 0x46 then some (c - 0x41 + 10)
  else none

/-- `Buffer.from(value).toString("utf8") === value`: every surrogate has its other half. -/
def wellFormed : List Nat → Bool
  | [] => true
  | c :: cs =>
    if 0xD800 ≤ c ∧ c ≤ 0xDBFF then
      match cs with
      | d :: rest => decide (0xDC00 ≤ d ∧ d ≤ 0xDFFF) && wellFormed rest
      | [] => false
    else if 0xDC00 ≤ c ∧ c ≤ 0xDFFF then false
    else wellFormed cs

/-- `Buffer.byteLength(text)`: half a pair counts as the character that replaces it. -/
def byteLength : List Nat → Nat
  | [] => 0
  | c :: cs =>
    if c < 0x80 then 1 + byteLength cs
    else if c < 0x800 then 2 + byteLength cs
    else if 0xD800 ≤ c ∧ c ≤ 0xDBFF then
      match cs with
      | d :: rest =>
        if 0xDC00 ≤ d ∧ d ≤ 0xDFFF then 4 + byteLength rest else 3 + byteLength (d :: rest)
      | [] => 3
    else 3 + byteLength cs

/-- `String.fromCharCode(parseInt(hex, 16))`, where the four units are hexadecimal digits. -/
def unicodeUnit (a b c d : Nat) : Option Nat := do
  let a ← hexDigit a
  let b ← hexDigit b
  let c ← hexDigit c
  let d ← hexDigit d
  return a * 4096 + b * 256 + c * 16 + d

theorem unicodeUnit_some {x y z w unit : Nat} (h : unicodeUnit x y z w = some unit) :
    (hexDigit x).isSome = true ∧ (hexDigit y).isSome = true ∧ (hexDigit z).isSome = true ∧
      (hexDigit w).isSome = true := by
  unfold unicodeUnit at h
  obtain ⟨a, ha, h⟩ := Option.bind_eq_some_iff.mp h
  obtain ⟨b, hb, h⟩ := Option.bind_eq_some_iff.mp h
  obtain ⟨c, hc, h⟩ := Option.bind_eq_some_iff.mp h
  obtain ⟨d, hd, -⟩ := Option.bind_eq_some_iff.mp h
  exact ⟨by rw [ha]; rfl, by rw [hb]; rfl, by rw [hc]; rfl, by rw [hd]; rfl⟩

/-- `text.slice(start, stop)`. -/
def slice (text : List Nat) (start stop : Nat) : List Nat := (text.take stop).drop start

theorem slice_eq (text : List Nat) (start stop : Nat) :
    slice text start stop = (text.drop start).take (stop - start) := List.drop_take

/-- The units that stand between a front and a rest. -/
theorem slice_append (front units rest : List Nat) :
    slice (front ++ (units ++ rest)) front.length (front.length + units.length) = units := by
  rw [slice_eq, List.drop_left, Nat.add_sub_cancel_left, List.take_left]

/-! ## Pairs -/

/-- A high surrogate, the first half of a pair. -/
def isHigh (c : Nat) : Bool := decide (0xD800 ≤ c ∧ c ≤ 0xDBFF)

/-- A low surrogate, the second half. -/
def isLow (c : Nat) : Bool := decide (0xDC00 ≤ c ∧ c ≤ 0xDFFF)

/-- What the code points of a text weigh together: a pair is one, and so is half a pair. -/
def weigh (single : Nat → Nat) (pair : Nat) : List Nat → Nat
  | [] => 0
  | [c] => single c
  | c :: d :: rest =>
    if isHigh c = true ∧ isLow d = true then pair + weigh single pair rest
    else single c + weigh single pair (d :: rest)

/-- The number of code points. -/
def codePoints (text : List Nat) : Nat := weigh (fun _ => 1) 1 text

/-- The bytes of a unit that is no half of a pair. -/
def unitBytes (c : Nat) : Nat := if c < 0x80 then 1 else if c < 0x800 then 2 else 3

section Weigh

variable {single : Nat → Nat} {pair : Nat}

/-- A unit does not make a pair with the next one. -/
def Apart (xs ys : List Nat) : Prop :=
  ∀ a ∈ xs.getLast?, ∀ b ∈ ys.head?, ¬ (isHigh a = true ∧ isLow b = true)

theorem not_low_of_high {c : Nat} (h : isHigh c = true) : isLow c = false := by
  unfold isHigh at h
  unfold isLow
  simp only [decide_eq_true_eq, decide_eq_false_iff_not] at h ⊢
  omega

theorem weigh_append {xs ys : List Nat} (h : Apart xs ys) :
    weigh single pair (xs ++ ys) = weigh single pair xs + weigh single pair ys := by
  induction xs using weigh.induct with
  | case1 => simp [weigh]
  | case2 c =>
    cases ys with
    | nil => simp [weigh]
    | cons d ys =>
      have hnot := h c rfl d rfl
      have htwo : weigh single pair (c :: d :: ys) =
          single c + weigh single pair (d :: ys) := by rw [weigh, if_neg hnot]
      exact htwo
  | case3 c d rest hpair ih =>
    have hrest : Apart rest ys := by
      intro a ha b hb
      refine h a ?_ b hb
      cases rest with
      | nil => cases ha
      | cons x rest => exact ha
    rw [List.cons_append, List.cons_append, weigh, if_pos hpair, weigh, if_pos hpair, ih hrest,
      Nat.add_assoc]
  | case4 c d rest hpair ih =>
    have hrest : Apart (d :: rest) ys := fun a ha b hb => h a ha b hb
    rw [List.cons_append, List.cons_append, weigh, if_neg hpair, weigh, if_neg hpair,
      ← List.cons_append, ih hrest, Nat.add_assoc]

/-- One more unit, which is no second half. -/
theorem weigh_unit {xs : List Nat} {c : Nat} (h : Apart xs [c]) :
    weigh single pair (xs ++ [c]) = weigh single pair xs + single c := by
  rw [weigh_append h]
  rfl

/-- One more unit, which ends a pair. -/
theorem weigh_pair {xs : List Nat} {a c : Nat} (ha : isHigh a = true) (hc : isLow c = true) :
    weigh single pair (xs ++ [a] ++ [c]) + single a = weigh single pair (xs ++ [a]) + pair := by
  have hhigh : ∀ ys : List Nat, Apart xs (a :: ys) := by
    rintro ys x - b hb ⟨-, hlow⟩
    obtain rfl := Option.some.inj hb
    rw [not_low_of_high ha] at hlow
    cases hlow
  have htwo : weigh single pair [a, c] = pair := by simp [weigh, ha, hc]
  rw [List.append_assoc, List.singleton_append, weigh_append (hhigh _), weigh_append (hhigh _),
    htwo]
  simp only [weigh]
  omega

end Weigh

theorem byteLength_eq_weigh (text : List Nat) : byteLength text = weigh unitBytes 4 text := by
  induction text using weigh.induct with
  | case1 => rfl
  | case2 c =>
    unfold byteLength weigh unitBytes
    split_ifs <;> rfl
  | case3 c d rest hpair ih =>
    obtain ⟨hc, hd⟩ := hpair
    have hhigh := of_decide_eq_true hc
    have hlow := of_decide_eq_true hd
    rw [weigh, if_pos ⟨hc, hd⟩, byteLength, if_neg (by omega), if_neg (by omega), if_pos hhigh]
    rw [if_pos hlow, ih]
  | case4 c d rest hpair ih =>
    rw [weigh, if_neg hpair, ← ih]
    conv_lhs => unfold byteLength
    unfold unitBytes
    split_ifs with h1 h2 h3
    · rfl
    · rfl
    · dsimp only
      rw [if_neg]
      exact fun hd => hpair ⟨decide_eq_true h3, decide_eq_true hd⟩
    · rfl

end Utf16
