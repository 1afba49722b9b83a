-- The text of `JSON.stringify` tells the value, with the order of its fields: no two
-- values have one text. Every part of a text is read back by what stands at its start.
import Mathlib
import Traqen.Lib.Json

namespace Js

/-! ## Digits -/

/-- What follows a number in a text does not go on with it. -/
def Ended (r : List Char) : Prop := ∀ c ∈ r.head?, c.isDigit = false ∧ c ≠ '.' ∧ c ≠ 'e'

theorem ended_nil : Ended [] := by simp [Ended]

def digitsOf (cs : List Char) : List Char := cs.takeWhile Char.isDigit

def afterDigits (cs : List Char) : List Char := cs.dropWhile Char.isDigit

variable {ds r s t : List Char}

theorem digitsOf_append (hd : ∀ c ∈ ds, c.isDigit = true) (hr : ∀ c ∈ r.head?, c.isDigit = false) :
    digitsOf (ds ++ r) = ds ∧ afterDigits (ds ++ r) = r := by
  unfold digitsOf afterDigits
  rw [List.takeWhile_append_of_pos hd, List.dropWhile_append_of_pos hd]
  cases r with
  | nil => simp
  | cons c r => simp [hr c (by simp)]

theorem isDigit_toDigits (n : Nat) : ∀ c ∈ Nat.toDigits 10 n, c.isDigit = true :=
  fun _ hc => Nat.isDigit_of_mem_toDigits (by omega) (by omega) hc

theorem isDigit_zeros (n : Nat) : ∀ c ∈ List.replicate n '0', c.isDigit = true := by
  intro c hc
  rw [List.eq_of_mem_replicate hc]
  rfl

/-! ## Numbers -/

namespace Number

def readFraction : List Char → List Char × List Char
  | '.' :: cs => (digitsOf cs, afterDigits cs)
  | cs => ([], cs)

def readExponent : List Char → Int × List Char
  | 'e' :: '+' :: cs => (Nat.ofDigitChars 10 (digitsOf cs) 0, afterDigits cs)
  | 'e' :: '-' :: cs => (-(Nat.ofDigitChars 10 (digitsOf cs) 0 : Int), afterDigits cs)
  | cs => (0, cs)

/-- The digits without the point, the power of ten they are taken by, and the rest. -/
def readUnsigned (cs : List Char) : (Nat × Int) × List Char :=
  let fraction := readFraction (afterDigits cs)
  let exponent := readExponent fraction.2
  ((Nat.ofDigitChars 10 (digitsOf cs ++ fraction.1) 0, exponent.1 - fraction.1.length), exponent.2)

theorem readFraction_ended (h : ∀ c ∈ r.head?, c ≠ '.') : readFraction r = ([], r) := by
  unfold readFraction
  split
  · exact absurd rfl (h '.' (by simp))
  · rfl

theorem readExponent_ended (h : Ended r) : readExponent r = (0, r) := by
  unfold readExponent
  split
  · exact absurd rfl (h 'e' (by simp)).2.2
  · exact absurd rfl (h 'e' (by simp)).2.2
  · rfl

/-- The pair that is read stands for the same number, perhaps with its zeros written out. -/
def Reads (x : Number) (p : Nat × Int) : Prop :=
  ∃ j : Nat, p.1 = x.mantissa.natAbs * 10 ^ j ∧ x.exponent = p.2 + j

def exponentText (e : Int) : List Char :=
  'e' :: (if e < 0 then '-' else '+') :: Nat.toDigits 10 e.natAbs

theorem readExponent_exponentText (e : Int) (hr : Ended r) :
    readExponent (exponentText e ++ r) = (e, r) := by
  obtain ⟨hdigits, hrest⟩ := digitsOf_append (isDigit_toDigits e.natAbs) fun c hc => (hr c hc).1
  unfold exponentText
  by_cases he : e < 0
  · simp only [he, if_true, List.cons_append, readExponent, hdigits, hrest,
      Nat.ofDigitChars_ten_toDigits, Prod.mk.injEq, and_true]
    omega
  · simp only [he, if_false, List.cons_append, readExponent, hdigits, hrest,
      Nat.ofDigitChars_ten_toDigits, Prod.mk.injEq, and_true]
    omega

theorem readUnsigned_digits {e : Int} (hd : ∀ c ∈ ds, c.isDigit = true)
    (ht : ∀ c ∈ t.head?, c.isDigit = false ∧ c ≠ '.') (hread : readExponent t = (e, r)) :
    readUnsigned (ds ++ t) = ((Nat.ofDigitChars 10 ds 0, e), r) := by
  obtain ⟨hdigits, hrest⟩ := digitsOf_append hd fun c hc => (ht c hc).1
  simp [readUnsigned, hdigits, hrest, readFraction_ended fun c hc => (ht c hc).2, hread]

theorem readUnsigned_point {fs : List Char} {e : Int} (hd : ∀ c ∈ ds, c.isDigit = true)
    (hf : ∀ c ∈ fs, c.isDigit = true) (ht : ∀ c ∈ t.head?, c.isDigit = false)
    (hread : readExponent t = (e, r)) :
    readUnsigned (ds ++ '.' :: (fs ++ t)) =
      ((Nat.ofDigitChars 10 (ds ++ fs) 0, e - fs.length), r) := by
  have hpoint : ∀ c ∈ ('.' :: (fs ++ t)).head?, c.isDigit = false := by
    intro c hc
    cases hc
    rfl
  obtain ⟨hdigits, hrest⟩ := digitsOf_append hd hpoint
  obtain ⟨hfraction, hafter⟩ := digitsOf_append hf ht
  simp only [readUnsigned, hdigits, hrest, readFraction, hfraction, hafter, hread]

theorem readUnsigned_unsignedText (x : Number) (hr : Ended r) :
    ∃ p, readUnsigned (x.unsignedText ++ r) = (p, r) ∧ x.Reads p := by
  have hd := isDigit_toDigits x.mantissa.natAbs
  have hvalue : Nat.ofDigitChars 10 (Nat.toDigits 10 x.mantissa.natAbs) 0 = x.mantissa.natAbs :=
    Nat.ofDigitChars_ten_toDigits
  have hsome : Nat.toDigits 10 x.mantissa.natAbs ≠ [] := Nat.toDigits_ne_nil
  have hnone := readExponent_ended hr
  have hstop : ∀ c ∈ r.head?, c.isDigit = false := fun c hc => (hr c hc).1
  have hexp : ∀ e : Int, ∀ c ∈ (exponentText e ++ r).head?, c.isDigit = false ∧ c ≠ '.' := by
    intro e c hc
    cases hc
    exact ⟨rfl, by decide⟩
  unfold unsignedText
  generalize Nat.toDigits 10 x.mantissa.natAbs = s at hd hvalue hsome
  simp only
  split
  · -- all digits before the point
    rename_i h
    refine ⟨_, readUnsigned_digits ?_ (fun c hc => ⟨hstop c hc, (hr c hc).2.1⟩) hnone, ?_⟩
    · intro c hc
      rcases List.mem_append.mp hc with hc | hc
      · exact hd c hc
      · exact isDigit_zeros _ c hc
    · refine ⟨x.exponent.toNat, ?_, by simp; omega⟩
      simp [Nat.ofDigitChars_append, hvalue, Nat.mul_comm]
  · split
    · -- the point among the digits
      rename_i h1 h2
      have htake : ∀ c ∈ s.take (s.length + x.exponent).toNat, c.isDigit = true :=
        fun c hc => hd c (List.mem_of_mem_take hc)
      have hdrop : ∀ c ∈ s.drop (s.length + x.exponent).toNat, c.isDigit = true :=
        fun c hc => hd c (List.mem_of_mem_drop hc)
      have hread := readUnsigned_point htake hdrop hstop hnone
      refine ⟨_, by simpa using hread, 0, ?_, ?_⟩
      · simp [hvalue]
      · simp
        omega
    · split
      · -- the point before the digits
        rename_i h1 h2 h3
        have hzeros : ∀ c ∈ List.replicate (-(s.length + x.exponent)).toNat '0' ++ s,
            c.isDigit = true := by
          intro c hc
          rcases List.mem_append.mp hc with hc | hc
          · exact isDigit_zeros _ c hc
          · exact hd c hc
        have hzero : ∀ c ∈ ['0'], c.isDigit = true := by simp
        have hread := readUnsigned_point hzero hzeros hstop hnone
        refine ⟨_, by simpa using hread, 0, ?_, ?_⟩
        · rw [← hvalue, Nat.ofDigitChars_cons]
          simp [Nat.ofDigitChars_append]
        · simp
          omega
      · -- one digit before the point, and an exponent
        rename_i h1 h2 h3
        have hread := readExponent_exponentText (s.length + x.exponent - 1) hr
        have hhead := hexp (s.length + x.exponent - 1)
        generalize hE : (s.length : Int) + x.exponent - 1 = E at hread hhead
        cases s with
        | nil => exact absurd rfl hsome
        | cons d rest =>
          cases rest with
          | nil =>
            have hread := readUnsigned_digits hd hhead hread
            change ∃ p, readUnsigned (d :: exponentText E ++ r) = (p, r) ∧ x.Reads p
            refine ⟨_, by simpa using hread, 0, by simp [hvalue], ?_⟩
            simp only [List.length_singleton] at hE
            omega
          | cons c ds =>
            have hone : ∀ c ∈ [d], c.isDigit = true := by simpa using hd d (by simp)
            have hmore : ∀ e ∈ c :: ds, e.isDigit = true :=
              fun e he => hd e (List.mem_cons_of_mem d he)
            have hread := readUnsigned_point hone hmore (fun e he => (hhead e he).1) hread
            change ∃ p, readUnsigned (d :: '.' :: (c :: ds) ++ exponentText E ++ r) = (p, r) ∧
              x.Reads p
            refine ⟨_, by simpa using hread, 0, by simp [hvalue], ?_⟩
            simp only [List.length_cons] at hE ⊢
            omega

variable {x y : Number}

/-- A number with fewer zeros written out than another one that reads the same. -/
theorem reads_le {p : Nat × Int} {i j : Nat} (hij : i ≤ j)
    (hxm : p.1 = x.mantissa.natAbs * 10 ^ i) (hxe : x.exponent = p.2 + i)
    (hym : p.1 = y.mantissa.natAbs * 10 ^ j) (hye : y.exponent = p.2 + j) :
    x.mantissa.natAbs = y.mantissa.natAbs ∧ x.exponent = y.exponent := by
  obtain ⟨d, rfl⟩ := Nat.exists_eq_add_of_le hij
  have hm : x.mantissa.natAbs = y.mantissa.natAbs * 10 ^ d := by
    have hpos : 0 < 10 ^ i := Nat.pos_of_ne_zero (by simp)
    apply Nat.eq_of_mul_eq_mul_right hpos
    rw [← hxm, hym, Nat.pow_add, Nat.mul_assoc, Nat.mul_comm (10 ^ d)]
  rcases d with _ | d
  · exact ⟨by simpa using hm, by omega⟩
  · -- a mantissa that ends in a zero is zero, and then both numbers are
    have hten : x.mantissa.natAbs % 10 = 0 := by
      rw [hm, Nat.pow_succ, ← Nat.mul_assoc]
      exact Nat.mul_mod_left _ _
    have hx : x.mantissa = 0 ∧ x.exponent = 0 := by
      rcases x.normal with h | h
      · omega
      · exact h
    have hy : y.mantissa.natAbs = 0 := by
      rw [hx.1, Int.natAbs_zero] at hm
      exact (Nat.mul_eq_zero.mp hm.symm).resolve_right (by simp)
    have hy : y.exponent = 0 := by
      rcases y.normal with h | h
      · omega
      · exact h.2
    omega

/-- Numbers that read the same are the same, up to the sign. -/
theorem eq_of_reads {p : Nat × Int} (hx : x.Reads p) (hy : y.Reads p) :
    x.mantissa.natAbs = y.mantissa.natAbs ∧ x.exponent = y.exponent := by
  obtain ⟨i, hxm, hxe⟩ := hx
  obtain ⟨j, hym, hye⟩ := hy
  rcases Nat.le_total i j with hij | hji
  · exact reads_le hij hxm hxe hym hye
  · obtain ⟨hm, he⟩ := reads_le hji hym hye hxm hxe
    exact ⟨hm.symm, he.symm⟩

theorem unsignedText_head (x : Number) : ∃ d r, x.unsignedText = d :: r ∧ d.isDigit = true := by
  have hd := isDigit_toDigits x.mantissa.natAbs
  have hsome : Nat.toDigits 10 x.mantissa.natAbs ≠ [] := Nat.toDigits_ne_nil
  unfold unsignedText
  generalize Nat.toDigits 10 x.mantissa.natAbs = s at hd hsome
  obtain ⟨d, ds, rfl⟩ := List.exists_cons_of_ne_nil hsome
  have hdigit := hd d (by simp)
  simp only
  split
  · exact ⟨d, _, rfl, hdigit⟩
  · split
    · rename_i h
      obtain ⟨k, hk⟩ : ∃ k, ((d :: ds).length + x.exponent).toNat = k + 1 :=
        ⟨((d :: ds).length + x.exponent).toNat - 1, by omega⟩
      exact ⟨d, _, by rw [hk]; rfl, hdigit⟩
    · split
      · exact ⟨'0', _, rfl, rfl⟩
      · split
        · rename_i h
          cases h
          exact ⟨d, _, rfl, hdigit⟩
        · rename_i h
          cases h
          exact ⟨d, _, rfl, hdigit⟩
        · rename_i h
          cases h

theorem toText_toList (x : Number) :
    x.toText.toList = if x.mantissa < 0 then '-' :: x.unsignedText else x.unsignedText := by
  simp [toText]

/-- The sign and the digits give the number. -/
theorem eq_of_sign (hsign : x.mantissa < 0 ↔ y.mantissa < 0)
    (habs : x.mantissa.natAbs = y.mantissa.natAbs) (hexp : x.exponent = y.exponent) : x = y := by
  have hm : x.mantissa = y.mantissa := by omega
  cases x
  cases y
  simp_all

theorem eq_of_unsignedText_append (hr : Ended r) (hs : Ended s)
    (h : x.unsignedText ++ r = y.unsignedText ++ s) :
    x.mantissa.natAbs = y.mantissa.natAbs ∧ x.exponent = y.exponent ∧ r = s := by
  obtain ⟨p, hx, hxr⟩ := readUnsigned_unsignedText x hr
  obtain ⟨q, hy, hyr⟩ := readUnsigned_unsignedText y hs
  rw [h, hy] at hx
  cases hx
  obtain ⟨habs, hexp⟩ := eq_of_reads hxr hyr
  exact ⟨habs, hexp, rfl⟩

/-- A number is known from its text, whatever follows it. -/
theorem eq_of_toText_append (hr : Ended r) (hs : Ended s)
    (h : x.toText.toList ++ r = y.toText.toList ++ s) : x = y ∧ r = s := by
  obtain ⟨c, u, hc, hcd⟩ := unsignedText_head x
  obtain ⟨d, v, hd, hdd⟩ := unsignedText_head y
  have hminus : ∀ c : Char, c.isDigit = true → c ≠ '-' := by
    rintro c hc rfl
    simp at hc
  rw [toText_toList, toText_toList] at h
  by_cases hx : x.mantissa < 0 <;> by_cases hy : y.mantissa < 0
  · simp only [hx, hy, if_true, List.cons_append, List.cons.injEq, true_and] at h
    obtain ⟨habs, hexp, hrest⟩ := eq_of_unsignedText_append hr hs h
    exact ⟨eq_of_sign (by simp [hx, hy]) habs hexp, hrest⟩
  · simp only [hx, hy, if_true, if_false, hd, List.cons_append, List.cons.injEq] at h
    exact absurd h.1.symm (hminus d hdd)
  · simp only [hx, hy, if_true, if_false, hc, List.cons_append, List.cons.injEq] at h
    exact absurd h.1 (hminus c hcd)
  · simp only [hx, hy, if_false] at h
    obtain ⟨habs, hexp, hrest⟩ := eq_of_unsignedText_append hr hs h
    exact ⟨eq_of_sign (by simp [hx, hy]) habs hexp, hrest⟩

end Number

/-! ## Strings -/

def hexValue (c : Char) : Nat := if c.isDigit then c.toNat - 0x30 else c.toNat - 0x57

/-- The character that a text between quotes starts with, and the rest. -/
def unescape : List Char → Option (Char × List Char)
  | '\\' :: 'b' :: r => some (Char.ofNat 0x8, r)
  | '\\' :: 't' :: r => some (Char.ofNat 0x9, r)
  | '\\' :: 'n' :: r => some (Char.ofNat 0xA, r)
  | '\\' :: 'f' :: r => some (Char.ofNat 0xC, r)
  | '\\' :: 'r' :: r => some (Char.ofNat 0xD, r)
  | '\\' :: 'u' :: '0' :: '0' :: a :: b :: r => some (Char.ofNat (16 * hexValue a + hexValue b), r)
  | '\\' :: c :: r => some (c, r)
  | c :: r => some (c, r)
  | [] => none

theorem hexValue_hexDigit : ∀ d < 16, hexValue (hexDigit d) = d := by decide

theorem unescape_escapeChar (c : Char) (r : List Char) :
    unescape (escapeChar c ++ r) = some (c, r) := by
  have hc : Char.ofNat c.toNat = c := Char.ofNat_toNat c
  unfold escapeChar
  split
  case h_8 n _ hslash _ _ _ _ _ =>
    split
    · -- a control character, by its two hex digits
      rename_i hlow
      have h1 := hexValue_hexDigit (c.toNat / 16) (by omega)
      have h2 := hexValue_hexDigit (c.toNat % 16) (by omega)
      have hsum : 16 * (c.toNat / 16) + c.toNat % 16 = c.toNat := by omega
      simp only [List.cons_append, List.nil_append, unescape, h1, h2, hsum, hc]
    · have hne : c ≠ '\\' := by
        rintro rfl
        exact hslash rfl
      simp only [List.cons_append, List.nil_append]
      unfold unescape
      split <;> simp_all
  all_goals
    rename_i h
    rw [h] at hc
    subst hc
    rfl

/-- The end of a string is no character of it. -/
theorem escapeChar_ne_quote (c : Char) (r s : List Char) : escapeChar c ++ r ≠ '"' :: s := by
  intro h
  have hc := unescape_escapeChar c r
  rw [h] at hc
  cases hc
  simp [escapeChar] at h

theorem eq_of_escaped_append {x y : List Char}
    (h : s.flatMap escapeChar ++ '"' :: x = t.flatMap escapeChar ++ '"' :: y) : s = t ∧ x = y := by
  induction s generalizing t with
  | nil =>
    cases t with
    | nil => simpa using h
    | cons d t =>
      simp only [List.flatMap_nil, List.nil_append, List.flatMap_cons, List.append_assoc] at h
      exact absurd h.symm (escapeChar_ne_quote d _ _)
  | cons c s ih =>
    cases t with
    | nil =>
      simp only [List.flatMap_nil, List.nil_append, List.flatMap_cons, List.append_assoc] at h
      exact absurd h (escapeChar_ne_quote c _ _)
    | cons d t =>
      simp only [List.flatMap_cons, List.append_assoc] at h
      have hc := unescape_escapeChar c (s.flatMap escapeChar ++ '"' :: x)
      rw [h, unescape_escapeChar] at hc
      simp only [Option.some.injEq, Prod.mk.injEq] at hc
      obtain ⟨rfl, hrest⟩ := hc
      obtain ⟨rfl, rfl⟩ := ih hrest.symm
      exact ⟨rfl, rfl⟩

theorem quote_toList (s : String) :
    (quote s).toList = '"' :: (s.toList.flatMap escapeChar ++ ['"']) := by
  simp [quote]

/-- A string is known from its quoted text, whatever follows it. -/
theorem eq_of_quote_append {s t : String} {x y : List Char}
    (h : (quote s).toList ++ x = (quote t).toList ++ y) : s = t ∧ x = y := by
  simp only [quote_toList, List.cons_append, List.cons.injEq, true_and, List.append_assoc,
    List.nil_append] at h
  obtain ⟨hs, hx⟩ := eq_of_escaped_append h
  exact ⟨String.toList_inj.mp hs, hx⟩

/-! ## Values -/

namespace Json

mutual

/-- The text of a value as a list of characters, each array and object closed by its last part. -/
def chars : Json → List Char
  | .null => ['n', 'u', 'l', 'l']
  | .bool b => if b then ['t', 'r', 'u', 'e'] else ['f', 'a', 'l', 's', 'e']
  | .num n => n.toText.toList
  | .str s => (quote s).toList
  | .arr [] => ['[', ']']
  | .arr (v :: vs) => '[' :: (chars v ++ moreItems vs)
  | .obj [] => ['\x7b', '\x7d']
  | .obj ((k, v) :: fs) => '\x7b' :: ((quote k).toList ++ ':' :: (chars v ++ moreFields fs))

def moreItems : List Json → List Char
  | [] => [']']
  | v :: vs => ',' :: (chars v ++ moreItems vs)

def moreFields : List (String × Json) → List Char
  | [] => ['\x7d']
  | (k, v) :: fs => ',' :: ((quote k).toList ++ ':' :: (chars v ++ moreFields fs))

end

mutual

theorem stringify_toList : ∀ v : Json, (stringify v).toList = chars v
  | .null => rfl
  | .bool b => by cases b <;> rfl
  | .num n => rfl
  | .str s => rfl
  | .arr [] => by simp [stringify, stringifyItems, chars]
  | .arr (v :: vs) => by
    simp [stringify, stringifyItems, chars, stringify_toList v, moreItems_eq vs]
  | .obj [] => by simp [stringify, stringifyFields, chars]
  | .obj ((k, v) :: fs) => by
    simp [stringify, stringifyFields, chars, stringify_toList v, moreFields_eq fs]

theorem moreItems_eq : ∀ vs : List Json, ∀ first : List Char,
    [','].intercalate (first :: (stringifyItems vs).map String.toList) ++ [']'] =
      first ++ moreItems vs
  | [], first => by simp [stringifyItems, moreItems]
  | v :: vs, first => by
    simp [stringifyItems, moreItems, stringify_toList v, moreItems_eq vs]

theorem moreFields_eq : ∀ fs : List (String × Json), ∀ first : List Char,
    [','].intercalate (first :: (stringifyFields fs).map String.toList) ++ ['\x7d'] =
      first ++ moreFields fs
  | [], first => by simp [stringifyFields, moreFields]
  | (k, v) :: fs, first => by
    simp only [stringifyFields, List.map_cons, List.intercalate_cons_cons, List.append_assoc,
      moreFields_eq fs, moreFields, String.toList_append, stringify_toList v]
    simp

end

/-- The constructor that a text starts with, or the end of an array. -/
def leadOf : List Char → Nat
  | 'n' :: _ => 0
  | 't' :: _ => 1
  | 'f' :: _ => 1
  | '"' :: _ => 3
  | '[' :: _ => 4
  | '\x7b' :: _ => 5
  | ']' :: _ => 6
  | _ => 2

def lead : Json → Nat
  | .null => 0
  | .bool _ => 1
  | .num _ => 2
  | .str _ => 3
  | .arr _ => 4
  | .obj _ => 5

theorem leadOf_number (n : Number) (x : List Char) : leadOf (n.toText.toList ++ x) = 2 := by
  obtain ⟨d, r, hd, hdigit⟩ := n.unsignedText_head
  rw [Number.toText_toList]
  split
  · rfl
  · rw [hd]
    simp only [List.cons_append]
    unfold leadOf
    split <;> simp_all

theorem lead_ne_end (v : Json) : lead v ≠ 6 := by
  cases v <;> simp [lead]

theorem leadOf_chars (v : Json) (x : List Char) : leadOf (chars v ++ x) = lead v := by
  cases v with
  | null => rfl
  | bool b => cases b <;> rfl
  | num n => exact leadOf_number n x
  | str s => simp [chars, quote_toList, leadOf, lead]
  | arr items => cases items <;> rfl
  | obj fields => cases fields <;> rfl

theorem lead_eq {a b : Json} {x y : List Char} (h : chars a ++ x = chars b ++ y) :
    lead a = lead b := by
  rw [← leadOf_chars a x, h, leadOf_chars]

theorem chars_append_ne_end (v : Json) (x y : List Char) : chars v ++ x ≠ ']' :: y := by
  intro h
  apply lead_ne_end v
  rw [← leadOf_chars v x, h]
  rfl

theorem ended_cons {c : Char} (r : List Char) (h : c.isDigit = false ∧ c ≠ '.' ∧ c ≠ 'e') :
    Ended (c :: r) := by
  intro d hd
  cases hd
  exact h

theorem ended_moreItems (vs : List Json) (x : List Char) : Ended (moreItems vs ++ x) := by
  cases vs with
  | nil => exact ended_cons x (by decide)
  | cons v vs => exact ended_cons _ (by decide)

theorem ended_moreFields (fs : List (String × Json)) (x : List Char) :
    Ended (moreFields fs ++ x) := by
  cases fs with
  | nil => exact ended_cons x (by decide)
  | cons f fs => exact ended_cons _ (by decide)

mutual

/-- A value is known from its text, whatever follows it. -/
theorem eq_of_chars_append : ∀ (a b : Json) {x y : List Char}, Ended x → Ended y →
    chars a ++ x = chars b ++ y → a = b ∧ x = y
  | .null, b, x, y, _, _, h => by
    have hlead := lead_eq h
    cases b <;> simp [lead] at hlead
    simpa [chars] using h
  | .bool c, b, x, y, _, _, h => by
    have hlead := lead_eq h
    cases b <;> simp [lead] at hlead
    rename_i d
    cases c <;> cases d <;> simp_all [chars]
  | .num m, b, x, y, hx, hy, h => by
    have hlead := lead_eq h
    cases b <;> simp [lead] at hlead
    obtain ⟨rfl, hxy⟩ := Number.eq_of_toText_append hx hy h
    exact ⟨rfl, hxy⟩
  | .str s, b, x, y, _, _, h => by
    have hlead := lead_eq h
    cases b <;> simp [lead] at hlead
    obtain ⟨rfl, hxy⟩ := eq_of_quote_append h
    exact ⟨rfl, hxy⟩
  | .arr [], b, x, y, _, _, h => by
    have hlead := lead_eq h
    cases b <;> simp [lead] at hlead
    rename_i items
    cases items with
    | nil => simpa [chars] using h
    | cons w ws =>
      simp only [chars, List.cons_append, List.nil_append, List.cons.injEq, true_and,
        List.append_assoc] at h
      exact absurd h.symm (chars_append_ne_end w _ _)
  | .arr (v :: vs), b, x, y, _, _, h => by
    have hlead := lead_eq h
    cases b <;> simp [lead] at hlead
    rename_i items
    cases items with
    | nil =>
      simp only [chars, List.cons_append, List.nil_append, List.cons.injEq, true_and,
        List.append_assoc] at h
      exact absurd h (chars_append_ne_end v _ _)
    | cons w ws =>
      simp only [chars, List.cons_append, List.cons.injEq, true_and, List.append_assoc] at h
      obtain ⟨rfl, hmore⟩ := eq_of_chars_append v w (ended_moreItems vs x) (ended_moreItems ws y) h
      obtain ⟨rfl, hxy⟩ := eq_of_moreItems_append vs ws hmore
      exact ⟨rfl, hxy⟩
  | .obj [], b, x, y, _, _, h => by
    have hlead := lead_eq h
    cases b <;> simp [lead] at hlead
    rename_i fields
    cases fields with
    | nil => simpa [chars] using h
    | cons f fs => simp [chars, quote_toList] at h
  | .obj ((k, v) :: fs), b, x, y, _, _, h => by
    have hlead := lead_eq h
    cases b <;> simp [lead] at hlead
    rename_i fields
    cases fields with
    | nil => simp [chars, quote_toList] at h
    | cons g gs =>
      obtain ⟨l, w⟩ := g
      simp only [chars, List.cons_append, List.cons.injEq, true_and, List.append_assoc] at h
      obtain ⟨rfl, hvalue⟩ := eq_of_quote_append h
      simp only [List.cons.injEq, true_and] at hvalue
      obtain ⟨rfl, hmore⟩ := eq_of_chars_append v w (ended_moreFields fs x) (ended_moreFields gs y) hvalue
      obtain ⟨rfl, hxy⟩ := eq_of_moreFields_append fs gs hmore
      exact ⟨rfl, hxy⟩

theorem eq_of_moreItems_append : ∀ (as bs : List Json) {x y : List Char},
    moreItems as ++ x = moreItems bs ++ y → as = bs ∧ x = y
  | [], [], _, _, h => by simpa [moreItems] using h
  | [], _ :: _, _, _, h => by simp [moreItems] at h
  | _ :: _, [], _, _, h => by simp [moreItems] at h
  | a :: as, b :: bs, x, y, h => by
    simp only [moreItems, List.cons_append, List.cons.injEq, true_and, List.append_assoc] at h
    obtain ⟨rfl, hmore⟩ := eq_of_chars_append a b (ended_moreItems as x) (ended_moreItems bs y) h
    obtain ⟨rfl, hxy⟩ := eq_of_moreItems_append as bs hmore
    exact ⟨rfl, hxy⟩

theorem eq_of_moreFields_append : ∀ (as bs : List (String × Json)) {x y : List Char},
    moreFields as ++ x = moreFields bs ++ y → as = bs ∧ x = y
  | [], [], _, _, h => by simpa [moreFields] using h
  | [], _ :: _, _, _, h => by simp [moreFields] at h
  | _ :: _, [], _, _, h => by simp [moreFields] at h
  | (k, a) :: as, (l, b) :: bs, x, y, h => by
    simp only [moreFields, List.cons_append, List.cons.injEq, true_and, List.append_assoc] at h
    obtain ⟨rfl, hvalue⟩ := eq_of_quote_append h
    simp only [List.cons.injEq, true_and] at hvalue
    obtain ⟨rfl, hmore⟩ := eq_of_chars_append a b (ended_moreFields as x) (ended_moreFields bs y) hvalue
    obtain ⟨rfl, hxy⟩ := eq_of_moreFields_append as bs hmore
    exact ⟨rfl, hxy⟩

end

/-- Values with one text are one value, with the fields of its objects in one order. -/
theorem stringify_injective : Function.Injective stringify := by
  intro a b h
  have hchars : chars a ++ [] = chars b ++ [] := by
    rw [List.append_nil, List.append_nil, ← stringify_toList, ← stringify_toList, h]
  exact (eq_of_chars_append a b ended_nil ended_nil hchars).1

end Json

end Js
