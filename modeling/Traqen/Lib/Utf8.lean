-- UTF-8 text as bytes, and the boundaries of its characters. A position in the bytes is a
-- boundary exactly when no continuation byte stands there; `starting` rounds a position up
-- to a boundary, `fitting` rounds it down.
import Mathlib

namespace Utf8

/-! ## Lists of sized items -/

variable {n : Nat}

section Sized

variable {α β : Type*} (size : α → Nat)

def total (xs : List α) : Nat := (xs.map size).sum

/-- The items that begin before the offset `n`. -/
def starting : Nat → List α → List α
  | _, [] => []
  | 0, _ :: _ => []
  | n + 1, a :: as => a :: starting (n + 1 - size a) as

/-- The longest prefix of total size at most `n`. -/
def fitting : Nat → List α → List α
  | _, [] => []
  | n, a :: as => if size a ≤ n then a :: fitting (n - size a) as else []

variable {size}

@[simp] theorem total_nil : total size [] = 0 := rfl

@[simp] theorem total_cons (a : α) (as : List α) : total size (a :: as) = size a + total size as := by
  simp [total]

@[simp] theorem total_append (xs ys : List α) :
    total size (xs ++ ys) = total size xs + total size ys := by
  simp [total]

attribute [local simp] starting fitting

@[simp] theorem starting_zero (xs : List α) : starting size 0 xs = [] := by
  cases xs <;> rfl

theorem total_map (f : β → α) (xs : List β) : total size (xs.map f) = total (size ∘ f) xs := by
  simp [total]

theorem starting_append_drop (n : Nat) (xs : List α) :
    starting size n xs ++ xs.drop (starting size n xs).length = xs := by
  induction xs generalizing n with
  | nil => rfl
  | cons a as ih =>
    cases n with
    | zero => rfl
    | succ n => simp [starting, ih]

variable {xs : List α}

theorem le_total_starting (h : n ≤ total size xs) :
    n ≤ total size (starting size n xs) := by
  induction xs generalizing n with
  | nil => simpa [starting] using h
  | cons a as ih =>
    cases n with
    | zero => simp
    | succ n =>
      rw [total_cons] at h
      have := ih (n := n + 1 - size a) (by omega)
      rw [starting, total_cons]
      omega

theorem fitting_append_drop (n : Nat) (xs : List α) :
    fitting size n xs ++ xs.drop (fitting size n xs).length = xs := by
  induction xs generalizing n with
  | nil => rfl
  | cons a as ih =>
    unfold fitting
    split
    · simp [ih]
    · rfl

theorem fitting_prefix (n : Nat) (xs : List α) : fitting size n xs <+: xs :=
  ⟨_, fitting_append_drop n xs⟩

theorem total_fitting_le (n : Nat) (xs : List α) : total size (fitting size n xs) ≤ n := by
  induction xs generalizing n with
  | nil => simp [fitting]
  | cons a as ih =>
    unfold fitting
    split
    · have := ih (n - size a)
      rw [total_cons]
      omega
    · simp

theorem fitting_eq_self (h : total size xs ≤ n) :
    fitting size n xs = xs := by
  induction xs generalizing n with
  | nil => rfl
  | cons a as ih =>
    rw [total_cons] at h
    rw [fitting, if_pos (by omega), ih (by omega)]

theorem fitting_append (h : total size xs ≤ n) (ys : List α) :
    fitting size n (xs ++ ys) = xs ++ fitting size (n - total size xs) ys := by
  induction xs generalizing n with
  | nil => simp
  | cons a as ih =>
    rw [total_cons] at h
    rw [List.cons_append, fitting, if_pos (by omega), ih (by omega), total_cons, Nat.sub_sub]
    rfl

/-- What does not reach past a prefix stays in it. -/
theorem fitting_append_of_le (h : n < total size xs) (ys : List α) :
    fitting size n (xs ++ ys) = fitting size n xs := by
  induction xs generalizing n with
  | nil => simp at h
  | cons a as ih =>
    rw [total_cons] at h
    simp only [List.cons_append, fitting]
    split
    · rw [ih (by omega)]
    · rfl

theorem fitting_map (f : β → α) (n : Nat) (xs : List β) :
    (fitting (size ∘ f) n xs).map f = fitting size n (xs.map f) := by
  induction xs generalizing n with
  | nil => rfl
  | cons b bs ih =>
    simp only [fitting, List.map_cons, Function.comp_apply]
    split
    · rw [List.map_cons, ih]
    · rfl

section Positive

variable (hpos : ∀ a, 0 < size a)

include hpos in
theorem fitting_zero (xs : List α) : fitting size 0 xs = [] := by
  cases xs with
  | nil => rfl
  | cons a as =>
    have := hpos a
    rw [fitting, if_neg (by omega)]

include hpos in
theorem fitting_take (h : n ≤ total size xs) (ys : List α) :
    fitting size n (xs ++ ys) = fitting size n xs := by
  rcases Nat.lt_or_eq_of_le h with hlt | rfl
  · exact fitting_append_of_le hlt ys
  · rw [fitting_append (Nat.le_refl _), Nat.sub_self, fitting_zero hpos, List.append_nil,
      fitting_eq_self (Nat.le_refl _)]

include hpos in
theorem starting_append (h : total size xs ≤ n) (ys : List α) :
    starting size n (xs ++ ys) = xs ++ starting size (n - total size xs) ys := by
  induction xs generalizing n with
  | nil => simp
  | cons a as ih =>
    have ha := hpos a
    rw [total_cons] at h
    obtain ⟨n, rfl⟩ : ∃ k, n = k + 1 := ⟨n - 1, by omega⟩
    rw [List.cons_append, starting, ih (by omega), total_cons, List.cons_append, Nat.sub_sub]

/-- An offset inside an item begins no further item. -/
theorem starting_succ (h : total size (starting size n xs) ≠ n) :
    starting size (n + 1) xs = starting size n xs := by
  induction xs generalizing n with
  | nil => rfl
  | cons a as ih =>
    cases n with
    | zero => simp at h
    | succ n =>
      rw [starting, total_cons] at h
      simp only [starting]
      by_cases ha : size a ≤ n + 1
      · rw [← ih (n := n + 1 - size a) (by omega), show n + 1 + 1 - size a = n + 1 - size a + 1 by omega]
      · rw [show n + 1 + 1 - size a = 0 by omega, show n + 1 - size a = 0 by omega]

include hpos in
theorem fitting_succ (h : total size (starting size (n + 1) xs) ≠ n + 1) :
    fitting size (n + 1) xs = fitting size n xs := by
  induction xs generalizing n with
  | nil => rfl
  | cons a as ih =>
    rw [starting, total_cons] at h
    simp only [fitting]
    have hne : size a ≠ n + 1 := by
      intro ha
      rw [ha] at h
      simp at h
    by_cases ha : size a ≤ n
    · have := hpos a
      rw [if_pos (by omega), if_pos ha]
      have hs : n + 1 - size a = n - size a + 1 := by omega
      rw [hs] at h ⊢
      rw [ih (by omega)]
    · rw [if_neg (by omega), if_neg ha]

include hpos in
theorem fitting_of_boundary (h : total size (starting size n xs) = n) :
    fitting size n xs = starting size n xs := by
  induction xs generalizing n with
  | nil => rfl
  | cons a as ih =>
    cases n with
    | zero => rw [fitting_zero hpos, starting_zero]
    | succ n =>
      rw [starting, total_cons] at h
      rw [fitting, starting, if_pos (by omega), ih (by omega)]

end Positive

end Sized

/-! ## The bytes of a text -/

/-- `Buffer.from(text, "utf8")`. -/
def encode (text : List Char) : List UInt8 := text.flatMap String.utf8EncodeChar

/-- `Buffer.byteLength(text)`. -/
def byteLength (text : List Char) : Nat := total Char.utf8Size text

def isContinuation (b : UInt8) : Bool := b &&& 0xc0 == 0x80

/-- One character, or the replacement character for a byte that begins none. -/
def decodeFrom : Nat → List UInt8 → List Char
  | 0, _ => []
  | _ + 1, [] => []
  | n + 1, b :: bs =>
    match (b :: bs).toByteArray.utf8DecodeChar? 0 with
    | some c => c :: decodeFrom n ((b :: bs).drop c.utf8Size)
    | none => Char.ofNat 0xFFFD :: decodeFrom n bs

/-- `buffer.toString("utf8")`. -/
def decode (bytes : List UInt8) : List Char := decodeFrom bytes.length bytes

theorem encode_cons (c : Char) (cs : List Char) :
    encode (c :: cs) = String.utf8EncodeChar c ++ encode cs := rfl

theorem encode_append (xs ys : List Char) : encode (xs ++ ys) = encode xs ++ encode ys :=
  List.flatMap_append

@[simp] theorem length_encode (text : List Char) : (encode text).length = byteLength text := by
  induction text with
  | nil => rfl
  | cons c cs ih => simp [encode_cons, byteLength, ih]

/-- The first byte of a character is no continuation byte, and the others are. -/
theorem utf8EncodeChar_bytes (c : Char) : ∃ b bs, String.utf8EncodeChar c = b :: bs ∧
    isContinuation b = false ∧ ∀ x ∈ bs, isContinuation x = true := by
  have tail : ∀ n, isContinuation (UInt8.ofNat (n % 64 + 128)) = true := by
    intro n
    have hall : ∀ m : Fin 64, isContinuation (UInt8.ofNat (m.val + 128)) = true := by decide
    exact hall ⟨n % 64, Nat.mod_lt _ (by decide)⟩
  have head : ∀ k m, m < k → k ∈ [32, 16, 8] →
      isContinuation (UInt8.ofNat (m + (256 - 2 * k))) = false := by
    intro k m hm hk
    have hall : ∀ k ∈ [32, 16, 8], ∀ m < k,
        isContinuation (UInt8.ofNat (m + (256 - 2 * k))) = false := by decide
    exact hall k hk m hm
  unfold String.utf8EncodeChar
  simp only
  split
  · have hall : ∀ m : Fin 128, isContinuation (UInt8.ofNat m.val) = false := by decide
    exact ⟨_, _, rfl, hall ⟨c.val.toNat, by omega⟩, by simp⟩
  · split
    · refine ⟨_, _, rfl, head 32 _ (Nat.mod_lt _ (by decide)) (by decide), ?_⟩
      simp only [List.mem_cons, List.not_mem_nil, or_false, forall_eq, tail]
    · split
      · refine ⟨_, _, rfl, head 16 _ (Nat.mod_lt _ (by decide)) (by decide), ?_⟩
        simp only [List.mem_cons, List.not_mem_nil, or_false, forall_eq, forall_eq_or_imp, tail, and_self]
      · refine ⟨_, _, rfl, head 8 _ (Nat.mod_lt _ (by decide)) (by decide), ?_⟩
        simp only [List.mem_cons, List.not_mem_nil, or_false, forall_eq, forall_eq_or_imp, tail, and_self]

theorem decode_encode (text : List Char) : decode (encode text) = text := by
  have hfuel : ∀ (text : List Char) n, text.length ≤ n → decodeFrom n (encode text) = text := by
    intro text
    induction text with
    | nil => intro n _; cases n <;> rfl
    | cons c cs ih =>
      intro n hn
      obtain ⟨n, rfl⟩ : ∃ k, n = k + 1 := ⟨n - 1, by simp at hn; omega⟩
      obtain ⟨b, bs, hc, -, -⟩ := utf8EncodeChar_bytes c
      have hbytes : encode (c :: cs) = b :: (bs ++ encode cs) := by
        rw [encode_cons, hc, List.cons_append]
      have hfirst : (b :: (bs ++ encode cs)).toByteArray.utf8DecodeChar? 0 = some c := by
        rw [← List.cons_append, ← hc, List.toByteArray_append]
        exact ByteArray.utf8DecodeChar?_utf8EncodeChar_append
      rw [hbytes, decodeFrom, hfirst]
      simp only
      rw [← List.cons_append, ← hc, List.drop_left' (String.length_utf8EncodeChar c),
        ih n (by simpa using hn)]
  refine hfuel text _ ?_
  rw [length_encode, byteLength]
  induction text with
  | nil => simp
  | cons c cs ih =>
    have := c.utf8Size_pos
    rw [total_cons, List.length_cons]
    omega

/-- No continuation byte stands at a boundary, and nowhere else is there none. -/
theorem isContinuation_encode {text : List Char} (h : n < byteLength text) :
    isContinuation ((encode text).getD n 0) = false ↔
      total Char.utf8Size (starting Char.utf8Size n text) = n := by
  induction text generalizing n with
  | nil => simp [byteLength] at h
  | cons c cs ih =>
    obtain ⟨b, bs, hc, hb, hbs⟩ := utf8EncodeChar_bytes c
    have hlen := String.length_utf8EncodeChar c
    rw [encode_cons]
    cases n with
    | zero => simp [hc, hb]
    | succ n =>
      rw [starting, total_cons]
      by_cases hin : n + 1 < c.utf8Size
      · have hmem : (String.utf8EncodeChar c ++ encode cs).getD (n + 1) 0 ∈ bs := by
          rw [List.getD_append _ _ _ _ (by omega), hc, List.getD_cons_succ]
          rw [hc, List.length_cons] at hlen
          rw [List.getD_eq_getElem _ _ (by omega)]
          exact List.getElem_mem _
        rw [hbs _ hmem]
        simp
        omega
      · rw [byteLength, total_cons] at h
        rw [List.getD_append_right _ _ _ _ (by omega), hlen,
          ih (by rw [byteLength]; omega)]
        omega

end Utf8
