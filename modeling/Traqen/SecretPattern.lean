-- What the secret pattern matches: a key, a separator, blanks or a quote, and a value that
-- is taken as far as it goes. A text cut short of the value shows no secret, and no secret
-- begins in the middle of the key of another.
import Traqen.SourceSliceBroker
import Mathlib.Data.List.Infix

open Js

namespace Traqen.SourceSliceBroker

open Regex (rests rests_alt rests_seq rests_opt rests_one_cons skipOne mem_rests_many scan)

/-! ## The parts of a secret -/

def keys : List (List Char) :=
  ["api_key".toList, "api-key".toList, "apikey".toList, "token".toList, "password".toList,
    "secret".toList]

def IsKey (key : List Char) : Prop := key.map Char.toLower ∈ keys

/-- The key, and all up to the separator. -/
structure IsFront (front key gap : List Char) (sep : Char) : Prop where
  eq : front = key ++ gap ++ [sep]
  key : IsKey key
  gap : ∀ c ∈ gap, isSpace c = true
  sep : isSeparator sep = true

/-- The blanks and the quote between the separator and the value. -/
structure IsLead (lead : List Char) : Prop where
  eq : ∃ spaces quote, lead = spaces ++ quote ∧ (∀ c ∈ spaces, isSpace c = true) ∧
    (quote = [] ∨ ∃ c, quote = [c] ∧ isQuote c = true)

structure IsSecret (front lead value : List Char) : Prop where
  front : ∃ key gap sep, IsFront front key gap sep
  lead : IsLead lead
  chars : ∀ c ∈ value, isValueChar c = true
  filled : value ≠ []

/-! ## Classes of characters -/

variable {c sep : Char}

theorem not_value_of_space (h : isSpace c = true) : isValueChar c = false := by
  simp [isValueChar, h]

theorem not_value_of_quote (h : isQuote c = true) : isValueChar c = false := by
  simp [isValueChar, h]

theorem not_space_of_separator (h : isSeparator c = true) : isSpace c = false := by
  rcases (by simpa [isSeparator] using h : c = ':' ∨ c = '=') with rfl | rfl <;> decide

theorem not_quote_of_space (h : isSpace c = true) : isQuote c = false := by
  cases hq : isQuote c with
  | false => rfl
  | true =>
    rcases (by simpa [isQuote] using hq : c = '\x22' ∨ c = '\x27') with rfl | rfl
    · exact absurd h (by decide)
    · exact absurd h (by decide)

theorem not_separator_of_space (h : isSpace c = true) : isSeparator c = false := by
  cases hs : isSeparator c with
  | false => rfl
  | true => rw [not_space_of_separator hs] at h; cases h

/-- The letters and joiners that keys are made of. -/
def isWordChar (c : Char) : Bool := c.toLower ∈ "abcdefghijklmnopqrstuvwxyz_-".toList

/-- `toLower` moves the capital letters alone. -/
theorem toLower_cases (c : Char) : c.toLower = c ∨ c ∈ "ABCDEFGHIJKLMNOPQRSTUVWXYZ".toList := by
  unfold Char.toLower
  split
  · rename_i h
    right
    have hlo : 65 ≤ c.toNat := UInt32.le_iff_toNat_le.mp h.1
    have hhi : c.toNat ≤ 90 := UInt32.le_iff_toNat_le.mp h.2
    have hall : ∀ n < 91, 65 ≤ n → Char.ofNat n ∈ "ABCDEFGHIJKLMNOPQRSTUVWXYZ".toList := by decide
    simpa using hall c.toNat (by omega) hlo
  · exact Or.inl rfl

theorem eq_of_toLower_joiner {d : Char} (hd : isJoiner d = true) (h : c.toLower = d) : c = d := by
  rcases toLower_cases c with heq | hcap
  · rw [← heq]
    exact h
  · have hall : ("ABCDEFGHIJKLMNOPQRSTUVWXYZ".toList.all fun e => !isJoiner e.toLower) = true := by
      decide
    have hnot := List.all_eq_true.mp hall c hcap
    simp [h, hd] at hnot

theorem isWordChar_cases (h : isWordChar c = true) :
    c ∈ "ABCDEFGHIJKLMNOPQRSTUVWXYZabcdefghijklmnopqrstuvwxyz_-".toList := by
  have hmem : c.toLower ∈ "abcdefghijklmnopqrstuvwxyz_-".toList := by simpa [isWordChar] using h
  rcases toLower_cases c with heq | hcap
  · rw [heq] at hmem
    have hall : ("abcdefghijklmnopqrstuvwxyz_-".toList.all fun d => decide
        (d ∈ "ABCDEFGHIJKLMNOPQRSTUVWXYZabcdefghijklmnopqrstuvwxyz_-".toList)) = true := by decide
    exact of_decide_eq_true (List.all_eq_true.mp hall c hmem)
  · have hall : ("ABCDEFGHIJKLMNOPQRSTUVWXYZ".toList.all fun d => decide
        (d ∈ "ABCDEFGHIJKLMNOPQRSTUVWXYZabcdefghijklmnopqrstuvwxyz_-".toList)) = true := by decide
    exact of_decide_eq_true (List.all_eq_true.mp hall c hcap)

theorem wordChar_spec (h : isWordChar c = true) :
    isSpace c = false ∧ isSeparator c = false ∧ c.utf8Size = 1 := by
  have hall : ("ABCDEFGHIJKLMNOPQRSTUVWXYZabcdefghijklmnopqrstuvwxyz_-".toList.all fun d =>
      decide (isSpace d = false ∧ isSeparator d = false ∧ d.utf8Size = 1)) = true := by decide
  exact of_decide_eq_true (List.all_eq_true.mp hall c (isWordChar_cases h))

variable {front gap key lead m rest value xs : List Char}

theorem wordChar_of_key (h : IsKey key) : ∀ c ∈ key, isWordChar c = true := by
  intro c hc
  have hall : (keys.all fun k => k.all fun d =>
      decide (d ∈ "abcdefghijklmnopqrstuvwxyz_-".toList)) = true := by decide
  have hk := List.all_eq_true.mp hall _ h
  have hmem := of_decide_eq_true (List.all_eq_true.mp hk c.toLower (List.mem_map_of_mem hc))
  simpa [isWordChar] using hmem

theorem key_ne_nil (h : IsKey key) : key ≠ [] := by
  rintro rfl
  exact absurd h (by unfold IsKey; decide)

/-- No key is the start of another. -/
theorem key_unique {key' xs' : List Char} (h : IsKey key) (h' : IsKey key')
    (heq : key ++ xs = key' ++ xs') : key = key' ∧ xs = xs' := by
  have hfree : ∀ k ∈ keys, ∀ k' ∈ keys, k <+: k' → k = k' := by decide
  have hlen : key.length = key'.length := by
    rcases List.prefix_or_prefix_of_prefix ⟨xs, rfl⟩ ⟨xs', heq.symm⟩ with hp | hp
    · have := hfree _ h _ h' (hp.map Char.toLower)
      simpa using congrArg List.length this
    · have := hfree _ h' _ h (hp.map Char.toLower)
      simpa using (congrArg List.length this).symm
  exact List.append_inj heq hlen

/-- No proper end of a key is a key. -/
theorem no_key_in_key {a k : List Char} (ha : a ≠ []) (h : IsKey (a ++ k)) : ¬ IsKey k := by
  intro hk
  have hall : ∀ w ∈ keys, ∀ s ∈ w.tail.tails, s ∉ keys := by decide
  refine hall _ h (k.map Char.toLower) ?_ hk
  obtain ⟨c, a, rfl⟩ := List.exists_cons_of_ne_nil ha
  rw [List.mem_tails]
  simp

/-! ## The pattern takes exactly the secrets -/

theorem mem_rests_literal {word : String} : rest ∈ rests (literal word) xs ↔
      ∃ ys : List Char, ys.map Char.toLower = word.toList ∧ xs = ys ++ rest := by
  have hiff : ∀ (w ys : List Char), List.Forall₂ (fun accepts y => accepts y = true)
      (w.map letter) ys ↔ ys.map Char.toLower = w := by
    intro w
    induction w with
    | nil => intro ys; cases ys <;> simp
    | cons c w ih =>
      intro ys
      cases ys with
      | nil => simp
      | cons y ys => simp [ih, letter]
  rw [literal, Regex.mem_rests_word]
  simp only [hiff]

/-- Every way through the key pattern takes a key. -/
theorem mem_rests_secretKey : rest ∈ rests secretKey xs ↔ ∃ key, IsKey key ∧ xs = key ++ rest := by
  have happly : ∀ word : String, word.toList ∈ keys → ∀ ys : List Char,
      ys.map Char.toLower = word.toList → IsKey ys := by
    intro word hword ys hys
    unfold IsKey
    rw [hys]
    exact hword
  constructor
  · intro h
    simp only [secretKey, rests_alt, List.mem_append, mem_rests_literal, rests_seq,
      List.mem_flatMap, rests_opt, List.mem_singleton] at h
    rcases h with ⟨m, ⟨ys, hys, rfl⟩, m', hm', zs, hzs, rfl⟩ | h | h | h
    · rcases hm' with hm' | rfl
      · cases m with
        | nil => simp at hm'
        | cons c m =>
          rw [rests_one_cons] at hm'
          split at hm'
          · rename_i hc
            rw [← List.mem_singleton.mp hm']
            refine ⟨ys ++ c :: zs, ?_, by simp⟩
            rcases (by simpa [isJoiner] using hc : c = '_' ∨ c = '-') with rfl | rfl
            · exact happly "api_key" (by decide) _ (by rw [List.map_append, List.map_cons, hys, hzs]; decide)
            · exact happly "api-key" (by decide) _ (by rw [List.map_append, List.map_cons, hys, hzs]; decide)
          · simp at hm'
      · exact ⟨ys ++ zs, happly "apikey" (by decide) _ (by rw [List.map_append, hys, hzs]; decide),
          by simp⟩
    · obtain ⟨ys, hys, rfl⟩ := h
      exact ⟨ys, happly "token" (by decide) _ hys, rfl⟩
    · obtain ⟨ys, hys, rfl⟩ := h
      exact ⟨ys, happly "password" (by decide) _ hys, rfl⟩
    · obtain ⟨ys, hys, rfl⟩ := h
      exact ⟨ys, happly "secret" (by decide) _ hys, rfl⟩
  · rintro ⟨key, hkey, rfl⟩
    simp only [secretKey, rests_alt, List.mem_append, mem_rests_literal, rests_seq,
      List.mem_flatMap, rests_opt, List.mem_singleton]
    -- the lower-case key is one of the six, so its letters are known one by one
    have hsplit : ∀ (n : Nat) (w : List Char), key.map Char.toLower = w →
        (key.take n).map Char.toLower = w.take n ∧ (key.drop n).map Char.toLower = w.drop n := by
      rintro n w rfl
      simp
    simp only [IsKey, keys, List.mem_cons, List.not_mem_nil, or_false] at hkey
    rcases hkey with h | h | h | h | h | h
    · left
      obtain ⟨h1, h2⟩ := hsplit 3 _ h
      refine ⟨key.drop 3 ++ rest, ⟨key.take 3, h1, by rw [← List.append_assoc, List.take_append_drop]⟩, ?_⟩
      cases hd : key.drop 3 with
      | nil => rw [hd] at h2; cases h2
      | cons c cs =>
        rw [hd] at h2
        have hc : c = '_' := eq_of_toLower_joiner (by decide) (List.cons.inj h2).1
        refine ⟨cs ++ rest, Or.inl ?_, cs, (List.cons.inj h2).2, rfl⟩
        simp [hc, isJoiner]
    · left
      obtain ⟨h1, h2⟩ := hsplit 3 _ h
      refine ⟨key.drop 3 ++ rest, ⟨key.take 3, h1, by rw [← List.append_assoc, List.take_append_drop]⟩, ?_⟩
      cases hd : key.drop 3 with
      | nil => rw [hd] at h2; cases h2
      | cons c cs =>
        rw [hd] at h2
        have hc : c = '-' := eq_of_toLower_joiner (by decide) (List.cons.inj h2).1
        refine ⟨cs ++ rest, Or.inl ?_, cs, (List.cons.inj h2).2, rfl⟩
        simp [hc, isJoiner]
    · left
      obtain ⟨h1, h2⟩ := hsplit 3 _ h
      exact ⟨key.drop 3 ++ rest, ⟨key.take 3, h1, by rw [← List.append_assoc, List.take_append_drop]⟩, key.drop 3 ++ rest, Or.inr rfl,
        key.drop 3, h2, rfl⟩
    · exact Or.inr (Or.inl ⟨key, h, rfl⟩)
    · exact Or.inr (Or.inr (Or.inl ⟨key, h, rfl⟩))
    · exact Or.inr (Or.inr (Or.inr ⟨key, h, rfl⟩))

theorem head_secretKey (h : IsKey key) (q : Regex.Pattern Char) (rest : List Char) :
    (rests (.seq secretKey q) (key ++ rest)).head? = (rests q rest).head? := by
  refine Regex.head_rests_seq (mem_rests_secretKey.mpr ⟨key, h, rfl⟩) ?_
  intro r hr
  obtain ⟨key', hkey', heq⟩ := mem_rests_secretKey.mp hr
  exact (key_unique h hkey' heq).2.symm

/-- A text with no value character at its head ends the value there. -/
def Ends (rest : List Char) : Prop := ∀ c ∈ rest.head?, isValueChar c = false

theorem dropWhile_all {p : Char → Bool} (h : ∀ c ∈ xs, p c = true)
    (hrest : ∀ c ∈ rest.head?, p c = false) : (xs ++ rest).dropWhile p = rest := by
  induction xs with
  | nil =>
    cases rest with
    | nil => rfl
    | cons c cs =>
      have hc := hrest c rfl
      rw [List.nil_append, List.dropWhile_cons_of_neg (by simp [hc])]
  | cons x xs ih =>
    rw [List.cons_append, List.dropWhile_cons_of_pos (h x (by simp)),
      ih fun c hc => h c (by simp [hc])]

/-- No value begins with a blank. -/
theorem rests_value_space {cs : List Char} (h : isSpace c = true) :
    rests secretValue (c :: cs) = [] := by
  simp [secretValue, not_quote_of_space h, not_value_of_space h]

theorem rests_value_quote {cs : List Char} (h : isQuote c = true) :
    rests (.seq (.one isValueChar) (.many isValueChar)) (c :: cs) = [] := by
  simp [not_value_of_quote h]

theorem head_secretValue (hl : IsLead lead)
    (hv : ∀ c ∈ value, isValueChar c = true) (hne : value ≠ []) (he : Ends rest) :
    (rests (.seq (.many isSpace) secretValue) (lead ++ value ++ rest)).head? = some rest := by
  obtain ⟨spaces, quote, rfl, hspaces, hquote⟩ := hl.eq
  obtain ⟨v, vs, rfl⟩ := List.exists_cons_of_ne_nil hne
  have hvc := hv v (by simp)
  have hvs : isSpace v = false := by
    cases hs : isSpace v with
    | false => rfl
    | true => rw [not_value_of_space hs] at hvc; cases hvc
  have hvq : isQuote v = false := by
    cases hq : isQuote v with
    | false => rfl
    | true => rw [not_value_of_quote hq] at hvc; cases hvc
  have hhead : ∀ c ∈ (quote ++ v :: (vs ++ rest)).head?, isSpace c = false := by
    intro c hc
    rcases hquote with rfl | ⟨q, rfl, hq⟩
    · rw [← Option.some.inj (Option.mem_def.mp hc)]
      exact hvs
    · rw [← Option.some.inj (Option.mem_def.mp hc)]
      cases hs : isSpace q with
      | false => rfl
      | true => rw [not_quote_of_space hs] at hq; cases hq
  rw [Regex.rests_many_seq (fun c cs h => rests_value_space h)]
  have hassoc : spaces ++ quote ++ v :: vs ++ rest = spaces ++ (quote ++ v :: (vs ++ rest)) := by
    simp
  rw [hassoc, dropWhile_all hspaces hhead, secretValue,
    Regex.rests_opt_one_seq (fun c cs h => rests_value_quote h)]
  have hdrop : skipOne isQuote (quote ++ v :: (vs ++ rest)) = v :: (vs ++ rest) := by
    rcases hquote with rfl | ⟨q, rfl, hq⟩
    · simp [skipOne, hvq]
    · simp [skipOne, hq]
  rw [hdrop, rests_seq, rests_one_cons, if_pos hvc, List.flatMap_singleton]
  show (Regex.manyRests isValueChar (vs ++ rest)).head? = _
  rw [Regex.head_manyRests, dropWhile_all (fun c hc => hv c (by simp [hc])) he]

/-- A secret is taken whole. -/
theorem secretLength_of_secret (h : IsSecret front lead value)
    (he : Ends rest) : secretLength (front ++ lead ++ value ++ rest) =
      some (front ++ lead ++ value).length := by
  obtain ⟨key, gap, sep, hfront⟩ := h.front
  have hhead : (rests secretPattern (front ++ lead ++ value ++ rest)).head? = some rest := by
    have hassoc : front ++ lead ++ value ++ rest =
        key ++ (gap ++ (sep :: (lead ++ value ++ rest))) := by
      simp [hfront.eq]
    rw [hassoc, secretPattern, head_secretKey hfront.key, Regex.rests_many_seq]
    · rw [dropWhile_all hfront.gap (by
        intro c hc
        rw [← Option.some.inj (Option.mem_def.mp hc)]
        exact not_space_of_separator hfront.sep)]
      rw [rests_seq, rests_one_cons, if_pos hfront.sep, List.flatMap_singleton]
      exact head_secretValue h.lead h.chars h.filled he
    · intro c cs hc
      rw [rests_seq, rests_one_cons, if_neg (by simp [not_separator_of_space hc])]
      rfl
  rw [secretLength, Regex.matchLength, hhead, Option.map_some, List.length_append,
    Nat.add_sub_cancel]

theorem secret_extends (h : IsSecret front lead value)
    (more : List Char) (hm : ∀ c ∈ more, isValueChar c = true) : IsSecret front lead (value ++ more) where
  front := h.front
  lead := h.lead
  chars := by
    intro c hc
    rcases List.mem_append.mp hc with hc | hc
    · exact h.chars c hc
    · exact hm c hc
  filled := by simp [h.filled]

/-- Wherever the pattern matches there is a secret, and nothing else is taken. -/
theorem secret_of_secretLength {n : Nat} (h : secretLength xs = some n) :
    ∃ front lead value rest, xs = front ++ lead ++ value ++ rest ∧ IsSecret front lead value ∧
      Ends rest ∧ n = (front ++ lead ++ value).length := by
  have hmem : ∃ r, r ∈ rests secretPattern xs := by
    unfold secretLength Regex.matchLength at h
    cases hr : rests secretPattern xs with
    | nil => simp [hr] at h
    | cons r rs => exact ⟨r, by simp⟩
  obtain ⟨r, hr⟩ := hmem
  -- some way through the pattern, not yet the greedy one
  simp only [secretPattern, secretValue, rests_seq, List.mem_flatMap] at hr
  obtain ⟨a, ha, b, hb, c, hc, d, hd, e, he, f, hf, hr⟩ := hr
  obtain ⟨key, hkey, rfl⟩ := mem_rests_secretKey.mp ha
  obtain ⟨gap, hgap, rfl⟩ := mem_rests_many hb
  obtain ⟨spaces, hspaces, rfl⟩ := mem_rests_many hd
  obtain ⟨vs, hvs, rfl⟩ := mem_rests_many hr
  obtain ⟨sep, rfl, hsep⟩ : ∃ sep, b = sep :: (spaces ++ d) ∧ isSeparator sep = true := by
    cases b with
    | nil => simp at hc
    | cons s b =>
      rw [rests_one_cons] at hc
      split at hc
      · exact ⟨s, by rw [List.mem_singleton.mp hc], ‹_›⟩
      · simp at hc
  obtain ⟨v, rfl, hv⟩ : ∃ v, e = v :: (vs ++ r) ∧ isValueChar v = true := by
    cases e with
    | nil => simp at hf
    | cons v e =>
      rw [rests_one_cons] at hf
      split at hf
      · exact ⟨v, by rw [List.mem_singleton.mp hf], ‹_›⟩
      · simp at hf
  obtain ⟨quote, hquote, rfl⟩ : ∃ quote, (quote = [] ∨ ∃ q, quote = [q] ∧ isQuote q = true) ∧
      d = quote ++ v :: (vs ++ r) := by
    rw [rests_opt, List.mem_append] at he
    rcases he with he | he
    · cases d with
      | nil => simp at he
      | cons q d =>
        rw [rests_one_cons] at he
        split at he
        · exact ⟨[q], Or.inr ⟨q, rfl, ‹_›⟩, by rw [List.mem_singleton.mp he]; rfl⟩
        · simp at he
    · exact ⟨[], Or.inl rfl, (List.mem_singleton.mp he).symm⟩
  have hfront : IsFront (key ++ gap ++ [sep]) key gap sep := ⟨rfl, hkey, hgap, hsep⟩
  have hsecret : IsSecret (key ++ gap ++ [sep]) (spaces ++ quote) (v :: vs) := by
    refine ⟨⟨key, gap, sep, hfront⟩, ⟨spaces, quote, rfl, hspaces, hquote⟩, ?_, by simp⟩
    intro x hx
    rcases List.mem_cons.mp hx with rfl | hx
    · exact hv
    · exact hvs x hx
  -- the greedy one takes the value characters that still follow
  have hgreedy := secret_extends hsecret (r.takeWhile isValueChar) fun x hx =>
    List.mem_takeWhile_imp hx
  have hends : Ends (r.dropWhile isValueChar) := by
    intro x hx
    have := List.head?_dropWhile_not isValueChar r
    rw [Option.mem_def.mp hx] at this
    simpa using this
  have heq : key ++ (gap ++ sep :: (spaces ++ (quote ++ v :: (vs ++ r)))) =
      key ++ gap ++ [sep] ++ (spaces ++ quote) ++ (v :: vs ++ r.takeWhile isValueChar) ++
        r.dropWhile isValueChar := by
    simp
  refine ⟨_, _, _, _, heq, hgreedy, hends, ?_⟩
  rw [heq, secretLength_of_secret hgreedy hends] at h
  exact (Option.some.inj h).symm

/-! ## Secrets that are cut -/

theorem secretLength_pos (xs : List Char) : secretLength xs ≠ some 0 := by
  intro h
  obtain ⟨front, lead, value, rest, _, hs, _, hn⟩ := secret_of_secretLength h
  have := List.length_pos_of_ne_nil hs.filled
  simp only [List.length_append] at hn
  omega

theorem ends_with_rest {rest' : List Char} (h : Ends rest) (hp : rest' <+: rest) : Ends rest' := by
  intro c hc
  obtain ⟨more, rfl⟩ := hp
  refine h c ?_
  cases rest' with
  | nil => simp at hc
  | cons d ds => exact hc

/-- A secret that begins a text begins every longer one. -/
theorem secretLength_append (h : secretLength xs ≠ none) (more : List Char) :
    secretLength (xs ++ more) ≠ none := by
  obtain ⟨n, hn⟩ := Option.ne_none_iff_exists'.mp h
  obtain ⟨front, lead, value, rest, rfl, hs, _, _⟩ := secret_of_secretLength hn
  have hgreedy := secret_extends hs ((rest ++ more).takeWhile isValueChar) fun c hc =>
    List.mem_takeWhile_imp hc
  have hends : Ends ((rest ++ more).dropWhile isValueChar) := by
    intro c hc
    have := List.head?_dropWhile_not isValueChar (rest ++ more)
    rw [Option.mem_def.mp hc] at this
    simpa using this
  have heq : front ++ lead ++ value ++ rest ++ more =
      front ++ lead ++ (value ++ (rest ++ more).takeWhile isValueChar) ++
        (rest ++ more).dropWhile isValueChar := by
    simp
  rw [heq, secretLength_of_secret hgreedy hends]
  simp

/-- A secret that is found is one, with its end in sight. -/
theorem secret_of_found (h : secretLength (m ++ rest) = some m.length) :
    ∃ front lead value, m = front ++ lead ++ value ∧ IsSecret front lead value ∧ Ends rest := by
  obtain ⟨front, lead, value, rest', heq, hs, he, hn⟩ := secret_of_secretLength h
  obtain ⟨hm, rfl⟩ := List.append_inj heq hn
  exact ⟨front, lead, value, hm, hs, he⟩

/-- What follows a secret may be cut. -/
theorem secretLength_cut_after {rest' : List Char}
    (h : secretLength (m ++ rest) = some m.length) (hp : rest' <+: rest) :
    secretLength (m ++ rest') = some m.length := by
  obtain ⟨front, lead, value, rfl, hs, he⟩ := secret_of_found h
  exact secretLength_of_secret hs (ends_with_rest he hp)

/-- Where the part after the `:` or `=` begins. -/
def valueStart (m : List Char) : Nat := (m.takeWhile fun c => !isSeparator c).length + 1

/-- The blanks and the quote before the first character of the value. -/
def leadLength (m : List Char) : Nat :=
  ((m.drop (valueStart m)).takeWhile fun c => !isValueChar c).length

theorem takeWhile_all {p : Char → Bool} (h : ∀ c ∈ xs, p c = true)
    (hrest : ∀ c ∈ rest.head?, p c = false) : (xs ++ rest).takeWhile p = xs := by
  induction xs with
  | nil =>
    cases rest with
    | nil => rfl
    | cons c cs =>
      have hc := hrest c rfl
      rw [List.nil_append, List.takeWhile_cons_of_neg (by simp [hc])]
  | cons x xs ih =>
    rw [List.cons_append, List.takeWhile_cons_of_pos (h x (by simp)),
      ih fun c hc => h c (by simp [hc])]

theorem front_not_separator
    (h : IsFront front key gap sep) : ∀ c ∈ key ++ gap, isSeparator c = false := by
  intro c hc
  rcases List.mem_append.mp hc with hc | hc
  · exact (wordChar_spec (wordChar_of_key h.key c hc)).2.1
  · exact not_separator_of_space (h.gap c hc)

theorem lead_not_value (h : IsLead lead) : ∀ c ∈ lead, isValueChar c = false := by
  obtain ⟨spaces, quote, rfl, hspaces, hquote⟩ := h.eq
  intro c hc
  rcases List.mem_append.mp hc with hc | hc
  · exact not_value_of_space (hspaces c hc)
  · rcases hquote with rfl | ⟨q, rfl, hq⟩
    · simp at hc
    · rw [List.mem_singleton.mp hc]
      exact not_value_of_quote hq

theorem takeWhile_front (h : IsFront front key gap sep)
    (rest : List Char) : (front ++ rest).takeWhile (fun c => !isSeparator c) = key ++ gap := by
  rw [h.eq, List.append_assoc]
  refine takeWhile_all (fun c hc => by simp [front_not_separator h c hc]) ?_
  intro c hc
  rw [← Option.some.inj (Option.mem_def.mp hc)]
  simp [h.sep]

theorem valueStart_eq (h : IsFront front key gap sep)
    (rest : List Char) : valueStart (front ++ rest) = front.length := by
  rw [valueStart, takeWhile_front h, h.eq]
  simp
  omega

theorem leadLength_eq (h : IsSecret front lead value) :
    leadLength (front ++ lead ++ value) = lead.length := by
  obtain ⟨key, gap, sep, hfront⟩ := h.front
  rw [leadLength, List.append_assoc, valueStart_eq hfront, List.drop_left' rfl]
  rw [takeWhile_all (fun c hc => by simp [lead_not_value h.lead c hc])]
  intro c hc
  obtain ⟨v, vs, rfl⟩ := List.exists_cons_of_ne_nil h.filled
  rw [← Option.some.inj (Option.mem_def.mp hc)]
  simp [h.chars v (by simp)]

/-- A secret cut after its first value character is a shorter secret. -/
theorem secretLength_cut_value {n : Nat}
    (h : secretLength (m ++ rest) = some m.length) (hn : valueStart m + leadLength m < n)
    (hm : n ≤ m.length) : secretLength (m.take n) = some n := by
  obtain ⟨front, lead, value, rfl, hs, _⟩ := secret_of_found h
  obtain ⟨key, gap, sep, hfront⟩ := hs.front
  have hstart : valueStart (front ++ lead ++ value) = front.length := by
    rw [List.append_assoc, valueStart_eq hfront]
  rw [hstart, leadLength_eq hs] at hn
  simp only [List.length_append] at hm
  have htake : (front ++ lead ++ value).take n =
      front ++ lead ++ value.take (n - (front.length + lead.length)) := by
    rw [List.take_append, List.take_of_length_le (by simp; omega), List.length_append]
  have hcut : IsSecret front lead (value.take (n - (front.length + lead.length))) := by
    refine ⟨hs.front, hs.lead, fun c hc => hs.chars c (List.mem_of_mem_take hc), ?_⟩
    intro hnil
    have := congrArg List.length hnil
    simp only [List.length_take, List.length_nil] at this
    omega
  rw [htake]
  have hends : Ends [] := by
    intro c hc
    cases hc
  have := secretLength_of_secret hcut hends
  rw [List.append_nil] at this
  rw [this]
  simp only [List.length_append, List.length_take, Option.some.injEq]
  omega

/-- Every secret shows a value character after its separator. -/
theorem sublist_of_secretLength (h : secretLength xs ≠ none) :
    ∃ s v, isSeparator s = true ∧ isValueChar v = true ∧ [s, v].Sublist xs := by
  obtain ⟨n, hn⟩ := Option.ne_none_iff_exists'.mp h
  obtain ⟨front, lead, value, rest, rfl, hs, _, _⟩ := secret_of_secretLength hn
  obtain ⟨key, gap, sep, hfront⟩ := hs.front
  obtain ⟨v, vs, rfl⟩ := List.exists_cons_of_ne_nil hs.filled
  refine ⟨sep, v, hfront.sep, hs.chars v (by simp), ?_⟩
  rw [hfront.eq]
  simp

/-- Up to the value, there is no secret anywhere. -/
theorem no_secret_before_value {ys : List Char}
    (h : IsFront front key gap sep) (hl : IsLead lead) (hys : ys.Sublist (front ++ lead)) :
    secretLength ys = none := by
  by_contra hne
  obtain ⟨s, v, hsep, hv, hsub⟩ := sublist_of_secretLength hne
  have hall := hsub.trans hys
  rw [h.eq, List.append_assoc, List.singleton_append] at hall
  -- before the separator of the front there is none, and after it no value character
  have hafter : [s, v].Sublist (sep :: lead) := by
    obtain ⟨as, bs, heq, has, hbs⟩ := List.sublist_append_iff.mp hall
    cases as with
    | nil => rw [heq]; exact hbs
    | cons a as =>
      have ha : a = s := (List.cons.inj heq).1.symm
      have := front_not_separator h a (has.subset (by simp))
      rw [ha, hsep] at this
      cases this
  have hmem : v ∈ lead := by
    cases hafter with
    | cons _ hsub => exact hsub.subset (by simp)
    | cons_cons _ hsub => exact hsub.subset (by simp)
  rw [lead_not_value hl v hmem] at hv
  cases hv

/-- A secret cut before its first value character shows none. -/
theorem scan_cut_before_value {n : Nat}
    (h : secretLength (m ++ rest) = some m.length) (hn : n ≤ valueStart m + leadLength m) :
    scan secretLength (m.take n) = (m.take n).map .kept := by
  obtain ⟨front, lead, value, rfl, hs, _⟩ := secret_of_found h
  obtain ⟨key, gap, sep, hfront⟩ := hs.front
  have hstart : valueStart (front ++ lead ++ value) = front.length := by
    rw [List.append_assoc, valueStart_eq hfront]
  rw [hstart, leadLength_eq hs] at hn
  have hsub : ((front ++ lead ++ value).take n).Sublist (front ++ lead) := by
    rw [List.take_append_of_le_length (by simpa using hn)]
    exact List.take_sublist n _
  generalize (front ++ lead ++ value).take n = xs at hsub
  induction xs with
  | nil => rfl
  | cons c cs ih =>
    rw [Regex.scan_kept (no_secret_before_value hfront hs.lead hsub),
      ih ((List.sublist_cons_self c cs).trans hsub)]
    rfl

/-- No secret begins in the rest of a key and its separator. -/
theorem no_secret_in_front {a z : List Char}
    (h : IsFront front key gap sep) (heq : front = a ++ z) (ha : a ≠ []) (hz : z ≠ [])
    (more : List Char) : secretLength (z ++ more) = none := by
  by_contra hne
  obtain ⟨n, hn⟩ := Option.ne_none_iff_exists'.mp hne
  obtain ⟨front', lead', value', rest', hsplit, hs, _, _⟩ := secret_of_secretLength hn
  obtain ⟨key', gap', sep', hfront'⟩ := hs.front
  rw [hfront'.eq] at hsplit
  have hword : (z ++ more).takeWhile isWordChar = key' := by
    rw [hsplit]
    simp only [List.append_assoc]
    refine takeWhile_all (wordChar_of_key hfront'.key) ?_
    intro c hc
    cases hw : isWordChar c with
    | false => rfl
    | true =>
      obtain ⟨hns, hnsep, -⟩ := wordChar_spec hw
      cases gap' with
      | nil =>
        rw [← Option.some.inj (Option.mem_def.mp hc), hfront'.sep] at hnsep
        cases hnsep
      | cons g gs =>
        rw [← Option.some.inj (Option.mem_def.mp hc), hfront'.gap g (by simp)] at hns
        cases hns
  -- the rest of the front begins with the rest of the key, and the key ends there
  have hrest : ∃ k, (k = [] ∨ ∃ b, b ≠ [] ∧ key = b ++ k) ∧
      (z ++ more).takeWhile isWordChar = k := by
    rw [h.eq, List.append_assoc] at heq
    have htail : ∀ (k g : List Char), (∀ c ∈ k, isWordChar c = true) →
        (∀ c ∈ g, isSpace c = true) → (k ++ (g ++ [sep]) ++ more).takeWhile isWordChar = k := by
      intro k g hk hg
      rw [List.append_assoc]
      refine takeWhile_all hk ?_
      intro c hc
      cases hw : isWordChar c with
      | false => rfl
      | true =>
        obtain ⟨hns, hnsep, -⟩ := wordChar_spec hw
        cases g with
        | nil =>
          rw [← Option.some.inj (Option.mem_def.mp hc), h.sep] at hnsep
          cases hnsep
        | cons x xs =>
          rw [← Option.some.inj (Option.mem_def.mp hc), hg x (by simp)] at hns
          cases hns
    rcases List.append_eq_append_iff.mp heq with ⟨b, rfl, hgap⟩ | ⟨k, hkey, rfl⟩
    · refine ⟨[], Or.inl rfl, ?_⟩
      rcases List.append_eq_append_iff.mp hgap with ⟨c, rfl, hsep⟩ | ⟨g, hg, rfl⟩
      · cases c with
        | nil =>
          obtain rfl : z = [sep] := hsep.symm
          exact htail [] [] (by simp) (by simp)
        | cons d ds =>
          have hnil : ds ++ z = [] := (List.cons.inj hsep).2.symm
          exact absurd (List.append_eq_nil_iff.mp hnil).2 hz
      · exact htail [] g (by simp) fun c hc => h.gap c (by rw [hg]; simp [hc])
    · refine ⟨k, Or.inr ⟨a, ha, hkey⟩, ?_⟩
      exact htail k gap (fun c hc => wordChar_of_key h.key c (by rw [hkey]; simp [hc])) h.gap
  obtain ⟨k, hk, hkw⟩ := hrest
  rw [hword] at hkw
  subst hkw
  rcases hk with hk | ⟨b, hb, hkey⟩
  · exact key_ne_nil hfront'.key hk
  · exact no_key_in_key hb (hkey ▸ h.key) hfront'.key

end Traqen.SourceSliceBroker
