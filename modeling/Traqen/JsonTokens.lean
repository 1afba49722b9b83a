-- The tokens that the reader takes are those of the grammar, in both directions: what it takes is a
-- token, and a token that is not gone on with is taken whole.
import Mathlib.Data.List.TakeWhile
import Traqen.JsonSyntax
import Traqen.Model

namespace Traqen.JsonSyntax

open Utf16 (hexDigit unicodeUnit unicodeUnit_some wellFormed)
open Rfc8259

/-! ## Faults -/

/-- The fault is a syntax error at a place of the text. -/
def Placed (n : Nat) (f : Fault) : Prop :=
  ∃ e, f = .Syntax e ∧ e.start ≤ e.stop ∧ e.stop ≤ n

theorem placed_fail {α : Type} {n start stop : Nat} {code : String} {pointer : List Nat} {f : Fault}
    (h : (fail n code start stop pointer : Except Fault α) = .error f) (hle : start ≤ stop) :
    Placed n f := by
  unfold fail at h
  cases h
  exact ⟨_, rfl, by dsimp only; omega, by dsimp only; omega⟩

theorem fail_ne_ok {α : Type} {n start stop : Nat} {code : String} {pointer : List Nat} {a : α} :
    (fail n code start stop pointer : Except Fault α) ≠ .ok a := by
  unfold fail
  simp

/-! ## Whitespace -/

theorem whitespace_split (rest : List Nat) :
    ∃ blank, Blank blank ∧ rest = blank ++ whitespace rest :=
  ⟨rest.takeWhile isWhitespace, fun _ hc => List.mem_takeWhile_imp hc,
    List.takeWhile_append_dropWhile.symm⟩

/-- What does not begin with whitespace. -/
def Inked (units : List Nat) : Prop := ∀ c, units.head? = some c → isBlank c = false

variable {cs more units value : List Nat}

theorem whitespace_append {blank : List Nat} (hblank : Blank blank) (hunits : Inked units) :
    whitespace (blank ++ units) = units := by
  have hskip : whitespace (blank ++ units) = whitespace units :=
    List.dropWhile_append_of_pos hblank
  rw [hskip]
  cases units with
  | nil => rfl
  | cons c cs =>
    have hc : isWhitespace c = false := hunits c rfl
    unfold whitespace
    rw [List.dropWhile_cons_of_neg (by rw [hc]; decide)]

/-! ## Strings -/

theorem closing_quote (cs : List Nat) : closing (quote :: cs) = some ([quote], cs) := by
  rw [closing.eq_def]
  dsimp only
  rw [if_pos rfl]

attribute [local simp] closing unquoted

theorem closing_plain {c : Nat} (cs : List Nat) (hquote : c ≠ quote) (hescape : c ≠ backslash) :
    closing (c :: cs) = (closing cs).map fun found => (c :: found.1, found.2) := by
  rw [closing.eq_def]
  dsimp only
  rw [if_neg hquote, if_neg hescape]

theorem closing_escape (e : Nat) (rest : List Nat) :
    closing (backslash :: e :: rest) =
      (closing rest).map fun found => (backslash :: e :: found.1, found.2) := by
  rw [closing.eq_def]
  dsimp only
  rw [if_neg (by decide), if_pos rfl]

theorem closing_ok {body left : List Nat} (h : closing cs = some (body, left)) :
    cs = body ++ left := by
  induction cs using closing.induct generalizing body with
  | case1 => cases h
  | case2 cs =>
    rw [closing_quote] at h
    cases h
    rfl
  | case3 => cases h
  | case4 e rest _ ih =>
    rw [closing_escape] at h
    obtain ⟨⟨inner, after⟩, hinner, heq⟩ := Option.map_eq_some_iff.mp h
    cases heq
    rw [ih hinner]
    rfl
  | case5 c cs hquote hescape ih =>
    rw [closing_plain cs hquote hescape] at h
    obtain ⟨⟨inner, after⟩, hinner, heq⟩ := Option.map_eq_some_iff.mp h
    cases heq
    rw [ih hinner]
    rfl

theorem unquoted_quote (h : unquoted (quote :: cs) = some value) :
    cs = [] ∧ value = [] := by
  rw [unquoted.eq_def] at h
  dsimp only at h
  rw [if_pos rfl] at h
  split_ifs at h with hcs
  cases h
  exact ⟨hcs, rfl⟩

theorem unquoted_plain {c : Nat} (cs : List Nat) (hcontrol : 0x20 ≤ c) (hquote : c ≠ quote)
    (hescape : c ≠ backslash) : unquoted (c :: cs) = (unquoted cs).map (c :: ·) := by
  rw [unquoted.eq_def]
  dsimp only
  rw [if_neg hquote, if_neg (by omega), if_neg hescape]

theorem unquoted_escape {e : Nat} (rest : List Nat) (he : e ≠ 0x75) :
    unquoted (backslash :: e :: rest) =
      (escapedUnit e).bind fun unit => (unquoted rest).bind fun value => some (unit :: value) := by
  rw [unquoted.eq_def]
  dsimp only
  rw [if_neg (by decide), if_neg (by decide), if_pos rfl, if_neg he]
  rfl

theorem unquoted_unicode (x y z w : Nat) (more : List Nat) :
    unquoted (backslash :: 0x75 :: x :: y :: z :: w :: more) =
      (unicodeUnit x y z w).bind fun unit =>
        (unquoted more).bind fun value => some (unit :: value) := by
  rw [unquoted.eq_def]
  dsimp only
  rw [if_neg (by decide), if_neg (by decide), if_pos rfl, if_pos rfl]
  rfl

variable {rest token : List Nat}

theorem unquoted_short
    (h : ∀ (x y z w : Nat) (more : List Nat), rest = x :: y :: z :: w :: more → False) :
    unquoted (backslash :: 0x75 :: rest) = none := by
  rw [unquoted.eq_def]
  dsimp only
  rw [if_neg (by decide), if_neg (by decide), if_pos rfl, if_pos rfl]
  split
  · exact (h _ _ _ _ _ rfl).elim
  · rfl

theorem unquoted_ok {body : List Nat} (h : unquoted body = some value) :
    ∃ chars, body = chars ++ [quote] ∧ Chars chars value := by
  induction body using unquoted.induct generalizing value with
  | case1 => cases h
  | case2 =>
    obtain ⟨-, rfl⟩ := unquoted_quote h
    exact ⟨[], rfl, .nil⟩
  | case3 cs hcs => exact absurd (unquoted_quote h).1 hcs
  | case4 c cs hquote hcontrol =>
    rw [unquoted.eq_def] at h
    dsimp only at h
    rw [if_neg hquote, if_pos hcontrol] at h
    cases h
  | case5 => cases h
  | case6 x y z w more _ _ ih =>
    rw [unquoted_unicode] at h
    obtain ⟨unit, hunit, h⟩ := Option.bind_eq_some_iff.mp h
    obtain ⟨inner, hinner, h⟩ := Option.bind_eq_some_iff.mp h
    cases h
    obtain ⟨chars, rfl, hchars⟩ := ih hinner
    exact ⟨backslash :: 0x75 :: x :: y :: z :: w :: chars, rfl, .unicode hunit hchars⟩
  | case7 rest hshort =>
    rw [unquoted_short hshort] at h
    cases h
  | case8 e rest he _ _ ih =>
    rw [unquoted_escape rest he] at h
    obtain ⟨unit, hunit, h⟩ := Option.bind_eq_some_iff.mp h
    obtain ⟨inner, hinner, h⟩ := Option.bind_eq_some_iff.mp h
    cases h
    obtain ⟨chars, rfl, hchars⟩ := ih hinner
    exact ⟨backslash :: e :: chars, rfl, .escape hunit hchars⟩
  | case9 c cs hquote hcontrol hescape ih =>
    rw [unquoted_plain cs (by omega) hquote hescape] at h
    obtain ⟨inner, hinner, rfl⟩ := Option.map_eq_some_iff.mp h
    obtain ⟨chars, rfl, hchars⟩ := ih hinner
    exact ⟨c :: chars, rfl, .unescaped (by omega) hquote hescape hchars⟩

/-- The four units of an escape are neither quotation marks nor backslashes. -/
theorem hexDigit_plain {c : Nat} (h : (hexDigit c).isSome = true) :
    c ≠ quote ∧ c ≠ backslash := by
  constructor <;> rintro rfl <;> cases h

theorem closing_chars {chars : List Nat} (h : Chars chars value) (left : List Nat) :
    closing (chars ++ quote :: left) = some (chars ++ [quote], left) := by
  induction h with
  | nil => exact closing_quote left
  | unescaped _ hquote hescape _ ih =>
    rw [List.cons_append, closing_plain _ hquote hescape, ih]
    rfl
  | escape _ _ ih =>
    rw [List.cons_append, List.cons_append, closing_escape, ih]
    rfl
  | unicode hunit _ ih =>
    obtain ⟨hx, hy, hz, hw⟩ := unicodeUnit_some hunit
    simp only [List.cons_append]
    rw [closing_escape, closing_plain _ (hexDigit_plain hx).1 (hexDigit_plain hx).2,
      closing_plain _ (hexDigit_plain hy).1 (hexDigit_plain hy).2,
      closing_plain _ (hexDigit_plain hz).1 (hexDigit_plain hz).2,
      closing_plain _ (hexDigit_plain hw).1 (hexDigit_plain hw).2, ih]
    rfl

theorem unquoted_chars {chars : List Nat} (h : Chars chars value) :
    unquoted (chars ++ [quote]) = some value := by
  induction h with
  | nil => rfl
  | unescaped hcontrol hquote hescape _ ih =>
    rw [List.cons_append, unquoted_plain _ hcontrol hquote hescape, ih]
    rfl
  | @escape c d _ _ hescape _ ih =>
    have hc : c ≠ 0x75 := by
      rintro rfl
      cases hescape
    have hunit : escapedUnit c = some d := hescape
    rw [List.cons_append, List.cons_append, unquoted_escape _ hc, hunit, ih]
    rfl
  | unicode hunit _ ih =>
    simp only [List.cons_append]
    rw [unquoted_unicode, hunit, ih]
    rfl

section Strings

variable {n : Nat} {pointer rest left : List Nat} {token : Token}

/-- The spans are told by what is left of the text before and behind a token. -/
theorem string_ok (h : string n pointer rest = .ok (token, left)) :
    (∃ units, rest = units ++ left ∧ Text units token.value) ∧ wellFormed token.value = true ∧
      token.start = n - rest.length ∧ token.stop = n - left.length := by
  unfold string at h
  cases rest with
  | nil => exact absurd h fail_ne_ok
  | cons c cs =>
    dsimp only at h
    by_cases hquote : c = quote
    · rw [if_neg (not_not.mpr hquote)] at h
      cases hclosing : closing cs with
      | none =>
        rw [hclosing] at h
        exact absurd h fail_ne_ok
      | some found =>
        obtain ⟨body, behind⟩ := found
        rw [hclosing] at h
        dsimp only at h
        cases hvalue : unquoted body with
        | none =>
          rw [hvalue] at h
          exact absurd h fail_ne_ok
        | some value =>
          rw [hvalue] at h
          dsimp only at h
          by_cases hformed : wellFormed value = true
          · rw [if_pos hformed] at h
            cases h
            obtain ⟨chars, rfl, hchars⟩ := unquoted_ok hvalue
            refine ⟨⟨quote :: (chars ++ [quote]), ?_, chars, rfl, hchars⟩, hformed, rfl, rfl⟩
            rw [hquote, closing_ok hclosing]
            rfl
          · rw [if_neg hformed] at h
            exact absurd h fail_ne_ok
    · rw [if_pos hquote] at h
      exact absurd h fail_ne_ok

theorem string_text (htext : Text units value)
    (hformed : wellFormed value = true) : string n pointer (units ++ left) =
      .ok ({ value, start := n - (units ++ left).length, stop := n - left.length }, left) := by
  obtain ⟨chars, rfl, hchars⟩ := htext
  unfold string
  rw [List.cons_append]
  dsimp only
  rw [if_neg (not_not.mpr rfl), List.append_assoc, List.singleton_append,
    closing_chars hchars left]
  dsimp only
  rw [unquoted_chars hchars]
  dsimp only
  rw [if_pos hformed]

theorem string_error {f : Fault} (h : string n pointer rest = .error f) : Placed n f := by
  unfold string at h
  cases rest with
  | nil => exact placed_fail h (Nat.le_succ _)
  | cons c cs =>
    dsimp only at h
    by_cases hquote : c = quote
    · rw [if_neg (not_not.mpr hquote)] at h
      cases hclosing : closing cs with
      | none =>
        rw [hclosing] at h
        exact placed_fail h (Nat.sub_le _ _)
      | some found =>
        obtain ⟨body, behind⟩ := found
        have hbehind : n - (c :: cs).length ≤ n - behind.length := by
          have hlength := congrArg List.length (closing_ok hclosing)
          rw [List.length_append] at hlength
          rw [List.length_cons]
          omega
        rw [hclosing] at h
        dsimp only at h
        cases hvalue : unquoted body with
        | none =>
          rw [hvalue] at h
          exact placed_fail h hbehind
        | some value =>
          rw [hvalue] at h
          dsimp only at h
          by_cases hformed : wellFormed value = true
          · rw [if_pos hformed] at h
            cases h
          · rw [if_neg hformed] at h
            exact placed_fail h hbehind
    · rw [if_pos hquote] at h
      exact placed_fail h (Nat.le_succ _)

end Strings

/-! ## Numbers -/

/-- What does not begin with a digit. -/
def NoDigit (units : List Nat) : Prop := ∀ c, units.head? = some c → isDigit c = false

/-- What does not go on with a number. -/
structure Ended (units : List Nat) : Prop where
  digit : NoDigit units
  point : units.head? ≠ some 0x2E
  exponent : units.head? ≠ some 0x65 ∧ units.head? ≠ some 0x45

theorem digits_front (rest : List Nat) : digits rest <+: rest := List.takeWhile_prefix _

theorem digits_all {c : Nat} (h : c ∈ digits rest) : isDigit c = true :=
  List.mem_takeWhile_imp (p := isDigit) h

theorem digits_append {ds : List Nat} (hds : ∀ c ∈ ds, isDigit c = true)
    (hmore : NoDigit more) : digits (ds ++ more) = ds := by
  have htake : digits (ds ++ more) = ds ++ digits more := List.takeWhile_append_of_pos hds
  have hnone : digits more = [] := by
    cases more with
    | nil => rfl
    | cons c cs =>
      have hc : isDigit c = false := hmore c rfl
      exact List.takeWhile_cons_of_neg (by rw [← isDigit, hc]; decide)
  rw [htake, hnone, List.append_nil]

theorem prefix_drop (h : units <+: rest) : rest = units ++ rest.drop units.length := by
  obtain ⟨tail, rfl⟩ := h
  rw [List.drop_left]

theorem minus_cases (rest : List Nat) :
    minus rest <+: rest ∧ (minus rest = [] ∨ minus rest = [0x2D]) := by
  cases rest with
  | nil => exact ⟨List.nil_prefix, .inl rfl⟩
  | cons c cs =>
    rw [minus]
    split_ifs with hc
    · rw [hc]
      exact ⟨(List.prefix_cons_inj _).mpr List.nil_prefix, .inr rfl⟩
    · exact ⟨List.nil_prefix, .inl rfl⟩

theorem minus_append {sign : List Nat} (hsign : sign = [] ∨ sign = [0x2D])
    (hmore : more.head? ≠ some 0x2D) : minus (sign ++ more) = sign := by
  rcases hsign with rfl | rfl
  · cases more with
    | nil => rfl
    | cons c cs =>
      have hc : c ≠ 0x2D := by simpa using hmore
      rw [List.nil_append, minus, if_neg hc]
  · rfl

theorem whole_cases (rest : List Nat) :
    whole rest <+: rest ∧ (whole rest ≠ [] → Whole (whole rest)) := by
  cases rest with
  | nil => exact ⟨List.nil_prefix, fun h => absurd rfl h⟩
  | cons c cs =>
    rw [whole]
    split_ifs with hzero hdigit
    · rw [hzero]
      exact ⟨(List.prefix_cons_inj _).mpr List.nil_prefix, fun _ => .inl rfl⟩
    · exact ⟨(List.prefix_cons_inj _).mpr (digits_front cs),
        fun _ => .inr ⟨c, digits cs, rfl, hdigit.1, hdigit.2, fun _ hd => digits_all hd⟩⟩
    · exact ⟨List.nil_prefix, fun h => absurd rfl h⟩

theorem whole_append (h : Whole units) (hmore : NoDigit more) :
    whole (units ++ more) = units := by
  rcases h with rfl | ⟨d, ds, rfl, hlow, hhigh, hds⟩
  · rfl
  · rw [List.cons_append, whole, if_neg (by omega), if_pos ⟨hlow, hhigh⟩, digits_append hds hmore]

theorem fraction_cases (rest : List Nat) :
    fraction rest <+: rest ∧ Fraction (fraction rest) := by
  cases rest with
  | nil => exact ⟨List.nil_prefix, .inl rfl⟩
  | cons c cs =>
    rw [fraction]
    split_ifs with hc
    · rw [hc.1]
      exact ⟨(List.prefix_cons_inj _).mpr (digits_front cs),
        .inr ⟨digits cs, rfl, hc.2, fun _ hd => digits_all hd⟩⟩
    · exact ⟨List.nil_prefix, .inl rfl⟩

theorem fraction_append (h : Fraction units) (hdigit : NoDigit more)
    (hpoint : more.head? ≠ some 0x2E) : fraction (units ++ more) = units := by
  rcases h with rfl | ⟨ds, rfl, hne, hds⟩
  · cases more with
    | nil => rfl
    | cons c cs =>
      have hc : c ≠ 0x2E := by simpa using hpoint
      rw [List.nil_append, fraction, if_neg fun h => hc h.1]
  · rw [List.cons_append, fraction, digits_append hds hdigit, if_pos ⟨rfl, hne⟩]

theorem sign_cases (rest : List Nat) :
    sign rest <+: rest ∧ (sign rest = [] ∨ sign rest = [0x2B] ∨ sign rest = [0x2D]) := by
  cases rest with
  | nil => exact ⟨List.nil_prefix, .inl rfl⟩
  | cons c cs =>
    rw [sign]
    split_ifs with hc
    · refine ⟨(List.prefix_cons_inj _).mpr List.nil_prefix, .inr ?_⟩
      rcases hc with rfl | rfl
      · exact .inl rfl
      · exact .inr rfl
    · exact ⟨List.nil_prefix, .inl rfl⟩

theorem sign_append {ds : List Nat}
    (h : units = [] ∨ units = [0x2B] ∨ units = [0x2D]) (hds : Digits ds) (more : List Nat) :
    sign (units ++ (ds ++ more)) = units := by
  obtain ⟨hne, hall⟩ := hds
  rcases h with rfl | rfl | rfl
  · cases ds with
    | nil => exact absurd rfl hne
    | cons d ds =>
      have hd : ¬ (d = 0x2B ∨ d = 0x2D) := by
        rintro (rfl | rfl) <;> exact absurd (hall _ List.mem_cons_self) (by decide)
      rw [List.nil_append, List.cons_append, sign, if_neg hd]
  · rfl
  · rfl

theorem exponent_cases (rest : List Nat) :
    exponent rest <+: rest ∧ Exponent (exponent rest) := by
  cases rest with
  | nil => exact ⟨List.nil_prefix, .inl rfl⟩
  | cons c cs =>
    rw [exponent]
    split_ifs with hc
    · obtain ⟨hsign, hcases⟩ := sign_cases cs
      refine ⟨(List.prefix_cons_inj _).mpr ?_,
        .inr ⟨c, sign cs, _, rfl, hc.1, hcases, hc.2, fun _ hd => digits_all hd⟩⟩
      obtain ⟨after, hafter⟩ := digits_front (cs.drop (sign cs).length)
      refine ⟨after, ?_⟩
      rw [List.append_assoc, hafter, ← prefix_drop hsign]
    · exact ⟨List.nil_prefix, .inl rfl⟩

theorem exponent_append (h : Exponent units) (hmore : Ended more) :
    exponent (units ++ more) = units := by
  rcases h with rfl | ⟨e, signUnits, ds, rfl, he, hsign, hds⟩
  · cases more with
    | nil => rfl
    | cons c cs =>
      have hsmall : c ≠ 0x65 := by simpa using hmore.exponent.1
      have hcapital : c ≠ 0x45 := by simpa using hmore.exponent.2
      rw [List.nil_append, exponent, if_neg fun h => h.1.elim hsmall hcapital]
  · rw [List.cons_append, List.append_assoc, exponent, sign_append hsign hds, List.drop_left,
      digits_append hds.2 hmore.digit, if_pos ⟨he, hds.1⟩]

theorem number_ok (h : number rest = some token) : Number token ∧ token <+: rest := by
  unfold number at h
  dsimp only at h
  obtain ⟨hminus, hminusCases⟩ := minus_cases rest
  generalize hbehindMinus : rest.drop (minus rest).length = behindMinus at h
  obtain ⟨hwhole, hwholeCases⟩ := whole_cases behindMinus
  generalize hbehindWhole : behindMinus.drop (whole behindMinus).length = behindWhole at h
  obtain ⟨hfraction, hfractionCases⟩ := fraction_cases behindWhole
  generalize hbehindFraction : behindWhole.drop (fraction behindWhole).length = behind at h
  obtain ⟨⟨after, hafter⟩, hexponentCases⟩ := exponent_cases behind
  split_ifs at h with hnone
  cases h
  refine ⟨⟨_, _, _, _, rfl, hminusCases, hwholeCases hnone, hfractionCases, hexponentCases⟩,
    after, ?_⟩
  rw [List.append_assoc, List.append_assoc, List.append_assoc, hafter, ← hbehindFraction,
    ← prefix_drop hfraction, ← hbehindWhole, ← prefix_drop hwhole, ← hbehindMinus,
    ← prefix_drop hminus]

theorem exponent_ended (h : Exponent units) (hmore : Ended more) :
    NoDigit (units ++ more) ∧ (units ++ more).head? ≠ some 0x2E := by
  rcases h with rfl | ⟨e, signUnits, ds, rfl, he, -, -⟩
  · exact ⟨hmore.digit, hmore.point⟩
  · rcases he with rfl | rfl
    · exact ⟨fun c hc => by cases hc; rfl, by simp⟩
    · exact ⟨fun c hc => by cases hc; rfl, by simp⟩

theorem fraction_ended (h : Fraction units) (hmore : NoDigit more) :
    NoDigit (units ++ more) := by
  rcases h with rfl | ⟨ds, rfl, -⟩
  · exact hmore
  · exact fun c hc => by cases hc; rfl

theorem whole_head (h : Whole units) :
    ∃ d ds, units = d :: ds ∧ isDigit d = true := by
  rcases h with rfl | ⟨d, ds, rfl, hlow, hhigh, -⟩
  · exact ⟨0x30, [], rfl, rfl⟩
  · refine ⟨d, ds, rfl, ?_⟩
    simp only [isDigit, Bool.and_eq_true, decide_eq_true_eq]
    omega

theorem number_token (h : Number token) (hmore : Ended more) :
    number (token ++ more) = some token := by
  obtain ⟨signUnits, wholeUnits, fractionUnits, exponentUnits, rfl, hsign, hwhole, hfraction,
    hexponent⟩ := h.parts
  obtain ⟨hdigit, hpoint⟩ := exponent_ended hexponent hmore
  have hbehind := fraction_ended hfraction hdigit
  obtain ⟨d, ds, hd, hdigits⟩ := whole_head hwhole
  have hminus : minus (signUnits ++ (wholeUnits ++ (fractionUnits ++ (exponentUnits ++ more)))) =
      signUnits := by
    refine minus_append hsign ?_
    rw [hd, List.cons_append, List.head?_cons]
    rintro heq
    cases heq
    cases hdigits
  have hne : wholeUnits ≠ [] := by
    rw [hd]
    exact List.cons_ne_nil d ds
  unfold number
  dsimp only
  simp only [List.append_assoc]
  rw [hminus, List.drop_left, whole_append hwhole hbehind, List.drop_left,
    fraction_append hfraction hdigit hpoint, List.drop_left, exponent_append hexponent hmore,
    if_neg hne]

/-! ## Literals -/

theorem number_head (h : Number token) :
    ∃ c cs, token = c :: cs ∧ (c = 0x2D ∨ isDigit c = true) := by
  obtain ⟨signUnits, wholeUnits, fractionUnits, exponentUnits, rfl, hsign, hwhole, -, -⟩ := h.parts
  obtain ⟨d, ds, rfl, hdigit⟩ := whole_head hwhole
  rcases hsign with rfl | rfl
  · exact ⟨d, _, rfl, .inr hdigit⟩
  · exact ⟨0x2D, _, rfl, .inl rfl⟩

theorem literal_ok {item : Item} (h : literal rest = some (item, token)) :
    Scalar item token ∧ token <+: rest := by
  unfold literal at h
  split_ifs at h with htrue hfalse hnull
  · cases h
    exact ⟨.true, List.isPrefixOf_iff_prefix.mp htrue⟩
  · cases h
    exact ⟨.false, List.isPrefixOf_iff_prefix.mp hfalse⟩
  · cases h
    exact ⟨.null, List.isPrefixOf_iff_prefix.mp hnull⟩
  · obtain ⟨units, hunits, heq⟩ := Option.map_eq_some_iff.mp h
    cases heq
    obtain ⟨hnumber, hprefix⟩ := number_ok hunits
    exact ⟨.number hnumber, hprefix⟩

/-- A word begins otherwise than a number. -/
theorem not_word_of_number {word : List Nat} {c : Nat}
    (h : Number token) (hword : word = c :: cs) (hc : c ≠ 0x2D ∧ isDigit c = false) :
    ¬ word.isPrefixOf (token ++ more) = true := by
  obtain ⟨d, ds, rfl, hd⟩ := number_head h
  subst hword
  rw [List.isPrefixOf_iff_prefix, List.cons_append, List.cons_prefix_cons]
  rintro ⟨rfl, -⟩
  rcases hd with hd | hd
  · exact hc.1 hd
  · rw [hc.2] at hd
    cases hd

theorem literal_token {item : Item} (h : Scalar item token)
    (hstring : ∀ value, item ≠ .string value) (hmore : Ended more) :
    literal (token ++ more) = some (item, token) := by
  unfold literal
  cases h with
  | null => rfl
  | true => rfl
  | false => rfl
  | number hnumber =>
    have htrue := @not_word_of_number _ more token trueToken 0x74 hnumber rfl (by decide)
    have hfalse := @not_word_of_number _ more token falseToken 0x66 hnumber rfl (by decide)
    have hnull := @not_word_of_number _ more token nullToken 0x6E hnumber rfl (by decide)
    rw [if_neg htrue, if_neg hfalse, if_neg hnull, number_token hnumber hmore]
    rfl
  | @string _ value _ => exact absurd rfl (hstring value)

/-! ## Values without members -/

/-- What is asked of a string or a number beyond the grammar. -/
def Allowed (representable : List Nat → Bool) : Item → Prop
  | .string value => wellFormed value = true
  | .number token => representable token = true
  | _ => True

section Scalars

variable {n : Nat} {representable : List Nat → Bool} {pointer rest left : List Nat} {item : Item}

theorem scalar_ok (h : scalar n representable pointer rest = .ok (item, left)) :
    Allowed representable item ∧ ∃ token, rest = token ++ left ∧ Scalar item token := by
  unfold scalar at h
  dsimp only at h
  by_cases hquote : rest.head? = some quote
  · rw [if_pos hquote] at h
    obtain ⟨⟨token, behind⟩, hstring, h⟩ := bind_ok h
    cases h
    obtain ⟨⟨units, hunits, htext⟩, hformed, -, -⟩ := string_ok hstring
    exact ⟨hformed, units, hunits, .string htext⟩
  · rw [if_neg hquote] at h
    cases hliteral : literal rest with
    | none =>
      rw [hliteral] at h
      exact absurd h fail_ne_ok
    | some found =>
      obtain ⟨found, token⟩ := found
      rw [hliteral] at h
      dsimp only at h
      by_cases hnumber : found = Item.number token ∧ representable token = false
      · rw [if_pos hnumber] at h
        exact absurd h fail_ne_ok
      · rw [if_neg hnumber] at h
        cases h
        obtain ⟨hscalar, hprefix⟩ := literal_ok hliteral
        refine ⟨?_, token, prefix_drop hprefix, hscalar⟩
        cases hscalar with
        | null => trivial
        | true => trivial
        | false => trivial
        | number _ =>
          rw [not_and, Bool.not_eq_false] at hnumber
          exact hnumber rfl
        | string htext =>
          obtain ⟨chars, rfl, -⟩ := htext
          obtain ⟨tail, rfl⟩ := hprefix
          exact absurd rfl hquote

theorem scalar_token (h : Scalar item token)
    (hallowed : Allowed representable item) (hleft : Ended left) :
    scalar n representable pointer (token ++ left) = .ok (item, left) := by
  unfold scalar
  dsimp only
  by_cases hquote : (token ++ left).head? = some quote
  · rw [if_pos hquote]
    cases h with
    | null => cases hquote
    | true => cases hquote
    | false => cases hquote
    | number hnumber =>
      obtain ⟨c, cs, rfl, hc⟩ := number_head hnumber
      cases hquote
      rcases hc with hc | hc <;> cases hc
    | string htext =>
      rw [string_text htext hallowed]
      rfl
  · have hstring : ∀ value, item ≠ .string value := by
      rintro value rfl
      cases h with
      | string htext =>
        obtain ⟨chars, rfl, -⟩ := htext
        exact hquote rfl
    rw [if_neg hquote, literal_token h hstring hleft]
    dsimp only
    rw [if_neg, List.drop_left]
    rintro ⟨rfl, hrepresentable⟩
    have hyes : representable token = true := hallowed
    rw [hyes] at hrepresentable
    cases hrepresentable

theorem scalar_error {f : Fault} (h : scalar n representable pointer rest = .error f) :
    Placed n f := by
  unfold scalar at h
  dsimp only at h
  by_cases hquote : rest.head? = some quote
  · rw [if_pos hquote] at h
    cases hstring : string n pointer rest with
    | error e =>
      rw [hstring] at h
      cases h
      exact string_error hstring
    | ok found =>
      rw [hstring] at h
      cases h
  · rw [if_neg hquote] at h
    cases hliteral : literal rest with
    | none =>
      rw [hliteral] at h
      exact placed_fail h (Nat.le_succ _)
    | some found =>
      obtain ⟨found, token⟩ := found
      rw [hliteral] at h
      dsimp only at h
      by_cases hnumber : found = Item.number token ∧ representable token = false
      · rw [if_pos hnumber] at h
        refine placed_fail h ?_
        rw [List.length_drop]
        omega
      · rw [if_neg hnumber] at h
        cases h

end Scalars

end Traqen.JsonSyntax
