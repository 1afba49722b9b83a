-- What the reader returns: the text that it takes is derived from the value of the tree, and every
-- node of the tree stands where its token is.
import Traqen.JsonPointers
import Traqen.JsonTokens

namespace Traqen.JsonSyntax

open Utf16 (byteLength slice slice_append wellFormed)
open Rfc8259
open KeyedTree (places_eq mapOf placesOf mapOf_keys places)

/-- The value that a node shows. -/
def valueOf (node : Node) : Value := node.map Label.item

/-- What is asked of a value beyond the grammar, but for its members' own. -/
structure Proper (representable : List Nat → Bool) (v : Value) : Prop where
  allowed : Allowed representable v.label
  distinct : v.label = .object → (v.members.map (·.1)).Nodup
  unicode : v.label = .object → ∀ m ∈ v.members, wellFormed m.1 = true

/-- What holds of the node at a path: its pointer, and that it is the span of its token, with its
children in it, one behind the other. -/
structure Stands (text : List Nat) (path : List (List Nat)) (node : Node) : Prop where
  pointer : node.label.pointer = pointerOf path
  order : node.label.start ≤ node.label.stop ∧ node.label.stop ≤ text.length
  token : Derives (.value (valueOf node)) (slice text node.label.start node.label.stop)
  inside : ∀ m ∈ node.members,
    node.label.start < m.2.label.start ∧ m.2.label.stop < node.label.stop
  apart : node.members.Pairwise fun a b => a.2.label.stop < b.2.label.start

/-- What the reader keeps of a node. -/
structure Kept (representable : List Nat → Bool) (text : List Nat) (path : List (List Nat))
    (node : Node) : Prop where
  stands : Stands text path node
  short : byteLength (pointerOf path) ≤ 8192
  proper : Proper representable (valueOf node)

/-- A reading, from behind the front of the text on. -/
structure Reading (representable : List Nat → Bool) (text : List Nat) (maxJsonNodes levels : Nat)
    (path : List (List Nat)) (front : List Nat) (s : State) (node : Node) (s' : State) : Prop where
  span : ∃ blank token, Blank blank ∧ s.rest = blank ++ (token ++ s'.rest) ∧
    Derives (.value (valueOf node)) token ∧ node.label.start = (front ++ blank).length ∧
    node.label.stop = (front ++ (blank ++ token)).length
  count : s'.count = s.count + node.places.length
  bound : s'.count ≤ maxJsonNodes
  nodes : ∀ at_ ∈ node.places,
    at_.1.length < levels ∧ Kept representable text (path ++ at_.1) at_.2

/-! ## The grammar -/

variable {blank left token units : List Nat}

theorem scalar_head {item : Item} (h : Scalar item token) :
    ∃ c cs, token = c :: cs ∧ isBlank c = false ∧ opened (some c) = none := by
  cases h with
  | null => exact ⟨_, _, rfl, rfl, rfl⟩
  | true => exact ⟨_, _, rfl, rfl, rfl⟩
  | false => exact ⟨_, _, rfl, rfl, rfl⟩
  | number hnumber =>
    obtain ⟨c, cs, rfl, hc⟩ := number_head hnumber
    refine ⟨c, cs, rfl, ?_⟩
    rcases hc with rfl | hc
    · exact ⟨rfl, rfl⟩
    · simp only [isDigit, Bool.and_eq_true, decide_eq_true_eq] at hc
      have hbrace : c ≠ 0x7B := by omega
      have hbracket : c ≠ 0x5B := by omega
      refine ⟨?_, by simp [opened, hbrace, hbracket]⟩
      simp only [isBlank, Bool.or_eq_false_iff, decide_eq_false_iff_not]
      omega
  | string htext =>
    obtain ⟨chars, rfl, -⟩ := htext
    exact ⟨quote, _, rfl, rfl, rfl⟩

theorem opened_opens (kind : Kind) : opened (some kind.opens) = some kind := by
  cases kind <;> rfl

theorem opened_some {c : Option Nat} {kind : Kind} (h : opened c = some kind) :
    c = some kind.opens := by
  unfold opened at h
  split_ifs at h with hbrace hbracket
  · cases h
    exact hbrace
  · cases h
    exact hbracket

/-- A value begins with no whitespace. -/
theorem derives_head {v : Value} (h : Derives (.value v) token) :
    ∃ c cs, token = c :: cs ∧ isBlank c = false := by
  cases h with
  | scalar hscalar =>
    obtain ⟨c, cs, hcs, hblank, -⟩ := scalar_head hscalar
    exact ⟨c, cs, hcs, hblank⟩
  | empty kind _ => exact ⟨_, _, rfl, by cases kind <;> rfl⟩
  | compound kind _ => exact ⟨_, _, rfl, by cases kind <;> rfl⟩

theorem inked_cons {c : Nat} (hc : isBlank c = false) (cs : List Nat) : Inked (c :: cs) := by
  intro d hd
  cases hd
  exact hc

theorem inked_token {v : Value} (h : Derives (.value v) token)
    (left : List Nat) : Inked (token ++ left) := by
  obtain ⟨c, cs, rfl, hc⟩ := derives_head h
  exact inked_cons hc _

theorem decimal_injective {i j : Nat} (h : decimal i = decimal j) : i = j := by
  have hdigits : Nat.toDigits 10 i = Nat.toDigits 10 j :=
    List.map_injective_iff.mpr (fun a b hab => Char.toNat_inj.mp hab) h
  have hvalue := congrArg (fun ds => Nat.ofDigitChars 10 ds 0) hdigits
  simpa using hvalue

/-- The keys of an array are its indexes. -/
theorem array_keys {symbol : Symbol} (h : Derives symbol units) :
    ∀ index members, symbol = .members .array index members →
      members.map (·.1) = (List.range' index members.length).map decimal := by
  induction h with
  | scalar => rintro _ _ ⟨⟩
  | empty => rintro _ _ ⟨⟩
  | compound => rintro _ _ ⟨⟩
  | last _ hname _ _ _ =>
    rintro index members ⟨⟩
    cases hname
    rfl
  | more _ hname _ _ _ _ _ ih =>
    rintro index members ⟨⟩
    cases hname
    rw [List.map_cons, ih _ _ rfl, List.length_cons, List.range'_succ, List.map_cons]

theorem array_keys_nodup {index : Nat} {members : List (List Nat × Value)}
    (h : Derives (.members .array index members) units) : (members.map (·.1)).Nodup := by
  rw [array_keys h _ _ rfl]
  exact List.Nodup.map (fun _ _ h => decimal_injective h) List.nodup_range'

/-! ## The keys -/

section Reader

variable {text : List Nat} {kind : Kind} {path : List (List Nat)}

theorem position_eq {front rest : List Nat} (h : text = front ++ rest) :
    text.length - rest.length = front.length := by
  rw [h, List.length_append]
  omega

theorem head_tail {c : Nat} (h : units.head? = some c) :
    units = c :: units.tail := by
  cases units with
  | nil => cases h
  | cons d ds =>
    cases h
    rfl

variable {keySpan : Option (Nat × Nat)} {children : List (List Nat × Node)}

theorem name_ok {n : Nat} {pointer : List Nat}
    {rest key : List Nat}
    (h : name n kind pointer children rest = .ok (key, keySpan, left)) :
    ∃ before units, Blank before ∧ rest = before ++ (units ++ left) ∧
      Named kind children.length key units ∧
      (kind = .object → key ∉ children.map (·.1) ∧ wellFormed key = true) := by
  unfold name at h
  cases kind with
  | array =>
    cases h
    exact ⟨[], [], by simp [Blank], rfl, .array _, by simp⟩
  | object =>
    dsimp only at h
    obtain ⟨⟨token, behind⟩, hstring, h⟩ := bind_ok h
    dsimp only at h
    split_ifs at h with hknown hcolon
    · exact absurd h fail_ne_ok
    · cases h
      obtain ⟨⟨units, hunits, htext⟩, hformed, -, -⟩ := string_ok hstring
      obtain ⟨before, hbefore, hrest⟩ := whitespace_split rest
      obtain ⟨between, hbetween, hbehind⟩ := whitespace_split behind
      refine ⟨before, units ++ (between ++ [colon]), hbefore, ?_, .object _ htext hbetween,
        fun _ => ⟨hknown, hformed⟩⟩
      have hall : rest = before ++ (units ++ (between ++ (colon :: (whitespace behind).tail))) := by
        rw [← head_tail hcolon, ← hbehind, ← hunits]
        exact hrest
      simp only [List.append_assoc, List.singleton_append]
      exact hall
    · exact absurd h fail_ne_ok

@[simp] theorem valueOf_withKeySpan (keySpan : Option (Nat × Nat)) (node : Node) :
    valueOf (withKeySpan keySpan node) = valueOf node := by
  cases node
  rfl

theorem stands_withKeySpan {node : Node}
    (h : Stands text path node) : Stands text path (withKeySpan keySpan node) := by
  obtain ⟨hpointer, horder, htoken, hinside, hapart⟩ := h
  refine ⟨hpointer, horder, ?_, hinside, hapart⟩
  rw [valueOf_withKeySpan]
  exact htoken

variable {representable : List Nat → Bool} {maxJsonNodes levels : Nat}

/-- The span of a member's key changes nothing else. -/
theorem kept_withKeySpan {node : Node}
    (h : ∀ at_ ∈ node.places,
      at_.1.length < levels ∧ Kept representable text (path ++ at_.1) at_.2) :
    ∀ at_ ∈ (withKeySpan keySpan node).places,
      at_.1.length < levels ∧ Kept representable text (path ++ at_.1) at_.2 := by
  intro at_ hat
  rw [places_eq] at hat
  rcases List.mem_cons.mp hat with rfl | hbelow
  · obtain ⟨hlength, hstands, hshort, hproper⟩ := h _ (KeyedTree.self_mem_places node)
    refine ⟨hlength, stands_withKeySpan hstands, hshort, ?_⟩
    rw [valueOf_withKeySpan]
    exact hproper
  · refine h at_ ?_
    rw [places_eq]
    exact List.mem_cons_of_mem _ hbelow

theorem places_withKeySpan (keySpan : Option (Nat × Nat)) (node : Node) :
    (withKeySpan keySpan node).places.length = node.places.length := by
  rw [places_eq, places_eq, List.length_cons, List.length_cons]
  rfl

/-! ## The members -/

/-- What the loop takes, from behind the front of the text on. -/
structure Gathered (representable : List Nat → Bool) (text : List Nat) (maxJsonNodes levels : Nat)
    (kind : Kind) (path : List (List Nat)) (index : Nat) (front : List Nat) (s : State)
    (found : List (List Nat × Node)) (s' : State) : Prop where
  span : ∃ units, s.rest = units ++ kind.closes :: s'.rest ∧
    Derives (.members kind index (mapOf Label.item found)) units ∧
    ∀ m ∈ found, m.2.label.stop ≤ (front ++ units).length
  start : ∀ m ∈ found, front.length ≤ m.2.label.start
  apart : found.Pairwise fun a b => a.2.label.stop < b.2.label.start
  count : s'.count = s.count + (placesOf found).length
  bound : s'.count ≤ maxJsonNodes
  unicode : kind = .object → ∀ m ∈ found, wellFormed m.1 = true
  nodes : ∀ m ∈ found, ∀ at_ ∈ m.2.places,
    at_.1.length < levels ∧ Kept representable text (path ++ m.1 :: at_.1) at_.2

/-- One turn of the loop: a member, and whitespace behind it. -/
structure Turn (representable : List Nat → Bool) (text : List Nat) (maxJsonNodes levels : Nat)
    (kind : Kind) (path : List (List Nat)) (index : Nat) (front : List Nat) (s : State)
    (key : List Nat) (node : Node) (after : State) : Prop where
  span : ∃ before name between token behind, Blank before ∧ Named kind index key name ∧
    Blank between ∧ Derives (.value (valueOf node)) token ∧ Blank behind ∧
    s.rest = before ++ (name ++ (between ++ (token ++ (behind ++ whitespace after.rest)))) ∧
    front.length ≤ node.label.start ∧
    node.label.stop = (front ++ (before ++ (name ++ (between ++ token)))).length
  count : after.count = s.count + node.places.length
  bound : after.count ≤ maxJsonNodes
  unicode : kind = .object → wellFormed key = true
  nodes : ∀ at_ ∈ node.places,
    at_.1.length < levels ∧ Kept representable text (path ++ key :: at_.1) at_.2

variable {index : Nat} {front key : List Nat} {s after s' : State} {node : Node}
  {found : List (List Nat × Node)}

theorem gathered_last
    (h : Turn representable text maxJsonNodes levels kind path index front s key node after)
    (hcloses : (whitespace after.rest).head? = some kind.closes) :
    Gathered representable text maxJsonNodes levels kind path index front s [(key, node)]
      { after with rest := (whitespace after.rest).tail } := by
  obtain ⟨⟨before, units, between, token, behind, hbefore, hnamed, hbetween, htoken, hbehind, hrest,
    hstart, hstop⟩, hcount, hbound, hunicode, hnodes⟩ := h
  constructor
  case span =>
    refine ⟨before ++ (units ++ (between ++ (token ++ behind))), ?_,
      .last hbefore hnamed hbetween htoken hbehind, ?_⟩
    · rw [hrest]
      dsimp only
      rw [← head_tail hcloses]
      simp only [List.append_assoc]
    · intro m hm
      cases List.mem_singleton.mp hm
      dsimp only
      rw [hstop]
      simp only [List.length_append]
      omega
  case start =>
    intro m hm
    cases List.mem_singleton.mp hm
    exact hstart
  case apart => exact List.pairwise_singleton _ _
  case count =>
    rw [placesOf, placesOf, List.append_nil, List.length_map]
    exact hcount
  case bound => exact hbound
  case unicode =>
    intro hkind m hm
    cases List.mem_singleton.mp hm
    exact hunicode hkind
  case nodes =>
    intro m hm
    cases List.mem_singleton.mp hm
    exact hnodes

theorem gathered_more
    (h : Turn representable text maxJsonNodes levels kind path index front s key node after)
    (hfront : text = front ++ s.rest)
    (hcomma : (whitespace after.rest).head? = some comma) {front' : List Nat}
    (hfront' : text = front' ++ (whitespace after.rest).tail)
    (hmore : Gathered representable text maxJsonNodes levels kind path (index + 1) front'
      { after with rest := (whitespace after.rest).tail } found s') :
    Gathered representable text maxJsonNodes levels kind path index front s ((key, node) :: found)
      s' := by
  obtain ⟨⟨before, units, between, token, behind, hbefore, hnamed, hbetween, htoken, hbehind, hrest,
    hstart, hstop⟩, hcount, hbound, hunicode, hnodes⟩ := h
  obtain ⟨⟨tokens, htokens, hderives, hstops⟩, hstarts, hapart, hcounts, hbounds, hunicodes,
    hall⟩ := hmore
  dsimp only at htokens hcounts
  have hlength := congrArg List.length hfront
  have hlength' := congrArg List.length hfront'
  have htail := congrArg List.length (head_tail hcomma)
  rw [hrest] at hlength
  simp only [List.length_append, List.length_cons] at hlength hlength' htail hstop
  constructor
  case span =>
    refine ⟨before ++ (units ++ (between ++ (token ++ (behind ++ comma :: tokens)))), ?_,
      .more hbefore hnamed hbetween htoken hbehind hderives, ?_⟩
    · rw [hrest, head_tail hcomma, htokens]
      simp only [List.append_assoc, List.cons_append]
    · intro m hm
      have hrest' := congrArg List.length htokens
      simp only [List.length_append, List.length_cons] at hrest' ⊢
      rcases List.mem_cons.mp hm with rfl | hm
      · dsimp only
        omega
      · have hbefore' := hstops m hm
        rw [List.length_append] at hbefore'
        omega
  case start =>
    intro m hm
    rcases List.mem_cons.mp hm with rfl | hm
    · exact hstart
    · have hlater := hstarts m hm
      omega
  case apart =>
    refine List.pairwise_cons.mpr ⟨fun m hm => ?_, hapart⟩
    have hlater := hstarts m hm
    dsimp only
    omega
  case count =>
    rw [hcounts, hcount, placesOf, List.length_append, List.length_map, Nat.add_assoc]
  case bound => exact hbounds
  case unicode =>
    intro hkind m hm
    rcases List.mem_cons.mp hm with rfl | hm
    · exact hunicode hkind
    · exact hunicodes hkind m hm
  case nodes =>
    intro m hm
    rcases List.mem_cons.mp hm with rfl | hm
    · exact hnodes
    · exact hall m hm

variable {n : Nat} {take : List Nat → State → Except Fault (Node × State)}

/-- What the reader is to do for every member. -/
abbrev Takes (representable : List Nat → Bool) (text : List Nat) (maxJsonNodes levels : Nat)
    (take : List Nat → State → Except Fault (Node × State)) : Prop :=
  ∀ {path : List (List Nat)} {front : List Nat} {s s' : State} {node : Node},
    take (pointerOf path) s = .ok (node, s') → text = front ++ s.rest →
      Reading representable text maxJsonNodes levels path front s node s'

theorem turn_ok (htake : Takes representable text maxJsonNodes levels take)
    (hfront : text = front ++ s.rest)
    (hname : name n kind (pointerOf path) children s.rest = .ok (key, keySpan, left))
    (hchild : take (pointerOf path ++ slash :: escapeJsonPointer key) { s with rest := left } =
      .ok (node, after)) :
    Turn representable text maxJsonNodes levels kind path children.length front s key
      (withKeySpan keySpan node) after ∧
      ∃ front', text = front' ++ (whitespace after.rest) := by
  obtain ⟨before, units, hbefore, hrest, hnamed, hkey⟩ := name_ok hname
  rw [← pointerOf_concat] at hchild
  have hfront' : text = (front ++ (before ++ units)) ++ left := by
    rw [hfront, hrest]
    simp only [List.append_assoc]
  obtain ⟨⟨blank, token, hblank, hleft, htoken, hstart, hstop⟩, hcount, hbound, hnodes⟩ :=
    htake hchild hfront'
  dsimp only at hleft hcount
  obtain ⟨behind, hbehind, hafter⟩ := whitespace_split after.rest
  have hall : s.rest =
      before ++ (units ++ (blank ++ (token ++ (behind ++ whitespace after.rest)))) := by
    rw [← hafter, ← hleft]
    exact hrest
  constructor
  · constructor
    case span =>
      refine ⟨before, units, blank, token, behind, hbefore, hnamed, hblank, ?_, hbehind, hall, ?_,
        ?_⟩
      · rw [valueOf_withKeySpan]
        exact htoken
      · show front.length ≤ node.label.start
        rw [hstart]
        simp only [List.length_append]
        omega
      · show node.label.stop = _
        rw [hstop]
        simp only [List.append_assoc]
    case count =>
      rw [places_withKeySpan]
      exact hcount
    case bound => exact hbound
    case unicode => exact fun hkind => (hkey hkind).2
    case nodes =>
      intro at_ hat
      have hkept := kept_withKeySpan hnodes at_ hat
      rw [List.append_assoc, List.singleton_append] at hkept
      exact hkept
  · refine ⟨front ++ (before ++ (units ++ (blank ++ (token ++ behind)))), ?_⟩
    rw [hfront, hall]
    simp only [List.append_assoc]

theorem members_ok (htake : Takes representable text maxJsonNodes levels take)
    {fuel : Nat} {out : List (List Nat × Node)}
    (h : members n kind (pointerOf path) take fuel children s = .ok (out, s'))
    (hfront : text = front ++ s.rest) :
    ∃ found, out = children ++ found ∧
      (kind = .object → (children.map (·.1)).Nodup → (out.map (·.1)).Nodup) ∧
      Gathered representable text maxJsonNodes levels kind path children.length front s found
        s' := by
  induction fuel generalizing children front s with
  | zero => cases h
  | succ fuel ih =>
    rw [members] at h
    obtain ⟨⟨key, keySpan, left⟩, hname, h⟩ := bind_ok h
    obtain ⟨⟨child, after⟩, hchild, h⟩ := bind_ok h
    dsimp only at h
    obtain ⟨hturn, front', hfront'⟩ := turn_ok htake hfront hname hchild
    have hdistinct : kind = .object → (children.map (·.1)).Nodup →
        ((children ++ [(key, withKeySpan keySpan child)]).map (·.1)).Nodup := by
      intro hkind hnodup
      obtain ⟨-, -, -, -, -, hkey⟩ := name_ok hname
      rw [List.map_append, List.nodup_append]
      refine ⟨hnodup, List.nodup_singleton _, ?_⟩
      rintro k hk k' hk' rfl
      cases List.mem_singleton.mp hk'
      exact (hkey hkind).1 hk
    split_ifs at h with hcloses hcomma
    · cases h
      exact ⟨_, rfl, hdistinct, gathered_last hturn hcloses⟩
    · rw [head_tail hcomma] at hfront'
      have hnext : text = (front' ++ [comma]) ++ (whitespace after.rest).tail := by
        rw [hfront', List.append_assoc]
        rfl
      obtain ⟨found, rfl, hkeys, hgathered⟩ := ih h hnext
      rw [List.length_append] at hgathered
      refine ⟨_, by rw [List.append_assoc]; rfl,
        fun hkind hnodup => hkeys hkind (hdistinct hkind hnodup),
        gathered_more hturn hfront hcomma hnext hgathered⟩
    · exact absurd h fail_ne_ok

/-! ## Whitespace that is passed over twice -/

/-- Whitespace before a value is passed over. -/
abbrev Skips (take : List Nat → State → Except Fault (Node × State)) : Prop :=
  ∀ (pointer : List Nat) (s : State), take pointer { s with rest := whitespace s.rest } =
    take pointer s

theorem whitespace_whitespace (rest : List Nat) : whitespace (whitespace rest) = whitespace rest :=
  List.dropWhile_idempotent _ _

theorem members_whitespace (hskips : Skips take) (pointer : List Nat) (fuel : Nat)
    (children : List (List Nat × Node)) (s : State) :
    members n kind pointer take (fuel + 1) children { s with rest := whitespace s.rest } =
      members n kind pointer take (fuel + 1) children s := by
  rw [members, members]
  cases kind with
  | array =>
    have hchild := hskips (pointer ++ slash :: escapeJsonPointer (decimal children.length)) s
    simp only [name, bind, Except.bind]
    rw [hchild]
  | object =>
    simp only [name]
    rw [whitespace_whitespace]

theorem compound_eq (hskips : Skips take) (pointer : List Nat) (s : State) :
    compound n kind pointer take s =
      if (whitespace s.rest).head? = some kind.closes then
        .ok ([], { s with rest := (whitespace s.rest).tail })
      else members n kind pointer take (s.rest.length + 1) [] s := by
  unfold compound
  dsimp only
  rw [members_whitespace hskips]

theorem compound_ok (htake : Takes representable text maxJsonNodes levels take)
    (hskips : Skips take)
    (h : compound n kind (pointerOf path) take s = .ok (children, s'))
    (hfront : text = front ++ s.rest) :
    (∃ blank, children = [] ∧ Blank blank ∧ s.rest = blank ++ kind.closes :: s'.rest ∧
      s'.count = s.count) ∨
    ((kind = .object → (children.map (·.1)).Nodup) ∧
      Gathered representable text maxJsonNodes levels kind path 0 front s children s') := by
  rw [compound_eq hskips] at h
  split_ifs at h with hcloses
  · cases h
    obtain ⟨blank, hblank, hrest⟩ := whitespace_split s.rest
    refine .inl ⟨blank, rfl, hblank, ?_, rfl⟩
    dsimp only
    rw [← head_tail hcloses]
    exact hrest
  · obtain ⟨found, rfl, hdistinct, hgathered⟩ := members_ok htake h hfront
    exact .inr ⟨fun hkind => hdistinct hkind List.nodup_nil, hgathered⟩

/-! ## The reader -/

theorem read_zero (pointer : List Nat) :
    read n maxJsonNodes representable 0 pointer s =
      if 8192 < byteLength pointer then
        fail n "JSON_STRUCTURE_LIMIT" (n - (whitespace s.rest).length)
          (n - (whitespace s.rest).length + 1) []
      else fail n "JSON_STRUCTURE_LIMIT" (n - (whitespace s.rest).length)
        (n - (whitespace s.rest).length + 1) pointer := rfl

theorem read_succ (pointer : List Nat) :
    read n maxJsonNodes representable (levels + 1) pointer s =
      if 8192 < byteLength pointer then
        fail n "JSON_STRUCTURE_LIMIT" (n - (whitespace s.rest).length)
          (n - (whitespace s.rest).length + 1) []
      else if maxJsonNodes < s.count + 1 then
        fail n "JSON_STRUCTURE_LIMIT" (n - (whitespace s.rest).length)
          (n - (whitespace s.rest).length + 1) pointer
      else
        match opened (whitespace s.rest).head? with
        | some kind =>
          (compound n kind pointer (read n maxJsonNodes representable levels)
            { rest := (whitespace s.rest).tail, count := s.count + 1 }).bind fun found =>
              .ok (.node { pointer, start := n - (whitespace s.rest).length
                           stop := n - found.2.rest.length, item := kind.item
                           keySpan := none } found.1, found.2)
        | none =>
          (scalar n representable pointer (whitespace s.rest)).bind fun found =>
            .ok (.node { pointer, start := n - (whitespace s.rest).length
                         stop := n - found.2.length, item := found.1, keySpan := none } [],
              { rest := found.2, count := s.count + 1 }) := rfl

theorem read_skips : Skips (read n maxJsonNodes representable levels) := by
  intro pointer s
  cases levels with
  | zero =>
    rw [read_zero, read_zero]
    dsimp only
    rw [whitespace_whitespace]
  | succ levels =>
    rw [read_succ, read_succ]
    dsimp only
    rw [whitespace_whitespace]

/-- A node with the span of its token. -/
theorem stands_of_span {label : Label}
    (htext : text = (front ++ blank) ++ (token ++ left))
    (htoken : Derives (.value (valueOf (.node label children))) token)
    (hpointer : label.pointer = pointerOf path) (hstart : label.start = (front ++ blank).length)
    (hstop : label.stop = (front ++ (blank ++ token)).length)
    (hinside : ∀ m ∈ children, label.start < m.2.label.start ∧ m.2.label.stop < label.stop)
    (hapart : children.Pairwise fun a b => a.2.label.stop < b.2.label.start) :
    Stands text path (.node label children) := by
  have hlength := congrArg List.length htext
  refine ⟨hpointer, ?_, ?_, hinside, hapart⟩
  · show label.start ≤ label.stop ∧ label.stop ≤ text.length
    simp only [List.length_append] at hlength hstart hstop
    omega
  · have hstop' : label.stop = (front ++ blank).length + token.length := by
      rw [hstop]
      simp only [List.length_append]
      omega
    show Derives _ (slice text label.start label.stop)
    rw [hstart, hstop', htext, slice_append]
    exact htoken

theorem proper_leaf {item : Item} (hallowed : Allowed representable item) :
    Proper representable (.node item []) :=
  ⟨hallowed, fun _ => List.nodup_nil, fun _ m hm => by cases hm⟩

theorem mem_mapOf_key {f : Label → Item}
    {m : List Nat × Value} (h : m ∈ mapOf f children) :
    ∃ child ∈ children, m.1 = child.1 := by
  have hkey := List.mem_map_of_mem (f := Prod.fst) h
  rw [mapOf_keys] at hkey
  obtain ⟨child, hin, heq⟩ := List.mem_map.mp hkey
  exact ⟨child, hin, heq.symm⟩

/-- A node without members, from the span of its token. -/
theorem reading_leaf {label : Label}
    (hlevels : 0 < levels) (hfront : text = front ++ s.rest) (hblank : Blank blank)
    (hrest : s.rest = blank ++ (token ++ left))
    (htoken : Derives (.value (.node label.item [])) token)
    (hallowed : Allowed representable label.item) (hshort : byteLength (pointerOf path) ≤ 8192)
    (hnodes : s.count + 1 ≤ maxJsonNodes) (hpointer : label.pointer = pointerOf path)
    (hstart : label.start = text.length - (token ++ left).length)
    (hstop : label.stop = text.length - left.length) :
    Reading representable text maxJsonNodes levels path front s (.node label [])
      { rest := left, count := s.count + 1 } := by
  have htext : text = (front ++ blank) ++ (token ++ left) := by
    rw [hfront, hrest, List.append_assoc]
  have hend : text = (front ++ (blank ++ token)) ++ left := by
    rw [htext]
    simp only [List.append_assoc]
  rw [position_eq htext] at hstart
  rw [position_eq hend] at hstop
  constructor
  case span => exact ⟨blank, token, hblank, hrest, htoken, hstart, hstop⟩
  case count => rfl
  case bound => exact hnodes
  case nodes =>
    intro at_ hat
    cases List.mem_singleton.mp hat
    rw [List.append_nil]
    exact ⟨hlevels, stands_of_span htext htoken hpointer hstart hstop (by simp) .nil, hshort,
      proper_leaf hallowed⟩

/-- A node with its members, from the span of its token. -/
theorem reading_compound {label : Label}
    (hfront : text = front ++ s.rest) (hblank : Blank blank) {inner : List Nat}
    (hrest : s.rest = blank ++ kind.opens :: inner) (hitem : label.item = kind.item)
    (hshort : byteLength (pointerOf path) ≤ 8192) (hpointer : label.pointer = pointerOf path)
    (hstart : label.start = text.length - (kind.opens :: inner).length)
    (hstop : label.stop = text.length - s'.rest.length)
    (hdistinct : kind = .object → (children.map (·.1)).Nodup)
    (hgathered : Gathered representable text maxJsonNodes levels kind path 0
      (front ++ (blank ++ [kind.opens])) { rest := inner, count := s.count + 1 } children s') :
    Reading representable text maxJsonNodes (levels + 1) path front s (.node label children)
      s' := by
  obtain ⟨⟨units, hinner, hderives, hstops⟩, hstarts, hapart, hcount, hbound, hunicode, hnodes⟩ :=
    hgathered
  dsimp only at hinner hcount
  have htext : text =
      (front ++ blank) ++ ((kind.opens :: (units ++ [kind.closes])) ++ s'.rest) := by
    rw [hfront, hrest, hinner]
    simp only [List.append_assoc, List.cons_append, List.nil_append]
  have hopens : text = (front ++ blank) ++ kind.opens :: inner := by
    rw [hfront, hrest, List.append_assoc]
  have hend : text = (front ++ (blank ++ kind.opens :: (units ++ [kind.closes]))) ++ s'.rest := by
    rw [htext]
    simp only [List.append_assoc]
  rw [position_eq hopens] at hstart
  rw [position_eq hend] at hstop
  have hvalue : valueOf (.node label children) =
      .node kind.item (mapOf Label.item children) := by
    unfold valueOf
    rw [KeyedTree.map, hitem]
  have htoken : Derives (.value (valueOf (.node label children)))
      (kind.opens :: (units ++ [kind.closes])) := by
    rw [hvalue]
    exact .compound kind hderives
  have hinside : ∀ m ∈ children,
      label.start < m.2.label.start ∧ m.2.label.stop < label.stop := by
    intro m hm
    have hfirst := hstarts m hm
    have hlast := hstops m hm
    simp only [List.length_append, List.length_cons, List.length_nil] at hfirst hlast hstart hstop
    omega
  constructor
  case span =>
    refine ⟨blank, _, hblank, ?_, htoken, hstart, hstop⟩
    rw [hrest, hinner]
    simp only [List.cons_append, List.append_assoc, List.nil_append]
  case count =>
    rw [hcount, places, List.length_cons]
    omega
  case bound => exact hbound
  case nodes =>
    intro at_ hat
    rcases KeyedTree.mem_places.mp hat with rfl | ⟨key, sub, below, hin, hsub, hpath⟩
    · rw [List.append_nil]
      refine ⟨Nat.succ_pos _,
        stands_of_span htext htoken hpointer hstart hstop hinside hapart, hshort, ?_⟩
      rw [hvalue]
      refine ⟨?_, fun hobject => ?_, fun hobject m hm => ?_⟩
      · cases kind <;> trivial
      · have hkind : kind = .object := by
          cases kind
          · cases hobject
          · rfl
        show ((mapOf Label.item children).map (·.1)).Nodup
        rw [mapOf_keys]
        exact hdistinct hkind
      · have hkind : kind = .object := by
          cases kind
          · cases hobject
          · rfl
        obtain ⟨child, hchild, hkey⟩ := mem_mapOf_key hm
        rw [hkey]
        exact hunicode hkind child hchild
    · obtain ⟨hlength, hkept⟩ := hnodes (key, sub) hin _ hsub
      rw [hpath]
      exact ⟨Nat.succ_lt_succ hlength, hkept⟩

theorem read_ok (levels : Nat) : Takes representable text maxJsonNodes levels
    (read text.length maxJsonNodes representable levels) := by
  induction levels with
  | zero =>
    intro path front s s' node h hfront
    rw [read_zero] at h
    split_ifs at h <;> exact absurd h fail_ne_ok
  | succ levels ih =>
    intro path front s s' node h hfront
    rw [read_succ] at h
    split_ifs at h with hlong hmany
    · exact absurd h fail_ne_ok
    · exact absurd h fail_ne_ok
    have hshort := Nat.not_lt.mp hlong
    have hnodes := Nat.not_lt.mp hmany
    obtain ⟨blank, hblank, hrest⟩ := whitespace_split s.rest
    cases hopened : opened (whitespace s.rest).head? with
    | none =>
      rw [hopened] at h
      obtain ⟨⟨item, left⟩, hscalar, h⟩ := bind_ok h
      cases h
      obtain ⟨hallowed, token, htoken, hderives⟩ := scalar_ok hscalar
      rw [htoken] at hrest
      refine reading_leaf (Nat.succ_pos _) hfront hblank hrest (.scalar hderives) hallowed hshort
        hnodes rfl ?_ rfl
      dsimp only
      rw [htoken]
    | some kind =>
      rw [hopened] at h
      obtain ⟨⟨children, after⟩, hcompound, h⟩ := bind_ok h
      cases h
      have hbegins := head_tail (opened_some hopened)
      generalize (whitespace s.rest).tail = inner at hbegins hcompound
      rw [hbegins] at hrest ⊢
      have hfront' : text = (front ++ (blank ++ [kind.opens])) ++ inner := by
        rw [hfront, hrest]
        simp only [List.append_assoc, List.singleton_append]
      rcases compound_ok ih read_skips hcompound hfront' with
        ⟨empty, rfl, hempty, hinner, hcount⟩ | ⟨hdistinct, hgathered⟩
      · obtain ⟨left, count⟩ := after
        dsimp only at hinner hcount
        subst hcount
        have hrest' : s.rest = blank ++ (kind.opens :: (empty ++ [kind.closes]) ++ left) := by
          rw [hrest, hinner]
          simp only [List.cons_append, List.append_assoc, List.nil_append]
        refine reading_leaf (Nat.succ_pos _) hfront hblank hrest' (.empty kind hempty) ?_ hshort
          hnodes rfl ?_ rfl
        · cases kind <;> trivial
        · dsimp only
          rw [hinner]
          simp only [List.cons_append, List.append_assoc, List.nil_append]
      · exact reading_compound hfront hblank hrest rfl hshort rfl rfl rfl hdistinct hgathered

end Reader

end Traqen.JsonSyntax
