-- The texts that are accepted: those of the grammar whose value fits. Every other is refused at a
-- place of the text.
import Traqen.JsonTree

namespace Traqen.JsonSyntax

open Utf16 (byteLength slice wellFormed)
open Rfc8259
open KeyedTree (placesOf)

variable {n maxJsonNodes levels : Nat} {representable : List Nat → Bool}

/-! ## What the grammar derives is taken -/

/-- There is room for the nodes at the places, below the path. -/
structure Room (representable : List Nat → Bool) (maxJsonNodes levels : Nat)
    (path : List (List Nat)) (count : Nat) (places : List (List (List Nat) × Value)) : Prop where
  depth : ∀ at_ ∈ places, at_.1.length < levels
  short : ∀ at_ ∈ places, byteLength (pointerOf (path ++ at_.1)) ≤ 8192
  proper : ∀ at_ ∈ places, Proper representable at_.2
  nodes : count + places.length ≤ maxJsonNodes

variable {count index maxJsonDepth : Nat} {v : Value}

theorem Room.self {path : List (List Nat)}
    (h : Room representable maxJsonNodes levels path count v.places) :
    0 < levels ∧ byteLength (pointerOf path) ≤ 8192 ∧ Proper representable v ∧
      count + 1 ≤ maxJsonNodes := by
  have hself := KeyedTree.self_mem_places v
  have hshort := h.short _ hself
  have hnodes := h.nodes
  rw [List.append_nil] at hshort
  rw [KeyedTree.places_eq, List.length_cons] at hnodes
  exact ⟨h.depth _ hself, hshort, h.proper _ hself, by omega⟩

theorem Room.below {path : List (List Nat)} {item : Item}
    {members : List (List Nat × Value)}
    (h : Room representable maxJsonNodes levels path count
      (KeyedTree.places (.node item members))) :
    Room representable maxJsonNodes levels path (count + 1) (placesOf members) := by
  obtain ⟨hdepth, hshort, hproper, hnodes⟩ := h
  rw [KeyedTree.places] at hdepth hshort hproper hnodes
  rw [List.length_cons] at hnodes
  exact ⟨fun at_ hat => hdepth at_ (List.mem_cons_of_mem _ hat),
    fun at_ hat => hshort at_ (List.mem_cons_of_mem _ hat),
    fun at_ hat => hproper at_ (List.mem_cons_of_mem _ hat), by omega⟩

variable {before behind between key token units : List Nat}

theorem Room.member {path : List (List Nat)}
    {members : List (List Nat × Value)}
    (h : Room representable maxJsonNodes (levels + 1) path count
      (placesOf ((key, v) :: members))) :
    Room representable maxJsonNodes levels (path ++ [key]) count v.places ∧
      Room representable maxJsonNodes (levels + 1) path (count + v.places.length)
        (placesOf members) := by
  obtain ⟨hdepth, hshort, hproper, hnodes⟩ := h
  rw [placesOf] at hdepth hshort hproper hnodes
  rw [List.length_append, List.length_map] at hnodes
  have hfirst : ∀ at_ ∈ v.places, (key :: at_.1, at_.2) ∈
      v.places.map (fun at_ => (key :: at_.1, at_.2)) ++ placesOf members :=
    fun at_ hat => List.mem_append_left _ (List.mem_map.mpr ⟨at_, hat, rfl⟩)
  constructor
  · refine ⟨fun at_ hat => ?_, fun at_ hat => ?_,
      fun at_ hat => hproper (key :: at_.1, at_.2) (hfirst at_ hat), by omega⟩
    · exact Nat.lt_of_succ_lt_succ (hdepth _ (hfirst at_ hat))
    · rw [List.append_assoc]
      exact hshort _ (hfirst at_ hat)
  · exact ⟨fun at_ hat => hdepth at_ (List.mem_append_right _ hat),
      fun at_ hat => hshort at_ (List.mem_append_right _ hat),
      fun at_ hat => hproper at_ (List.mem_append_right _ hat), by omega⟩

theorem ended_nil : Ended [] := ⟨by simp [NoDigit], by simp, by simp⟩

theorem ended_cons {c : Nat} (hdigit : isDigit c = false) (hpoint : c ≠ 0x2E)
    (hexponent : c ≠ 0x65 ∧ c ≠ 0x45) (cs : List Nat) : Ended (c :: cs) := by
  refine ⟨fun d hd => ?_, by simpa using hpoint, by simpa using hexponent⟩
  cases hd
  exact hdigit

/-- Whitespace, and what ends a value, do not go on with a number. -/
theorem ended_blank {blank more : List Nat} (hblank : Blank blank) (hmore : Ended more) :
    Ended (blank ++ more) := by
  cases blank with
  | nil => exact hmore
  | cons c cs =>
    have hc : isBlank c = true := hblank c List.mem_cons_self
    simp only [isBlank, Bool.or_eq_true, decide_eq_true_eq] at hc
    have hno : isDigit c = false ∧ c ≠ 0x2E ∧ c ≠ 0x65 ∧ c ≠ 0x45 := by
      rcases hc with ((rfl | rfl) | rfl) | rfl <;> decide
    exact ended_cons hno.1 hno.2.1 hno.2.2 _

theorem ended_closes (kind : Kind) (left : List Nat) : Ended (kind.closes :: left) := by
  cases kind <;> exact ended_cons rfl (by decide) (by decide) left

theorem ended_comma (left : List Nat) : Ended (comma :: left) :=
  ended_cons rfl (by decide) (by decide) left

theorem isBlank_closes (kind : Kind) : isBlank kind.closes = false := by
  cases kind <;> rfl

theorem closes_ne_comma (kind : Kind) : kind.closes ≠ comma := by
  cases kind <;> decide

/-- Every member takes a unit at least. -/
theorem members_length {symbol : Symbol} (h : Derives symbol units) :
    ∀ kind index members, symbol = .members kind index members →
      members.length ≤ units.length := by
  have htoken : ∀ {v : Value} {token : List Nat}, Derives (.value v) token → 0 < token.length := by
    intro v token h
    obtain ⟨c, cs, rfl, -⟩ := derives_head h
    exact Nat.succ_pos _
  induction h with
  | scalar => rintro _ _ _ ⟨⟩
  | empty => rintro _ _ _ ⟨⟩
  | compound => rintro _ _ _ ⟨⟩
  | last _ _ _ hvalue _ =>
    rintro kind index members ⟨⟩
    have hpos := htoken hvalue
    simp only [List.length_append, List.length_cons, List.length_nil]
    omega
  | more _ _ _ hvalue _ _ _ ih =>
    rintro kind index members ⟨⟩
    have hpos := htoken hvalue
    have hrest := ih _ _ _ rfl
    simp only [List.length_append, List.length_cons]
    omega

/-- A value does not begin with a bracket that closes. -/
theorem not_closes_value (h : Derives (.value v) token)
    (kind : Kind) (left : List Nat) : (token ++ left).head? ≠ some kind.closes := by
  have hcloses : ∀ c, c = kind.closes → c = 0x5D ∨ c = 0x7D := by
    rintro c rfl
    cases kind
    · exact .inl rfl
    · exact .inr rfl
  have hopens : ∀ opens : Kind, some opens.opens ≠ some kind.closes := by
    intro opens
    cases opens <;> cases kind <;> decide
  cases h with
  | scalar hscalar =>
    intro hhead
    cases hscalar with
    | null => rcases hcloses _ (Option.some.inj hhead) with hc | hc <;> cases hc
    | true => rcases hcloses _ (Option.some.inj hhead) with hc | hc <;> cases hc
    | false => rcases hcloses _ (Option.some.inj hhead) with hc | hc <;> cases hc
    | number hnumber =>
      obtain ⟨c, cs, rfl, hc⟩ := number_head hnumber
      rcases hcloses _ (Option.some.inj hhead) with rfl | rfl
      · rcases hc with hc | hc <;> cases hc
      · rcases hc with hc | hc <;> cases hc
    | string htext =>
      obtain ⟨chars, rfl, -⟩ := htext
      rcases hcloses _ (Option.some.inj hhead) with hc | hc <;> cases hc
  | empty opens _ => exact hopens opens
  | compound opens _ => exact hopens opens

/-- Nor do members, behind the whitespace before them. -/
theorem not_closes_named {kind : Kind}
    (hbefore : Blank before) (hnamed : Named kind index key units)
    (hbetween : Blank between) (hvalue : Derives (.value v) token) (left : List Nat) :
    (whitespace (before ++ (units ++ (between ++ (token ++ left))))).head? ≠ some kind.closes := by
  cases hnamed with
  | array =>
    rw [List.nil_append, ← List.append_assoc, whitespace_append _ (inked_token hvalue left)]
    · exact not_closes_value hvalue .array left
    · intro c hc
      rcases List.mem_append.mp hc with hc | hc
      · exact hbefore c hc
      · exact hbetween c hc
  | object _ htext _ =>
    obtain ⟨chars, rfl, -⟩ := htext
    rw [List.cons_append, List.cons_append, whitespace_append hbefore (@inked_cons quote rfl _)]
    exact fun h => absurd (Option.some.inj h) (by decide)

theorem not_closes_members {kind : Kind} {members : List (List Nat × Value)}
    (h : Derives (.members kind index members) units) (left : List Nat) :
    (whitespace (units ++ left)).head? ≠ some kind.closes := by
  cases h with
  | last hbefore hnamed hbetween hvalue _ =>
    simp only [List.append_assoc]
    exact not_closes_named hbefore hnamed hbetween hvalue _
  | more hbefore hnamed hbetween hvalue _ _ =>
    simp only [List.append_assoc]
    exact not_closes_named hbefore hnamed hbetween hvalue _

variable {children : List (List Nat × Node)}

theorem name_named {kind : Kind}
    (hbefore : Blank before)
    (hnamed : Named kind index key units) (hindex : children.length = index)
    (hkey : kind = .object → key ∉ children.map (·.1) ∧ wellFormed key = true) (n : Nat)
    (pointer left : List Nat) :
    ∃ keySpan blank, Blank blank ∧
      name n kind pointer children (before ++ (units ++ left)) =
        .ok (key, keySpan, blank ++ left) := by
  cases hnamed with
  | array =>
    refine ⟨none, before, hbefore, ?_⟩
    rw [name, hindex, List.nil_append]
  | @object _ _ token between htext hbetween =>
    obtain ⟨hnew, hformed⟩ := hkey rfl
    have hinked : Inked ((token ++ (between ++ [colon])) ++ left) := by
      obtain ⟨chars, rfl, -⟩ := htext
      exact inked_cons rfl _
    refine ⟨some (n - (token ++ ((between ++ [colon]) ++ left)).length,
      n - ((between ++ [colon]) ++ left).length), [], by simp [Blank], ?_⟩
    unfold name
    dsimp only
    rw [whitespace_append hbefore hinked, List.append_assoc, string_text htext hformed]
    simp only [bind, Except.bind]
    have hcolon : Inked ([colon] ++ left) := @inked_cons colon rfl left
    rw [if_neg hnew, List.append_assoc, whitespace_append hbetween hcolon]
    rfl

/-- Taking a value, wherever it stands. -/
def TakenValue (n maxJsonNodes : Nat) (representable : List Nat → Bool) (v : Value)
    (token : List Nat) : Prop :=
  ∀ levels path count blank left, Blank blank → Ended left →
    Room representable maxJsonNodes levels path count v.places →
    ∃ node, read n maxJsonNodes representable levels (pointerOf path)
      { rest := blank ++ (token ++ left), count } =
        .ok (node, { rest := left, count := count + v.places.length })

/-- Taking the members of an object or an array, from an index on. -/
def TakenMembers (n maxJsonNodes : Nat) (representable : List Nat → Bool) (kind : Kind)
    (index : Nat) (members : List (List Nat × Value)) (units : List Nat) : Prop :=
  ∀ levels path count fuel (children : List (List Nat × Node)) left, children.length = index →
    members.length ≤ fuel →
    Room representable maxJsonNodes (levels + 1) path count (placesOf members) →
    (kind = .object → (children.map (·.1) ++ members.map (·.1)).Nodup ∧
      ∀ m ∈ members, wellFormed m.1 = true) →
    ∃ out, JsonSyntax.members n kind (pointerOf path)
      (read n maxJsonNodes representable levels) fuel children
      { rest := units ++ kind.closes :: left, count } =
        .ok (out, { rest := left, count := count + (placesOf members).length })

def Taken (n maxJsonNodes : Nat) (representable : List Nat → Bool) : Symbol → List Nat → Prop
  | .value v, token => TakenValue n maxJsonNodes representable v token
  | .members kind index members, units =>
    TakenMembers n maxJsonNodes representable kind index members units

theorem taken_leaf {item : Item}
    (h : Scalar item token) : TakenValue n maxJsonNodes representable (.node item []) token := by
  intro levels path count blank left hblank hleft hroom
  obtain ⟨hlevels, hshort, hproper, hnodes⟩ := hroom.self
  obtain ⟨c, cs, rfl, hc, hopened⟩ := scalar_head h
  obtain ⟨levels, rfl⟩ := Nat.exists_eq_succ_of_ne_zero hlevels.ne'
  have hscalar : scalar n representable (pointerOf path) (c :: cs ++ left) = .ok (item, left) :=
    scalar_token h hproper.allowed hleft
  have hinked : Inked (c :: cs ++ left) := inked_cons hc (cs ++ left)
  have hhead : opened (c :: cs ++ left).head? = none := hopened
  rw [Nat.succ_eq_add_one, read_succ]
  dsimp only
  rw [whitespace_append hblank hinked, if_neg (by omega), if_neg (by omega), hhead]
  dsimp only
  rw [hscalar]
  exact ⟨_, rfl⟩

/-- From a bracket on. -/
theorem taken_compound {kind : Kind} {members : List (List Nat × Value)} {inner left : List Nat}
    {path : List (List Nat)} {blank : List Nat} (hblank : Blank blank)
    (hroom : Room representable maxJsonNodes levels path count
      (KeyedTree.places (.node kind.item members)))
    (h : ∀ below, levels = below + 1 → ∃ out,
      compound n kind (pointerOf path) (read n maxJsonNodes representable below)
        { rest := inner, count := count + 1 } =
          .ok (out, { rest := left
                      count := count + (KeyedTree.places (.node kind.item members)).length })) :
    ∃ node, read n maxJsonNodes representable levels (pointerOf path)
      { rest := blank ++ kind.opens :: inner, count } =
        .ok (node, { rest := left
                     count := count + (KeyedTree.places (.node kind.item members)).length }) := by
  obtain ⟨hlevels, hshort, -, hnodes⟩ := hroom.self
  obtain ⟨below, rfl⟩ := Nat.exists_eq_succ_of_ne_zero hlevels.ne'
  obtain ⟨out, hout⟩ := h below rfl
  have hinked : Inked (kind.opens :: inner) := inked_cons (by cases kind <;> rfl) inner
  rw [Nat.succ_eq_add_one, read_succ]
  dsimp only
  rw [whitespace_append hblank hinked, if_neg (by omega), if_neg (by omega), List.head?_cons,
    opened_opens]
  dsimp only [List.tail_cons]
  rw [hout]
  exact ⟨_, rfl⟩

/-- One turn of the loop, up to what follows a member. -/
theorem taken_turn {kind : Kind}
    {next : List Nat} (hbefore : Blank before) (hnamed : Named kind index key units)
    (hbetween : Blank between) (hbehind : Blank behind)
    (hvalue : TakenValue n maxJsonNodes representable v token) (hended : Ended next)
    (hinked : Inked next) {path : List (List Nat)}
    (hroom : Room representable maxJsonNodes levels (path ++ [key]) count v.places)
    (hindex : children.length = index)
    (hkey : kind = .object → key ∉ children.map (·.1) ∧ wellFormed key = true) :
    ∃ child, ∀ fuel, members n kind (pointerOf path) (read n maxJsonNodes representable levels)
        (fuel + 1) children
        { rest := before ++ (units ++ (between ++ (token ++ (behind ++ next)))), count } =
      if next.head? = some kind.closes then
        .ok (children ++ [(key, child)], { rest := next.tail, count := count + v.places.length })
      else if next.head? = some comma then
        members n kind (pointerOf path) (read n maxJsonNodes representable levels) fuel
          (children ++ [(key, child)]) { rest := next.tail, count := count + v.places.length }
      else fail n "JSON_PARSE_FAILED" (n - next.length) (n - next.length + 1) (pointerOf path) := by
  obtain ⟨keySpan, blank, hblank, hname⟩ := name_named hbefore hnamed hindex hkey n
    (pointerOf path) (between ++ (token ++ (behind ++ next)))
  have hall : Blank (blank ++ between) := by
    intro c hc
    rcases List.mem_append.mp hc with hc | hc
    · exact hblank c hc
    · exact hbetween c hc
  obtain ⟨child, hchild⟩ := hvalue levels (path ++ [key]) count (blank ++ between) (behind ++ next)
    hall (ended_blank hbehind hended) hroom
  rw [pointerOf_concat, List.append_assoc] at hchild
  refine ⟨withKeySpan keySpan child, fun fuel => ?_⟩
  rw [members]
  dsimp only
  rw [hname]
  simp only [bind, Except.bind]
  rw [hchild]
  dsimp only
  rw [whitespace_append hbehind hinked]

/-- The first of the keys to come is new, and a text. -/
theorem first_key
    {members : List (List Nat × Value)}
    (h : (children.map (·.1) ++ ((key, v) :: members).map (·.1)).Nodup ∧
      ∀ m ∈ (key, v) :: members, wellFormed m.1 = true) :
    key ∉ children.map (·.1) ∧ wellFormed key = true := by
  obtain ⟨hnodup, hformed⟩ := h
  refine ⟨fun hin => ?_, hformed (key, v) List.mem_cons_self⟩
  exact (List.nodup_append.mp hnodup).2.2 key hin key List.mem_cons_self rfl

theorem taken_last {kind : Kind}
    (hbefore : Blank before) (hnamed : Named kind index key units)
    (hbetween : Blank between) (hbehind : Blank behind)
    (hvalue : TakenValue n maxJsonNodes representable v token) :
    TakenMembers n maxJsonNodes representable kind index [(key, v)]
      (before ++ (units ++ (between ++ (token ++ behind)))) := by
  intro levels path count fuel children left hindex hfuel hroom hkeys
  obtain ⟨fuel, rfl⟩ := Nat.exists_eq_succ_of_ne_zero (Nat.one_le_iff_ne_zero.mp hfuel)
  have hkey : kind = .object → key ∉ children.map (·.1) ∧ wellFormed key = true :=
    fun hkind => first_key (hkeys hkind)
  obtain ⟨child, hturn⟩ := taken_turn hbefore hnamed hbetween hbehind hvalue
    (ended_closes kind left) (inked_cons (isBlank_closes kind) left) hroom.member.1 hindex hkey
  have hunits : before ++ (units ++ (between ++ (token ++ behind))) ++ kind.closes :: left =
      before ++ (units ++ (between ++ (token ++ (behind ++ kind.closes :: left)))) := by
    simp only [List.append_assoc]
  refine ⟨children ++ [(key, child)], ?_⟩
  rw [hunits, Nat.succ_eq_add_one, hturn fuel, List.head?_cons, if_pos rfl, placesOf,
    placesOf, List.append_nil, List.length_map]
  rfl

theorem taken_more {kind : Kind}
    {tokens : List Nat}
    {members : List (List Nat × Value)} (hbefore : Blank before)
    (hnamed : Named kind index key units) (hbetween : Blank between) (hbehind : Blank behind)
    (hvalue : TakenValue n maxJsonNodes representable v token)
    (hmembers : TakenMembers n maxJsonNodes representable kind (index + 1) members tokens) :
    TakenMembers n maxJsonNodes representable kind index ((key, v) :: members)
      (before ++ (units ++ (between ++ (token ++ (behind ++ comma :: tokens))))) := by
  intro levels path count fuel children left hindex hfuel hroom hkeys
  rw [List.length_cons] at hfuel
  obtain ⟨fuel, rfl⟩ := Nat.exists_eq_succ_of_ne_zero (Nat.ne_zero_of_lt hfuel)
  obtain ⟨hfirst, hrest⟩ := hroom.member
  have hkey : kind = .object → key ∉ children.map (·.1) ∧ wellFormed key = true :=
    fun hkind => first_key (hkeys hkind)
  obtain ⟨child, hturn⟩ := taken_turn hbefore hnamed hbetween hbehind hvalue
    (ended_comma (tokens ++ kind.closes :: left)) (@inked_cons comma rfl _) hfirst hindex hkey
  have hunits : before ++ (units ++ (between ++ (token ++ (behind ++ comma :: tokens)))) ++
      kind.closes :: left = before ++ (units ++ (between ++ (token ++
        (behind ++ comma :: (tokens ++ kind.closes :: left))))) := by
    simp only [List.append_assoc, List.cons_append]
  have hcomma : some comma ≠ some kind.closes := fun h =>
    closes_ne_comma kind (Option.some.inj h).symm
  have hkeys' : kind = .object →
      ((children ++ [(key, child)]).map (·.1) ++ members.map (·.1)).Nodup ∧
        ∀ m ∈ members, wellFormed m.1 = true := by
    intro hkind
    obtain ⟨hnodup, hformed⟩ := hkeys hkind
    refine ⟨?_, fun m hm => hformed m (List.mem_cons_of_mem _ hm)⟩
    rw [List.map_append, List.append_assoc]
    exact hnodup
  obtain ⟨out, hout⟩ := hmembers levels path (count + v.places.length) fuel
    (children ++ [(key, child)]) left (by rw [List.length_append, hindex]; rfl)
    (Nat.le_of_succ_le_succ hfuel) hrest hkeys'
  refine ⟨out, ?_⟩
  rw [hunits, Nat.succ_eq_add_one, hturn fuel, List.head?_cons, if_neg hcomma, if_pos rfl,
    List.tail_cons, hout, placesOf, List.length_append, List.length_map, Nat.add_assoc]

/-- What is derived is taken. The induction is on the derivation. -/
theorem taken {symbol : Symbol} (h : Derives symbol units) :
    Taken n maxJsonNodes representable symbol units := by
  induction h with
  | scalar hscalar => exact taken_leaf hscalar
  | @empty kind inner hinner =>
    intro levels path count blank left hblank hleft hroom
    rw [List.cons_append, List.append_assoc, List.singleton_append]
    refine taken_compound hblank hroom fun below _ => ⟨[], ?_⟩
    unfold compound
    dsimp only
    rw [whitespace_append hinner (inked_cons (isBlank_closes kind) left), List.head?_cons,
      if_pos rfl]
    rfl
  | @compound kind members units hmembers ih =>
    intro levels path count blank left hblank hleft hroom
    have hproper := hroom.self.2.2.1
    have hkeys : kind = .object → (([] : List (List Nat × Node)).map (·.1) ++
        members.map (·.1)).Nodup ∧ ∀ m ∈ members, wellFormed m.1 = true := by
      rintro rfl
      exact ⟨hproper.distinct rfl, hproper.unicode rfl⟩
    rw [List.cons_append, List.append_assoc, List.singleton_append]
    refine taken_compound hblank hroom fun below hbelow => ?_
    subst hbelow
    have hlength : members.length ≤ (units ++ kind.closes :: left).length + 1 := by
      have hle := members_length hmembers _ _ _ rfl
      rw [List.length_append]
      omega
    obtain ⟨out, hout⟩ := ih below path (count + 1) _ [] left rfl hlength hroom.below hkeys
    refine ⟨out, ?_⟩
    rw [compound_eq read_skips, if_neg (not_closes_members hmembers _), hout, KeyedTree.places,
      List.length_cons, Nat.add_assoc, Nat.add_comm 1]
  | last hbefore hnamed hbetween _ hbehind ih =>
    exact taken_last hbefore hnamed hbetween hbehind ih
  | more hbefore hnamed hbetween _ hbehind _ ih ihs =>
    exact taken_more hbefore hnamed hbetween hbehind ih ihs

/-! ## Every other text is refused at a place of it -/

variable {text : List Nat} {kind : Kind} {path : List (List Nat)}

theorem name_error {pointer : List Nat} {rest : List Nat}
    {f : Fault} (h : name n kind pointer children rest = .error f) : Placed n f := by
  unfold name at h
  cases kind with
  | array => cases h
  | object =>
    dsimp only at h
    cases hstring : string n pointer (whitespace rest) with
    | error e =>
      rw [hstring] at h
      cases h
      exact string_error hstring
    | ok found =>
      obtain ⟨token, left⟩ := found
      rw [hstring] at h
      simp only [bind, Except.bind] at h
      obtain ⟨⟨units, hunits, -⟩, -, hstart, hstop⟩ := string_ok hstring
      have hlength := congrArg List.length hunits
      rw [List.length_append] at hlength
      split_ifs at h with hknown hcolon
      · exact placed_fail h (by omega)
      · exact placed_fail h (Nat.le_succ _)

variable {take : List Nat → State → Except Fault (Node × State)} {front : List Nat} {s : State}

/-- What the reader is to refuse, for every member. -/
abbrev Refuses (text : List Nat) (take : List Nat → State → Except Fault (Node × State)) : Prop :=
  ∀ {path : List (List Nat)} {front : List Nat} {s : State} {f : Fault},
    take (pointerOf path) s = .error f → text = front ++ s.rest → Placed text.length f

theorem members_error (htake : Takes representable text maxJsonNodes levels take)
    (hrefuses : Refuses text take) {fuel : Nat} {f : Fault}
    (hfuel : s.rest.length < fuel)
    (h : members text.length kind (pointerOf path) take fuel children s = .error f)
    (hfront : text = front ++ s.rest) : Placed text.length f := by
  induction fuel generalizing children front s with
  | zero => cases hfuel
  | succ fuel ih =>
    rw [members] at h
    cases hname : name text.length kind (pointerOf path) children s.rest with
    | error e =>
      rw [hname] at h
      cases h
      exact name_error hname
    | ok found =>
      obtain ⟨key, keySpan, left⟩ := found
      rw [hname] at h
      simp only [bind, Except.bind] at h
      cases hchild : take (pointerOf path ++ slash :: escapeJsonPointer key)
          { s with rest := left } with
      | error e =>
        rw [hchild] at h
        cases h
        obtain ⟨before, units, -, hrest, -⟩ := name_ok hname
        rw [← pointerOf_concat] at hchild
        have hfront' : text = (front ++ (before ++ units)) ++ left := by
          rw [hfront, hrest]
          simp only [List.append_assoc]
        exact hrefuses hchild hfront'
      | ok taken =>
        obtain ⟨child, after⟩ := taken
        rw [hchild] at h
        dsimp only at h
        obtain ⟨hturn, front', hfront'⟩ := turn_ok htake hfront hname hchild
        split_ifs at h with hcloses hcomma
        · have hrest := head_tail hcomma
          have hnext : text = (front' ++ [comma]) ++ (whitespace after.rest).tail := by
            rw [hfront', List.append_assoc]
            exact congrArg _ hrest
          refine ih ?_ h hnext
          obtain ⟨⟨before, units, between, token, behind, -, -, -, -, -, hall, -, -⟩, -, -, -, -⟩ :=
            hturn
          have hlength := congrArg List.length hall
          have hlength' := congrArg List.length hrest
          simp only [List.length_append, List.length_cons] at hlength hlength'
          dsimp only
          omega
        · exact placed_fail h (Nat.le_succ _)

theorem read_error (levels : Nat) :
    Refuses text (read text.length maxJsonNodes representable levels) := by
  induction levels with
  | zero =>
    intro path front s f h hfront
    rw [read_zero] at h
    split_ifs at h <;> exact placed_fail h (Nat.le_succ _)
  | succ levels ih =>
    intro path front s f h hfront
    rw [read_succ] at h
    split_ifs at h with hlong hmany
    · exact placed_fail h (Nat.le_succ _)
    · exact placed_fail h (Nat.le_succ _)
    cases hopened : opened (whitespace s.rest).head? with
    | none =>
      rw [hopened] at h
      dsimp only at h
      cases hscalar : scalar text.length representable (pointerOf path) (whitespace s.rest) with
      | error e =>
        rw [hscalar] at h
        cases h
        exact scalar_error hscalar
      | ok found =>
        rw [hscalar] at h
        cases h
    | some kind =>
      rw [hopened] at h
      dsimp only at h
      rw [compound_eq read_skips] at h
      dsimp only at h
      split_ifs at h with hcloses
      · cases h
      · obtain ⟨blank, -, hrest⟩ := whitespace_split s.rest
        have hbegins := head_tail (opened_some hopened)
        have hfront' : text = (front ++ (blank ++ [kind.opens])) ++ (whitespace s.rest).tail := by
          rw [hfront, List.append_assoc, List.append_assoc, List.singleton_append, ← hbegins]
          exact congrArg _ hrest
        cases hmembers : members text.length kind (pointerOf path)
            (read text.length maxJsonNodes representable levels)
            ((whitespace s.rest).tail.length + 1) []
            { rest := (whitespace s.rest).tail, count := s.count + 1 } with
        | error e =>
          rw [hmembers] at h
          cases h
          exact members_error (read_ok levels) ih (Nat.lt_succ_self _) hmembers hfront'
        | ok found =>
          rw [hmembers] at h
          cases h

/-! ## Strict JSON -/

/-- What is asked of a value beyond the grammar. -/
structure Fits (representable : List Nat → Bool) (maxJsonDepth maxJsonNodes : Nat) (v : Value) :
    Prop where
  depth : ∀ at_ ∈ v.places, at_.1.length ≤ maxJsonDepth
  nodes : v.places.length ≤ maxJsonNodes
  pointers : ∀ at_ ∈ v.places, byteLength (pointerOf at_.1) ≤ 8192
  proper : ∀ at_ ∈ v.places, Proper representable at_.2

/-- A tree of the text: every node stands where its token is, and its pointer tells its path. -/
structure Tree (text : List Nat) (root : Node) : Prop where
  spells : Spells text (valueOf root)
  nodes : ∀ at_ ∈ root.places, Stands text at_.1 at_.2
  paths : ∀ at_ ∈ root.places, pathOf at_.2.label.pointer = some at_.1
  distinct : (root.places.map fun at_ => at_.2.label.pointer).Nodup

/-- The parser accepts the JSON texts whose value fits and no other, returns a tree of the text, and
refuses every other text at a place of it. -/
structure Strict (representable : List Nat → Bool) (text : List Nat)
    (maxJsonDepth maxJsonNodes : Nat) (result : Except Fault Node) : Prop where
  accepts : (∃ root, result = .ok root) ↔
    ∃ v, Spells text v ∧ Fits representable maxJsonDepth maxJsonNodes v
  tree : ∀ root, result = .ok root → Tree text root
  refuses : ∀ f, result = .error f →
    ∃ e, f = .Syntax e ∧ 0 ≤ e.start ∧ e.start ≤ e.stop ∧ e.stop ≤ text.length

/-- The end of `parseJsonSyntax`, where the limits are admitted. -/
def parsed (representable : List Nat → Bool) (text : List Nat) (maxJsonDepth maxJsonNodes : Nat) :
    Except Fault Node :=
  (read text.length maxJsonNodes representable (maxJsonDepth + 1) []
    { rest := text, count := 0 }).bind fun found =>
      if whitespace found.2.rest = [] then .ok found.1
      else fail text.length "JSON_PARSE_FAILED" (text.length - (whitespace found.2.rest).length)
        (text.length - (whitespace found.2.rest).length + 1) []

theorem parseJsonSyntax_eq (representable : List Nat → Bool) (text : List Nat) (limits : Limits) :
    parseJsonSyntax representable text limits =
      match limit limits.maxJsonDepth 64, limit limits.maxJsonNodes 20000 with
      | some maxJsonDepth, some maxJsonNodes => parsed representable text maxJsonDepth maxJsonNodes
      | _, _ => .error .TypeError := rfl

theorem valueOf_keys (node : Node) :
    (valueOf node).members.map (·.1) = node.members.map (·.1) := by
  cases node
  exact KeyedTree.mapOf_keys

theorem kept_keys {node : Node} (h : Kept representable text path node) :
    (node.members.map (·.1)).Nodup := by
  rw [← valueOf_keys]
  have hproper := h.proper
  have htoken := h.stands.token
  revert hproper htoken
  generalize valueOf node = v
  generalize slice text node.label.start node.label.stop = units
  intro hproper htoken
  cases htoken with
  | scalar _ => exact List.nodup_nil
  | empty kind _ => exact List.nodup_nil
  | compound kind hmembers =>
    cases kind with
    | array => exact array_keys_nodup hmembers
    | object => exact hproper.distinct rfl

theorem places_valueOf (root : Node) :
    (valueOf root).places = root.places.map fun at_ => (at_.1, valueOf at_.2) :=
  KeyedTree.places_map Label.item root

/-- What is accepted is a tree of the text, whose value fits. -/
theorem parsed_ok {root : Node}
    (h : parsed representable text maxJsonDepth maxJsonNodes = .ok root) :
    Tree text root ∧ Fits representable maxJsonDepth maxJsonNodes (valueOf root) := by
  unfold parsed at h
  obtain ⟨⟨node, after⟩, hread, h⟩ := bind_ok h
  dsimp only at h
  split_ifs at h with hend
  · cases h
    have htakes : Takes representable text maxJsonNodes (maxJsonDepth + 1)
        (read text.length maxJsonNodes representable (maxJsonDepth + 1)) := read_ok _
    obtain ⟨⟨blank, token, hblank, hrest, hderives, -, -⟩, hcount, hbound, hnodes⟩ :=
      @htakes [] [] _ _ _ hread rfl
    obtain ⟨behind, hbehind, hafter⟩ := whitespace_split after.rest
    rw [hend, List.append_nil] at hafter
    rw [hafter] at hrest
    have hpointers : root.places.map (fun at_ => at_.2.label.pointer) =
        (root.places.map (·.1)).map pointerOf := by
      rw [List.map_map]
      exact List.map_congr_left fun at_ hat => (hnodes at_ hat).2.stands.pointer
    constructor
    · refine ⟨⟨blank, token, behind, hrest, hblank, hderives, hbehind⟩,
        fun at_ hat => (hnodes at_ hat).2.stands, fun at_ hat => ?_, ?_⟩
      · rw [(hnodes at_ hat).2.stands.pointer]
        exact pathOf_pointerOf at_.1
      · rw [hpointers]
        refine List.Nodup.map (fun _ _ h => pointerOf_injective h) ?_
        exact KeyedTree.paths_nodup root fun at_ hat => kept_keys (hnodes at_ hat).2
    · have hplaces := places_valueOf root
      have hall : ∀ at_ ∈ (valueOf root).places, ∃ node, (at_.1, node) ∈ root.places ∧
          at_.2 = valueOf node := by
        intro at_ hat
        rw [hplaces] at hat
        obtain ⟨found, hfound, rfl⟩ := List.mem_map.mp hat
        exact ⟨found.2, hfound, rfl⟩
      refine ⟨fun at_ hat => ?_, ?_, fun at_ hat => ?_, fun at_ hat => ?_⟩
      · obtain ⟨node, hnode, -⟩ := hall at_ hat
        exact Nat.lt_succ_iff.mp (hnodes _ hnode).1
      · rw [hplaces, List.length_map]
        dsimp only at hcount
        omega
      · obtain ⟨node, hnode, -⟩ := hall at_ hat
        exact (hnodes _ hnode).2.short
      · obtain ⟨node, hnode, hvalue⟩ := hall at_ hat
        rw [hvalue]
        exact (hnodes _ hnode).2.proper
  · exact absurd h fail_ne_ok

theorem parsed_of_fits (hspells : Spells text v)
    (hfits : Fits representable maxJsonDepth maxJsonNodes v) :
    ∃ root, parsed representable text maxJsonDepth maxJsonNodes = .ok root := by
  obtain ⟨before, token, behind, rfl, hbefore, hderives, hbehind⟩ := hspells
  have hended : Ended behind := by
    have hblank := ended_blank hbehind ended_nil
    rw [List.append_nil] at hblank
    exact hblank
  have hroom : Room representable maxJsonNodes (maxJsonDepth + 1) [] 0 v.places :=
    ⟨fun at_ hat => Nat.lt_succ_of_le (hfits.depth at_ hat), hfits.pointers, hfits.proper,
      by rw [Nat.zero_add]; exact hfits.nodes⟩
  have htaken :
      TakenValue (before ++ (token ++ behind)).length maxJsonNodes representable v token :=
    taken hderives
  obtain ⟨root, hroot⟩ := htaken _ [] 0 before behind hbefore hended hroom
  have hnothing : whitespace behind = [] := by
    have hskip := @whitespace_append [] behind hbehind (fun c hc => by cases hc)
    rw [List.append_nil] at hskip
    exact hskip
  have hread : read (before ++ (token ++ behind)).length maxJsonNodes representable
      (maxJsonDepth + 1) [] { rest := before ++ (token ++ behind), count := 0 } = _ := hroot
  refine ⟨root, ?_⟩
  unfold parsed
  rw [hread]
  simp only [Except.bind]
  rw [if_pos hnothing]

theorem parsed_error {f : Fault}
    (h : parsed representable text maxJsonDepth maxJsonNodes = .error f) :
    Placed text.length f := by
  unfold parsed at h
  cases hread : read text.length maxJsonNodes representable (maxJsonDepth + 1) []
      { rest := text, count := 0 } with
  | error e =>
    rw [hread] at h
    cases h
    have hrefuses : Refuses text
        (read text.length maxJsonNodes representable (maxJsonDepth + 1)) := read_error _
    exact @hrefuses [] [] _ _ hread rfl
  | ok found =>
    rw [hread] at h
    simp only [Except.bind] at h
    split_ifs at h with hend
    exact placed_fail h (Nat.le_succ _)

/-- Strict JSON is accepted and nothing else, for all limits that are admitted; any other limits are
a type error. -/
theorem parseJsonSyntax_strict (representable : List Nat → Bool) (text : List Nat)
    (limits : Limits) :
    match limit limits.maxJsonDepth 64, limit limits.maxJsonNodes 20000 with
    | some maxJsonDepth, some maxJsonNodes =>
      Strict representable text maxJsonDepth maxJsonNodes
        (parseJsonSyntax representable text limits)
    | _, _ => parseJsonSyntax representable text limits = .error .TypeError := by
  rw [parseJsonSyntax_eq]
  cases hdepth : limit limits.maxJsonDepth 64 with
  | none => rfl
  | some maxJsonDepth =>
    cases hnodes : limit limits.maxJsonNodes 20000 with
    | none => rfl
    | some maxJsonNodes =>
      refine ⟨⟨fun ⟨root, hroot⟩ => ?_, fun ⟨v, hspells, hfits⟩ => parsed_of_fits hspells hfits⟩,
        fun root hroot => (parsed_ok hroot).1, fun f hf => ?_⟩
      · obtain ⟨htree, hfits⟩ := parsed_ok hroot
        exact ⟨valueOf root, htree.spells, hfits⟩
      · obtain ⟨e, he, hle, hlast⟩ := parsed_error hf
        exact ⟨e, he, Nat.zero_le _, hle, hlast⟩

/-- A depth above the fixed one is no limit: nothing is parsed, though the text fits. -/
theorem not_strict_for_all_limits :
    ¬ ∀ (representable : List Nat → Bool) (text : List Nat) (maxJsonDepth maxJsonNodes : Nat),
      Strict representable text maxJsonDepth maxJsonNodes
        (parseJsonSyntax representable text
          ⟨some (.num (.ofNat maxJsonDepth)), some (.num (.ofNat maxJsonNodes))⟩) := by
  intro hall
  have hspells : Spells [0x31] (.node (.number [0x31]) []) :=
    ⟨[], [0x31], [], rfl, by simp [Blank], .scalar (.number ⟨[], [0x31], [], [], rfl, .inl rfl,
      .inr ⟨0x31, [], rfl, le_refl _, by decide, by simp⟩, .inl rfl, .inl rfl⟩), by simp [Blank]⟩
  have hfits : Fits (fun _ => true) 65 1 (.node (.number [0x31]) []) := by
    have hplaces : KeyedTree.places (.node (Item.number [0x31]) []) =
        [(([] : List (List Nat)), .node (.number [0x31]) [])] := rfl
    refine ⟨fun at_ hat => ?_, le_refl _, fun at_ hat => ?_, fun at_ hat => ?_⟩
    · rw [hplaces, List.mem_singleton] at hat
      subst hat
      exact Nat.zero_le _
    · rw [hplaces, List.mem_singleton] at hat
      subst hat
      exact Nat.zero_le _
    · rw [hplaces, List.mem_singleton] at hat
      subst hat
      exact proper_leaf rfl
  have hlimit : limit (some (.num (.ofNat 65))) 64 = none := by
    unfold limit
    dsimp only
    rw [BusinessGraph.safeInteger_ofNat (by norm_num)]
    rfl
  obtain ⟨root, hroot⟩ := (hall (fun _ => true) [0x31] 65 1).accepts.mpr ⟨_, hspells, hfits⟩
  rw [parseJsonSyntax_eq] at hroot
  dsimp only at hroot
  rw [hlimit] at hroot
  cases hroot

end Traqen.JsonSyntax
