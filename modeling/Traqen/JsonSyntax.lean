-- The bounded JSON syntax tree (`deterministic-facts/extraction/json-syntax.js`). A text is the list
-- of its UTF-16 code units, and the cursor is told by what is left of the text. Whether a number is
-- represented exactly is a question to its token.
import Traqen.BusinessGraph
import Traqen.Rfc8259

namespace Traqen.JsonSyntax

open Js (Json)
open Utf16 (byteLength unicodeUnit wellFormed)
open Rfc8259 (Item Kind backslash colon comma decimal falseToken nullToken quote trueToken)

def slash : Nat := 0x2F
def tilde : Nat := 0x7E

def escapeJsonPointer (key : List Nat) : List Nat :=
  (key.flatMap fun c => if c = tilde then [tilde, 0x30] else [c]).flatMap fun c =>
    if c = slash then [tilde, 0x31] else [c]

/-! ## Nodes and errors -/

/-- A node of the tree without its children: `type` and `value` are the item. -/
structure Label where
  pointer : List Nat
  start : Nat
  stop : Nat
  item : Item
  /-- `keyStart` and `keyEnd`. -/
  keySpan : Option (Nat × Nat)

/-- A node; the keys of its children are kept beside them. -/
abbrev Node := KeyedTree (List Nat) Label

structure JsonSyntaxError where
  code : String
  start : Nat
  stop : Nat
  pointer : List Nat
  deriving DecidableEq

inductive Fault where
  | TypeError
  | Syntax (error : JsonSyntaxError)
  | OutOfFuel
  deriving DecidableEq

/-- `fail`; `n` is the length of the text. -/
def fail {α : Type} (n : Nat) (code : String) (start stop : Nat) (pointer : List Nat) :
    Except Fault α :=
  .error (.Syntax { code, start := min n start, stop := min n stop, pointer })

/-! ## Tokens -/

/-- `/[\x20\x09\x0a\x0d]/`. -/
def isWhitespace (c : Nat) : Bool := c = 0x20 || c = 0x09 || c = 0x0A || c = 0x0D

def whitespace (rest : List Nat) : List Nat := rest.dropWhile isWhitespace

/-- From behind a quotation mark: up to the next that is not behind a backslash, and what is
left. -/
def closing : List Nat → Option (List Nat × List Nat)
  | [] => none
  | c :: cs =>
    if c = quote then some ([c], cs)
    else if c = backslash then
      match cs with
      | [] => none
      | e :: rest => (closing rest).map fun found => (c :: e :: found.1, found.2)
    else (closing cs).map fun found => (c :: found.1, found.2)

def escapedUnit (c : Nat) : Option Nat :=
  if c = quote ∨ c = backslash ∨ c = slash then some c
  else if c = 0x62 then some 0x08
  else if c = 0x66 then some 0x0C
  else if c = 0x6E then some 0x0A
  else if c = 0x72 then some 0x0D
  else if c = 0x74 then some 0x09
  else none

/-- `JSON.parse` of a string, from behind its first quotation mark; nothing where it throws. -/
def unquoted : List Nat → Option (List Nat)
  | [] => none
  | c :: cs =>
    if c = quote then if cs = [] then some [] else none
    else if c < 0x20 then none
    else if c = backslash then
      match cs with
      | [] => none
      | e :: rest =>
        if e = 0x75 then
          match rest with
          | x :: y :: z :: w :: more => do
            let unit ← unicodeUnit x y z w
            let value ← unquoted more
            return unit :: value
          | _ => none
        else do
          let unit ← escapedUnit e
          let value ← unquoted rest
          return unit :: value
    else (unquoted cs).map (c :: ·)

structure Token where
  value : List Nat
  start : Nat
  stop : Nat

def string (n : Nat) (pointer rest : List Nat) : Except Fault (Token × List Nat) :=
  let start := n - rest.length
  match rest with
  | [] => fail n "JSON_PARSE_FAILED" start (start + 1) pointer
  | c :: cs =>
    if c ≠ quote then fail n "JSON_PARSE_FAILED" start (start + 1) pointer
    else
      match closing cs with
      | none => fail n "JSON_PARSE_FAILED" start n pointer
      | some (body, left) =>
        let stop := n - left.length
        match unquoted body with
        | none => fail n "JSON_PARSE_FAILED" start stop pointer
        | some value =>
          if wellFormed value then .ok ({ value, start, stop }, left)
          else fail n "JSON_UNICODE_UNSUPPORTED" start stop pointer

/-- `[0-9]*`. -/
def digits (rest : List Nat) : List Nat := rest.takeWhile fun c => 0x30 ≤ c && c ≤ 0x39

/-- `(?:0|[1-9][0-9]*)`; empty where it does not match. -/
def whole : List Nat → List Nat
  | [] => []
  | c :: cs => if c = 0x30 then [c] else if 0x31 ≤ c ∧ c ≤ 0x39 then c :: digits cs else []

/-- `(?:\.[0-9]+)?`. -/
def fraction : List Nat → List Nat
  | [] => []
  | c :: cs => if c = 0x2E ∧ digits cs ≠ [] then c :: digits cs else []

/-- `[+-]?`. -/
def sign : List Nat → List Nat
  | [] => []
  | c :: _ => if c = 0x2B ∨ c = 0x2D then [c] else []

/-- `(?:[eE][+-]?[0-9]+)?`. -/
def exponent : List Nat → List Nat
  | [] => []
  | c :: cs =>
    let behind := digits (cs.drop (sign cs).length)
    if (c = 0x65 ∨ c = 0x45) ∧ behind ≠ [] then c :: (sign cs ++ behind) else []

/-- `-?`. -/
def minus : List Nat → List Nat
  | [] => []
  | c :: _ => if c = 0x2D then [c] else []

def number (rest : List Nat) : Option (List Nat) :=
  let behindMinus := rest.drop (minus rest).length
  let behindWhole := behindMinus.drop (whole behindMinus).length
  let behindFraction := behindWhole.drop (fraction behindWhole).length
  if whole behindMinus = [] then none
  else
    some (minus rest ++
      (whole behindMinus ++ (fraction behindWhole ++ exponent behindFraction)))

/-- The token of a literal or a number, and what `JSON.parse` gives for it. -/
def literal (rest : List Nat) : Option (Item × List Nat) :=
  if trueToken.isPrefixOf rest then some (.bool true, trueToken)
  else if falseToken.isPrefixOf rest then some (.bool false, falseToken)
  else if nullToken.isPrefixOf rest then some (.null, nullToken)
  else (number rest).map fun token => (.number token, token)

/-! ## The reader -/

/-- What is left of the text, and how many values there were. -/
structure State where
  rest : List Nat
  count : Nat

/-- The key of the next member and its span: an object has names, an array counts. -/
def name (n : Nat) (kind : Kind) (pointer : List Nat) (children : List (List Nat × Node))
    (rest : List Nat) : Except Fault (List Nat × Option (Nat × Nat) × List Nat) :=
  match kind with
  | .array => .ok (decimal children.length, none, rest)
  | .object => do
    let (token, left) ← string n pointer (whitespace rest)
    if token.value ∈ children.map (·.1) then
      fail n "JSON_DUPLICATE_KEY" token.start token.stop pointer
    else
      let left := whitespace left
      if left.head? = some colon then
        .ok (token.value, some (token.start, token.stop), left.tail)
      else fail n "JSON_PARSE_FAILED" (n - left.length) (n - left.length + 1) pointer

def withKeySpan (keySpan : Option (Nat × Nat)) (node : Node) : Node :=
  .node { node.label with keySpan } node.members

/-- The `while` over the members. Every turn but the last takes a comma. -/
def members (n : Nat) (kind : Kind) (pointer : List Nat)
    (read : List Nat → State → Except Fault (Node × State)) :
    Nat → List (List Nat × Node) → State → Except Fault (List (List Nat × Node) × State)
  | 0, _, _ => .error .OutOfFuel
  | fuel + 1, children, s => do
    let (key, keySpan, left) ← name n kind pointer children s.rest
    let (child, s) ← read (pointer ++ slash :: escapeJsonPointer key) { s with rest := left }
    let children := children ++ [(key, withKeySpan keySpan child)]
    let rest := whitespace s.rest
    if rest.head? = some kind.closes then .ok (children, { s with rest := rest.tail })
    else if rest.head? = some comma then
      members n kind pointer read fuel children { s with rest := rest.tail }
    else fail n "JSON_PARSE_FAILED" (n - rest.length) (n - rest.length + 1) pointer

/-- From behind the bracket that opens an object or an array. -/
def compound (n : Nat) (kind : Kind) (pointer : List Nat)
    (read : List Nat → State → Except Fault (Node × State)) (s : State) :
    Except Fault (List (List Nat × Node) × State) :=
  let rest := whitespace s.rest
  if rest.head? = some kind.closes then .ok ([], { s with rest := rest.tail })
  else members n kind pointer read (s.rest.length + 1) [] { s with rest }

/-- A value that has no members. -/
def scalar (n : Nat) (representable : List Nat → Bool) (pointer rest : List Nat) :
    Except Fault (Item × List Nat) :=
  let start := n - rest.length
  if rest.head? = some quote then do
    let (token, left) ← string n pointer rest
    return (.string token.value, left)
  else
    match literal rest with
    | none => fail n "JSON_PARSE_FAILED" start (start + 1) pointer
    | some (item, token) =>
      let left := rest.drop token.length
      if item = Item.number token ∧ representable token = false then
        fail n "JSON_NUMBER_UNREPRESENTABLE" start (n - left.length) pointer
      else .ok (item, left)

/-- The kind of what a bracket opens. -/
def opened (c : Option Nat) : Option Kind :=
  if c = some 0x7B then some .object else if c = some 0x5B then some .array else none

/-- `read`, with as many levels as may still be gone down: none is left where
`depth > maxJsonDepth`. -/
def read (n maxJsonNodes : Nat) (representable : List Nat → Bool) :
    Nat → List Nat → State → Except Fault (Node × State)
  | levels, pointer, s =>
    let rest := whitespace s.rest
    let start := n - rest.length
    if 8192 < byteLength pointer then fail n "JSON_STRUCTURE_LIMIT" start (start + 1) []
    else
      match levels with
      | 0 => fail n "JSON_STRUCTURE_LIMIT" start (start + 1) pointer
      | levels + 1 =>
        if maxJsonNodes < s.count + 1 then
          fail n "JSON_STRUCTURE_LIMIT" start (start + 1) pointer
        else
          match opened rest.head? with
          | some kind => do
            let (children, s) ← compound n kind pointer
              (read n maxJsonNodes representable levels) { rest := rest.tail, count := s.count + 1 }
            let stop := n - s.rest.length
            return (.node { pointer, start, stop, item := kind.item, keySpan := none } children, s)
          | none => do
            let (item, left) ← scalar n representable pointer rest
            let stop := n - left.length
            return (.node { pointer, start, stop, item, keySpan := none } [],
              { rest := left, count := s.count + 1 })

/-! ## The texts -/

structure Limits where
  maxJsonDepth : Option Json
  maxJsonNodes : Option Json

/-- A limit, or its default: a safe integer from one to the fixed bound. -/
def limit (value : Option Json) (bound : Nat) : Option Nat :=
  match value with
  | none => some bound
  | some value =>
    match BusinessGraph.safeInteger (some value) with
    | none => none
    | some i => if i < 1 ∨ (bound : Int) < i then none else some i.toNat

def parseJsonSyntax (representable : List Nat → Bool) (text : List Nat) (limits : Limits) :
    Except Fault Node :=
  match limit limits.maxJsonDepth 64, limit limits.maxJsonNodes 20000 with
  | some maxJsonDepth, some maxJsonNodes => do
    let (root, s) ← read text.length maxJsonNodes representable (maxJsonDepth + 1) []
      { rest := text, count := 0 }
    let rest := whitespace s.rest
    let at_ := text.length - rest.length
    if rest = [] then .ok root else fail text.length "JSON_PARSE_FAILED" at_ (at_ + 1) []
  | _, _ => .error .TypeError

end Traqen.JsonSyntax
