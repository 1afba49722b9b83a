-- The grammar of JSON texts (RFC 8259), over UTF-16 code units: which texts spell which value. It
-- is the reference that a parser is compared with.
import Traqen.Lib.KeyedTree
import Traqen.Lib.Utf16

namespace Rfc8259

open Utf16 (unicodeUnit)

/-! ## Tokens -/

def quote : Nat := 0x22
def backslash : Nat := 0x5C
def comma : Nat := 0x2C
def colon : Nat := 0x3A

/-- `ws`: space, horizontal tab, line feed and carriage return. -/
def isBlank (c : Nat) : Bool := c = 0x20 || c = 0x09 || c = 0x0A || c = 0x0D

def Blank (units : List Nat) : Prop := ∀ c ∈ units, isBlank c = true

def isDigit (c : Nat) : Bool := 0x30 ≤ c && c ≤ 0x39

def Digits (units : List Nat) : Prop := units ≠ [] ∧ ∀ c ∈ units, isDigit c = true

/-- `int`: no zero before another digit. -/
def Whole (units : List Nat) : Prop :=
  units = [0x30] ∨ ∃ d ds, units = d :: ds ∧ 0x31 ≤ d ∧ d ≤ 0x39 ∧ ∀ c ∈ ds, isDigit c = true

def Fraction (units : List Nat) : Prop := units = [] ∨ ∃ ds, units = 0x2E :: ds ∧ Digits ds

def Exponent (units : List Nat) : Prop :=
  units = [] ∨ ∃ e sign ds, units = e :: (sign ++ ds) ∧ (e = 0x65 ∨ e = 0x45) ∧
    (sign = [] ∨ sign = [0x2B] ∨ sign = [0x2D]) ∧ Digits ds

structure Number (units : List Nat) : Prop where
  parts : ∃ minus whole fraction exponent, units = minus ++ (whole ++ (fraction ++ exponent)) ∧
    (minus = [] ∨ minus = [0x2D]) ∧ Whole whole ∧ Fraction fraction ∧ Exponent exponent

/-- The unit that an escape of one unit stands for. -/
def escaped (c : Nat) : Option Nat :=
  if c = quote ∨ c = backslash ∨ c = 0x2F then some c
  else if c = 0x62 then some 0x08
  else if c = 0x66 then some 0x0C
  else if c = 0x6E then some 0x0A
  else if c = 0x72 then some 0x0D
  else if c = 0x74 then some 0x09
  else none

/-- `*char`, with the units that are spelled. -/
inductive Chars : List Nat → List Nat → Prop
  | nil : Chars [] []
  | unescaped {c : Nat} {units value : List Nat} (hcontrol : 0x20 ≤ c) (hquote : c ≠ quote)
      (hescape : c ≠ backslash) (h : Chars units value) : Chars (c :: units) (c :: value)
  | escape {c d : Nat} {units value : List Nat} (hescape : escaped c = some d)
      (h : Chars units value) : Chars (backslash :: c :: units) (d :: value)
  | unicode {a b c d unit : Nat} {units value : List Nat} (hunit : unicodeUnit a b c d = some unit)
      (h : Chars units value) :
      Chars (backslash :: 0x75 :: a :: b :: c :: d :: units) (unit :: value)

/-- A string, between its quotation marks. -/
def Text (units value : List Nat) : Prop :=
  ∃ chars, units = quote :: (chars ++ [quote]) ∧ Chars chars value

/-! ## Values -/

/-- What stands at a node of a value. Of a number it is the token. -/
inductive Item where
  | null
  | bool (b : Bool)
  | number (token : List Nat)
  | string (value : List Nat)
  | array
  | object
  deriving DecidableEq

/-- A value. The members of an array have their indexes for keys. -/
abbrev Value := KeyedTree (List Nat) Item

def nullToken : List Nat := [0x6E, 0x75, 0x6C, 0x6C]
def trueToken : List Nat := [0x74, 0x72, 0x75, 0x65]
def falseToken : List Nat := [0x66, 0x61, 0x6C, 0x73, 0x65]

/-- A value without members, and its token. -/
inductive Scalar : Item → List Nat → Prop
  | null : Scalar .null nullToken
  | true : Scalar (.bool Bool.true) trueToken
  | false : Scalar (.bool Bool.false) falseToken
  | number {units : List Nat} (h : Number units) : Scalar (.number units) units
  | string {units value : List Nat} (h : Text units value) : Scalar (.string value) units

inductive Kind where
  | array
  | object
  deriving DecidableEq

def Kind.item : Kind → Item
  | array => .array
  | object => .object

def Kind.opens : Kind → Nat
  | array => 0x5B
  | object => 0x7B

def Kind.closes : Kind → Nat
  | array => 0x5D
  | object => 0x7D

/-- An index, as it is written. -/
def decimal (index : Nat) : List Nat := (Nat.toDigits 10 index).map Char.toNat

/-- What stands before a member: its name and the name separator, or nothing. -/
inductive Named : Kind → Nat → List Nat → List Nat → Prop
  | array (index : Nat) : Named .array index (decimal index) []
  | object (index : Nat) {key token before : List Nat} (htext : Text token key)
      (hbefore : Blank before) : Named .object index key (token ++ (before ++ [colon]))

inductive Symbol where
  | value (v : Value)
  /-- The members from an index on, which are not none. -/
  | members (kind : Kind) (index : Nat) (members : List (List Nat × Value))

/-- The texts that are derived from a symbol. A value stands without the whitespace around it. -/
inductive Derives : Symbol → List Nat → Prop
  | scalar {item : Item} {token : List Nat} (h : Scalar item token) :
      Derives (.value (.node item [])) token
  | empty (kind : Kind) {blank : List Nat} (h : Blank blank) :
      Derives (.value (.node kind.item [])) (kind.opens :: (blank ++ [kind.closes]))
  | compound (kind : Kind) {members : List (List Nat × Value)} {units : List Nat}
      (h : Derives (.members kind 0 members) units) :
      Derives (.value (.node kind.item members)) (kind.opens :: (units ++ [kind.closes]))
  | last {kind : Kind} {index : Nat} {key name before between token behind : List Nat} {v : Value}
      (hbefore : Blank before) (hname : Named kind index key name) (hbetween : Blank between)
      (hvalue : Derives (.value v) token) (hbehind : Blank behind) :
      Derives (.members kind index [(key, v)])
        (before ++ (name ++ (between ++ (token ++ behind))))
  | more {kind : Kind} {index : Nat} {key name before between token behind units : List Nat}
      {v : Value} {members : List (List Nat × Value)}
      (hbefore : Blank before) (hname : Named kind index key name) (hbetween : Blank between)
      (hvalue : Derives (.value v) token) (hbehind : Blank behind)
      (hmembers : Derives (.members kind (index + 1) members) units) :
      Derives (.members kind index ((key, v) :: members))
        (before ++ (name ++ (between ++ (token ++ (behind ++ comma :: units)))))

/-- `JSON-text`: a value, with whitespace around it. -/
def Spells (text : List Nat) (v : Value) : Prop :=
  ∃ before token behind, text = before ++ (token ++ behind) ∧ Blank before ∧
    Derives (.value v) token ∧ Blank behind

end Rfc8259
