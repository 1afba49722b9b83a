-- What `java.util.Properties.load(Reader)` puts: its line reader takes the characters one by one,
-- a logical line is cut at the first separator, and `\uXXXX` and the other escapes are converted.
-- This is the reference that property declarations are compared with; it says nothing of their code.
import Mathlib.Data.List.Basic

namespace JavaProperties

/-! ## The line reader -/

/-- A character that is blank, and one that ends a line. -/
def isBlank (c : Nat) : Bool := c = 0x20 || c = 0x09 || c = 0x0C
def isLineEnd (c : Nat) : Bool := c = 0x0A || c = 0x0D

structure Reader where
  /-- `lineBuf`, up to `len`. -/
  line : List Nat
  skipWhiteSpace : Bool
  appendedLineBegin : Bool
  precedingBackslash : Bool
  /-- In a comment, whose line is read over. -/
  comment : Bool
  /-- Behind a `\r` that was escaped: a `\n` belongs to it. -/
  escapedReturn : Bool

def fresh : Reader :=
  { line := [], skipWhiteSpace := true, appendedLineBegin := false, precedingBackslash := false
    comment := false, escapedReturn := false }

/-- Without the backslash at its end. -/
def finished (r : Reader) : List Nat := if r.precedingBackslash then r.line.dropLast else r.line

/-- The lines that `readLine` returns, until there is none. A line end of an empty line is read
over; an escaped one at the very end of the input ends the line. -/
def readLines (r : Reader) : List Nat → List (List Nat)
  | [] => if r.line = [] then [] else [finished r]
  | c :: cs =>
    if r.escapedReturn = true ∧ c = 0x0A then readLines { r with escapedReturn := false } cs
    else if r.comment then
      if isLineEnd c then readLines fresh cs else readLines { r with escapedReturn := false } cs
    else if r.skipWhiteSpace = true ∧ isBlank c = true then
      readLines { r with escapedReturn := false } cs
    else if r.skipWhiteSpace = true ∧ r.appendedLineBegin = false ∧ isLineEnd c = true then
      readLines { r with escapedReturn := false } cs
    else if r.line = [] ∧ (c = 0x23 ∨ c = 0x21) then
      readLines { r with comment := true, escapedReturn := false } cs
    else if isLineEnd c = false then
      readLines
        { r with
          line := r.line ++ [c], skipWhiteSpace := false, appendedLineBegin := false
          precedingBackslash := decide (c = 0x5C) && !r.precedingBackslash
          escapedReturn := false } cs
    else if r.line = [] then readLines fresh cs
    else if cs = [] then [finished r]
    else if r.precedingBackslash then
      readLines
        { line := r.line.dropLast, skipWhiteSpace := true, appendedLineBegin := true
          precedingBackslash := false, comment := false, escapedReturn := decide (c = 0x0D) } cs
    else r.line :: readLines fresh cs

/-! ## Keys and elements -/

/-- `keyLen`: up to the first separator or blank that is not escaped. -/
def keyLen (precedingBackslash : Bool) : List Nat → Nat
  | [] => 0
  | c :: cs =>
    if (c = 0x3D ∨ c = 0x3A ∨ isBlank c = true) ∧ precedingBackslash = false then 0
    else keyLen (decide (c = 0x5C) && !precedingBackslash) cs + 1

/-- From `valueStart` on: blanks, and one separator where none was there yet. -/
def skipSeparators (hasSep : Bool) : List Nat → List Nat
  | [] => []
  | c :: cs =>
    if isBlank c then skipSeparators hasSep cs
    else if hasSep = false ∧ (c = 0x3D ∨ c = 0x3A) then skipSeparators true cs
    else c :: cs

/-- What is behind the key, with its separator. -/
def element (line : List Nat) : List Nat :=
  match line.drop (keyLen false line) with
  | [] => []
  | c :: cs => skipSeparators (decide (c = 0x3D ∨ c = 0x3A)) cs

def digit (c : Nat) : Option Nat :=
  if 0x30 ≤ c ∧ c ≤ 0x39 then some (c - 0x30)
  else if 0x61 ≤ c ∧ c ≤ 0x66 then some (10 + c - 0x61)
  else if 0x41 ≤ c ∧ c ≤ 0x46 then some (10 + c - 0x41)
  else none

/-- `value = (value << 4) + digit`, for each of the digits. -/
def hexValue (digits : List Nat) : Option Nat :=
  digits.foldlM (fun value c => (digit c).map fun d => value * 16 + d) 0

/-- `loadConvert`; nothing where it throws. No line ends with a backslash that escapes nothing. -/
def loadConvert : List Nat → Option (List Nat)
  | [] => some []
  | c :: cs =>
    if c = 0x5C then
      match cs with
      | [] => none
      | e :: rest =>
        if e = 0x75 then
          match rest with
          | a :: b :: c :: d :: more =>
            match hexValue [a, b, c, d] with
            | none => none
            | some value => (loadConvert more).map (value :: ·)
          | _ => none
        else
          let e :=
            if e = 0x74 then 0x09 else if e = 0x72 then 0x0D else if e = 0x6E then 0x0A
            else if e = 0x66 then 0x0C else e
          (loadConvert rest).map (e :: ·)
    else (loadConvert cs).map (c :: ·)

/-- One turn of `load0`: the key and the element of a line. -/
def pair (line : List Nat) : Option (List Nat × List Nat) := do
  let key ← loadConvert (line.take (keyLen false line))
  let value ← loadConvert (element line)
  return (key, value)

/-- `load(Reader)`: the pairs that are put, in order; nothing where it throws. -/
def load (text : List Nat) : Option (List (List Nat × List Nat)) := (readLines fresh text).mapM pair

end JavaProperties
