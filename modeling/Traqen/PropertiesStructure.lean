-- Property declarations (`deterministic-facts/extraction/properties-structure.js`): natural lines
-- are put together to logical lines, a logical line is cut into a key and a value, and both are
-- decoded.
-- A text is the list of its UTF-16 code units.
import Traqen.Lib.Utf16

namespace Traqen.PropertiesStructure

open Utf16 (byteLength hexDigit slice unicodeUnit wellFormed)

/-! ## Code units -/

def space : Nat := 0x20
def tab : Nat := 0x09
def formFeed : Nat := 0x0C
def lineFeed : Nat := 0x0A
def carriageReturn : Nat := 0x0D
def backslash : Nat := 0x5C
def hash : Nat := 0x23
def bang : Nat := 0x21
def equals : Nat := 0x3D
def colon : Nat := 0x3A

def whitespace (c : Nat) : Bool := c = space || c = tab || c = formFeed

def separator (c : Nat) : Bool := c = equals || c = colon

/-! ## Natural lines -/

structure Line where
  start : Nat
  stop : Nat
  deriving DecidableEq

/-- The loop of `naturalLines`, at an index of the text, with what is left of it. -/
def naturalLinesFrom (start index : Nat) : List Nat → List Line
  | [] => [⟨start, index⟩]
  | c :: cs =>
    if c = carriageReturn then
      match cs with
      | d :: rest =>
        if d = lineFeed then ⟨start, index⟩ :: naturalLinesFrom (index + 2) (index + 2) rest
        else ⟨start, index⟩ :: naturalLinesFrom (index + 1) (index + 1) (d :: rest)
      | [] => ⟨start, index⟩ :: naturalLinesFrom (index + 1) (index + 1) []
    else if c = lineFeed then ⟨start, index⟩ :: naturalLinesFrom (index + 1) (index + 1) cs
    else naturalLinesFrom start (index + 1) cs

def naturalLines (text : List Nat) : List Line := naturalLinesFrom 0 0 text

/-! ## Decoding -/

structure ConfigSyntaxError where
  code : String
  start : Nat
  stop : Nat
  deriving DecidableEq

/-- `({ t: "\t", n: "\n", r: "\r", f: "\f" })[escaped] ?? escaped`. -/
def escapedUnit (c : Nat) : Nat :=
  if c = 0x74 then tab
  else if c = 0x6E then lineFeed
  else if c = 0x72 then carriageReturn
  else if c = 0x66 then formFeed
  else c

/-- The loop of `decode`; nothing where an escape is invalid. -/
def unescape : List Nat → Option (List Nat)
  | [] => some []
  | c :: cs =>
    if c ≠ backslash then (unescape cs).map (c :: ·)
    else
      match cs with
      | [] => none
      | escaped :: rest =>
        if escaped ≠ 0x75 then (unescape rest).map (escapedUnit escaped :: ·)
        else
          match rest with
          | x :: y :: z :: w :: more => do
            let unit ← unicodeUnit x y z w
            let units ← unescape more
            return unit :: units
          | _ => none

def decode (text : List Nat) (start stop : Nat) : Except ConfigSyntaxError (List Nat) :=
  match unescape text with
  | none => .error { code := "CONFIG_ESCAPE_INVALID", start, stop }
  | some value =>
    if wellFormed value then .ok value
    else .error { code := "CONFIG_UNICODE_UNSUPPORTED", start, stop }

/-! ## A logical line -/

/-- How many units from the front of a logical line belong to its key. -/
def keyLength : Bool → List Nat → Nat
  | _, [] => 0
  | escaped, c :: cs =>
    if escaped = false ∧ (whitespace c = true ∨ separator c = true) then 0
    else 1 + keyLength (!escaped && decide (c = backslash)) cs

structure Entry where
  key : List Nat
  value : List Nat
  keyStart : Nat
  keyEnd : Nat
  valueStart : Nat
  valueEnd : Nat
  deriving DecidableEq

/-- How many units from the front are whitespace. -/
def blanks (units : List Nat) : Nat := (units.takeWhile whitespace).length

/-- `valueStart`, behind the key: whitespace, one separator, and whitespace again. -/
def valueOffset (logical : List Nat) (keyEnd : Nat) : Nat :=
  let afterBlanks := keyEnd + blanks (logical.drop keyEnd)
  let afterSeparator :=
    if (logical[afterBlanks]?).any separator then afterBlanks + 1 else afterBlanks
  afterSeparator + blanks (logical.drop afterSeparator)

/-- The entry of a logical line, whose units stand at the offsets of the text, up to an end. -/
def entryOf (logical offsets : List Nat) (stop : Nat) : Except ConfigSyntaxError Entry := do
  let position := fun at_ => (offsets[at_]?).getD stop
  let keyStart := blanks logical
  let keyEnd := keyStart + keyLength false (logical.drop keyStart)
  let valueStart := valueOffset logical keyEnd
  let keyPhysicalStart := position keyStart
  let keyPhysicalEnd :=
    if keyEnd = keyStart then keyPhysicalStart else position (keyEnd - 1) + 1
  let key ← decode (slice logical keyStart keyEnd) keyPhysicalStart keyPhysicalEnd
  let value ← decode (logical.drop valueStart) (position valueStart) stop
  return { key, value, keyStart := keyPhysicalStart, keyEnd := keyPhysicalEnd
           valueStart := position valueStart, valueEnd := stop }

/-! ## The declarations of a text -/

structure Limits where
  maxConfigEntries : Nat
  maxConfigLineBytes : Nat

/-- A logical line that is continued: the natural line it began on, and what is there of it. -/
structure Pending where
  first : Line
  logical : List Nat
  offsets : List Nat

/-- The line is blank or a comment. -/
def isSkipped (text : List Nat) (line : Line) : Bool :=
  let left := line.start + blanks (slice text line.start line.stop)
  decide (left = line.stop) || (text[left]?).any fun c => c = hash || c = bang

/-- The natural line is taken up: what is there of the logical line now, and whether it goes on. -/
def extend (text : List Nat) (pending : Pending) (line : Line) : Pending × Bool :=
  let start :=
    if pending.offsets = [] then line.start
    else line.start + blanks (slice text line.start line.stop)
  let slashes := ((slice text start line.stop).reverse.takeWhile (· = backslash)).length
  let continued := decide (slashes % 2 = 1)
  let stop := if continued then line.stop - 1 else line.stop
  ({ pending with
     logical := pending.logical ++ slice text start stop
     offsets := pending.offsets ++ List.range' start (stop - start) }, continued)

/-- The two loops of `parsePropertyDeclarations`: over the natural lines, within a logical line that
is continued or between two of them. -/
def declarations (text : List Nat) (limits : Limits) :
    Option Pending → List Entry → List Line → Except ConfigSyntaxError (List Entry)
  | _, entries, [] => .ok entries
  | pending, entries, line :: rest =>
    if pending.isNone ∧ isSkipped text line then declarations text limits none entries rest
    else
      let open_ := pending.getD { first := line, logical := [], offsets := [] }
      match extend text open_ line with
      | (extended, continued) =>
        if limits.maxConfigLineBytes < byteLength extended.logical then
          .error { code := "CONFIG_STRUCTURE_LIMIT", start := open_.first.start, stop := line.stop }
        else if continued then
          if rest = [] then
            .error { code := "CONFIG_CONTINUATION_INCOMPLETE", start := open_.first.start
                     stop := line.stop }
          else declarations text limits (some extended) entries rest
        else if limits.maxConfigEntries ≤ entries.length then
          .error { code := "CONFIG_STRUCTURE_LIMIT", start := open_.first.start, stop := line.stop }
        else
          match entryOf extended.logical extended.offsets line.stop with
          | .error e => .error e
          | .ok entry => declarations text limits none (entries ++ [entry]) rest

inductive Refusal where
  | TypeError
  | Syntax (error : ConfigSyntaxError)
  deriving DecidableEq

def parsePropertyDeclarations (text : List Nat) (limits : Limits) : Except Refusal (List Entry) :=
  if limits.maxConfigEntries < 1 ∨ 20000 < limits.maxConfigEntries ∨
      limits.maxConfigLineBytes < 1 ∨ 65536 < limits.maxConfigLineBytes then .error .TypeError
  else
    match declarations text limits none [] (naturalLines text) with
    | .error e => .error (.Syntax e)
    | .ok entries => .ok entries

end Traqen.PropertiesStructure
