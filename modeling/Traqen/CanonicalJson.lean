-- Canonical JSON (`domain/canonical-json.js`): the text that does not depend on
-- the order of object keys, and the content ids made from it.
import Mathlib
import Traqen.Lib.Json

open Js

namespace Traqen

/-- The comparison of the default `sort` of object keys: by UTF-16 code units. -/
def keyLe (a b : String × Json) : Prop :=
  (codeUnits b.1).lex (codeUnits a.1) (fun x y => decide (x < y)) = false

instance : DecidableRel keyLe := fun a b =>
  inferInstanceAs (Decidable ((codeUnits b.1).lex (codeUnits a.1) _ = false))

mutual

def canonicalizeValue : Json → Json
  | .arr items => .arr (canonicalizeItems items)
  | .obj fields => .obj (fromEntries ((canonicalizeFields fields).insertionSort keyLe))
  | v => v

def canonicalizeItems : List Json → List Json
  | [] => []
  | v :: vs => canonicalizeValue v :: canonicalizeItems vs

def canonicalizeFields : List (String × Json) → List (String × Json)
  | [] => []
  | (k, v) :: fs => (k, canonicalizeValue v) :: canonicalizeFields fs

end

def canonicalJson (v : Json) : String := (canonicalizeValue v).stringify

/-- The first 24 digits of the SHA-256 of the canonical text; `sha256` gives the hex digits. -/
def contentId (sha256 : String → String) (pre : String) (v : Json) : String :=
  pre ++ "-" ++ String.ofList ((sha256 (canonicalJson v)).toList.take 24)

/-- A digest that is known on some texts, each told by the sum of its bytes. -/
def tabledDigest (table : List (Nat × String)) (text : String) : String :=
  (table.lookup (text.toUTF8.data.toList.map UInt8.toNat).sum).getD ""

end Traqen
