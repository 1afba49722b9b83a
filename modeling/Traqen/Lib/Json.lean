-- JSON values as a JavaScript program reads them: own fields, optional
-- chaining, truthiness, strict equality, and the texts that `String` and
-- `JSON.stringify` give.
import Mathlib.Data.List.Basic
import Mathlib.Data.List.Sort
import Mathlib.Algebra.Ring.Int.Defs

namespace Js

/-! ## Numbers -/

/-- A finite number, as the digits and the power of ten of its shortest decimal
text. `-0` is `0`, as `===` and `JSON.stringify` have it. -/
structure Number where
  mantissa : Int
  exponent : Int
  normal : mantissa % 10 ≠ 0 ∨ (mantissa = 0 ∧ exponent = 0)
deriving DecidableEq

namespace Number

theorem normal_one : (1 : Int) % 10 ≠ 0 ∨ ((1 : Int) = 0 ∧ (0 : Int) = 0) := by decide

/-- `Number.isInteger`. -/
def isInteger (x : Number) : Bool := decide (0 ≤ x.exponent)

/-- A count as a number: the trailing zeros go to the exponent, with fuel for each digit. -/
def ofNatDigits : Nat → Nat → Nat → Number
  | fuel, n, e =>
    if h : n % 10 ≠ 0 then { mantissa := n, exponent := e, normal := Or.inl (by omega) }
    else
      match fuel with
      | 0 => { mantissa := 0, exponent := 0, normal := Or.inr ⟨rfl, rfl⟩ }
      | fuel + 1 => ofNatDigits fuel (n / 10) (e + 1)

def ofNat (n : Nat) : Number := ofNatDigits n n 0

def ofInt (i : Int) : Number :=
  let n := ofNat i.natAbs
  if i < 0 then
    { mantissa := -n.mantissa
      exponent := n.exponent
      normal := by
        rcases n.normal with h | h
        · exact Or.inl (by omega)
        · exact Or.inr ⟨by omega, h.2⟩ }
  else n

/-- The value of an integer. -/
def toInt (x : Number) : Int := x.mantissa * 10 ^ x.exponent.toNat

theorem toInt_ofNatDigits (fuel n e : Nat) (h : n ≤ fuel) :
    (ofNatDigits fuel n e).toInt = n * 10 ^ e := by
  induction fuel generalizing n e with
  | zero =>
    have hzero : n = 0 := by omega
    subst hzero
    simp [ofNatDigits, toInt]
  | succ fuel ih =>
    unfold ofNatDigits
    by_cases hn : n % 10 ≠ 0
    · rw [dif_pos hn]
      simp [toInt]
    · rw [dif_neg hn]
      dsimp only
      rw [ih (n / 10) (e + 1) (by omega)]
      have hten : (n : Int) = (n / 10 : Nat) * 10 := by omega
      rw [pow_succ, hten, mul_comm (10 ^ e) 10, ← mul_assoc]

theorem toInt_ofNat (n : Nat) : (ofNat n).toInt = n := by
  unfold ofNat
  rw [toInt_ofNatDigits n n 0 (Nat.le_refl n), pow_zero, mul_one]

theorem ofNat_injective {m n : Nat} (h : ofNat m = ofNat n) : m = n := by
  have hint := congrArg toInt h
  rw [toInt_ofNat, toInt_ofNat] at hint
  exact Int.ofNat.inj hint

/-- The comparison `x < 1`, for an integer `x`. -/
def belowOne (x : Number) : Bool := decide (x.mantissa ≤ 0)

/-- The digits of `Number::toString`: plain up to 21 places, else with an exponent. -/
def unsignedText (x : Number) : List Char :=
  let s := Nat.toDigits 10 x.mantissa.natAbs
  let n : Int := s.length + x.exponent
  if s.length ≤ n ∧ n ≤ 21 then s ++ List.replicate x.exponent.toNat '0'
  else if 0 < n ∧ n ≤ 21 then s.take n.toNat ++ '.' :: s.drop n.toNat
  else if -6 < n ∧ n ≤ 0 then '0' :: '.' :: List.replicate (-n).toNat '0' ++ s
  else
    let e := n - 1
    let sign := if e < 0 then '-' else '+'
    let tail := 'e' :: sign :: Nat.toDigits 10 e.natAbs
    match s with
    | [d] => d :: tail
    | d :: ds => d :: '.' :: ds ++ tail
    | [] => tail

def toText (x : Number) : String :=
  String.ofList (if x.mantissa < 0 then '-' :: x.unsignedText else x.unsignedText)

end Number

/-! ## Values -/

/-- A value that `JSON.parse` can give. The fields of an object stand in the order
that its own keys are listed in. -/
inductive Json where
  | null
  | bool (b : Bool)
  | num (n : Number)
  | str (s : String)
  | arr (items : List Json)
  | obj (fields : List (String × Json))

namespace Json

mutual

/-- Equal values, with the fields in the same order. -/
def beq : Json → Json → Bool
  | .null, .null => true
  | .bool a, .bool b => a == b
  | .num a, .num b => decide (a = b)
  | .str a, .str b => a == b
  | .arr a, .arr b => beqItems a b
  | .obj a, .obj b => beqFields a b
  | _, _ => false

def beqItems : List Json → List Json → Bool
  | [], [] => true
  | a :: as, b :: bs => beq a b && beqItems as bs
  | _, _ => false

def beqFields : List (String × Json) → List (String × Json) → Bool
  | [], [] => true
  | (k, a) :: as, (l, b) :: bs => k == l && beq a b && beqFields as bs
  | _, _ => false

end

mutual

theorem eq_of_beq : ∀ a b : Json, beq a b = true → a = b
  | .null, b, h => by cases b <;> simp_all [beq]
  | .bool _, b, h => by cases b <;> simp_all [beq]
  | .num _, b, h => by cases b <;> simp_all [beq]
  | .str _, b, h => by cases b <;> simp_all [beq]
  | .arr as, b, h => by
    cases b with
    | arr bs => rw [items_eq_of_beq as bs (by simpa [beq] using h)]
    | _ => simp [beq] at h
  | .obj as, b, h => by
    cases b with
    | obj bs => rw [fields_eq_of_beq as bs (by simpa [beq] using h)]
    | _ => simp [beq] at h

theorem items_eq_of_beq : ∀ as bs : List Json, beqItems as bs = true → as = bs
  | [], bs, h => by cases bs <;> simp_all [beqItems]
  | a :: as, bs, h => by
    cases bs with
    | nil => simp [beqItems] at h
    | cons b bs =>
      simp only [beqItems, Bool.and_eq_true] at h
      rw [eq_of_beq a b h.1, items_eq_of_beq as bs h.2]

theorem fields_eq_of_beq : ∀ as bs : List (String × Json), beqFields as bs = true → as = bs
  | [], bs, h => by cases bs <;> simp_all [beqFields]
  | (k, a) :: as, bs, h => by
    cases bs with
    | nil => simp [beqFields] at h
    | cons b bs =>
      obtain ⟨l, b⟩ := b
      simp only [beqFields, Bool.and_eq_true, beq_iff_eq] at h
      rw [h.1.1, eq_of_beq a b h.1.2, fields_eq_of_beq as bs h.2]

end

mutual

theorem beq_self : ∀ a : Json, beq a a = true
  | .null => rfl
  | .bool _ => by simp [beq]
  | .num _ => by simp [beq]
  | .str _ => by simp [beq]
  | .arr as => by simp [beq, items_beq_self as]
  | .obj as => by simp [beq, fields_beq_self as]

theorem items_beq_self : ∀ as : List Json, beqItems as as = true
  | [] => rfl
  | a :: as => by simp [beqItems, beq_self a, items_beq_self as]

theorem fields_beq_self : ∀ as : List (String × Json), beqFields as as = true
  | [] => rfl
  | (_, a) :: as => by simp [beqFields, beq_self a, fields_beq_self as]

end

instance : DecidableEq Json := fun a b =>
  decidable_of_iff (beq a b = true) ⟨eq_of_beq a b, fun h => h ▸ beq_self a⟩

/-- An object that is no array and not null. -/
def isObject : Json → Bool
  | .obj _ => true
  | _ => false

/-- The own field of a value: none but an object has the fields read here. -/
def get? (key : String) : Json → Option Json
  | .obj fields => fields.lookup key
  | _ => none

/-- `String(v)`, which is also the key that `v` names as a property key. -/
def toText : Json → String
  | .null => "null"
  | .bool b => if b then "true" else "false"
  | .num n => n.toText
  | .str s => s
  | .arr items => ",".intercalate (joined items)
  | .obj _ => "[object Object]"
where
  /-- The texts that `Array.prototype.join` puts together: null joins as nothing. -/
  joined : List Json → List String
    | [] => []
    | .null :: vs => "" :: joined vs
    | v :: vs => v.toText :: joined vs

/-- `String(v)` throws on an object whose own `toString` hides the inherited one: a parsed
value is no function. -/
def hidesToString : Json → Bool
  | .arr items => anyHides items
  | .obj fields => fields.any fun f => f.1 = "toString"
  | _ => false
where
  anyHides : List Json → Bool
    | [] => false
    | v :: vs => v.hidesToString || anyHides vs

end Json

/-- The UTF-16 code units of a string, which make its length and its order. -/
def codeUnits (s : String) : List Nat :=
  s.toList.flatMap fun c =>
    if c.toNat < 0x10000 then [c.toNat]
    else [0xD800 + (c.toNat - 0x10000) / 0x400, 0xDC00 + (c.toNat - 0x10000) % 0x400]

/-! ## Values that may be undefined -/

/-- The optional chain `v?.key`: undefined when there is no such field. -/
def field (v : Option Json) (key : String) : Option Json := v.bind (Json.get? key)

/-- The optional chain `v?.k1?.k2…`. -/
def path (v : Json) (keys : List String) : Option Json := keys.foldl field (some v)

/-- `v ?? d`. -/
def nullish (v : Option Json) (d : Json) : Json :=
  match v with
  | none | some .null => d
  | some w => w

/-- What `if (v)` asks. -/
def truthy : Option Json → Bool
  | none | some .null | some (.bool false) => false
  | some (.num n) => decide (n.mantissa ≠ 0)
  | some (.str s) => decide (s ≠ "")
  | _ => true

/-- `v === w`. Two arrays, or two objects, of parsed JSON are never one value. -/
def strictEq : Option Json → Option Json → Bool
  | some (.arr _), _ | some (.obj _), _ => false
  | v, w => decide (v = w)

/-- `Object.keys(v)`: the indices of an array or a string, and none where the call throws. -/
def ownKeys? : Json → Option (List String)
  | .null => none
  | .arr items => some ((List.range items.length).map toString)
  | .str s => some ((List.range (codeUnits s).length).map toString)
  | .obj fields => some (fields.map (·.1))
  | _ => some []

/-- `Array.isArray(v) && v.length > 0`. -/
def hasItems : Option Json → Bool
  | some (.arr (_ :: _)) => true
  | _ => false

/-- The items of an array, and none of anything else. -/
def itemsOf : Option Json → List Json
  | some (.arr items) => items
  | _ => []

/-- `typeof v === "string"`. -/
def isText : Option Json → Bool
  | some (.str _) => true
  | _ => false

theorem strictEq_str (v : Option Json) (s : String) :
    strictEq v (some (.str s)) = true ↔ v = some (.str s) := by
  rcases v with _ | v
  · simp [strictEq]
  · cases v <;> simp [strictEq]

theorem eq_of_strictEq {v w : Option Json} (h : strictEq v w = true) : v = w := by
  unfold strictEq at h
  split at h
  · cases h
  · cases h
  · exact of_decide_eq_true h

theorem nullish_of_truthy {v : Option Json} (h : truthy v = true) (d : Json) :
    some (nullish v d) = v := by
  unfold nullish
  split
  · cases h
  · cases h
  · rfl

/-- The blanks that `String.prototype.trim` drops and `\s` matches. -/
def isSpace (c : Char) : Bool :=
  c.toNat ∈ [0x9, 0xA, 0xB, 0xC, 0xD, 0x20, 0xA0, 0x1680, 0x2028, 0x2029, 0x202F, 0x205F,
    0x3000, 0xFEFF] || decide (0x2000 ≤ c.toNat ∧ c.toNat ≤ 0x200A)

/-- `s.trim() === ""`. -/
def isBlank (s : String) : Bool := s.toList.all isSpace

def trim (s : String) : String :=
  String.ofList ((s.toList.dropWhile isSpace).reverse.dropWhile isSpace).reverse

/-- `[...(v ?? [])]`: the items of an array or the characters of a string, and none where the
call throws. -/
def spread? : Option Json → Option (List Json)
  | none | some .null => some []
  | some (.arr items) => some items
  | some (.str s) => some (s.toList.map fun c => .str (String.ofList [c]))
  | _ => none

/-- `new Map(entries).get(key)`, for keys that are parsed values: the last entry counts, and
two objects are never one key. -/
def lastEntry {ν : Type} (entries : List (Option Json × ν)) (key : Option Json) : Option ν :=
  (entries.reverse.find? fun e => strictEq e.1 key).map (·.2)

/-! ## The text of `JSON.stringify` -/

def hexDigit (n : Nat) : Char := (Nat.toDigits 16 n).headD '0'

/-- One character of a quoted string. -/
def escapeChar (c : Char) : List Char :=
  match c.toNat with
  | 0x22 => ['\\', '"']
  | 0x5C => ['\\', '\\']
  | 0x8 => ['\\', 'b']
  | 0x9 => ['\\', 't']
  | 0xA => ['\\', 'n']
  | 0xC => ['\\', 'f']
  | 0xD => ['\\', 'r']
  | n => if n < 0x20 then ['\\', 'u', '0', '0', hexDigit (n / 16), hexDigit (n % 16)] else [c]

def quote (s : String) : String :=
  String.ofList ('"' :: s.toList.flatMap escapeChar ++ ['"'])

namespace Json

mutual

/-- `JSON.stringify(v)`. -/
def stringify : Json → String
  | .null => "null"
  | .bool b => if b then "true" else "false"
  | .num n => n.toText
  | .str s => quote s
  | .arr items => "[" ++ ",".intercalate (stringifyItems items) ++ "]"
  | .obj fields => "\x7b" ++ ",".intercalate (stringifyFields fields) ++ "\x7d"

def stringifyItems : List Json → List String
  | [] => []
  | v :: vs => stringify v :: stringifyItems vs

def stringifyFields : List (String × Json) → List String
  | [] => []
  | (k, v) :: fs => (quote k ++ ":" ++ stringify v) :: stringifyFields fs

end

end Json

/-! ## The order of own keys -/

/-- The array index that a key is the plain text of. -/
def arrayIndex? (key : String) : Option Nat :=
  match key.toList with
  | [] => none
  | d :: ds =>
    let n := (d :: ds).foldl (fun n c => 10 * n + (c.toNat - '0'.toNat)) 0
    if (d :: ds).all Char.isDigit && (d ≠ '0' || ds = []) && n < 4294967295 then some n else none

/-- The fields of `Object.fromEntries`, for distinct keys: an object lists its index
keys first, in rising order, and then the others as they were set. -/
def fromEntries (entries : List (String × Json)) : List (String × Json) :=
  (entries.filter fun e => (arrayIndex? e.1).isSome).insertionSort
      (fun a b => (arrayIndex? a.1).getD 0 ≤ (arrayIndex? b.1).getD 0) ++
    entries.filter fun e => (arrayIndex? e.1).isNone

theorem fromEntries_perm (entries : List (String × Json)) :
    (fromEntries entries).Perm entries := by
  unfold fromEntries
  refine ((List.perm_insertionSort _ _).append_right _).trans ?_
  have hsplit := List.filter_append_perm (fun e : String × Json => (arrayIndex? e.1).isSome) entries
  simpa only [Option.not_isSome] using hsplit

end Js
