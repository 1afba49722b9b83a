-- The shared guards and enumerations of the domain (`domain/model.js`). A guard
-- gives the value back, or the error that the code throws.
import Traqen.Lib.Json

open Js

namespace Traqen

/-! ## Errors -/

inductive ErrorName where
  | TypeError
  | RangeError
  | PersistenceConflictError
  | ReviewAuthenticationError
  | ReviewAuthorizationError
deriving DecidableEq, Repr

/-- `error.name`. -/
def ErrorName.text : ErrorName → String
  | .TypeError => "TypeError"
  | .RangeError => "RangeError"
  | .PersistenceConflictError => "PersistenceConflictError"
  | .ReviewAuthenticationError => "ReviewAuthenticationError"
  | .ReviewAuthorizationError => "ReviewAuthorizationError"

structure Failure where
  name : ErrorName
  message : String
deriving DecidableEq, Repr

def typeError {α : Type} (message : String) : Except Failure α :=
  .error { name := .TypeError, message }

def rangeError {α : Type} (message : String) : Except Failure α :=
  .error { name := .RangeError, message }

def conflictError {α : Type} (message : String) : Except Failure α :=
  .error { name := .PersistenceConflictError, message }

def authorizationError {α : Type} (message : String) : Except Failure α :=
  .error { name := .ReviewAuthorizationError, message }

/-- A result is reached through the results of its steps. -/
theorem bind_ok {ε α β : Type} {x : Except ε α} {f : α → Except ε β} {b : β}
    (h : x >>= f = .ok b) : ∃ a, x = .ok a ∧ f a = .ok b := by
  cases x with
  | error e => simp [bind, Except.bind] at h
  | ok a => exact ⟨a, rfl, h⟩

/-- The steps of a result, for `simp`. -/
theorem bind_ok_iff {ε α β : Type} {x : Except ε α} {f : α → Except ε β} {b : β} :
    x >>= f = .ok b ↔ ∃ a, x = .ok a ∧ f a = .ok b := by
  cases x with
  | error e => simp [bind, Except.bind]
  | ok a => simp [bind, Except.bind]

/-- A result is missed at one of its steps. -/
theorem bind_error {ε α β : Type} {x : Except ε α} {f : α → Except ε β} {e : ε}
    (h : x >>= f = .error e) : x = .error e ∨ ∃ a, x = .ok a ∧ f a = .error e := by
  cases x with
  | error e' =>
    cases h
    exact Or.inl rfl
  | ok a => exact Or.inr ⟨a, rfl, h⟩

theorem toOption_some {ε α : Type} {x : Except ε α} {a : α} (h : x.toOption = some a) :
    x = .ok a := by
  cases x with
  | error e => cases h
  | ok b => exact congrArg Except.ok (Option.some.inj h)

/-- The result of a step that is known to have one. -/
theorem ok_get {α : Type} {x : Except Failure α} (h : x.toOption.isSome = true) :
    x = .ok (x.toOption.get h) := by
  cases x with
  | error e => cases h
  | ok a => rfl

/-- The results of a whole list are those of its items. -/
theorem mapM_ok {ε α β : Type} {f : α → Except ε β} {xs : List α} {ys : List β}
    (h : xs.mapM f = .ok ys) : List.Forall₂ (fun x y => f x = .ok y) xs ys := by
  induction xs generalizing ys with
  | nil =>
    cases h
    exact .nil
  | cons x xs ih =>
    rw [List.mapM_cons] at h
    obtain ⟨y, hy, h⟩ := bind_ok h
    obtain ⟨rest, hrest, h⟩ := bind_ok h
    cases h
    exact .cons hy (ih hrest)

/-- Each item of the list has a result. -/
theorem exists_of_mem {α β : Type} {R : α → β → Prop} {xs : List α} {ys : List β}
    (h : List.Forall₂ R xs ys) {x : α} (hx : x ∈ xs) : ∃ y ∈ ys, R x y := by
  induction h with
  | nil => simp at hx
  | cons hxy _ ih =>
    rcases List.mem_cons.mp hx with rfl | hx
    · exact ⟨_, List.mem_cons_self, hxy⟩
    · obtain ⟨y, hy, hr⟩ := ih hx
      exact ⟨y, List.mem_cons_of_mem _ hy, hr⟩

/-- Each result is that of an item of the list. -/
theorem exists_source {α β : Type} {R : α → β → Prop} {xs : List α} {ys : List β}
    (h : List.Forall₂ R xs ys) {y : β} (hy : y ∈ ys) : ∃ x ∈ xs, R x y := by
  induction h with
  | nil => simp at hy
  | cons hxy _ ih =>
    rcases List.mem_cons.mp hy with rfl | hy
    · exact ⟨_, List.mem_cons_self, hxy⟩
    · obtain ⟨x, hx, hr⟩ := ih hy
      exact ⟨x, List.mem_cons_of_mem _ hx, hr⟩

/-- What is known of each result is known of the list of results. -/
theorem mapM_ok_map {ε α β γ : Type} {f : α → Except ε β} {g : β → γ} {k : α → γ}
    {xs : List α} {ys : List β} (h : xs.mapM f = .ok ys) (hk : ∀ x y, f x = .ok y → g y = k x) :
    ys.map g = xs.map k := by
  have hall := mapM_ok h
  clear h
  induction hall with
  | nil => rfl
  | cons hxy _ ih => simp [hk _ _ hxy, ih]

/-- A reading of the clock: its milliseconds, and its ISO text. -/
structure Instant where
  time : Int
  iso : String
deriving DecidableEq

/-! ## Enumerations -/

/-- An object made by `enumValues`: the names are its keys and its values. -/
class EnumValues (ε : Type) where
  names : List String
  name : ε → String

/-- The member of an enumeration as the string that the code compares with. -/
def enumJson {ε : Type} [EnumValues ε] (e : ε) : Json := .str (EnumValues.name e)

inductive ClaimType where
  | NORMATIVE_REQUIREMENT
  | IMPLEMENTATION_BEHAVIOR
  | DESIGN_INTENT
  | QUALITY_EXPECTATION
deriving DecidableEq, Repr

instance : EnumValues ClaimType where
  names := ["NORMATIVE_REQUIREMENT", "IMPLEMENTATION_BEHAVIOR", "DESIGN_INTENT",
    "QUALITY_EXPECTATION"]
  name
    | .NORMATIVE_REQUIREMENT => "NORMATIVE_REQUIREMENT"
    | .IMPLEMENTATION_BEHAVIOR => "IMPLEMENTATION_BEHAVIOR"
    | .DESIGN_INTENT => "DESIGN_INTENT"
    | .QUALITY_EXPECTATION => "QUALITY_EXPECTATION"

inductive AuthorityStatus where
  | UNREVIEWED
  | CONFIRMED
  | EXCEPTION_RECORDED
  | REJECTED
  | DEPRECATED
deriving DecidableEq, Repr

instance : EnumValues AuthorityStatus where
  names := ["UNREVIEWED", "CONFIRMED", "EXCEPTION_RECORDED", "REJECTED", "DEPRECATED"]
  name
    | .UNREVIEWED => "UNREVIEWED"
    | .CONFIRMED => "CONFIRMED"
    | .EXCEPTION_RECORDED => "EXCEPTION_RECORDED"
    | .REJECTED => "REJECTED"
    | .DEPRECATED => "DEPRECATED"

inductive EvidenceSupport where
  | NONE
  | SINGLE_SOURCE
  | MULTI_SOURCE
  | CONTRADICTED
  | INCOMPLETE
deriving DecidableEq, Repr

instance : EnumValues EvidenceSupport where
  names := ["NONE", "SINGLE_SOURCE", "MULTI_SOURCE", "CONTRADICTED", "INCOMPLETE"]
  name
    | .NONE => "NONE"
    | .SINGLE_SOURCE => "SINGLE_SOURCE"
    | .MULTI_SOURCE => "MULTI_SOURCE"
    | .CONTRADICTED => "CONTRADICTED"
    | .INCOMPLETE => "INCOMPLETE"

inductive ConformanceStatus where
  | UNKNOWN
  | CONFORMS
  | DEVIATES
  | PARTIAL
  | CONFLICTED
  | STALE
deriving DecidableEq, Repr

instance : EnumValues ConformanceStatus where
  names := ["UNKNOWN", "CONFORMS", "DEVIATES", "PARTIAL", "CONFLICTED", "STALE"]
  name
    | .UNKNOWN => "UNKNOWN"
    | .CONFORMS => "CONFORMS"
    | .DEVIATES => "DEVIATES"
    | .PARTIAL => "PARTIAL"
    | .CONFLICTED => "CONFLICTED"
    | .STALE => "STALE"

inductive VerificationStatus where
  | NOT_RUN
  | PASS
  | FAIL
  | ERROR
  | INCONCLUSIVE
  | SKIPPED
  | CANCELLED
deriving DecidableEq, Repr

instance : EnumValues VerificationStatus where
  names := ["NOT_RUN", "PASS", "FAIL", "ERROR", "INCONCLUSIVE", "SKIPPED", "CANCELLED"]
  name
    | .NOT_RUN => "NOT_RUN"
    | .PASS => "PASS"
    | .FAIL => "FAIL"
    | .ERROR => "ERROR"
    | .INCONCLUSIVE => "INCONCLUSIVE"
    | .SKIPPED => "SKIPPED"
    | .CANCELLED => "CANCELLED"

inductive EvidenceFreshness where
  | FRESH
  | EXPIRING
  | STALE
  | INCOMPLETE
deriving DecidableEq, Repr

instance : EnumValues EvidenceFreshness where
  names := ["FRESH", "EXPIRING", "STALE", "INCOMPLETE"]
  name
    | .FRESH => "FRESH"
    | .EXPIRING => "EXPIRING"
    | .STALE => "STALE"
    | .INCOMPLETE => "INCOMPLETE"

inductive AssertionResultStatus where
  | PASS
  | FAIL
  | ERROR
  | INCONCLUSIVE
  | SKIPPED
deriving DecidableEq, Repr

instance : EnumValues AssertionResultStatus where
  names := ["PASS", "FAIL", "ERROR", "INCONCLUSIVE", "SKIPPED"]
  name
    | .PASS => "PASS"
    | .FAIL => "FAIL"
    | .ERROR => "ERROR"
    | .INCONCLUSIVE => "INCONCLUSIVE"
    | .SKIPPED => "SKIPPED"

inductive ExecutionCompletionReason where
  | COMPLETED
  | SKIPPED
  | CANCELLED
deriving DecidableEq, Repr

instance : EnumValues ExecutionCompletionReason where
  names := ["COMPLETED", "SKIPPED", "CANCELLED"]
  name
    | .COMPLETED => "COMPLETED"
    | .SKIPPED => "SKIPPED"
    | .CANCELLED => "CANCELLED"

inductive ExecutionPhaseStatus where
  | PASS
  | FAIL
  | ERROR
  | SKIPPED
deriving DecidableEq, Repr

instance : EnumValues ExecutionPhaseStatus where
  names := ["PASS", "FAIL", "ERROR", "SKIPPED"]
  name
    | .PASS => "PASS"
    | .FAIL => "FAIL"
    | .ERROR => "ERROR"
    | .SKIPPED => "SKIPPED"

inductive EvidenceType where
  | HTTP
  | DATABASE
  | LOG
  | TRACE
  | COVERAGE
  | SCREENSHOT
  | ASSERTION
  | OTHER
deriving DecidableEq, Repr

instance : EnumValues EvidenceType where
  names := ["HTTP", "DATABASE", "LOG", "TRACE", "COVERAGE", "SCREENSHOT", "ASSERTION", "OTHER"]
  name
    | .HTTP => "HTTP"
    | .DATABASE => "DATABASE"
    | .LOG => "LOG"
    | .TRACE => "TRACE"
    | .COVERAGE => "COVERAGE"
    | .SCREENSHOT => "SCREENSHOT"
    | .ASSERTION => "ASSERTION"
    | .OTHER => "OTHER"

inductive IntegrityStatus where
  | VERIFIED
  | UNVERIFIED
  | INVALID
deriving DecidableEq, Repr

instance : EnumValues IntegrityStatus where
  names := ["VERIFIED", "UNVERIFIED", "INVALID"]
  name
    | .VERIFIED => "VERIFIED"
    | .UNVERIFIED => "UNVERIFIED"
    | .INVALID => "INVALID"

inductive FactNodeType where
  | ARTIFACT
  | MODULE
  | CODE_SYMBOL
  | ENDPOINT
  | DATA_OBJECT
  | CONFIGURATION
  | EXTERNAL_DEPENDENCY
  | TEST_ASSET
deriving DecidableEq, Repr

instance : EnumValues FactNodeType where
  names := ["ARTIFACT", "MODULE", "CODE_SYMBOL", "ENDPOINT", "DATA_OBJECT", "CONFIGURATION",
    "EXTERNAL_DEPENDENCY", "TEST_ASSET"]
  name
    | .ARTIFACT => "ARTIFACT"
    | .MODULE => "MODULE"
    | .CODE_SYMBOL => "CODE_SYMBOL"
    | .ENDPOINT => "ENDPOINT"
    | .DATA_OBJECT => "DATA_OBJECT"
    | .CONFIGURATION => "CONFIGURATION"
    | .EXTERNAL_DEPENDENCY => "EXTERNAL_DEPENDENCY"
    | .TEST_ASSET => "TEST_ASSET"

inductive FactPredicate where
  | CONTAINS
  | IMPLEMENTED_BY
  | CALLS
  | READS
  | WRITES
  | CONTROLLED_BY
  | DEPENDS_ON
  | EXERCISES
deriving DecidableEq, Repr

instance : EnumValues FactPredicate where
  names := ["CONTAINS", "IMPLEMENTED_BY", "CALLS", "READS", "WRITES", "CONTROLLED_BY",
    "DEPENDS_ON", "EXERCISES"]
  name
    | .CONTAINS => "CONTAINS"
    | .IMPLEMENTED_BY => "IMPLEMENTED_BY"
    | .CALLS => "CALLS"
    | .READS => "READS"
    | .WRITES => "WRITES"
    | .CONTROLLED_BY => "CONTROLLED_BY"
    | .DEPENDS_ON => "DEPENDS_ON"
    | .EXERCISES => "EXERCISES"

inductive ConstraintOperator where
  | EQUALS
  | NOT_EQUALS
  | IN
  | NOT_IN
  | ALLOWS
  | FORBIDS
  | REQUIRES
deriving DecidableEq, Repr

instance : EnumValues ConstraintOperator where
  names := ["EQUALS", "NOT_EQUALS", "IN", "NOT_IN", "ALLOWS", "FORBIDS", "REQUIRES"]
  name
    | .EQUALS => "EQUALS"
    | .NOT_EQUALS => "NOT_EQUALS"
    | .IN => "IN"
    | .NOT_IN => "NOT_IN"
    | .ALLOWS => "ALLOWS"
    | .FORBIDS => "FORBIDS"
    | .REQUIRES => "REQUIRES"

inductive ReverseConfidence where
  | LOW
  | MEDIUM
  | HIGH
deriving DecidableEq, Repr

instance : EnumValues ReverseConfidence where
  names := ["LOW", "MEDIUM", "HIGH"]
  name
    | .LOW => "LOW"
    | .MEDIUM => "MEDIUM"
    | .HIGH => "HIGH"

/-! ## Guards -/

/-- `Object.hasOwn` takes the value as a property key, so an array around one name of the
enumeration passes too, and comes back as the array. No enumeration has a member with the
text `undefined`. -/
def assertEnum (ε : Type) [EnumValues ε] (value : Option Json) (fieldName : String) :
    Except Failure Json :=
  match value with
  | some v =>
    if v.toText ∈ EnumValues.names ε then .ok v
    else typeError (fieldName ++ " must be one of: " ++ ", ".intercalate (EnumValues.names ε))
  | none => typeError (fieldName ++ " must be one of: " ++ ", ".intercalate (EnumValues.names ε))

def requireNonEmptyString (value : Option Json) (fieldName : String) : Except Failure String :=
  match value with
  | some (.str s) =>
    if isBlank s then typeError (fieldName ++ " must be a non-empty string") else .ok s
  | _ => typeError (fieldName ++ " must be a non-empty string")

def requirePositiveInteger (value : Option Json) (fieldName : String) : Except Failure Number :=
  match value with
  | some (.num n) =>
    if n.isInteger && !n.belowOne then .ok n
    else typeError (fieldName ++ " must be a positive integer")
  | _ => typeError (fieldName ++ " must be a positive integer")

/-- `dateParse` is `Date.parse`, with none for a text that is no date. -/
def requireIsoTimestamp (dateParse : String → Option Int) (value : Option Json) (fieldName : String) : Except Failure Int := do
  let s ← requireNonEmptyString value fieldName
  match dateParse s with
  | some t => .ok t
  | none => typeError (fieldName ++ " must be an ISO-8601 timestamp")

theorem assertEnum_ok {ε : Type} [EnumValues ε] {value : Option Json} {fieldName : String}
    {v : Json} (h : assertEnum ε value fieldName = .ok v) :
    value = some v ∧ v.toText ∈ EnumValues.names ε := by
  unfold assertEnum typeError at h
  split at h
  · split at h
    · cases h; exact ⟨rfl, ‹_›⟩
    · cases h
  · cases h

theorem requireNonEmptyString_ok {value : Option Json} {fieldName s : String}
    (h : requireNonEmptyString value fieldName = .ok s) :
    value = some (.str s) ∧ isBlank s = false := by
  unfold requireNonEmptyString typeError at h
  split at h
  · split at h
    · cases h
    · cases h; exact ⟨rfl, Bool.eq_false_iff.mpr ‹_›⟩
  · cases h

theorem requirePositiveInteger_ok {value : Option Json} {fieldName : String} {n : Number}
    (h : requirePositiveInteger value fieldName = .ok n) : value = some (.num n) := by
  unfold requirePositiveInteger typeError at h
  split at h
  · split at h
    · cases h; rfl
    · cases h
  · cases h

end Traqen
