-- The broker that hands slices of source artifacts to analysis workers
-- (`application/source-slice-broker.js`). A selector's byte window is cut out of the
-- artifact first, rounded inward to whole characters; the secret pattern is then applied
-- to what the window shows, and all selectors share one byte budget.
import Traqen.Model
import Traqen.Lib.Regex
import Traqen.Lib.Utf8

open Js

namespace Traqen.SourceSliceBroker

/-! ## The secret pattern -/

/-- A letter of the pattern, which the flag `i` lets match in either case. -/
def letter (c : Char) : Char → Bool := fun d => d.toLower == c

def literal (word : String) : Regex.Pattern Char := Regex.word (word.toList.map letter)

def isJoiner (c : Char) : Bool := c == '_' || c == '-'

def isSeparator (c : Char) : Bool := c == ':' || c == '='

def isQuote (c : Char) : Bool := c == '\x22' || c == '\x27'

def isValueChar (c : Char) : Bool := !isQuote c && !isSpace c

/-- `(?:api[_-]?key|token|password|secret)`. -/
def secretKey : Regex.Pattern Char :=
  .alt (.seq (literal "api") (.seq (.opt (.one isJoiner)) (literal "key")))
    (.alt (literal "token") (.alt (literal "password") (literal "secret")))

/-- `["']?[^"'\s]+`. -/
def secretValue : Regex.Pattern Char :=
  .seq (.opt (.one isQuote)) (.seq (.one isValueChar) (.many isValueChar))

/-- `/(?:api[_-]?key|token|password|secret)\s*[:=]\s*["']?[^"'\s]+/gi`. -/
def secretPattern : Regex.Pattern Char :=
  .seq secretKey (.seq (.many isSpace) (.seq (.one isSeparator) (.seq (.many isSpace) secretValue)))

/-- The length of the secret that begins here. -/
def secretLength (text : List Char) : Option Nat := Regex.matchLength secretPattern text

/-! ## Redaction -/

def trimBlanks {α : Type} (blank : α → Bool) (xs : List α) : List α :=
  ((xs.dropWhile blank).reverse.dropWhile blank).reverse

/-- `match.split(/[:=]/, 1)[0].trim()`. -/
def redactedKey (found : List Char) : List Char :=
  trimBlanks isSpace (found.takeWhile fun c => !isSeparator c)

def redactedOpening : List Char := "[REDACTED:".toList

def replacement (found : List Char) : List Char := redactedOpening ++ redactedKey found ++ [']']

/-- `text.replace(secretPattern, …)`. -/
def redact (text : List Char) : List Char := Regex.replaceAll secretLength replacement text

/-- How often the callback of `replace` is called. -/
def secretCount (text : List Char) : Nat :=
  (Regex.scan secretLength text).countP fun
    | .kept _ => false
    | .found _ => true

/-! ## Windows of bytes -/

/-- `while (start < end && (bytes[start] & 0xc0) === 0x80) start += 1`, by what is left. -/
def roundStart (bytes : List UInt8) (start : Nat) : Nat → Nat
  | 0 => start
  | n + 1 => if Utf8.isContinuation (bytes.getD start 0) then roundStart bytes (start + 1) n else start

/-- `while (end > start && end < bytes.length && (bytes[end] & 0xc0) === 0x80) end -= 1`,
by how far `end` is from `start`. -/
def roundEnd (bytes : List UInt8) (start : Nat) : Nat → Nat
  | 0 => start
  | n + 1 =>
    if start + (n + 1) < bytes.length && Utf8.isContinuation (bytes.getD (start + (n + 1)) 0) then
      roundEnd bytes start n
    else start + (n + 1)

def completeUtf8Window (bytes : List UInt8) (start stop : Nat) : List UInt8 :=
  let first := roundStart bytes start (stop - start)
  let last := roundEnd bytes first (stop - first)
  (bytes.take last).drop first

/-! ## Requests and slices -/

inductive SourceSliceStatus where
  | COMPLETE
  | TRUNCATED
  | REDACTED
  | REJECTED
deriving DecidableEq, Repr

structure Selector where
  artifactId : String
  startByte : Nat
  endByte : Option Nat
deriving DecidableEq

structure SourceSliceRequest where
  projectId : String
  snapshotManifestId : String
  analysisRunId : String
  selectors : List Selector
  allowedFactIds : List String
  maxBytes : Nat
deriving DecidableEq

structure Authorization where
  serviceIdentity : String
  projectId : String
  analysisRunId : String
  workUnitArtifactIds : List String
  workUnitFactIds : List String
deriving DecidableEq

/-- What the artifact resolver gives back; only an included artifact carries its content. -/
structure Artifact where
  disposition : String
  content : Option String
  relativePath : String
  contentDigest : String
deriving DecidableEq

structure ByteRange where
  startByte : Nat
  endByte : Nat
deriving DecidableEq

structure Redaction where
  kind : String
  artifactId : String
  range : ByteRange
deriving DecidableEq

structure ArtifactSlice where
  artifactId : String
  relativePath : String
  contentDigest : String
  range : ByteRange
  redactedText : String
deriving DecidableEq

structure SourceSlice where
  status : SourceSliceStatus
  artifactSlices : List ArtifactSlice
  factIds : List String
  redactions : List Redaction
  truncated : Bool
  omittedReasons : List String
  diagnostics : List String
deriving DecidableEq

def byteLength (s : String) : Nat := Utf8.byteLength s.toList

def createSourceSlice (request : SourceSliceRequest) (input : SourceSlice) :
    Except Failure SourceSlice :=
  if (input.artifactSlices.map fun s => byteLength s.redactedText).sum > request.maxBytes then
    rangeError "SourceSlice exceeds request byte budget"
  else .ok input

def reject (request : SourceSliceRequest) (code : String) : Except Failure SourceSlice :=
  createSourceSlice request
    { status := .REJECTED
      artifactSlices := []
      factIds := []
      redactions := []
      truncated := false
      omittedReasons := [code]
      diagnostics := [code] }

/-! ## The broker -/

/-- The variables of the loop over the selectors. -/
structure ReadState where
  remainingBytes : Nat
  artifactSlices : List ArtifactSlice
  redactions : List Redaction
  omittedReasons : List String
  truncated : Bool
deriving DecidableEq

def ReadState.start (maxBytes : Nat) : ReadState where
  remainingBytes := maxBytes
  artifactSlices := []
  redactions := []
  omittedReasons := []
  truncated := false

def ReadState.omit (s : ReadState) (reason : String) : ReadState :=
  { s with omittedReasons := s.omittedReasons ++ [reason] }

/-- The end of a selector's window, before it is rounded to whole characters. -/
def cappedEnd (selector : Selector) (remainingBytes length : Nat) : Nat :=
  min (min (selector.endByte.getD length) (selector.startByte + remainingBytes)) length

/-- The redacted text of a window, cut to the bytes that remain. -/
def withinBudget (text : List Char) (remainingBytes : Nat) : List Char :=
  if (Utf8.encode text).length > remainingBytes then
    Utf8.decode (completeUtf8Window (Utf8.encode text) 0 remainingBytes)
  else text

/-- One selector with the content of its artifact. -/
def serve (s : ReadState) (selector : Selector) (artifact : Artifact) (content : String) :
    ReadState :=
  let bytes := Utf8.encode content.toList
  let stop := cappedEnd selector s.remainingBytes bytes.length
  if stop ≤ selector.startByte ∨ s.remainingBytes = 0 then
    { s.omit "SOURCE_SLICE_BUDGET_EXCEEDED" with truncated := true }
  else
    let textBytes := completeUtf8Window bytes selector.startByte stop
    let window := Utf8.decode textBytes
    let redacted := redact window
    let range : ByteRange := { startByte := selector.startByte, endByte := stop }
    let shown := withinBudget redacted s.remainingBytes
    { s with
      remainingBytes := s.remainingBytes - Utf8.byteLength shown
      artifactSlices := s.artifactSlices ++ [{
        artifactId := selector.artifactId
        relativePath := artifact.relativePath
        contentDigest := artifact.contentDigest
        range
        redactedText := String.ofList shown }]
      redactions := s.redactions ++ List.replicate (secretCount window)
        { kind := "SECRET_PATTERN", artifactId := selector.artifactId, range }
      truncated := s.truncated || decide (textBytes.length < stop - selector.startByte) ||
        decide ((Utf8.encode redacted).length > s.remainingBytes) ||
        decide (stop < selector.endByte.getD bytes.length ∨ stop < bytes.length) }

/-- One turn of the loop. `Buffer.from` throws for an artifact without content. -/
def readSelector (resolve : String → Option Artifact) (s : ReadState) (selector : Selector) :
    Except Failure ReadState :=
  match resolve selector.artifactId with
  | none => .ok (s.omit "ARTIFACT_NOT_IN_SNAPSHOT")
  | some artifact =>
    if artifact.disposition ∈ ["BINARY", "SECRET_REDACTED", "READ_FAILED"] then
      .ok (s.omit ("ARTIFACT_" ++ artifact.disposition))
    else
      match artifact.content with
      | none => typeError "The first argument must be of type string or an instance of Buffer"
      | some content => .ok (serve s selector artifact content)

def readSelectors (resolve : String → Option Artifact) : ReadState → List Selector →
    Except Failure ReadState
  | s, [] => .ok s
  | s, selector :: rest => do
    let t ← readSelector resolve s selector
    readSelectors resolve t rest

/-- The slice of what the loop collected. -/
def sliceOf (request : SourceSliceRequest) (s : ReadState) : Except Failure SourceSlice :=
  if s.artifactSlices = [] then
    reject request (s.omittedReasons.headD "ARTIFACT_NOT_IN_SNAPSHOT")
  else
    createSourceSlice request
      { status :=
          if 0 < s.redactions.length then .REDACTED
          else if s.truncated then .TRUNCATED
          else .COMPLETE
        artifactSlices := s.artifactSlices
        factIds := request.allowedFactIds
        redactions := s.redactions
        truncated := s.truncated
        omittedReasons := s.omittedReasons
        diagnostics := if s.truncated then ["SOURCE_SLICE_TRUNCATED"] else [] }

/-- Why a request is refused before anything is read. -/
def refusal (request : SourceSliceRequest) (authorization : Option Authorization) :
    Option String :=
  match authorization with
  | none => some "SOURCE_SLICE_SCOPE_VIOLATION"
  | some a =>
    if a.serviceIdentity = "" ∨ a.projectId ≠ request.projectId ∨
        a.analysisRunId ≠ request.analysisRunId ∨
        (request.selectors.any fun s => s.artifactId ∉ a.workUnitArtifactIds) then
      some "SOURCE_SLICE_SCOPE_VIOLATION"
    else if request.allowedFactIds.any fun f => f ∉ a.workUnitFactIds then
      some "FACT_NOT_IN_WORK_UNIT"
    else none

/-- `SourceSliceBroker.read`, where `resolve` is the artifact resolver at the request's
project and snapshot. -/
def read (resolve : String → Option Artifact) (request : SourceSliceRequest)
    (authorization : Option Authorization) : Except Failure SourceSlice :=
  match refusal request authorization with
  | some code => reject request code
  | none => do
    let s ← readSelectors resolve (ReadState.start request.maxBytes) request.selectors
    sliceOf request s

end Traqen.SourceSliceBroker
