-- The understanding records of the memory store (`appendUnderstandingRecord`): immutable
-- records by project, type and id. A storage key joins the three with NULs; here it is the
-- triple.
import Traqen.CanonicalJson
import Traqen.Model
import Traqen.Lib.OrderedMap

open Js

namespace Traqen

abbrev RecordKey := String × String × String

abbrev Records := List (RecordKey × Json)

def supportedRecordTypes : List String :=
  ["ARTIFACT_INVENTORY", "EXTRACTOR_CAPABILITY", "UNDERSTANDING_PLAN", "WORK_UNIT",
    "MODEL_CAPABILITY_PROFILE", "ANALYSIS_ROUTE_DECISION", "SOURCE_SLICE", "RECONCILIATION",
    "EVALUATION_RUN", "GRAPH_ARTIFACT", "GRAPH_REVISION", "SOURCE_REGISTRATION", "FACT_BUNDLE",
    "CANDIDATE_BUNDLE", "EVIDENCE_ALLOWSET", "GAP", "WORKSPACE_ANALYSIS_JOB", "WORKSPACE_STATE",
    "WORKSPACE_EVENT", "WORKSPACE_VIEW_PREFERENCE", "WORKSPACE_CAPABILITY_CONFIG",
    "WORKSPACE_EXECUTION_PROFILE", "PROJECT_CAPABILITY_REVISION", "WORKSPACE_CAPABILITY_DRAFT",
    "WORKSPACE_POLICY_REVISION", "SECRET_GRANT", "ANALYSIS_BATCH", "CHILD_WORK_UNIT",
    "CHILD_BATCH_RESULT", "BATCH_BARRIER", "CONFLICT_LEDGER", "COVERAGE_LEDGER",
    "QUARANTINED_CANDIDATE", "REVIEW_QUEUE_ITEM", "REVIEW_BATCH_DECISION", "FEATURE_HISTORY",
    "SOURCE_SLICE_AUTH_AUDIT", "INCREMENTAL_PLAN", "EQUIVALENCE_REPORT",
    "UNDERSTANDING_SEMANTIC_SURFACE", "INDEPENDENT_ANALYSIS_RUN", "REVIEWED_MEASUREMENT",
    "MAIN_BATCH_RESULT"]

/-- A value in a template string. -/
def templateText (v : Option Json) : String :=
  match v with
  | none => "undefined"
  | some w => w.toText

/-- The id of a record as it stands in a storage key: an object whose own `toString` is no
function has no text. -/
def idText (id : Json) : Except Failure String :=
  if id.hidesToString then typeError "Cannot convert object to primitive value"
  else .ok id.toText

/-- The record without its creation time. -/
def recordIdentity : Json → Json
  | .obj fields => .obj (fields.filter fun f => f.1 ≠ "createdAt")
  | v => v

/-- `#appendVersion`; a success gives the value back, and the records as they are then. -/
def appendVersion (records : Records) (storageKey : RecordKey) (value : Json) (label : String) :
    Except Failure Records :=
  match OrderedMap.get? records storageKey with
  | some existing =>
    if canonicalJson (recordIdentity existing) ≠ canonicalJson (recordIdentity value) then
      conflictError (label ++ " conflicts with an existing immutable record")
    else .ok records
  | none => .ok (OrderedMap.set records storageKey value)

def appendUnderstandingRecord (records : Records) (projectId recordType : String)
    (record : Option Json) : Except Failure Records :=
  if recordType ∉ supportedRecordTypes then
    typeError ("Unsupported understanding record type " ++ recordType)
  else
    match record, field record "id" with
    | some value, some id =>
      if truthy (some id) then do
        let text ← idText id
        appendVersion records (projectId, recordType, text) value (recordType ++ " " ++ text)
      else typeError "understanding record id is required"
    | _, _ => typeError "understanding record id is required"

/-- A record is either stored under a new key, or there already. -/
theorem appendUnderstandingRecord_ok {records records' : Records} {projectId recordType : String}
    {record : Option Json}
    (h : appendUnderstandingRecord records projectId recordType record = .ok records') :
    ∃ value id, record = some value ∧ value.get? "id" = some id ∧
      let k := (projectId, recordType, id.toText)
      (∃ existing, OrderedMap.get? records k = some existing ∧
          canonicalJson (recordIdentity existing) = canonicalJson (recordIdentity value) ∧
          records' = records) ∨
        OrderedMap.get? records k = none ∧ records' = OrderedMap.set records k value := by
  unfold appendUnderstandingRecord typeError at h
  split at h
  · cases h
  · split at h
    · rename_i value id hid
      split at h
      · obtain ⟨text, htext, h⟩ := bind_ok h
        unfold idText typeError at htext
        split at htext
        · cases htext
        · cases htext
          refine ⟨value, id, rfl, hid, ?_⟩
          unfold appendVersion conflictError at h
          split at h
          · rename_i existing hexisting
            split at h
            · cases h
            · rename_i hsame
              cases h
              exact Or.inl ⟨existing, hexisting, by simpa using hsame, rfl⟩
          · rename_i hnone
            cases h
            exact Or.inr ⟨hnone, rfl⟩
      · cases h
    · cases h

end Traqen
