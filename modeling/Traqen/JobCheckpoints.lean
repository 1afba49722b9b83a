-- The checkpoint log of the analysis jobs (`appendWorkspaceAnalysisJobCheckpoint` of
-- `storage/memory-traceability-store.js`). The store numbers the checkpoints of each job, and
-- after a checkpoint with a terminal status it takes no other of that job.
import Traqen.UnderstandingRecords
import Traqen.CanonicalText
import Traqen.Lib.FirstMaximum

open Js

namespace Traqen.JobCheckpoints

/-! ## Checkpoints -/

/-- The other fields of a checkpoint. -/
def Details := { fields : List (String × Json) //
  ∀ f ∈ fields, f.1 ∉ ["id", "jobId", "checkpointSequence", "state"] }

/-- A stored checkpoint; `σ` is the state of a job. -/
structure Checkpoint (σ : Type) where
  id : String
  jobId : String
  checkpointSequence : Nat
  state : σ
  details : Details

/-- A checkpoint as a caller hands it over. The id that it carries is not read. -/
structure Request (σ : Type) where
  jobId : String
  checkpointSequence : Option Json
  state : σ
  details : Details

/-- The records of the type WORKSPACE_ANALYSIS_JOB, by project and id. -/
abbrev Log (σ : Type) := List ((String × String) × Checkpoint σ)

section Append

variable {σ : Type} (asJson : σ → Json) (sha256 : String → String)

def Checkpoint.toJson (c : Checkpoint σ) : Json :=
  .obj ([("id", .str c.id), ("jobId", .str c.jobId),
    ("checkpointSequence", .num (Number.ofNat c.checkpointSequence)), ("state", asJson c.state)] ++
    c.details.val)

def statusOf (state : σ) : Option Json := field (some (asJson state)) "status"

/-- `["CANCELLED", "FAILED", "COMPLETED"].includes(state.status)`. -/
def isTerminal (state : σ) : Bool :=
  ["CANCELLED", "FAILED", "COMPLETED"].any fun status => statusOf asJson state = some (.str status)

/-- The checkpoints of one job, in the order in which they were stored. -/
def checkpointsOf (log : Log σ) (projectId jobId : String) : List (Checkpoint σ) :=
  (log.filter fun e => e.1.1 = projectId && e.2.jobId = jobId).map (·.2)

/-- `sort((left, right) => left.checkpointSequence - right.checkpointSequence)[0]`. -/
def firstBySequence (checkpoints : List (Checkpoint σ)) : Option (Checkpoint σ) :=
  (checkpoints.insertionSort fun a b => a.checkpointSequence ≤ b.checkpointSequence).head?

/-- `sort((left, right) => right.checkpointSequence - left.checkpointSequence)[0]`. -/
def lastBySequence (checkpoints : List (Checkpoint σ)) : Option (Checkpoint σ) :=
  (checkpoints.insertionSort fun a b => b.checkpointSequence ≤ a.checkpointSequence).head?

/-- `Math.max(0, ...records.map(({ checkpointSequence }) => checkpointSequence))`. -/
def currentSequence (checkpoints : List (Checkpoint σ)) : Nat :=
  (checkpoints.map (·.checkpointSequence)).foldl max 0

/-- What the id of a checkpoint is made from. Undefined fields are left out. -/
def checkpointIdentity (jobId : String) (sequence : Nat) (state : σ) : Json :=
  .obj ([("jobId", some (.str jobId)), ("checkpointSequence", some (.num (Number.ofNat sequence))),
    ("status", statusOf asJson state), ("phase", field (some (asJson state)) "phase"),
    ("completedPhases", field (some (asJson state)) "completedPhases"),
    ("outputs", field (some (asJson state)) "outputs")].filterMap fun f =>
      f.2.map fun value => (f.1, value))

def checkpointId (jobId : String) (sequence : Nat) (state : σ) : String :=
  contentId sha256 "WORKSPACE-ANALYSIS-JOB-CHECKPOINT"
    (checkpointIdentity asJson jobId sequence state)

/-- `#appendVersion` on the records of this type: the checkpoint that comes back, and the log. -/
def appendVersion (log : Log σ) (storageKey : String × String) (value : Checkpoint σ)
    (label : String) : Except Failure (Checkpoint σ × Log σ) :=
  match OrderedMap.get? log storageKey with
  | some existing =>
    if canonicalJson (recordIdentity (existing.toJson asJson)) ≠
        canonicalJson (recordIdentity (value.toJson asJson)) then
      conflictError (label ++ " conflicts with an existing immutable record")
    else .ok (value, log)
  | none => .ok (value, OrderedMap.set log storageKey value)

/-- The checkpoint under the next number of its job. -/
def normalized (sequence : Nat) (checkpoint : Request σ) : Checkpoint σ where
  id := checkpointId asJson sha256 checkpoint.jobId sequence checkpoint.state
  jobId := checkpoint.jobId
  checkpointSequence := sequence
  state := checkpoint.state
  details := checkpoint.details

/-- What comes back is the terminal checkpoint of the job, its latest one (none if it has none)
or the stored one. -/
def appendWorkspaceAnalysisJobCheckpoint (log : Log σ) (projectId : String)
    (checkpoint : Request σ) : Except Failure (Option (Checkpoint σ) × Log σ) :=
  let records := checkpointsOf log projectId checkpoint.jobId
  match firstBySequence (records.filter fun c => isTerminal asJson c.state) with
  | some terminal => .ok (some terminal, log)
  | none =>
    let sequence := currentSequence records + 1
    if checkpoint.checkpointSequence ≠ some (.num (Number.ofNat sequence)) ∧
        statusOf asJson checkpoint.state ≠ some (.str "CANCELLED") then
      .ok (lastBySequence records, log)
    else do
      let value := normalized asJson sha256 sequence checkpoint
      let (stored, log) ← appendVersion asJson log (projectId, value.id) value
        ("WORKSPACE_ANALYSIS_JOB " ++ value.id)
      return (some stored, log)

end Append

/-! ## Numbered logs -/

variable {σ : Type} {asJson : σ → Json} {sha256 : String → String}

/-- Numbers from 1 without gaps, and nothing after a terminal status. -/
structure Numbered (asJson : σ → Json) (checkpoints : List (Checkpoint σ)) : Prop where
  sequence : checkpoints.map (·.checkpointSequence) = List.range' 1 checkpoints.length
  ends : ∀ c ∈ checkpoints, isTerminal asJson c.state = true → checkpoints.getLast? = some c

theorem numbered_nil : Numbered asJson ([] : List (Checkpoint σ)) :=
  ⟨rfl, fun _ h => absurd h List.not_mem_nil⟩

theorem head?_eq_find? {α : Type} (items : List α) : items.head? = items.find? fun _ => true := by
  cases items <;> rfl

theorem firstBySequence_eq (checkpoints : List (Checkpoint σ)) :
    firstBySequence checkpoints =
      FirstMaximum.firstMax? (fun c => OrderDual.toDual c.checkpointSequence) checkpoints := by
  have hfind := @FirstMaximum.find?_insertionSort (Checkpoint σ) (OrderDual Nat) _
    (fun c => OrderDual.toDual c.checkpointSequence) (fun _ => true) checkpoints
  rw [List.filter_true] at hfind
  rw [← hfind]
  exact head?_eq_find? _

theorem lastBySequence_eq (checkpoints : List (Checkpoint σ)) :
    lastBySequence checkpoints =
      FirstMaximum.firstMax? (fun c => c.checkpointSequence) checkpoints := by
  have hfind := @FirstMaximum.find?_insertionSort (Checkpoint σ) Nat _
    (fun c => c.checkpointSequence) (fun _ => true) checkpoints
  rw [List.filter_true] at hfind
  rw [← hfind]
  exact head?_eq_find? _

variable {c : Checkpoint σ} {checkpoints : List (Checkpoint σ)}

variable (h : Numbered asJson checkpoints)
include h

/-- The number of a checkpoint is its place. -/
theorem Numbered.at {i : Nat} (hi : checkpoints[i]? = some c) : c.checkpointSequence = i + 1 := by
  have hlt : i < checkpoints.length := (List.getElem?_eq_some_iff.mp hi).1
  have hmap : (checkpoints.map (·.checkpointSequence))[i]? = some c.checkpointSequence := by
    rw [List.getElem?_map, hi]
    rfl
  rw [h.sequence, List.getElem?_range' hlt] at hmap
  have hsame : 1 + i = c.checkpointSequence := by simpa using hmap
  omega

omit h in
theorem foldl_max_range' (n : Nat) : (List.range' 1 n).foldl max 0 = n := by
  induction n with
  | zero => rfl
  | succ n ih =>
    rw [List.range'_concat, List.foldl_append, ih]
    simp only [List.foldl_cons, List.foldl_nil]
    omega

theorem Numbered.current : currentSequence checkpoints = checkpoints.length := by
  unfold currentSequence
  rw [h.sequence, foldl_max_range']

/-- The latest number is the last one stored. -/
theorem Numbered.last : lastBySequence checkpoints = checkpoints.getLast? := by
  rw [lastBySequence_eq]
  rcases List.eq_nil_or_concat checkpoints with rfl | ⟨front, c, rfl⟩
  · rfl
  · rw [List.concat_eq_append, FirstMaximum.firstMax?_append_singleton, List.getLast?_concat]
    split
    · rfl
    · rename_i d hd
      rw [List.concat_eq_append] at h
      obtain ⟨i, hi⟩ := List.mem_iff_getElem?.mp (FirstMaximum.firstMax?_mem hd)
      have hlt : i < front.length := (List.getElem?_eq_some_iff.mp hi).1
      have hfront : (front ++ [c])[i]? = some d := by
        rw [List.getElem?_append_left hlt, hi]
      have hback : (front ++ [c])[front.length]? = some c := by simp
      have hless : d.checkpointSequence < c.checkpointSequence := by
        rw [h.at hfront, h.at hback]
        omega
      rw [if_pos hless]

omit h in
theorem terminal_exists (hc : c ∈ checkpoints) (hterminal : isTerminal asJson c.state = true) :
    ∃ d, firstBySequence (checkpoints.filter fun c => isTerminal asJson c.state) = some d := by
  have hin : c ∈ checkpoints.filter fun c => isTerminal asJson c.state :=
    List.mem_filter.mpr ⟨hc, hterminal⟩
  simp only [firstBySequence_eq, FirstMaximum.firstMax?_eq_some]
  exact FirstMaximum.firstMax_exists (List.ne_nil_of_mem hin)

/-- The terminal checkpoint that the store finds is the one there is. -/
theorem Numbered.terminal_iff :
    firstBySequence (checkpoints.filter fun c => isTerminal asJson c.state) = some c ↔
      c ∈ checkpoints ∧ isTerminal asJson c.state = true := by
  have hfound : ∀ {d},
      firstBySequence (checkpoints.filter fun c => isTerminal asJson c.state) = some d →
        d ∈ checkpoints ∧ isTerminal asJson d.state = true := by
    intro d hd
    rw [firstBySequence_eq] at hd
    exact List.mem_filter.mp (FirstMaximum.firstMax?_mem hd)
  refine ⟨hfound, ?_⟩
  rintro ⟨hmem, hterminal⟩
  obtain ⟨d, hd⟩ := terminal_exists hmem hterminal
  obtain ⟨hdmem, hdterminal⟩ := hfound hd
  have hsame := (h.ends d hdmem hdterminal).symm.trans (h.ends c hmem hterminal)
  cases hsame
  exact hd

omit h in
theorem Numbered.terminal_none
    (h : firstBySequence (checkpoints.filter fun c => isTerminal asJson c.state) = none) :
    ∀ c ∈ checkpoints, isTerminal asJson c.state = false := by
  intro c hc
  rw [Bool.eq_false_iff]
  intro hterminal
  obtain ⟨d, hd⟩ := terminal_exists hc hterminal
  rw [hd] at h
  cases h

/-- The next number goes to a job that has not ended. -/
theorem Numbered.snoc (hopen : ∀ c ∈ checkpoints, isTerminal asJson c.state = false)
    (hc : c.checkpointSequence = checkpoints.length + 1) : Numbered asJson (checkpoints ++ [c]) := by
  refine ⟨?_, ?_⟩
  · rw [List.map_append, h.sequence, List.length_append, List.length_singleton,
      List.range'_concat, List.map_singleton, hc]
    congr 2
    omega
  · intro d hd hterminal
    rcases List.mem_append.mp hd with hd | hd
    · rw [hopen d hd] at hterminal
      cases hterminal
    · rw [List.mem_singleton.mp hd, List.getLast?_concat]

omit h

/-! ## What one call does -/

theorem checkpointsOf_append (log : Log σ) (e : (String × String) × Checkpoint σ)
    (projectId jobId : String) :
    checkpointsOf (log ++ [e]) projectId jobId = checkpointsOf log projectId jobId ++
      if e.1.1 = projectId ∧ e.2.jobId = jobId then [e.2] else [] := by
  unfold checkpointsOf
  rw [List.filter_append, List.map_append]
  by_cases h : e.1.1 = projectId ∧ e.2.jobId = jobId
  · rw [if_pos h]
    simp [h.1, h.2]
  · rw [if_neg h]
    simp [h]

variable {projectId : String} {log : Log σ}

theorem mem_checkpointsOf {jobId : String} : c ∈ checkpointsOf log projectId jobId ↔
      ∃ e ∈ log, e.1.1 = projectId ∧ e.2.jobId = jobId ∧ e.2 = c := by
  unfold checkpointsOf
  simp only [List.mem_map, List.mem_filter, Bool.and_eq_true, decide_eq_true_eq]
  constructor
  · rintro ⟨e, ⟨he, hproject, hjob⟩, rfl⟩
    exact ⟨e, he, hproject, hjob, rfl⟩
  · rintro ⟨e, he, hproject, hjob, rfl⟩
    exact ⟨e, ⟨he, hproject, hjob⟩, rfl⟩

/-- The log of a store that only this function writes. -/
structure GoodLog (asJson : σ → Json) (sha256 : String → String) (log : Log σ) : Prop where
  numbered : ∀ projectId jobId, Numbered asJson (checkpointsOf log projectId jobId)
  named : ∀ e ∈ log, e.1.2 = checkpointId asJson sha256 e.2.jobId e.2.checkpointSequence e.2.state

theorem goodLog_nil : GoodLog asJson sha256 ([] : Log σ) :=
  ⟨fun _ _ => numbered_nil, fun _ h => absurd h List.not_mem_nil⟩

/-- The fields that a checkpoint shares with every checkpoint of its canonical text. -/
theorem same_place {d : Checkpoint σ} (h : canonicalJson (recordIdentity (c.toJson asJson)) =
      canonicalJson (recordIdentity (d.toJson asJson))) :
    c.jobId = d.jobId ∧ c.checkpointSequence = d.checkpointSequence := by
  have hfield : ∀ (k : String) (v w : Json), k ≠ "createdAt" →
      k ∈ ["id", "jobId", "checkpointSequence", "state"] →
      (k, v) ∈ [("id", .str c.id), ("jobId", .str c.jobId),
        ("checkpointSequence", Json.num (Number.ofNat c.checkpointSequence)),
        ("state", asJson c.state)] →
      (∀ x, (k, x) ∈ [("id", .str d.id), ("jobId", .str d.jobId),
        ("checkpointSequence", Json.num (Number.ofNat d.checkpointSequence)),
        ("state", asJson d.state)] → x = w) →
      canonicalizeValue w = canonicalizeValue v := by
    intro k v w hcreated hreserved hv hw
    obtain ⟨x, hx, hcanonical⟩ := field_of_canonicalJson h (k := k) (v := v)
      (List.mem_filter.mpr ⟨List.mem_append_left _ hv, by simpa using hcreated⟩)
    have hin := (List.mem_filter.mp hx).1
    rcases List.mem_append.mp hin with hin | hin
    · rw [← hw x hin]
      exact hcanonical
    · exact absurd hreserved (d.details.property _ hin)
  constructor
  · have hjob := hfield "jobId" (.str c.jobId) (.str d.jobId) (by decide) (by decide) (by simp)
      (by simp)
    simpa [canonicalizeValue] using hjob.symm
  · have hsequence := hfield "checkpointSequence" (.num (Number.ofNat c.checkpointSequence))
      (.num (Number.ofNat d.checkpointSequence)) (by decide) (by decide) (by simp) (by simp)
    simp only [canonicalizeValue, Json.num.injEq] at hsequence
    exact (Number.ofNat_injective hsequence).symm

/-- What a call that succeeds did. -/
inductive Appended (asJson : σ → Json) (sha256 : String → String) (log : Log σ)
    (projectId : String) (r : Request σ) : Option (Checkpoint σ) → Log σ → Prop
  | ended (c : Checkpoint σ) (hc : c ∈ checkpointsOf log projectId r.jobId)
      (hterminal : isTerminal asJson c.state = true) :
      Appended asJson sha256 log projectId r (some c) log
  | stale
      (hopen : ∀ c ∈ checkpointsOf log projectId r.jobId, isTerminal asJson c.state = false)
      (hsequence : r.checkpointSequence ≠
        some (.num (Number.ofNat ((checkpointsOf log projectId r.jobId).length + 1))))
      (hstatus : statusOf asJson r.state ≠ some (.str "CANCELLED")) :
      Appended asJson sha256 log projectId r (checkpointsOf log projectId r.jobId).getLast? log
  | stored (c : Checkpoint σ)
      (hopen : ∀ c ∈ checkpointsOf log projectId r.jobId, isTerminal asJson c.state = false)
      (hrequest : r.checkpointSequence =
        some (.num (Number.ofNat ((checkpointsOf log projectId r.jobId).length + 1))) ∨
        statusOf asJson r.state = some (.str "CANCELLED"))
      (hc : c = normalized asJson sha256 ((checkpointsOf log projectId r.jobId).length + 1) r) :
      Appended asJson sha256 log projectId r (some c) (log ++ [((projectId, c.id), c)])

variable {r : Request σ}

theorem append_ok {log' : Log σ} (hlog : GoodLog asJson sha256 log) {result : Option (Checkpoint σ)}
    (h : appendWorkspaceAnalysisJobCheckpoint asJson sha256 log projectId r =
      .ok (result, log')) :
    Appended asJson sha256 log projectId r result log' := by
  have hnumbered := hlog.numbered projectId r.jobId
  unfold appendWorkspaceAnalysisJobCheckpoint at h
  dsimp only at h
  split at h
  · rename_i terminal hterminal
    cases h
    obtain ⟨hmem, hend⟩ := hnumbered.terminal_iff.mp hterminal
    exact .ended terminal hmem hend
  · rename_i hnone
    have hopen := Numbered.terminal_none hnone
    rw [hnumbered.current, hnumbered.last] at h
    split at h
    · rename_i hcondition
      cases h
      exact .stale hopen hcondition.1 hcondition.2
    · rename_i hcondition
      obtain ⟨⟨stored, log''⟩, happend, h⟩ := bind_ok h
      cases h
      have hrequest : r.checkpointSequence = some (.num (Number.ofNat
          ((checkpointsOf log projectId r.jobId).length + 1))) ∨
          statusOf asJson r.state = some (.str "CANCELLED") := by
        by_cases hsequence : r.checkpointSequence = some (.num (Number.ofNat
          ((checkpointsOf log projectId r.jobId).length + 1)))
        · exact Or.inl hsequence
        · exact Or.inr (by simpa [hsequence] using hcondition)
      unfold appendVersion conflictError at happend
      split at happend
      · rename_i existing hexisting
        split at happend
        · cases happend
        · -- a record of this key with the same text would have the next number already
          rename_i hsame
          exfalso
          obtain ⟨hjob, hsequence⟩ := same_place (not_not.mp hsame)
          have hmem : existing ∈ checkpointsOf log projectId r.jobId :=
            mem_checkpointsOf.mpr ⟨_, OrderedMap.get?_mem hexisting, rfl, hjob, rfl⟩
          obtain ⟨i, hi⟩ := List.mem_iff_getElem?.mp hmem
          have hlt : i < (checkpointsOf log projectId r.jobId).length :=
            (List.getElem?_eq_some_iff.mp hi).1
          have hplace := hnumbered.at hi
          have hnext : existing.checkpointSequence =
            (checkpointsOf log projectId r.jobId).length + 1 := hsequence
          omega
      · rename_i hnew
        cases happend
        rw [OrderedMap.set_of_new hnew]
        exact .stored _ hopen hrequest rfl

theorem append_keeps {log' : Log σ} (hlog : GoodLog asJson sha256 log)
    {result : Option (Checkpoint σ)}
    (h : appendWorkspaceAnalysisJobCheckpoint asJson sha256 log projectId r =
      .ok (result, log')) : GoodLog asJson sha256 log' := by
  cases append_ok hlog h with
  | ended => exact hlog
  | stale => exact hlog
  | stored c hopen hrequest hc =>
    refine ⟨?_, ?_⟩
    · intro project job
      rw [checkpointsOf_append]
      split
      · rename_i hplace
        obtain ⟨rfl, hjob⟩ := hplace
        have hsame : r.jobId = job := by
          rw [← hjob, hc]
          rfl
        rw [← hsame]
        exact (hlog.numbered _ _).snoc hopen (by rw [hc]; rfl)
      · rw [List.append_nil]
        exact hlog.numbered project job
    · intro e he
      rcases List.mem_append.mp he with he | he
      · exact hlog.named e he
      · rw [List.mem_singleton.mp he, hc]
        rfl

/-! ## Every order of calls -/

/-- The log after a call; a call that throws leaves it as it was. -/
def call (asJson : σ → Json) (sha256 : String → String) (log : Log σ)
    (c : String × Request σ) : Log σ :=
  match appendWorkspaceAnalysisJobCheckpoint asJson sha256 log c.1 c.2 with
  | .ok (_, log') => log'
  | .error _ => log

def logAfter (asJson : σ → Json) (sha256 : String → String) (calls : List (String × Request σ)) :
    Log σ :=
  calls.foldl (call asJson sha256) []

/-- Each stored checkpoint was asked for, and has a number that so many calls can reach. -/
structure Stored (asJson : σ → Json) (sha256 : String → String)
    (calls : List (String × Request σ)) (log : Log σ) : Prop where
  good : GoodLog asJson sha256 log
  asked : ∀ e ∈ log, ∃ c ∈ calls, e.2.jobId = c.2.jobId ∧ e.2.state = c.2.state ∧
    e.2.checkpointSequence ≤ calls.length
  bounded : log.length ≤ calls.length

theorem length_checkpointsOf (log : Log σ) (projectId jobId : String) :
    (checkpointsOf log projectId jobId).length ≤ log.length := by
  unfold checkpointsOf
  rw [List.length_map]
  exact List.length_filter_le _ _

theorem stored_logAfter (calls : List (String × Request σ)) :
    Stored asJson sha256 calls (logAfter asJson sha256 calls) := by
  induction calls using List.reverseRecOn with
  | nil => exact ⟨goodLog_nil, fun _ h => absurd h List.not_mem_nil, le_refl 0⟩
  | append_singleton calls c ih =>
    have hstep : logAfter asJson sha256 (calls ++ [c]) =
        call asJson sha256 (logAfter asJson sha256 calls) c := by
      unfold logAfter
      rw [List.foldl_append]
      rfl
    have hweaker : Stored asJson sha256 (calls ++ [c]) (logAfter asJson sha256 calls) := by
      refine ⟨ih.good, ?_, ?_⟩
      · intro e he
        obtain ⟨d, hd, hjob, hstate, hle⟩ := ih.asked e he
        refine ⟨d, List.mem_append_left _ hd, hjob, hstate, ?_⟩
        rw [List.length_append]
        omega
      · rw [List.length_append]
        exact ih.bounded.trans (Nat.le_add_right _ _)
    rw [hstep]
    unfold call
    split
    · rename_i result log' happend
      refine ⟨append_keeps ih.good happend, ?_, ?_⟩
      · cases append_ok ih.good happend with
        | ended => exact hweaker.asked
        | stale => exact hweaker.asked
        | stored d hopen hrequest hd =>
          intro e he
          rcases List.mem_append.mp he with he | he
          · exact hweaker.asked e he
          · rw [List.mem_singleton.mp he, hd]
            have hlength := length_checkpointsOf (logAfter asJson sha256 calls) c.1 c.2.jobId
            refine ⟨c, by simp, rfl, rfl, ?_⟩
            rw [List.length_append, List.length_singleton]
            exact Nat.add_le_add_right (hlength.trans ih.bounded) 1
      · cases append_ok ih.good happend with
        | ended => exact hweaker.bounded
        | stale => exact hweaker.bounded
        | stored d =>
          rw [List.length_append, List.length_append]
          exact Nat.add_le_add_right ih.bounded 1
    · exact hweaker

/-- The digests of what the ids of the checkpoints are made from, for the numbers that so many
requests can reach. -/
def DigestsApart (asJson : σ → Json) (sha256 : String → String) (requests : List (Request σ)) :
    Prop :=
  ∀ r ∈ requests, ∀ s ∈ requests, ∀ m ≤ requests.length, ∀ n ≤ requests.length,
    checkpointId asJson sha256 r.jobId m r.state = checkpointId asJson sha256 s.jobId n s.state →
    canonicalJson (checkpointIdentity asJson r.jobId m r.state) =
      canonicalJson (checkpointIdentity asJson s.jobId n s.state)

theorem identity_place {r s : σ} {i j : String} {m n : Nat}
    (h : canonicalJson (checkpointIdentity asJson i m r) =
      canonicalJson (checkpointIdentity asJson j n s)) : i = j ∧ m = n := by
  have hfields : ∀ (k : String) (x : Json) (j : String) (n : Nat) (s : σ),
      (k, x) ∈ ([("jobId", some (.str j)),
        ("checkpointSequence", some (.num (Number.ofNat n))),
        ("status", statusOf asJson s), ("phase", field (some (asJson s)) "phase"),
        ("completedPhases", field (some (asJson s)) "completedPhases"),
        ("outputs", field (some (asJson s)) "outputs")].filterMap fun f : String × Option Json =>
          f.2.map fun value => (f.1, value)) →
      (k = "jobId" → x = .str j) ∧ (k = "checkpointSequence" → x = .num (Number.ofNat n)) := by
    intro k x j n s hx
    obtain ⟨f, hf, hvalue⟩ := List.mem_filterMap.mp hx
    obtain ⟨value, hv, heq⟩ := Option.map_eq_some_iff.mp hvalue
    cases heq
    constructor
    · intro hk
      rw [List.mem_cons, List.mem_cons] at hf
      rcases hf with rfl | rfl | hf
      · exact (Option.some.inj hv).symm
      · simp at hk
      · simp only [List.mem_cons, List.not_mem_nil, or_false] at hf
        rcases hf with rfl | rfl | rfl | rfl <;> simp at hk
    · intro hk
      rw [List.mem_cons, List.mem_cons] at hf
      rcases hf with rfl | rfl | hf
      · simp at hk
      · exact (Option.some.inj hv).symm
      · simp only [List.mem_cons, List.not_mem_nil, or_false] at hf
        rcases hf with rfl | rfl | rfl | rfl <;> simp at hk
  constructor
  · obtain ⟨x, hx, hcanonical⟩ := field_of_canonicalJson h (k := "jobId") (v := .str i) (by simp)
    rw [(hfields _ _ _ _ _ hx).1 rfl] at hcanonical
    simpa [canonicalizeValue] using hcanonical.symm
  · obtain ⟨x, hx, hcanonical⟩ := field_of_canonicalJson h (k := "checkpointSequence")
      (v := .num (Number.ofNat m)) (by simp)
    rw [(hfields _ _ _ _ _ hx).2 rfl] at hcanonical
    simp only [canonicalizeValue, Json.num.injEq] at hcanonical
    exact (Number.ofNat_injective hcanonical).symm

theorem appendVersion_new {key : String × String} {value : Checkpoint σ}
    {label : String} (h : OrderedMap.get? log key = none) :
    appendVersion asJson log key value label = .ok (value, log ++ [(key, value)]) := by
  unfold appendVersion
  rw [h]
  dsimp only
  rw [OrderedMap.set_of_new h]

/-- In a job that has not ended, a cancellation is stored under the next number. -/
theorem append_cancelled (hlog : GoodLog asJson sha256 log)
    (hcancelled : statusOf asJson r.state = some (.str "CANCELLED"))
    (hopen : ∀ c ∈ checkpointsOf log projectId r.jobId, isTerminal asJson c.state = false)
    (hnew : OrderedMap.get? log (projectId, checkpointId asJson sha256 r.jobId
      ((checkpointsOf log projectId r.jobId).length + 1) r.state) = none) :
    ∃ c, appendWorkspaceAnalysisJobCheckpoint asJson sha256 log projectId r =
        .ok (some c, log ++ [((projectId, c.id), c)]) ∧ c.jobId = r.jobId ∧ c.state = r.state ∧
      c.checkpointSequence = (checkpointsOf log projectId r.jobId).length + 1 := by
  have hnumbered := hlog.numbered projectId r.jobId
  refine ⟨normalized asJson sha256 ((checkpointsOf log projectId r.jobId).length + 1) r, ?_,
    rfl, rfl, rfl⟩
  unfold appendWorkspaceAnalysisJobCheckpoint
  dsimp only
  split
  · rename_i terminal hterminal
    obtain ⟨hmem, hend⟩ := hnumbered.terminal_iff.mp hterminal
    rw [hopen terminal hmem] at hend
    cases hend
  · rw [hnumbered.current, if_neg (fun h => h.2 hcancelled)]
    have hstore : OrderedMap.get? log (projectId, (normalized asJson sha256
        ((checkpointsOf log projectId r.jobId).length + 1) r).id) = none := hnew
    rw [appendVersion_new hstore]
    rfl

/-- After the terminal checkpoint every call gives it back. -/
theorem append_ended (hlog : GoodLog asJson sha256 log)
    (hc : c ∈ checkpointsOf log projectId r.jobId)
    (hterminal : isTerminal asJson c.state = true) :
    appendWorkspaceAnalysisJobCheckpoint asJson sha256 log projectId r = .ok (some c, log) := by
  unfold appendWorkspaceAnalysisJobCheckpoint
  dsimp only
  rw [(hlog.numbered projectId r.jobId).terminal_iff.mpr ⟨hc, hterminal⟩]

theorem Numbered.one_terminal (h : Numbered asJson checkpoints) :
    (checkpoints.filter fun c => isTerminal asJson c.state).length ≤ 1 := by
  rcases List.eq_nil_or_concat checkpoints with rfl | ⟨front, last, rfl⟩
  · exact Nat.zero_le 1
  · rw [List.concat_eq_append] at h ⊢
    have hfront : front.filter (fun c => isTerminal asJson c.state) = [] := by
      apply List.filter_eq_nil_iff.mpr
      intro c hc hterminal
      obtain ⟨i, hi⟩ := List.mem_iff_getElem?.mp hc
      have hlt : i < front.length := (List.getElem?_eq_some_iff.mp hi).1
      have hsame := h.ends c (List.mem_append_left _ hc) hterminal
      rw [List.getLast?_concat] at hsame
      have hat : (front ++ [last])[i]? = some c := by
        rw [List.getElem?_append_left hlt, hi]
      have hend : (front ++ [last])[front.length]? = some last := by simp
      have hplace := h.at hat
      rw [← Option.some.inj hsame, h.at hend] at hplace
      omega
    rw [List.filter_append, hfront, List.nil_append]
    exact List.length_filter_le _ _

/-- For every sequence of calls the checkpoints of each job are numbered from 1 without gaps, and
a terminal one is the last of them; a cancellation of a job that has not ended is recorded, and
every call after the terminal checkpoint gives it back and stores nothing. -/
theorem checkpoints_are_numbered_and_final (asJson : σ → Json) (sha256 : String → String)
    (calls : List (String × Request σ)) (projectId jobId : String) :
    let log := logAfter asJson sha256 calls
    let checkpoints := checkpointsOf log projectId jobId
    checkpoints.map (·.checkpointSequence) = List.range' 1 checkpoints.length ∧
      (checkpoints.filter fun c => isTerminal asJson c.state).length ≤ 1 ∧
      (∀ c ∈ checkpoints, isTerminal asJson c.state = true →
        c.checkpointSequence = checkpoints.length) ∧
      (∀ r : Request σ, r.jobId = jobId →
        statusOf asJson r.state = some (.str "CANCELLED") →
        (∀ c ∈ checkpoints, isTerminal asJson c.state = false) →
        DigestsApart asJson sha256 (calls.map (·.2) ++ [r]) →
        ∃ c, appendWorkspaceAnalysisJobCheckpoint asJson sha256 log projectId r =
            .ok (some c, log ++ [((projectId, c.id), c)]) ∧
          c.jobId = jobId ∧ c.state = r.state ∧
          c.checkpointSequence = checkpoints.length + 1) ∧
      ∀ r : Request σ, r.jobId = jobId → ∀ c ∈ checkpoints, isTerminal asJson c.state = true →
        appendWorkspaceAnalysisJobCheckpoint asJson sha256 log projectId r = .ok (some c, log) := by
  intro log checkpoints
  have hstored : Stored asJson sha256 calls log := stored_logAfter calls
  have hnumbered := hstored.good.numbered projectId jobId
  refine ⟨hnumbered.sequence, hnumbered.one_terminal, ?_, ?_, ?_⟩
  · intro c hc hterminal
    have hlast := hnumbered.ends c hc hterminal
    have hat : checkpoints[checkpoints.length - 1]? = some c := by
      rw [← List.getLast?_eq_getElem?]
      exact hlast
    have hlt := (List.getElem?_eq_some_iff.mp hat).1
    rw [hnumbered.at hat]
    omega
  · rintro r rfl hcancelled hopen hapart
    apply append_cancelled hstored.good hcancelled hopen
    rw [OrderedMap.get?_eq_none]
    intro e he hkey
    obtain ⟨c, hc, hjob, hstate, hle⟩ := hstored.asked e he
    have hname := hstored.good.named e he
    rw [hkey, hjob, hstate] at hname
    have hlength : (calls.map (·.2) ++ [r]).length = calls.length + 1 := by simp
    have htext := hapart r (by simp) c.2
      (List.mem_append_left _ (List.mem_map_of_mem hc))
      ((checkpointsOf log projectId r.jobId).length + 1)
      (by
        rw [hlength]
        exact Nat.add_le_add_right ((length_checkpointsOf _ _ _).trans hstored.bounded) 1)
      e.2.checkpointSequence (by rw [hlength]; exact hle.trans (Nat.le_succ _)) hname
    obtain ⟨hjobs, hsequence⟩ := identity_place htext
    have hmem : e.2 ∈ checkpointsOf log projectId r.jobId :=
      mem_checkpointsOf.mpr ⟨e, he, by rw [hkey], by rw [hjob, ← hjobs], rfl⟩
    obtain ⟨i, hi⟩ := List.mem_iff_getElem?.mp hmem
    have hlt := (List.getElem?_eq_some_iff.mp hi).1
    have hplace := hnumbered.at hi
    have hbound : i < (checkpointsOf log projectId r.jobId).length := hlt
    omega
  · rintro r rfl c hc hterminal
    exact append_ended hstored.good hc hterminal

/-! ## A job that is cancelled -/

/-- SHA-256 on what the ids of two checkpoints are made from, under the numbers 0 to 2. -/
def cancelDigest : String → String :=
  tabledDigest [(4715, "8541dbe2bfd40b02b8735f6d9960249dbd486b5b9cd4193a1db9453ebed2c488"),
    (4716, "1aa4da76a2a10df27ecc86c13d59209daaac1bc11e14ebe3be84a5dd5e6b406a"),
    (4717, "0015ff47335ed8c5e33670004122e5506a835e45c3c040ac52ce2eb86419d3bd"),
    (4805, "16fba84cbec1aad731e629b1d4593e6d2f6150c9f6b161a3be080b3606fa6249"),
    (4806, "7659ec3da3f5c2e5cadc039da86e5639e429cd189aebee19028d733f5bf8b454"),
    (4807, "6169e0911f37b73e6a38dc8b633a0bca5a7673d873932fa544f188756e57a7cf")]

/-- A request with a number and a status. -/
def statusRequest (sequence : Nat) (status : String) : Request Json where
  jobId := "JOB"
  checkpointSequence := some (.num (Number.ofNat sequence))
  state := .obj [("status", .str status)]
  details := ⟨[], fun _ h => absurd h List.not_mem_nil⟩

/-- The cancellation asks for a number that is far behind. -/
theorem stale_cancellation_is_recorded :
    ∃ c, appendWorkspaceAnalysisJobCheckpoint id cancelDigest
        (logAfter id cancelDigest [("P", statusRequest 1 "RUNNING")]) "P"
        (statusRequest 0 "CANCELLED") =
        .ok (some c, logAfter id cancelDigest [("P", statusRequest 1 "RUNNING")] ++
          [(("P", c.id), c)]) ∧ c.checkpointSequence = 2 := by
  obtain ⟨c, hc, _, _, hsequence⟩ :=
    (checkpoints_are_numbered_and_final id cancelDigest [("P", statusRequest 1 "RUNNING")]
      "P" "JOB").2.2.2.1 (statusRequest 0 "CANCELLED") rfl (by decide +kernel) (by decide +kernel)
      (by unfold DigestsApart; decide +kernel)
  exact ⟨c, hc, hsequence.trans (by decide +kernel)⟩

end Traqen.JobCheckpoints
