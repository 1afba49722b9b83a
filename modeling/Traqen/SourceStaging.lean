-- The release of staging (`staging-service.js`) over whole histories: a chunk that a checkpoint of a
-- kept run refers to is in the blob store, whichever transactions are interleaved with its release and
-- wherever these break off.
import Traqen.SourceUploads

open Js

namespace Traqen.SourceStaging

open SourceRuns SourceUploads

/-! ## The invariant -/

/-- A chunk of the blob store is the one that a checkpoint refers to. -/
def Referred (chunk : Chunk) (c : Checkpoint) : Prop :=
  chunk.id = c.chunkId ∧ chunk.digest = c.digest ∧ chunk.sizeBytes = c.sizeBytes

/-- A run whose staging is given up has ended, with all its retries; and the chunks of the other runs
are there. -/
structure Staged (s : State) : Prop where
  runs : RunsOk s.store
  ended : ∀ id ∈ s.store.stagingRelease, ∃ r ∈ s.store.runs, r.id = id ∧ r.status.isTerminal = true
  retries : ∀ r ∈ s.store.runs, ∀ prior ∈ r.retryOf, prior ∈ s.store.stagingRelease →
    r.id ∈ s.store.stagingRelease
  chunkIds : (s.chunks.map Chunk.id).Nodup
  present : ∀ c ∈ s.checkpoints, c.key.runId ∉ s.store.stagingRelease →
    ∃ chunk ∈ s.chunks, Referred chunk c
  pages : ∀ call ∈ s.reuses, ∀ row ∈ call.page, row ∈ s.checkpoints ∧ row.key.runId = call.previousRunId

section Steps

variable {s t : State} {sha256 : String → String} {dateParse : String → Option Int}
  {maxChunkBytes : Nat}

theorem initial_staged : Staged SourceUploads.initial := by
  refine ⟨SourceLifecycle.initial_runsOk, ?_, ?_, List.nodup_nil, ?_, ?_⟩
  all_goals
    intro x hx
    cases hx

variable {access : Authorization}

variable (hs : Staged s)
include hs

/-- What a worker writes is of a run that is kept. -/
theorem kept_of_withLease {context : Context} {run : Run}
    (h : withLease access context s.store = .ok run) : context.runId ∉ s.store.stagingRelease := by
  intro hreleased
  obtain ⟨hrun, -, -, hactive⟩ := withLease_ok h
  obtain ⟨hmem, hid⟩ := run?_some hrun
  obtain ⟨r, hr, hrid, hterminal⟩ := hs.ended context.runId hreleased
  rw [List.inj_on_of_nodup_map hs.runs.ids hr hmem (hrid.trans hid.symm), hactive] at hterminal
  cases hterminal

/-- The attempt that a kept run takes over is kept. -/
theorem previous_kept {context : Context} {run : Run} {prior : String}
    (h : withLease access context s.store = .ok run) (hretry : run.retryOf = some prior) :
    prior ∉ s.store.stagingRelease := by
  intro hreleased
  obtain ⟨hmem, hid⟩ := run?_some (withLease_ok h).1
  have hrun := hs.retries run hmem prior hretry hreleased
  rw [hid] at hrun
  exact kept_of_withLease hs h hrun

/-- An operation on the runs neither brings a run back nor starts a retry of one that is given up. -/
theorem staged_truth {act : SourceLifecycle.Act} {truth : SourcePublication.State}
    (hact : isRelease act = false)
    (h : SourceLifecycle.step sha256 dateParse s.truth act = some truth) :
    Staged { s with truth } := by
  have heffect := SourceLifecycle.step_effect h
  have hstaging : truth.store.stagingRelease = s.store.stagingRelease := by
    refine SourceLifecycle.step_stagingRelease h ?_
    rintro runId rfl
    cases hact
  have hruns := SourceLifecycle.effect_runsOk hs.runs heffect
  refine ⟨hruns, ?_, ?_, hs.chunkIds, ?_, hs.pages⟩
  · intro id hid
    obtain ⟨r, hr, hrid, hterminal⟩ := hs.ended id (hstaging ▸ hid)
    obtain ⟨updated, hupdated, -, hadvances⟩ := SourceLifecycle.effect_advances hs.runs heffect hr
    rw [hadvances.ended hterminal] at hupdated
    exact ⟨r, hupdated, hrid, hterminal⟩
  · intro r hr prior hprior hreleased
    have hreleased' : prior ∈ s.store.stagingRelease := hstaging ▸ hreleased
    rcases SourceLifecycle.effect_origin hs.runs heffect hr with ⟨old, hold, hid, hretry, -⟩ | ⟨-, hnew⟩
    · have hchild := hs.retries old hold prior (hretry ▸ hprior) hreleased'
      rw [hid, ← hstaging] at hchild
      exact hchild
    · exact absurd hreleased' (hnew prior hprior)
  · intro c hc hkept
    exact hs.present c hc (hstaging ▸ hkept)

/-- Rows that are added to the checkpoints of a state, each of a chunk that is there. -/
theorem staged_rows {chunks : List Chunk} {checkpoints : List Checkpoint}
    (hchunkIds : (chunks.map Chunk.id).Nodup) (hchunks : ∀ c ∈ s.chunks, c ∈ chunks)
    (hold : ∀ c ∈ s.checkpoints, c ∈ checkpoints)
    (hnew : ∀ c ∈ checkpoints, c ∈ s.checkpoints ∨ ∃ chunk ∈ chunks, Referred chunk c) :
    Staged { s with chunks, checkpoints } := by
  refine ⟨hs.runs, hs.ended, hs.retries, hchunkIds, ?_, ?_⟩
  · intro c hc hkept
    rcases hnew c hc with hmem | hpresent
    · obtain ⟨chunk, hchunk, hreferred⟩ := hs.present c hmem hkept
      exact ⟨chunk, hchunks chunk hchunk, hreferred⟩
    · exact hpresent
  · intro call hcall row hrow
    obtain ⟨hmem, hrun⟩ := hs.pages call hcall row hrow
    exact ⟨hold row hmem, hrun⟩

/-- Steps that write none of the rows of the invariant. -/
theorem staged_same (hstore : t.store = s.store)
    (hcheckpoints : t.checkpoints = s.checkpoints) (hchunks : t.chunks = s.chunks)
    (hreuses : t.reuses = s.reuses) : Staged t :=
  ⟨hstore ▸ hs.runs, hstore ▸ hs.ended, hstore ▸ hs.retries, hchunks ▸ hs.chunkIds,
    hcheckpoints ▸ hchunks ▸ hstore ▸ hs.present, hreuses ▸ hcheckpoints ▸ hs.pages⟩

theorem staged_call {call : Reuse}
    (hpage : ∀ row ∈ call.page, row ∈ s.checkpoints ∧ row.key.runId = call.previousRunId) :
    Staged { s with reuses := s.reuses ++ [call] } := by
  refine ⟨hs.runs, hs.ended, hs.retries, hs.chunkIds, hs.present, ?_⟩
  intro other hother row hrow
  rcases List.mem_append.mp hother with hold | hlast
  · exact hs.pages other hold row hrow
  · rw [List.mem_singleton.mp hlast] at hrow ⊢
    exact hpage row hrow

theorem staged_upload {runAccess : Authorization} {context : Context}
    {sourceId pathBytes actorId : String} {input : ChunkInput} {lost : Bool}
    (h : uploadChunk sha256 maxChunkBytes runAccess access context sourceId pathBytes actorId input lost
      s = .ok t) : Staged t := by
  obtain ⟨run, row, published, -, -, hpublish, hcases⟩ := uploadChunk_ok h
  obtain ⟨chunks, rfl, hchunk, hchunks, hids⟩ := publish_ok hpublish
  have hpublished : Staged { s with chunks } :=
    staged_rows hs (hids hs.chunkIds) hchunks (fun c hc => hc) fun c hc => Or.inl hc
  rcases hcases with rfl | rfl
  · exact hpublished
  · rcases insertCheckpoint_eq { s with chunks } row with ⟨heq, -⟩ | ⟨heq, -⟩
    · rw [heq]
      exact hpublished
    · rw [heq]
      refine staged_rows hpublished (hids hs.chunkIds) (fun c hc => hc)
        (fun c hc => List.mem_append_left _ hc) ?_
      intro c hc
      rcases List.mem_append.mp hc with hold | hlast
      · exact Or.inl hold
      · rw [List.mem_singleton.mp hlast]
        exact Or.inr ⟨_, hchunk, rfl, rfl, rfl⟩

/-- A copied row is of the chunk of the row of the attempt, which is there as long as that is kept. -/
theorem staged_copy {runAccess : Authorization} {call next : Reuse}
    (hcall : call ∈ s.reuses) (h : copyPage runAccess call s = .ok (t, next)) :
    Staged { t with reuses := t.reuses ++ [next] } := by
  obtain ⟨⟨run, hlease, hretry⟩, -, hfold, hnext⟩ := copyPage_ok h
  have hprevious := previous_kept hs hlease hretry
  have hpresent : ∀ row ∈ call.page, ∃ chunk ∈ s.chunks, Referred chunk row := by
    intro row hrow
    obtain ⟨hmem, hrun⟩ := hs.pages call hcall row hrow
    exact hs.present row hmem (hrun ▸ hprevious)
  have hcopied : Staged t ∧ t.chunks = s.chunks := by
    refine foldlM_keeps (fun u => Staged u ∧ u.chunks = s.chunks) ?_ hfold ⟨hs, rfl⟩
    rintro u row v hrow ⟨hu, hchunks⟩ hrowCopied
    rcases copyRow_ok hrowCopied with rfl | ⟨-, rfl⟩
    · exact ⟨hu, hchunks⟩
    · refine ⟨?_, hchunks⟩
      refine staged_rows hu hu.chunkIds (fun c hc => hc) (fun c hc => List.mem_append_left _ hc) ?_
      intro c hc
      rcases List.mem_append.mp hc with hold | hlast
      · exact Or.inl hold
      · rw [List.mem_singleton.mp hlast, hchunks]
        exact Or.inr (hpresent row hrow)
  refine staged_call hcopied.1 ?_
  rw [hnext]
  intro row hrow
  cases hrow

theorem staged_request {confirmRelease : Bool} {runId : String}
    (h : requestRelease access confirmRelease runId s = .ok t) : Staged t := by
  obtain rfl | ⟨run, hrun, hreleasable, hchildren, rfl⟩ := requestRelease_ok h
  · exact hs
  obtain ⟨hmem, hid⟩ := run?_some hrun
  refine ⟨⟨hs.runs.ids, hs.runs.one, hs.runs.current⟩, ?_, ?_, hs.chunkIds, ?_, hs.pages⟩
  · intro id hreleased
    rcases List.mem_append.mp hreleased with hold | hnew
    · exact hs.ended id hold
    · refine ⟨run, hmem, hid.trans (List.mem_singleton.mp hnew).symm, ?_⟩
      cases hstatus : run.status <;> rw [hstatus] at hreleasable <;> first | rfl | cases hreleasable
  · intro r hr prior hprior hreleased
    rcases List.mem_append.mp hreleased with hold | hnew
    · exact List.mem_append_left _ (hs.retries r hr prior hprior hold)
    · rw [List.mem_singleton.mp hnew] at hprior
      exact List.mem_append_left _ (hchildren r hr hprior)
  · intro c hc hkept
    exact hs.present c hc fun hreleased => hkept (List.mem_append_left _ hreleased)

theorem staged_remove {backups : SourceUploads.Decision} {d : Disposal}
    {lost : Bool} (h : removeChunk access backups d lost s = .ok t) : Staged t := by
  obtain rfl | ⟨hfree, results, rfl⟩ := removeChunk_ok h
  · exact hs
  refine ⟨hs.runs, hs.ended, hs.retries, ?_, ?_, hs.pages⟩
  · exact hs.chunkIds.sublist (List.filter_sublist.map Chunk.id)
  · intro c hc hkept
    obtain ⟨chunk, hchunk, hreferred⟩ := hs.present c hc hkept
    refine ⟨chunk, List.mem_filter.mpr ⟨hchunk, ?_⟩, hreferred⟩
    rw [decide_eq_true_eq]
    intro hsame
    exact hkept (hfree c hc (hreferred.1.symm.trans hsame))

theorem step_staged {a : Act}
    (h : step sha256 dateParse maxChunkBytes s a = some t) : Staged t := by
  cases a with
  | truth act =>
    unfold step at h
    dsimp only at h
    split_ifs at h with hact
    obtain ⟨truth, htruth, rfl⟩ := Option.map_eq_some_iff.mp h
    exact staged_truth hs (by simpa using hact) htruth
  | addSource source =>
    unfold step addSource at h
    dsimp only at h
    split_ifs at h
    obtain rfl := Option.some.inj h
    exact staged_same hs rfl rfl rfl rfl
  | freezeManifest runId sourceId =>
    obtain rfl := Option.some.inj h
    exact staged_same hs rfl rfl rfl rfl
  | uploadChunk runAccess access context sourceId pathBytes actorId input lost =>
    exact staged_upload hs (toOption_some h)
  | beginReuse runAccess context sourceId =>
    obtain ⟨previous, -, h⟩ := Option.bind_eq_some_iff.mp h
    obtain ⟨_, -, rfl⟩ := Option.map_eq_some_iff.mp h
    exact staged_call hs fun row hrow => by cases hrow
  | readPage call =>
    unfold step at h
    dsimp only at h
    split_ifs at h
    obtain ⟨next, hnext, h⟩ := Option.bind_eq_some_iff.mp h
    obtain ⟨found, rfl, rfl⟩ := Option.map_eq_some_iff.mp h
    obtain ⟨-, -, hprevious, -, hpage⟩ := readPage_ok (toOption_some hnext)
    refine staged_call hs fun row hrow => ?_
    rw [hprevious]
    exact ⟨(hpage row hrow).1, (hpage row hrow).2.1⟩
  | copyPage runAccess call =>
    unfold step at h
    dsimp only at h
    split_ifs at h with hcall
    obtain ⟨⟨copied, next⟩, hcopied, rfl⟩ := Option.map_eq_some_iff.mp h
    exact staged_copy hs hcall (toOption_some hcopied)
  | finishFile runAccess access context sourceId pathBytes reused =>
    obtain ⟨verified, rfl⟩ := finishFile_ok (toOption_some h)
    exact staged_same hs rfl rfl rfl rfl
  | requestRelease access confirmRelease runId => exact staged_request hs (toOption_some h)
  | listRelease runId =>
    unfold step at h
    dsimp only at h
    split_ifs at h
    obtain rfl := Option.some.inj h
    exact staged_same hs rfl rfl rfl rfl
  | planRelease access backups d =>
    unfold step at h
    dsimp only at h
    split_ifs at h
    obtain ⟨⟨planned, decision⟩, hplanned, rfl⟩ := Option.map_eq_some_iff.mp h
    obtain ⟨chunkReleases, rfl⟩ := planRelease_ok (toOption_some hplanned)
    exact staged_same hs rfl rfl rfl rfl
  | removeChunk access backups d lost =>
    unfold step at h
    dsimp only at h
    split_ifs at h
    exact staged_remove hs (toOption_some h)

omit hs

theorem run_staged {acts : List Act}
    (h : Machine.run (step sha256 dateParse maxChunkBytes) s acts = some t) (hs : Staged s) : Staged t :=
  Machine.run_keeps (fun _ _ _ hs ht => step_staged hs ht) h hs

/-- What no transaction of the materials changes: the runs, and the checkpoints but for new ones. -/
def Extends (s t : State) : Prop := t.store.runs = s.store.runs ∧ s.checkpoints <+: t.checkpoints

theorem Extends.self (s : State) : Extends s s := ⟨rfl, List.prefix_rfl⟩

theorem step_extends {a : Act} (h : step sha256 dateParse maxChunkBytes s a = some t)
    (hact : ∀ act, a ≠ .truth act) : Extends s t := by
  cases a with
  | truth act => exact absurd rfl (hact act)
  | addSource source =>
    unfold step addSource at h
    dsimp only at h
    split_ifs at h
    obtain rfl := Option.some.inj h
    exact .self _
  | freezeManifest runId sourceId =>
    obtain rfl := Option.some.inj h
    exact .self _
  | uploadChunk runAccess access context sourceId pathBytes actorId input lost =>
    obtain ⟨_, row, published, -, -, hpublish, hcases⟩ := uploadChunk_ok (toOption_some h)
    obtain ⟨chunks, rfl, -⟩ := publish_ok hpublish
    rcases hcases with rfl | rfl
    · exact .self _
    · rcases insertCheckpoint_eq { s with chunks } row with ⟨heq, -⟩ | ⟨heq, -⟩ <;> rw [heq]
      · exact .self _
      · exact ⟨rfl, List.prefix_append _ _⟩
  | beginReuse runAccess context sourceId =>
    obtain ⟨previous, -, h⟩ := Option.bind_eq_some_iff.mp h
    obtain ⟨_, -, rfl⟩ := Option.map_eq_some_iff.mp h
    exact .self _
  | readPage call =>
    unfold step at h
    dsimp only at h
    split_ifs at h
    obtain ⟨next, -, h⟩ := Option.bind_eq_some_iff.mp h
    obtain ⟨_, -, rfl⟩ := Option.map_eq_some_iff.mp h
    exact .self _
  | copyPage runAccess call =>
    unfold step at h
    dsimp only at h
    split_ifs at h
    obtain ⟨⟨copied, next⟩, hcopied, rfl⟩ := Option.map_eq_some_iff.mp h
    obtain ⟨-, -, hfold, -⟩ := copyPage_ok (toOption_some hcopied)
    have hcopy : Extends s copied := by
      refine foldlM_keeps (Extends s) ?_ hfold (.self s)
      intro u row v _ hu hrow
      rcases copyRow_ok hrow with rfl | ⟨-, rfl⟩
      · exact hu
      · exact ⟨hu.1, hu.2.trans (List.prefix_append _ _)⟩
    exact hcopy
  | finishFile runAccess access context sourceId pathBytes reused =>
    obtain ⟨verified, rfl⟩ := finishFile_ok (toOption_some h)
    exact .self _
  | requestRelease access confirmRelease runId =>
    obtain rfl | ⟨_, -, -, -, rfl⟩ := requestRelease_ok (toOption_some h)
    · exact .self _
    · exact .self _
  | listRelease runId =>
    unfold step at h
    dsimp only at h
    split_ifs at h
    obtain rfl := Option.some.inj h
    exact .self _
  | planRelease access backups d =>
    unfold step at h
    dsimp only at h
    split_ifs at h
    obtain ⟨⟨planned, decision⟩, hplanned, rfl⟩ := Option.map_eq_some_iff.mp h
    obtain ⟨chunkReleases, rfl⟩ := planRelease_ok (toOption_some hplanned)
    exact .self _
  | removeChunk access backups d lost =>
    unfold step at h
    dsimp only at h
    split_ifs at h
    obtain rfl | ⟨-, results, rfl⟩ := removeChunk_ok (toOption_some h)
    · exact .self _
    · exact .self _

/-- A run that a step starts is no retry of a run that is given up. -/
theorem started_retry_kept {a : Act} {run : Run} (hs : Staged s)
    (h : step sha256 dateParse maxChunkBytes s a = some t) (hrun : run ∈ t.store.runs)
    (hnew : ∀ r ∈ s.store.runs, r.id ≠ run.id) :
    ∀ prior ∈ run.retryOf, prior ∉ s.store.stagingRelease := by
  cases a with
  | truth act =>
    unfold step at h
    dsimp only at h
    split_ifs at h
    obtain ⟨truth, htruth, rfl⟩ := Option.map_eq_some_iff.mp h
    rcases SourceLifecycle.effect_origin hs.runs (SourceLifecycle.step_effect htruth) hrun with
      ⟨old, hold, hid, -⟩ | ⟨-, hretried⟩
    · exact absurd hid (hnew old hold)
    · exact hretried
  | addSource | freezeManifest | uploadChunk | beginReuse | readPage | copyPage | finishFile
  | requestRelease | listRelease | planRelease | removeChunk =>
    have hsame := (step_extends h fun _ h => by cases h).1
    exact absurd rfl (hnew run (hsame ▸ hrun))

end Steps

/-- Releases of staging in every reachable state: a checkpoint of a run that is not given up refers to
a chunk that is there; and no run is started as a retry of one that is given up, nor are rows of one
copied. -/
theorem staging_release_is_safe (sha256 : String → String) (dateParse : String → Option Int)
    (maxChunkBytes : Nat) (acts : List Act) (s : State)
    (h : Machine.run (step sha256 dateParse maxChunkBytes) SourceUploads.initial acts = some s) :
    (∀ c ∈ s.checkpoints, c.key.runId ∉ s.store.stagingRelease →
      ∃ chunk ∈ s.chunks, Referred chunk c) ∧
    ∀ a t, step sha256 dateParse maxChunkBytes s a = some t →
      (∀ run ∈ t.store.runs, (∀ r ∈ s.store.runs, r.id ≠ run.id) →
        ∀ prior ∈ run.retryOf, prior ∉ s.store.stagingRelease) ∧
      ∀ runAccess call, a = .copyPage runAccess call →
        call.previousRunId ∉ s.store.stagingRelease ∧
        ∀ row ∈ call.page, row ∈ s.checkpoints ∧ row.key.runId = call.previousRunId := by
  have hs := run_staged h initial_staged
  refine ⟨hs.present, ?_⟩
  intro a t ht
  refine ⟨fun run hrun hnew => started_retry_kept hs ht hrun hnew, ?_⟩
  rintro runAccess call rfl
  unfold step at ht
  dsimp only at ht
  split_ifs at ht with hcall
  obtain ⟨⟨copied, next⟩, hcopied, -⟩ := Option.map_eq_some_iff.mp ht
  obtain ⟨⟨run, hlease, hretry⟩, -⟩ := copyPage_ok (toOption_some hcopied)
  exact ⟨previous_kept hs hlease hretry, hs.pages call hcall⟩

/-! ## A run -/

open SourceLifecycle (member)

def fileSource (runId : String) : RunSource :=
  { runId, sourceId := "source", kind := .DIRECTORY_UPLOAD, mode := none, scope := .null
    entries := [{ pathBytes := "YQ", content := some { sizeBytes := 5, digest := "whole" } }]
    manifestId := none }

def fileWorker (runId : String) : Context := { runId, generation := 1 }

/-- A run is started, claimed and enumerated, and its manifest frozen. -/
def enumerated (runId : String) (retryOf : Option String) : List Act :=
  [.truth (.startRun member "author" (some 1) (some "policy") retryOf runId),
    .truth (.claimRun runId "worker" 1000),
    .truth (.transition member (fileWorker runId) .PREFLIGHTING .ENUMERATING none none),
    .addSource (fileSource runId), .freezeManifest runId "source"]

def firstChunk : ChunkInput := { offset := 0, sizeBytes := 3, digest := "first" }

def firstKey : FileKey := { runId := "first", sourceId := "source", pathBytes := "YQ" }

def firstRow : Checkpoint :=
  { key := firstKey, offset := 0, sizeBytes := 3, digest := "first"
    chunkId := chunkId id firstKey firstChunk, actorId := "author", verifiedAt := 0 }

/-- The call of `reuseRetryPrefix` of the retry, before and after its page is read. -/
def firstReuse : Reuse :=
  { context := fileWorker "second", sourceId := "source", previousRunId := "first"
    manifestId := (manifestDigest id (fileSource "first")).getD "", after := none, currentPath := none
    expectedOffset := 0, page := [] }

def firstPage : Reuse :=
  { firstReuse with currentPath := some "YQ", expectedOffset := 3, page := [firstRow] }

def disposal (runId : String) : Disposal := { runId, chunkId := chunkId id firstKey firstChunk }

/-- A retry takes over the chunk of an attempt that failed and is given up: the chunk stays. -/
def retainedRun : List Act :=
  .truth (.saveDraft member "author" 0 (.obj []) (.ok ())) :: enumerated "first" none ++
    [.truth (.transition member (fileWorker "first") .ENUMERATING .MANIFEST_FROZEN none none),
      .truth (.transition member (fileWorker "first") .MANIFEST_FROZEN .CAPTURING none none),
      .uploadChunk member member (fileWorker "first") "source" "YQ" "author" firstChunk false,
      .truth (.transition member (fileWorker "first") .CAPTURING .FAILED_RETRYABLE none none)] ++
    enumerated "second" (some "first") ++
    [.beginReuse member (fileWorker "second") "source", .readPage firstReuse,
      .copyPage member firstPage, .truth (.cancel member "second"),
      .requestRelease member true "second", .listRelease "second",
      .planRelease member .RELEASE (disposal "second")]

/-- Then the attempt is given up as well, and the removal of its chunk is lost once. -/
def removedRun : List Act :=
  retainedRun ++ [.requestRelease member true "first", .listRelease "first",
    .planRelease member .RELEASE (disposal "first"), .removeChunk member .RELEASE (disposal "first") true,
    .removeChunk member .RELEASE (disposal "first") false]

theorem retained_run_keeps_its_chunk :
    ∃ s, Machine.run (step id (fun _ => none) 4) SourceUploads.initial retainedRun = some s ∧
      (s.checkpoints.length, s.decision? (disposal "second"), s.store.stagingRelease) =
        (2, some .RETAIN_RUN_REFERENCE, ["second"]) ∧
      ∀ c ∈ s.checkpoints, c.key.runId ∉ s.store.stagingRelease →
        ∃ chunk ∈ s.chunks, Referred chunk c := by
  have hrun : (Machine.run (step id (fun _ => none) 4) SourceUploads.initial retainedRun).map
      (fun s => (s.checkpoints.length, s.decision? (disposal "second"), s.store.stagingRelease)) =
        some (2, some .RETAIN_RUN_REFERENCE, ["second"]) := by decide +kernel
  obtain ⟨s, hs, hrows⟩ := Option.map_eq_some_iff.mp hrun
  exact ⟨s, hs, hrows, (staging_release_is_safe id (fun _ => none) 4 retainedRun s hs).1⟩

example : (Machine.run (step id (fun _ => none) 4) SourceUploads.initial removedRun).map
    (fun s => (s.chunks, s.results)) = some ([], [disposal "first"]) := by decide +kernel

end Traqen.SourceStaging
