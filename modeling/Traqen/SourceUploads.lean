-- Uploads of a directory (`upload-service.js`) and the release of their chunks (`staging-service.js`).
-- A checkpoint refers to a chunk of the blob store; a retry takes over the checkpoints of the attempt
-- that failed, page by page, and the chunks of a run that is given up are removed one by one. A
-- transaction is one moment; what is read between transactions is kept with the call.
import Traqen.SourceLifecycle
import Traqen.Lib.Base64

open Js

namespace Traqen.SourceUploads

open SourceRuns

/-! ## Rows -/

inductive SourceKind where
  | GIT | DIRECTORY_UPLOAD
  deriving DecidableEq

def SourceKind.text : SourceKind → String
  | GIT => "GIT"
  | DIRECTORY_UPLOAD => "DIRECTORY_UPLOAD"

/-- What a file of an uploaded directory has to contain. -/
structure FileContent where
  sizeBytes : Nat
  digest : String
  deriving DecidableEq

/-- An entry of a manifest of an uploaded directory; a directory has no content. -/
structure Entry where
  pathBytes : String
  content : Option FileContent
  deriving DecidableEq

/-- A row of `source_truth_run_source` with its entries, whose enumeration is closed. -/
structure RunSource where
  runId : String
  sourceId : String
  kind : SourceKind
  mode : Option String
  scope : Json
  entries : List Entry
  manifestId : Option String

structure FileKey where
  runId : String
  sourceId : String
  pathBytes : String
  deriving DecidableEq

/-- A row of `source_truth_upload_checkpoint`. -/
structure Checkpoint where
  key : FileKey
  offset : Nat
  sizeBytes : Nat
  digest : String
  chunkId : String
  actorId : String
  verifiedAt : Int
  deriving DecidableEq

/-- A chunk of the blob store, with what its envelope says. -/
structure Chunk where
  id : String
  digest : String
  sizeBytes : Nat
  deriving DecidableEq

/-- A call of `reuseRetryPrefix` between its transactions: the attempt it takes over, the place it
has come to, and the page it has read. -/
structure Reuse where
  context : Context
  sourceId : String
  previousRunId : String
  manifestId : String
  after : Option (String × Nat)
  currentPath : Option String
  expectedOffset : Nat
  page : List Checkpoint
  deriving DecidableEq

inductive Decision where
  | RELEASE | RETAIN_RUN_REFERENCE | RETAIN_BACKUP_REFERENCE | RETAIN_UNVERIFIED_BACKUP
  deriving DecidableEq

/-- A chunk that is disposed of for a run. -/
structure Disposal where
  runId : String
  chunkId : String
  deriving DecidableEq

structure State where
  truth : SourcePublication.State
  sources : List RunSource
  checkpoints : List Checkpoint
  chunks : List Chunk
  /-- The files whose disposition is `VERIFIED`. -/
  verified : List FileKey
  reuses : List Reuse
  /-- What the calls of `release` have listed. -/
  listed : List Disposal
  /-- The rows of `source_truth_chunk_release`. -/
  chunkReleases : List (Disposal × Decision)
  /-- The rows of `source_truth_chunk_release_result`. -/
  results : List Disposal

def initial : State :=
  { truth := SourcePublication.initial, sources := [], checkpoints := [], chunks := [], verified := []
    reuses := [], listed := [], chunkReleases := [], results := [] }

def State.store (s : State) : Store := s.truth.store

def State.source? (s : State) (runId sourceId : String) : Option RunSource :=
  s.sources.find? fun r => r.runId = runId ∧ r.sourceId = sourceId

def State.rowsOf (s : State) (key : FileKey) : List Checkpoint :=
  s.checkpoints.filter fun c => c.key = key

/-- The method `prefix`. -/
def State.prefixBytes (s : State) (key : FileKey) : Nat := ((s.rowsOf key).map Checkpoint.sizeBytes).sum

/-! ## Manifests -/

/-- What `manifestEntry` makes of an entry of an uploaded directory. -/
def Entry.toJson (e : Entry) : Json :=
  .obj [("pathBytes", .str e.pathBytes),
    ("kind", .str (if e.content.isSome then "FILE" else "DIRECTORY")),
    ("sizeBytes", (e.content.map fun c => Json.str (toString c.sizeBytes)).getD .null),
    ("expectedContent", (e.content.map fun c =>
      Json.obj [("algorithm", .str "sha256"), ("digest", .str c.digest)]).getD .null),
    ("gitMode", .null)]

section Manifest

variable (sha256 : String → String)

/-- The identity that `freezeManifest` gives to the entries. -/
def manifestDigest (source : RunSource) : Option String :=
  (SourceIdentity.orderedArrayDigest sha256 "manifest" [("kind", .str source.kind.text)] "entries"
    (source.entries.map Entry.toJson)).toOption

/-- `freezeManifest`, of a source whose enumeration is closed. -/
def freezeManifest (runId sourceId : String) (s : State) : State :=
  { s with sources := s.sources.map fun r =>
      if r.runId = runId ∧ r.sourceId = sourceId then { r with manifestId := manifestDigest sha256 r }
      else r }

/-- `addSource` and the enumeration of the source, which has no path twice. -/
def addSource (source : RunSource) (s : State) : Option State :=
  if s.source? source.runId source.sourceId = none ∧ source.manifestId = none ∧
      (source.entries.map Entry.pathBytes).Nodup then
    some { s with sources := s.sources ++ [source] }
  else none

end Manifest

/-! ## Upload of a chunk -/

def sourceOf (runId sourceId : String) (s : State) : Except Thrown RunSource :=
  match s.source? runId sourceId with
  | some source => .ok source
  | none => fail "SOURCE_NOT_FOUND" "本任务中没有该来源" 404

def fileOf (source : RunSource) (pathBytes : String) : Option FileContent :=
  (source.entries.find? fun e => e.pathBytes = pathBytes).bind Entry.content

/-- `check`, with what `authorize` answers of the caller. -/
def check (access : Authorization) (key : FileKey) (s : State) : Except Thrown FileContent := do
  let _ ← access
  let source ← sourceOf key.runId key.sourceId s
  requireValue (source.kind = .DIRECTORY_UPLOAD ∧ source.manifestId.isSome = true)
    "SOURCE_MANIFEST_LOCKED" "需要当前目录的冻结清单才能传输" 409
  match fileOf source key.pathBytes with
  | some content => return content
  | none => fail "SOURCE_NOT_FOUND" "文件不在冻结的目录清单中" 404

structure ChunkInput where
  offset : Nat
  sizeBytes : Nat
  digest : String

/-- `byteCount`: a decimal text of at most 40 digits. -/
def byteCount (n : Nat) : Except Thrown Unit := if n < 10 ^ 40 then .ok () else .error .TypeError

/-- A chunk is new at the end of what is there, or there already as it is. -/
def placeOf (key : FileKey) (input : ChunkInput) (s : State) : Except Thrown Unit :=
  match (s.rowsOf key).find? fun c => c.offset = input.offset with
  | some existing =>
    requireValue (existing.digest = input.digest ∧ existing.sizeBytes = input.sizeBytes)
      "SOURCE_UPLOAD_CHECKPOINT_CONFLICT" "该位置已有不同的已验证分片，请重新核对所选目录" 409
  | none =>
    requireValue (s.prefixBytes key = input.offset)
      "SOURCE_UPLOAD_OFFSET_MISMATCH" "请从服务端已验证前缀续传，不能跳过中间字节" 409

section Chunks

variable (sha256 : String → String) (maxChunkBytes : Nat)

def validateChunk (access : Authorization) (key : FileKey) (input : ChunkInput) (s : State) :
    Except Thrown Unit := do
  let content ← check access key s
  byteCount input.sizeBytes
  byteCount input.offset
  requireValue (0 < input.sizeBytes ∧ input.sizeBytes ≤ maxChunkBytes ∧
    input.offset + input.sizeBytes ≤ content.sizeBytes)
    "SOURCE_UPLOAD_CHUNK_INVALID" "分片长度超过平台限制或冻结文件边界" 400
  placeOf key input s

/-- The identity that `putChunk` gives to a chunk. -/
def chunkId (key : FileKey) (input : ChunkInput) : String :=
  sha256 (SourceIdentity.canonicalEncode (.obj [("runId", .str key.runId),
    ("fileKey", .str (key.sourceId ++ ":" ++ key.pathBytes)),
    ("offset", .str (toString input.offset)), ("digest", .str input.digest),
    ("sizeBytes", .str (toString input.sizeBytes))]))

/-- A chunk that is there already is read before it is taken. -/
def publish (chunk : Chunk) (s : State) : Except Thrown State :=
  match s.chunks.find? fun c => c.id = chunk.id with
  | none => .ok { s with chunks := s.chunks ++ [chunk] }
  | some present =>
    if present = chunk then .ok s else fail "SOURCE_CONTENT_CORRUPT" "内容引用与封装不一致" 409

/-- `INSERT .. ON CONFLICT DO NOTHING` of a checkpoint. -/
def State.insertCheckpoint (s : State) (row : Checkpoint) : State :=
  if ∃ c ∈ s.checkpoints, c.key = row.key ∧ c.offset = row.offset then s
  else { s with checkpoints := s.checkpoints ++ [row] }

/-- The transaction of `uploadChunk` that publishes the chunk, which makes again the checks of the
one before the stream. The file system keeps the chunk when the transaction is lost after that. -/
def uploadChunk (runAccess access : Authorization) (context : Context)
    (sourceId pathBytes actorId : String) (input : ChunkInput) (lost : Bool) (s : State) :
    Except Thrown State := do
  let run ← withLease runAccess context s.store
  requireValue (run.status ∈ [.CAPTURING, .WAITING_FOR_CLIENT])
    "SOURCE_INVALID_TRANSITION" "当前阶段不接受文件分片" 409
  let key : FileKey := { runId := context.runId, sourceId, pathBytes }
  validateChunk maxChunkBytes access key input s
  let id := chunkId sha256 key input
  let published ← publish { id, digest := input.digest, sizeBytes := input.sizeBytes } s
  let row : Checkpoint :=
    { key, offset := input.offset, sizeBytes := input.sizeBytes, digest := input.digest, chunkId := id
      actorId, verifiedAt := s.store.clock }
  if lost = true then return published else return published.insertCheckpoint row

end Chunks

/-! ## Reuse of the checkpoints of an attempt that failed -/

/-- The first transaction of `reuseRetryPrefix`: the attempt and its manifest. -/
def beginReuse (runAccess : Authorization) (context : Context) (sourceId : String) (s : State) :
    Except Thrown (Option (String × String)) := do
  let run ← withLease runAccess context s.store
  match run.retryOf with
  | none => return none
  | some retryOf =>
    let source ← sourceOf context.runId sourceId s
    if source.kind ≠ .DIRECTORY_UPLOAD ∨ source.mode = some "REUSE" then return none
    else
      match s.source? retryOf sourceId, s.store.run? retryOf with
      | some prior, some priorRun =>
        match prior.manifestId with
        | none => return none
        | some manifestId =>
          requireValue (priorRun.status = .FAILED_RETRYABLE ∧
            priorRun.policyRevisionId = run.policyRevisionId ∧ prior.kind = source.kind ∧
            SourceIdentity.canonicalEncode prior.scope = SourceIdentity.canonicalEncode source.scope)
            "SOURCE_RETRY_NOT_ALLOWED" "重试检查点的来源、范围或策略不匹配" 409
          requireValue (source.manifestId = some manifestId) "SOURCE_DIRECTORY_CHANGED"
            "重选目录与原失败尝试的冻结清单不同；请建立新候选，不能替换原输入续传" 409
          return some (retryOf, manifestId)
      | _, _ => return none

/-- The bytes of a path, from their `base64url` text. -/
def rawPath (pathBytes : String) : List UInt8 :=
  Base64.decode (pathBytes.toList.map fun c => if c = '-' then '+' else if c = '_' then '/' else c)

/-- `(path_bytes,offset_bytes) < (path_bytes,offset_bytes)`. -/
def beforeRow (a b : String × Nat) : Prop :=
  rawPath a.1 < rawPath b.1 ∨ rawPath a.1 = rawPath b.1 ∧ a.2 < b.2

instance (a b : String × Nat) : Decidable (beforeRow a b) := inferInstanceAs (Decidable (_ ∨ _))

def placeOfRow (c : Checkpoint) : String × Nat := (c.key.pathBytes, c.offset)

/-- The next page of the checkpoints of the attempt. -/
def State.pageAfter (s : State) (runId sourceId : String) (after : Option (String × Nat)) :
    List Checkpoint :=
  let rows := s.checkpoints.filter fun c => c.key.runId = runId ∧ c.key.sourceId = sourceId ∧
    ∀ place ∈ after, beforeRow place (placeOfRow c)
  (rows.mergeSort fun a b => decide (¬ beforeRow (placeOfRow b) (placeOfRow a))).take 100

/-- `readChunk`, of which the first pass authenticates the chunk. -/
def readChunk (s : State) (c : Checkpoint) : Except Thrown Unit :=
  match s.chunks.find? fun chunk => chunk.id = c.chunkId with
  | none => .error (.DatabaseError "ENOENT")
  | some chunk =>
    requireValue (chunk.digest = c.digest ∧ chunk.sizeBytes = c.sizeBytes)
      "SOURCE_CONTENT_CORRUPT" "内容引用与封装不一致" 409

/-- The rows of a page are read in turn, and each begins where the one before it ends. -/
def readRows (s : State) : Option String → Nat → List Checkpoint →
    Except Thrown (Option String × Nat)
  | currentPath, expectedOffset, [] => .ok (currentPath, expectedOffset)
  | currentPath, expectedOffset, row :: rows => do
    let expectedOffset := if currentPath = some row.key.pathBytes then expectedOffset else 0
    requireValue (row.offset = expectedOffset)
      "SOURCE_UPLOAD_INCOMPLETE" "原检查点前缀不连续，不能推定已上传" 409
    readChunk s row
    readRows s (some row.key.pathBytes) (expectedOffset + row.sizeBytes) rows

/-- The next page is read; where there is none, the call returns. -/
def readPage (call : Reuse) (s : State) : Except Thrown (Option Reuse) := do
  let page := s.pageAfter call.previousRunId call.sourceId call.after
  if page = [] then return none
  else
    let (currentPath, expectedOffset) ← readRows s call.currentPath call.expectedOffset page
    return some { call with page, currentPath, expectedOffset }

/-- A row of the page is copied where it continues what is there. -/
def copyRow (context : Context) (s : State) (row : Checkpoint) : Except Thrown State :=
  let key := { row.key with runId := context.runId }
  if s.prefixBytes key ≠ row.offset then .ok s
  else do
    uniqueViolation (∃ c ∈ s.checkpoints, c.key = key ∧ c.offset = row.offset)
    let source ← sourceOf key.runId key.sourceId s
    -- The foreign key of a checkpoint is an entry.
    if key.pathBytes ∈ source.entries.map Entry.pathBytes then
      return { s with checkpoints := s.checkpoints ++ [{ row with key }] }
    else .error (.DatabaseError "23503")

/-- The transaction that copies a page, and the call after it. -/
def copyPage (runAccess : Authorization) (call : Reuse) (s : State) :
    Except Thrown (State × Reuse) := do
  let run ← withLease runAccess call.context s.store
  let source ← sourceOf call.context.runId call.sourceId s
  requireValue (run.retryOf = some call.previousRunId ∧ source.manifestId = some call.manifestId)
    "SOURCE_RETRY_NOT_ALLOWED" "原输入绑定已不同，停止复用" 409
  let copied ← call.page.foldlM (copyRow call.context) s
  return (copied, { call with after := call.page.getLast?.map placeOfRow, page := [] })

/-! ## Verified chunks -/

/-- The rows of one page in turn, and the place after them. -/
def yieldRows (s : State) : Nat → List Checkpoint → Except Thrown Nat
  | offset, [] => .ok offset
  | offset, row :: rows => do
    requireValue (row.offset = offset)
      "SOURCE_UPLOAD_INCOMPLETE" "已验证分片不连续，不能恢复为完整文件" 409
    readChunk s row
    yieldRows s (offset + row.sizeBytes) rows

/-- `ORDER BY offset_bytes LIMIT 100`. -/
def State.pageFrom (s : State) (key : FileKey) (offset : Nat) : List Checkpoint :=
  (((s.rowsOf key).filter fun c => offset ≤ c.offset).mergeSort
    fun a b => decide (a.offset ≤ b.offset)).take 100

/-- `verifiedChunks` from a place on, in at most so many pages. -/
def chunksFrom (s : State) (key : FileKey) : Nat → Nat → Except Thrown (List Checkpoint)
  | 0, _ => .ok []
  | fuel + 1, offset => do
    let page := s.pageFrom key offset
    if page = [] then return []
    else
      let next ← yieldRows s offset page
      let rest ← chunksFrom s key fuel next
      return page ++ rest

/-- `verifiedChunks`: a page that is not empty has a row, so that no more pages are read than there
are rows. -/
def verifiedChunks (s : State) (key : FileKey) : Except Thrown (List Checkpoint) :=
  chunksFrom s key ((s.rowsOf key).length + 1) 0

/-- `finishFile`, at the moment of its last transaction, with what `verifyBlob` answers. -/
def finishFile (runAccess access : Authorization) (context : Context) (sourceId pathBytes : String)
    (reused : Bool) (s : State) : Except Thrown State := do
  let run ← withLease runAccess context s.store
  requireValue (run.status ∈ [.CAPTURING, .WAITING_FOR_CLIENT, .RECONCILING])
    "SOURCE_INVALID_TRANSITION" "当前阶段不能完成文件验证" 409
  let key : FileKey := { runId := context.runId, sourceId, pathBytes }
  let content ← check access key s
  if reused = true then return { s with verified := s.verified ++ [key] }
  else do
    requireValue (s.prefixBytes key = content.sizeBytes)
      "SOURCE_UPLOAD_INCOMPLETE" "文件还缺字节，重新选择原目录后继续传输" 409
    let _ ← verifiedChunks s key
    return { s with verified := s.verified ++ [key] }

/-! ## Release of the chunks of a run -/

def assertWritable (access : Access) : Except Thrown Unit := do
  requireValue (access.restoreReady = true)
    "SOURCE_RESTORE_UNVERIFIED" "恢复尚未校验，不能释放暂存" 409
  requireValue (access.backupBarrier = false)
    "SOURCE_BACKUP_BUSY" "正在建立备份一致性水位；完成后再处理暂存" 409

/-- `releasable.has(status)`. -/
def isReleasable : RunStatus → Bool
  | .CANCELLED | .BLOCKED | .FAILED_RETRYABLE => true
  | _ => false

/-- `protection`, with what the tables of backups and restores say when no run needs the chunk. -/
def protection (backups : Decision) (chunkId : String) (s : State) : Decision :=
  if ∃ c ∈ s.checkpoints, c.chunkId = chunkId ∧ c.key.runId ∉ s.store.stagingRelease then
    .RETAIN_RUN_REFERENCE
  else backups

/-- The transaction of `release` that records the request. -/
def requestRelease (access : Authorization) (confirmRelease : Bool) (runId : String) (s : State) :
    Except Thrown State := do
  requireValue (confirmRelease = true) "SOURCE_RELEASE_CONFIRMATION_REQUIRED"
    "必须明确确认放弃续传并释放无引用的私有上传分片" 400
  let access ← access
  assertWritable access
  match s.store.run? runId with
  | none => fail "SOURCE_NOT_FOUND" "任务不存在" 404
  | some run =>
    requireValue (isReleasable run.status = true)
      (if run.status = .SUCCEEDED then "SOURCE_FROZEN_HISTORY_PROTECTED" else "SOURCE_RUN_ACTIVE")
      "先取消未完成任务；成功的历史包不属于暂存释放范围" 409
    requireValue (∀ r ∈ s.store.runs, r.retryOf = some runId → r.id ∈ s.store.stagingRelease)
      "SOURCE_STAGING_REFERENCED" "已有重试任务依赖此检查点；先处理其引用，不能放弃原续传材料" 409
    if runId ∈ s.store.stagingRelease then return s
    else
      let store := { s.store with stagingRelease := s.store.stagingRelease ++ [runId] }
      return { s with truth := { s.truth with store } }

def State.decision? (s : State) (d : Disposal) : Option Decision :=
  (s.chunkReleases.find? fun p => p.1 = d).map Prod.snd

/-- The batch of `release`: chunks of the run that are not planned, or planned and not removed. -/
def State.batch (s : State) (runId : String) : List Disposal :=
  let rows := ((s.checkpoints.filter fun c => c.key.runId = runId).map Checkpoint.chunkId).dedup
  let pending := (rows.map fun chunkId => ({ runId, chunkId } : Disposal)).filter fun d =>
    s.decision? d = none ∨ s.decision? d = some .RELEASE ∧ d ∉ s.results
  (pending.mergeSort fun a b => decide (codeUnits a.chunkId ≤ codeUnits b.chunkId)).take 100

/-- The transaction that records what is decided of a chunk; what is recorded stays. -/
def planRelease (access : Authorization) (backups : Decision) (d : Disposal) (s : State) :
    Except Thrown (State × Decision) := do
  let access ← access
  assertWritable access
  match s.decision? d with
  | some decision => return (s, decision)
  | none =>
    let decision := protection backups d.chunkId s
    return ({ s with chunkReleases := s.chunkReleases ++ [(d, decision)] }, decision)

/-- The transaction that removes a chunk whose release is planned. The file system has removed it when
the transaction is lost after that. -/
def removeChunk (access : Authorization) (backups : Decision) (d : Disposal) (lost : Bool)
    (s : State) : Except Thrown State := do
  let access ← access
  assertWritable access
  if d ∈ s.results then return s
  else do
    requireValue (protection backups d.chunkId s = .RELEASE)
      "SOURCE_STAGING_REFERENCED" "引用保护已变化；停止释放，保留原处置记录" 409
    let removed := { s with chunks := s.chunks.filter fun c => c.id ≠ d.chunkId }
    if lost = true then return removed
    else return { removed with results := s.results ++ [d] }

/-! ## The machine -/

/-- What may happen: an operation on the runs, or a transaction of the materials. -/
inductive Act where
  | truth (act : SourceLifecycle.Act)
  | addSource (source : RunSource)
  | freezeManifest (runId sourceId : String)
  | uploadChunk (runAccess access : Authorization) (context : Context)
      (sourceId pathBytes actorId : String) (input : ChunkInput) (lost : Bool)
  | beginReuse (runAccess : Authorization) (context : Context) (sourceId : String)
  | readPage (call : Reuse)
  | copyPage (runAccess : Authorization) (call : Reuse)
  | finishFile (runAccess access : Authorization) (context : Context) (sourceId pathBytes : String)
      (reused : Bool)
  | requestRelease (access : Authorization) (confirmRelease : Bool) (runId : String)
  | listRelease (runId : String)
  | planRelease (access : Authorization) (backups : Decision) (d : Disposal)
  | removeChunk (access : Authorization) (backups : Decision) (d : Disposal) (lost : Bool)

/-- The release of staging has transactions of its own. -/
def isRelease : SourceLifecycle.Act → Bool
  | .releaseStaging _ => true
  | _ => false

section Step

variable (sha256 : String → String) (dateParse : String → Option Int) (maxChunkBytes : Nat)

def step (s : State) : Act → Option State
  | .truth act =>
    if isRelease act = true then none
    else (SourceLifecycle.step sha256 dateParse s.truth act).map fun truth => { s with truth }
  | .addSource source => addSource source s
  | .freezeManifest runId sourceId => some (freezeManifest sha256 runId sourceId s)
  | .uploadChunk runAccess access context sourceId pathBytes actorId input lost =>
    (uploadChunk sha256 maxChunkBytes runAccess access context sourceId pathBytes actorId input lost
      s).toOption
  | .beginReuse runAccess context sourceId =>
    (beginReuse runAccess context sourceId s).toOption.bind fun previous =>
      previous.map fun previous =>
        { s with reuses := s.reuses ++
            [{ context, sourceId, previousRunId := previous.1, manifestId := previous.2, after := none
               currentPath := none, expectedOffset := 0, page := [] }] }
  | .readPage call =>
    if call ∈ s.reuses then
      (readPage call s).toOption.bind fun next =>
        next.map fun next => { s with reuses := s.reuses ++ [next] }
    else none
  | .copyPage runAccess call =>
    if call ∈ s.reuses then
      (copyPage runAccess call s).toOption.map fun r => { r.1 with reuses := r.1.reuses ++ [r.2] }
    else none
  | .finishFile runAccess access context sourceId pathBytes reused =>
    (finishFile runAccess access context sourceId pathBytes reused s).toOption
  | .requestRelease access confirmRelease runId =>
    (requestRelease access confirmRelease runId s).toOption
  | .listRelease runId =>
    if runId ∈ s.store.stagingRelease then some { s with listed := s.listed ++ s.batch runId } else none
  | .planRelease access backups d =>
    if d ∈ s.listed then (planRelease access backups d s).toOption.map Prod.fst else none
  | .removeChunk access backups d lost =>
    if d ∈ s.listed ∧ s.decision? d = some .RELEASE then (removeChunk access backups d lost s).toOption
    else none

end Step

/-! ## What an accepted transaction did -/

section Inversion

variable {s t : State} {access runAccess : Authorization} {context : Context} {key : FileKey}

variable {runId sourceId : String}

theorem sourceOf_ok {source : RunSource}
    (h : sourceOf runId sourceId s = .ok source) : s.source? runId sourceId = some source := by
  unfold sourceOf at h
  cases hsource : s.source? runId sourceId with
  | none =>
    rw [hsource] at h
    cases h
  | some found =>
    rw [hsource] at h
    rw [Except.ok.inj h]

/-- A file that is checked is one of a frozen directory. -/
theorem check_ok {content : FileContent} (h : check access key s = .ok content) :
    ∃ source, s.source? key.runId key.sourceId = some source ∧ source.manifestId.isSome = true ∧
      fileOf source key.pathBytes = some content := by
  unfold check at h
  obtain ⟨_, -, h⟩ := bind_ok h
  obtain ⟨source, hsource, h⟩ := bind_ok h
  obtain ⟨⟨-, hmanifest⟩, h⟩ := require_bind h
  refine ⟨source, sourceOf_ok hsource, hmanifest, ?_⟩
  cases hfile : fileOf source key.pathBytes with
  | none =>
    rw [hfile] at h
    cases h
  | some found =>
    rw [hfile] at h
    rw [Except.ok.inj h]

/-- A new chunk is put where the rows of its file end. -/
theorem placeOf_ok {input : ChunkInput} (h : placeOf key input s = .ok ()) :
    (∃ c ∈ s.rowsOf key, c.offset = input.offset) ∨ s.prefixBytes key = input.offset := by
  unfold placeOf at h
  cases hfound : (s.rowsOf key).find? fun c => c.offset = input.offset with
  | some existing =>
    exact Or.inl ⟨existing, List.mem_of_find?_eq_some hfound, by simpa using List.find?_some hfound⟩
  | none =>
    rw [hfound] at h
    exact Or.inr (require_ok h)

/-- What is published is there afterwards, with what was there. -/
theorem publish_ok {chunk : Chunk} (h : publish chunk s = .ok t) :
    ∃ chunks, t = { s with chunks } ∧ chunk ∈ chunks ∧ (∀ c ∈ s.chunks, c ∈ chunks) ∧
      ((s.chunks.map Chunk.id).Nodup → (chunks.map Chunk.id).Nodup) := by
  unfold publish at h
  cases hfound : s.chunks.find? fun c => c.id = chunk.id with
  | none =>
    rw [hfound] at h
    obtain rfl := Except.ok.inj h
    refine ⟨s.chunks ++ [chunk], rfl, List.mem_append_right _ (List.mem_singleton_self chunk),
      fun c hc => List.mem_append_left _ hc, ?_⟩
    intro hids
    rw [List.map_append, List.map_singleton, List.nodup_append]
    refine ⟨hids, List.nodup_singleton _, ?_⟩
    intro a ha b hb
    obtain ⟨c, hc, rfl⟩ := List.mem_map.mp ha
    rw [List.mem_singleton.mp hb]
    simpa using List.find?_eq_none.mp hfound c hc
  | some present =>
    rw [hfound] at h
    dsimp only at h
    by_cases hsame : present = chunk
    · rw [if_pos hsame] at h
      obtain rfl := Except.ok.inj h
      exact ⟨s.chunks, rfl, hsame ▸ List.mem_of_find?_eq_some hfound, fun c hc => hc, id⟩
    · rw [if_neg hsame] at h
      cases h

/-- The row of an upload is of a file of the frozen directory and within it, and it continues the rows
of the file or is at a place that has one. -/
structure Uploads (s : State) (context : Context) (row : Checkpoint) : Prop where
  run : row.key.runId = context.runId
  size : 0 < row.sizeBytes
  file : ∃ source content, s.source? row.key.runId row.key.sourceId = some source ∧
    source.manifestId.isSome = true ∧ fileOf source row.key.pathBytes = some content ∧
    row.offset + row.sizeBytes ≤ content.sizeBytes
  place : (∃ c ∈ s.rowsOf row.key, c.offset = row.offset) ∨ s.prefixBytes row.key = row.offset

theorem uploadChunk_ok {sha256 : String → String} {maxChunkBytes : Nat}
    {pathBytes actorId : String} {input : ChunkInput} {lost : Bool}
    (h : uploadChunk sha256 maxChunkBytes runAccess access context sourceId pathBytes actorId input lost
      s = .ok t) :
    ∃ run row published, withLease runAccess context s.store = .ok run ∧ Uploads s context row ∧
      publish { id := row.chunkId, digest := row.digest, sizeBytes := row.sizeBytes } s = .ok published ∧
      (t = published ∨ t = published.insertCheckpoint row) := by
  unfold uploadChunk validateChunk at h
  obtain ⟨run, hlease, h⟩ := bind_ok h
  obtain ⟨-, h⟩ := require_bind h
  obtain ⟨⟨⟩, hvalid, h⟩ := bind_ok h
  obtain ⟨content, hcheck, hvalid⟩ := bind_ok hvalid
  obtain ⟨_, -, hvalid⟩ := bind_ok hvalid
  obtain ⟨_, -, hvalid⟩ := bind_ok hvalid
  obtain ⟨⟨hsize, -, hbound⟩, hplace⟩ := require_bind hvalid
  obtain ⟨published, hpublish, h⟩ := bind_ok h
  obtain ⟨source, hsource, hmanifest, hfile⟩ := check_ok hcheck
  let key : FileKey := { runId := context.runId, sourceId, pathBytes }
  let row : Checkpoint :=
    { key, offset := input.offset, sizeBytes := input.sizeBytes, digest := input.digest
      chunkId := chunkId sha256 key input, actorId, verifiedAt := s.store.clock }
  have huploads : Uploads s context row :=
    ⟨rfl, hsize, ⟨source, content, hsource, hmanifest, hfile, hbound⟩, placeOf_ok hplace⟩
  refine ⟨run, row, published, hlease, huploads, hpublish, ?_⟩
  dsimp only at h
  by_cases hlost : lost = true
  · rw [if_pos hlost] at h
    exact Or.inl (Except.ok.inj h).symm
  · rw [if_neg hlost] at h
    exact Or.inr (Except.ok.inj h).symm

theorem insertCheckpoint_eq (s : State) (row : Checkpoint) :
    (s.insertCheckpoint row = s ∧ ∃ c ∈ s.checkpoints, c.key = row.key ∧ c.offset = row.offset) ∨
      s.insertCheckpoint row = { s with checkpoints := s.checkpoints ++ [row] } ∧
        ∀ c ∈ s.checkpoints, ¬ (c.key = row.key ∧ c.offset = row.offset) := by
  unfold State.insertCheckpoint
  split_ifs with htaken
  · exact Or.inl ⟨rfl, htaken⟩
  · refine Or.inr ⟨rfl, ?_⟩
    intro c hc hsame
    exact htaken ⟨c, hc, hsame⟩

theorem beginReuse_ok {previous : String × String}
    (h : beginReuse runAccess context sourceId s = .ok (some previous)) :
    ∃ run, withLease runAccess context s.store = .ok run ∧ run.retryOf = some previous.1 ∧
      ∃ prior source, s.source? previous.1 sourceId = some prior ∧
        s.source? context.runId sourceId = some source ∧ prior.manifestId = some previous.2 ∧
        source.manifestId = some previous.2 := by
  unfold beginReuse at h
  obtain ⟨run, hlease, h⟩ := bind_ok h
  refine ⟨run, hlease, ?_⟩
  cases hretry : run.retryOf with
  | none =>
    rw [hretry] at h
    cases h
  | some retryOf =>
    rw [hretry] at h
    obtain ⟨source, hsource, h⟩ := bind_ok h
    split_ifs at h with hother
    · cases h
    cases hprior : s.source? retryOf sourceId with
    | none =>
      rw [hprior] at h
      cases h
    | some prior =>
      rw [hprior] at h
      cases hrun : s.store.run? retryOf with
      | none =>
        rw [hrun] at h
        cases h
      | some priorRun =>
        rw [hrun] at h
        dsimp only at h
        split at h
        · cases h
        rename_i manifestId hmanifest
        obtain ⟨-, h⟩ := require_bind h
        obtain ⟨hsame, h⟩ := require_bind h
        obtain rfl := Option.some.inj (Except.ok.inj h)
        exact ⟨rfl, prior, source, hprior, sourceOf_ok hsource, hmanifest, hsame⟩

theorem mem_pageAfter {after : Option (String × Nat)} {row : Checkpoint}
    (h : row ∈ s.pageAfter runId sourceId after) :
    row ∈ s.checkpoints ∧ row.key.runId = runId ∧ row.key.sourceId = sourceId := by
  unfold State.pageAfter at h
  have hrow := List.mem_mergeSort.mp (List.mem_of_mem_take h)
  obtain ⟨hmem, hkey⟩ := List.mem_filter.mp hrow
  have hkeys := of_decide_eq_true hkey
  exact ⟨hmem, hkeys.1, hkeys.2.1⟩

theorem readPage_ok {call next : Reuse} (h : readPage call s = .ok (some next)) :
    next.context = call.context ∧ next.sourceId = call.sourceId ∧
      next.previousRunId = call.previousRunId ∧ next.manifestId = call.manifestId ∧
      ∀ row ∈ next.page, row ∈ s.checkpoints ∧ row.key.runId = call.previousRunId ∧
        row.key.sourceId = call.sourceId := by
  unfold readPage at h
  dsimp only at h
  split_ifs at h
  · cases h
  obtain ⟨⟨currentPath, expectedOffset⟩, -, h⟩ := bind_ok h
  obtain rfl := Option.some.inj (Except.ok.inj h)
  exact ⟨rfl, rfl, rfl, rfl, fun row hrow => mem_pageAfter hrow⟩

/-- A row is copied to the end of the rows of its file, or left out. -/
theorem copyRow_ok {row : Checkpoint} (h : copyRow context s row = .ok t) :
    t = s ∨ s.prefixBytes { row.key with runId := context.runId } = row.offset ∧
      t = { s with checkpoints := s.checkpoints ++ [{ row with
        key := { row.key with runId := context.runId } }] } := by
  unfold copyRow at h
  dsimp only at h
  split_ifs at h with hplace
  · exact Or.inl (Except.ok.inj h).symm
  · obtain ⟨-, h⟩ := unique_bind h
    obtain ⟨source, -, h⟩ := bind_ok h
    split_ifs at h
    exact Or.inr ⟨not_not.mp hplace, (Except.ok.inj h).symm⟩

/-- What every copied row keeps, the copy of a page keeps. -/
theorem foldlM_keeps (Inv : State → Prop) {rows : List Checkpoint}
    (hstep : ∀ s row t, row ∈ rows → Inv s → copyRow context s row = .ok t → Inv t)
    (h : rows.foldlM (copyRow context) s = .ok t) (hs : Inv s) : Inv t := by
  induction rows generalizing s with
  | nil =>
    obtain rfl := Except.ok.inj h
    exact hs
  | cons row rows ih =>
    rw [List.foldlM_cons] at h
    obtain ⟨u, hu, h⟩ := bind_ok h
    exact ih (fun s row t hrow => hstep s row t (List.mem_cons_of_mem _ hrow)) h
      (hstep s row u List.mem_cons_self hs hu)

theorem copyPage_ok {call next : Reuse} (h : copyPage runAccess call s = .ok (t, next)) :
    (∃ run, withLease runAccess call.context s.store = .ok run ∧
      run.retryOf = some call.previousRunId) ∧
    (∃ source, s.source? call.context.runId call.sourceId = some source ∧
      source.manifestId = some call.manifestId) ∧
    call.page.foldlM (copyRow call.context) s = .ok t ∧
    next = { call with after := call.page.getLast?.map placeOfRow, page := [] } := by
  unfold copyPage at h
  obtain ⟨run, hlease, h⟩ := bind_ok h
  obtain ⟨source, hsource, h⟩ := bind_ok h
  obtain ⟨⟨hretry, hmanifest⟩, h⟩ := require_bind h
  obtain ⟨copied, hcopied, h⟩ := bind_ok h
  obtain ⟨rfl, rfl⟩ := Prod.mk.inj (Except.ok.inj h)
  exact ⟨⟨run, hlease, hretry⟩, ⟨source, sourceOf_ok hsource, hmanifest⟩, hcopied, rfl⟩

theorem finishFile_ok {pathBytes : String} {reused : Bool}
    (h : finishFile runAccess access context sourceId pathBytes reused s = .ok t) :
    ∃ verified, t = { s with verified } := by
  unfold finishFile at h
  obtain ⟨_, -, h⟩ := bind_ok h
  obtain ⟨-, h⟩ := require_bind h
  obtain ⟨_, -, h⟩ := bind_ok h
  split_ifs at h
  · exact ⟨_, (Except.ok.inj h).symm⟩
  · obtain ⟨-, h⟩ := require_bind h
    obtain ⟨_, -, h⟩ := bind_ok h
    exact ⟨_, (Except.ok.inj h).symm⟩

/-- The staging of a run is given up once it has ended and no retry of it is kept. -/
theorem requestRelease_ok {confirmRelease : Bool}
    (h : requestRelease access confirmRelease runId s = .ok t) :
    t = s ∨ ∃ run, s.store.run? runId = some run ∧ isReleasable run.status = true ∧
      (∀ r ∈ s.store.runs, r.retryOf = some runId → r.id ∈ s.store.stagingRelease) ∧
      t = { s with truth := { s.truth with
        store := { s.store with stagingRelease := s.store.stagingRelease ++ [runId] } } } := by
  unfold requestRelease at h
  obtain ⟨-, h⟩ := require_bind h
  obtain ⟨access, -, h⟩ := bind_ok h
  obtain ⟨_, -, h⟩ := bind_ok h
  cases hrun : s.store.run? runId with
  | none =>
    rw [hrun] at h
    cases h
  | some run =>
    rw [hrun] at h
    obtain ⟨hreleasable, h⟩ := require_bind h
    obtain ⟨hchildren, h⟩ := require_bind h
    split_ifs at h
    · exact Or.inl (Except.ok.inj h).symm
    · exact Or.inr ⟨run, rfl, hreleasable, hchildren, (Except.ok.inj h).symm⟩

theorem planRelease_ok {backups decision : Decision} {d : Disposal}
    (h : planRelease access backups d s = .ok (t, decision)) :
    ∃ chunkReleases, t = { s with chunkReleases } := by
  unfold planRelease at h
  obtain ⟨_, -, h⟩ := bind_ok h
  obtain ⟨_, -, h⟩ := bind_ok h
  cases hdecision : s.decision? d with
  | some found =>
    rw [hdecision] at h
    exact ⟨s.chunkReleases, (Prod.mk.inj (Except.ok.inj h)).1.symm⟩
  | none =>
    rw [hdecision] at h
    exact ⟨_, (Prod.mk.inj (Except.ok.inj h)).1.symm⟩

/-- A chunk is removed when no kept run refers to it. -/
theorem removeChunk_ok {backups : Decision} {d : Disposal} {lost : Bool}
    (h : removeChunk access backups d lost s = .ok t) :
    t = s ∨ (∀ c ∈ s.checkpoints, c.chunkId = d.chunkId → c.key.runId ∈ s.store.stagingRelease) ∧
      ∃ results, t = { s with chunks := s.chunks.filter fun c => c.id ≠ d.chunkId, results } := by
  unfold removeChunk at h
  obtain ⟨_, -, h⟩ := bind_ok h
  obtain ⟨_, -, h⟩ := bind_ok h
  split_ifs at h
  · exact Or.inl (Except.ok.inj h).symm
  all_goals
    obtain ⟨hprotection, h⟩ := require_bind h
    refine Or.inr ⟨?_, _, (Except.ok.inj h).symm⟩
    intro c hc hsame
    by_contra hkept
    unfold protection at hprotection
    rw [if_pos ⟨c, hc, hsame, hkept⟩] at hprotection
    cases hprotection

end Inversion

end Traqen.SourceUploads
