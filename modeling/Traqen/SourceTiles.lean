-- Upload checkpoints (`upload-service.js`) over whole histories: the checkpoints of a file tile it from
-- its beginning, whichever uploads, repetitions and copies of an attempt that failed are interleaved, so
-- that `verifiedChunks` gives exactly the bytes that `prefix` counts.
import Traqen.SourceStaging
import Traqen.Lib.Tiling

open Js

namespace Traqen.SourceTiles

open SourceRuns SourceUploads SourceStaging
open SourceIdentity (sortKeys field_of_sortKeys withArray requireDomain sortItems_eq listedDigest)
open Tiling (total tiles_sorted tiles_take total_append)

/-- The checkpoints of a file tile it from its beginning. -/
def TilesFile (rows : List Checkpoint) : Prop :=
  Tiling.Tiles Checkpoint.offset Checkpoint.sizeBytes 0 rows

/-- The file that a checkpoint is of has this content. -/
def Declares (s : State) (key : FileKey) (content : FileContent) : Prop :=
  ∃ source, s.source? key.runId key.sourceId = some source ∧
    fileOf source key.pathBytes = some content

/-! ## Manifests -/

section Manifest

variable {sha256 : String → String}

/-- An entry is told by its text. -/
theorem entry_toJson_injective {e e' : Entry}
    (h : sortKeys e.toJson = sortKeys e'.toJson) : e = e' := by
  obtain ⟨path, hpath, hsame⟩ := field_of_sortKeys h "pathBytes" List.mem_cons_self
  obtain rfl : path = .str e'.pathBytes := by simpa using hpath
  obtain ⟨size, hsize, hsizes⟩ := field_of_sortKeys h "sizeBytes"
    (List.mem_cons_of_mem _ (List.mem_cons_of_mem _ List.mem_cons_self))
  obtain ⟨expected, hexpected, hcontents⟩ := field_of_sortKeys h "expectedContent"
    (List.mem_cons_of_mem _ (List.mem_cons_of_mem _ (List.mem_cons_of_mem _ List.mem_cons_self)))
  have hpaths : e.pathBytes = e'.pathBytes := Json.str.inj hsame
  obtain ⟨p, content⟩ := e
  obtain ⟨p', content'⟩ := e'
  obtain rfl : p = p' := hpaths
  cases content with
  | none =>
    cases content' with
    | none => rfl
    | some c' =>
      obtain rfl : size = .str (toString c'.sizeBytes) := by simpa using hsize
      cases hsizes
  | some c =>
    cases content' with
    | none =>
      obtain rfl : size = .null := by simpa using hsize
      cases hsizes
    | some c' =>
      obtain rfl : size = .str (toString c'.sizeBytes) := by simpa using hsize
      obtain rfl : expected = .obj [("algorithm", .str "sha256"), ("digest", .str c'.digest)] := by
        simpa using hexpected
      obtain ⟨digest, hdigest, hdigests⟩ := field_of_sortKeys hcontents "digest"
        (List.mem_cons_of_mem _ List.mem_cons_self)
      obtain rfl : digest = .str c'.digest := by simpa using hdigest
      have hsizeBytes : c.sizeBytes = c'.sizeBytes := Nat.repr_injective (Json.str.inj hsizes)
      have hdigestText : c.digest = c'.digest := Json.str.inj hdigests
      obtain ⟨size, digest⟩ := c
      obtain rfl : size = c'.sizeBytes := hsizeBytes
      obtain rfl : digest = c'.digest := hdigestText
      rfl

theorem manifestFields_ok (source : RunSource) :
    ([("kind", Json.str source.kind.text)].map (·.1)).Nodup ∧
      "entries" ∉ [("kind", Json.str source.kind.text)].map (·.1) := by
  simp

/-- What is hashed for a manifest. -/
theorem manifestDigest_eq (source : RunSource) :
    manifestDigest sha256 source = some (sha256 (SourceIdentity.canonicalEncode
      (.obj [("domain", .str "manifest"), ("version", .num (Number.ofNat 1)),
        ("payload", withArray [("kind", .str source.kind.text)] "entries"
          (source.entries.map Entry.toJson))]))) := by
  unfold manifestDigest
  rw [SourceIdentity.orderedArrayDigest_eq sha256 _ _ (manifestFields_ok source).1
    (manifestFields_ok source).2]
  have hdomain : requireDomain "manifest" = .ok () :=
    SourceIdentity.requireDomain_ok (by decide)
  unfold SourceIdentity.structureDigest
  rw [hdomain]
  rfl

/-- Sources with one manifest have the same entries. -/
theorem entries_of_manifest (hsha : Function.Injective sha256) {source other : RunSource} {id : String}
    (h : manifestDigest sha256 source = some id) (hother : manifestDigest sha256 other = some id) :
    source.entries = other.entries := by
  rw [manifestDigest_eq] at h hother
  have htexts := hsha ((Option.some.inj h).trans (Option.some.inj hother).symm)
  obtain ⟨-, hpayload⟩ := SourceIdentity.payload_of_text htexts
  have hmem : ∀ r : RunSource, ∀ v, ("entries", v) ∈
      fromEntries ([("kind", .str r.kind.text)] ++ [("entries", Json.arr (r.entries.map Entry.toJson))]) ↔
        v = .arr (r.entries.map Entry.toJson) := by
    intro r v
    rw [(fromEntries_perm _).mem_iff]
    simp
  obtain ⟨rows, hrows, hsame⟩ := field_of_sortKeys hpayload "entries" ((hmem source _).mpr rfl)
  rw [(hmem other rows).mp hrows, sortKeys, sortKeys,
    sortItems_eq, sortItems_eq, List.map_map, List.map_map] at hsame
  exact List.map_injective_iff.mpr (fun e e' he => entry_toJson_injective he) (Json.arr.inj hsame)

end Manifest

/-! ## The invariant -/

/-- The checkpoints of every file tile it and are within it, and what a call has read is of an attempt
with the manifest of its run. -/
structure Tiled (sha256 : String → String) (s : State) : Prop where
  tiles : ∀ key, TilesFile (s.rowsOf key)
  within : ∀ c ∈ s.checkpoints, ∃ content, Declares s c.key content ∧
    c.offset + c.sizeBytes ≤ content.sizeBytes
  manifests : ∀ r ∈ s.sources, ∀ id, r.manifestId = some id → manifestDigest sha256 r = some id
  calls : ∀ call ∈ s.reuses, (∃ prior, s.source? call.previousRunId call.sourceId = some prior ∧
    prior.manifestId = some call.manifestId) ∧ ∀ row ∈ call.page, row ∈ s.checkpoints ∧
      row.key.runId = call.previousRunId ∧ row.key.sourceId = call.sourceId

section Rows

variable {s : State} {key : FileKey} {row : Checkpoint}

theorem rowsOf_append (rows : List Checkpoint) (key : FileKey) :
    ({ s with checkpoints := s.checkpoints ++ rows } : State).rowsOf key =
      s.rowsOf key ++ rows.filter fun c => c.key = key := by
  unfold State.rowsOf
  exact List.filter_append ..

/-- What `prefix` counts is what the rows cover. -/
theorem prefixBytes_eq (s : State) (key : FileKey) :
    s.prefixBytes key = total Checkpoint.sizeBytes (s.rowsOf key) := rfl

/-- A row at the place where the rows of its file end keeps the files tiled. -/
theorem tiles_row (h : ∀ key, TilesFile (s.rowsOf key)) (hsize : 0 < row.sizeBytes)
    (hplace : s.prefixBytes row.key = row.offset) (key : FileKey) :
    TilesFile (({ s with checkpoints := s.checkpoints ++ [row] } : State).rowsOf key) := by
  rw [rowsOf_append]
  by_cases hkey : row.key = key
  · subst hkey
    rw [List.filter_cons_of_pos (by simp), List.filter_nil]
    exact Tiling.tiles_concat (h row.key) (by rw [Nat.zero_add]; exact hplace.symm) hsize
  · rw [List.filter_cons_of_neg (by simpa using hkey), List.filter_nil, List.append_nil]
    exact h key

end Rows

section Steps

variable {s t : State} {sha256 : String → String} {dateParse : String → Option Int}
  {maxChunkBytes : Nat} {context : Context}

theorem initial_tiled : Tiled sha256 SourceUploads.initial := by
  refine ⟨fun _ => trivial, ?_, ?_, ?_⟩
  all_goals
    intro x hx
    cases hx

variable (hs : Tiled sha256 s)
include hs

/-- Steps that write none of the rows of the invariant. -/
theorem tiled_same (hsources : t.sources = s.sources)
    (hcheckpoints : t.checkpoints = s.checkpoints) (hreuses : t.reuses = s.reuses) : Tiled sha256 t := by
  obtain ⟨truth, sources, checkpoints, chunks, verified, reuses, listed, chunkReleases, results⟩ := t
  obtain rfl : sources = s.sources := hsources
  obtain rfl : checkpoints = s.checkpoints := hcheckpoints
  obtain rfl : reuses = s.reuses := hreuses
  exact ⟨hs.tiles, hs.within, hs.manifests, hs.calls⟩

theorem tiled_row {row : Checkpoint} {content : FileContent}
    (hsize : 0 < row.sizeBytes) (hplace : s.prefixBytes row.key = row.offset)
    (hdeclares : Declares s row.key content) (hwithin : row.offset + row.sizeBytes ≤ content.sizeBytes) :
    Tiled sha256 { s with checkpoints := s.checkpoints ++ [row] } := by
  refine ⟨tiles_row hs.tiles hsize hplace, ?_, hs.manifests, ?_⟩
  · intro c hc
    rcases List.mem_append.mp hc with hold | hlast
    · exact hs.within c hold
    · rw [List.mem_singleton.mp hlast]
      exact ⟨content, hdeclares, hwithin⟩
  · intro call hcall
    obtain ⟨hprior, hpage⟩ := hs.calls call hcall
    exact ⟨hprior, fun row hrow => ⟨List.mem_append_left _ (hpage row hrow).1, (hpage row hrow).2⟩⟩

theorem tiled_call {call : Reuse}
    (hprior : ∃ prior, s.source? call.previousRunId call.sourceId = some prior ∧
      prior.manifestId = some call.manifestId)
    (hpage : ∀ row ∈ call.page, row ∈ s.checkpoints ∧ row.key.runId = call.previousRunId ∧
      row.key.sourceId = call.sourceId) :
    Tiled sha256 { s with reuses := s.reuses ++ [call] } := by
  refine ⟨hs.tiles, hs.within, hs.manifests, ?_⟩
  intro other hother
  rcases List.mem_append.mp hother with hold | hlast
  · exact hs.calls other hold
  · rw [List.mem_singleton.mp hlast]
    exact ⟨hprior, hpage⟩

theorem tiled_upload {runAccess access : Authorization} {sourceId pathBytes actorId : String}
    {input : ChunkInput} {lost : Bool}
    (h : uploadChunk sha256 maxChunkBytes runAccess access context sourceId pathBytes actorId input lost
      s = .ok t) : Tiled sha256 t := by
  obtain ⟨run, row, published, -, huploads, hpublish, hcases⟩ := uploadChunk_ok h
  obtain ⟨chunks, rfl, -⟩ := publish_ok hpublish
  have hpublished : Tiled sha256 { s with chunks } := tiled_same hs rfl rfl rfl
  rcases hcases with rfl | rfl
  · exact hpublished
  · rcases insertCheckpoint_eq { s with chunks } row with ⟨heq, -⟩ | ⟨heq, hfree⟩
    · rw [heq]
      exact hpublished
    · rw [heq]
      obtain ⟨source, content, hsource, -, hfile, hwithin⟩ := huploads.file
      have hplace : s.prefixBytes row.key = row.offset := by
        refine huploads.place.resolve_left ?_
        rintro ⟨c, hc, hoffset⟩
        obtain ⟨hmem, hkey⟩ := List.mem_filter.mp hc
        exact hfree c hmem ⟨of_decide_eq_true hkey, hoffset⟩
      exact tiled_row hpublished huploads.size hplace ⟨source, hsource, hfile⟩ hwithin

omit hs in
/-- A row of an attempt is within the file of a run with the same manifest. -/
theorem declares_copied (hsha : Function.Injective sha256) (hs : Tiled sha256 s) {prior source : RunSource}
    {manifestId sourceId previousRunId : String} {row : Checkpoint}
    (hprior : s.source? previousRunId sourceId = some prior)
    (hpriorManifest : prior.manifestId = some manifestId)
    (hsource : s.source? context.runId sourceId = some source)
    (hmanifest : source.manifestId = some manifestId) (hrow : row ∈ s.checkpoints)
    (hrun : row.key.runId = previousRunId) (hsourceId : row.key.sourceId = sourceId) :
    ∃ content, Declares s { row.key with runId := context.runId } content ∧
      row.offset + row.sizeBytes ≤ content.sizeBytes := by
  obtain ⟨content, ⟨found, hfound, hfile⟩, hwithin⟩ := hs.within row hrow
  rw [hrun, hsourceId, hprior] at hfound
  obtain rfl := Option.some.inj hfound
  have hentries := entries_of_manifest hsha
    (hs.manifests prior (List.mem_of_find?_eq_some hprior) manifestId hpriorManifest)
    (hs.manifests source (List.mem_of_find?_eq_some hsource) manifestId hmanifest)
  refine ⟨content, ⟨source, ?_, ?_⟩, hwithin⟩
  · rw [hsourceId]
    exact hsource
  · unfold fileOf at hfile ⊢
    rw [← hentries]
    exact hfile

theorem row_size_pos {row : Checkpoint} (hrow : row ∈ s.checkpoints) : 0 < row.sizeBytes := by
  have hmem : row ∈ s.rowsOf row.key := List.mem_filter.mpr ⟨hrow, by simp⟩
  obtain ⟨before, after, hsplit⟩ := List.append_of_mem hmem
  have htiles := hs.tiles row.key
  rw [hsplit] at htiles
  exact (Tiling.tiles_append.mp htiles).2.2.1

omit hs in
/-- The copy of a page: rows that the file does not continue with are left out, so that chunks that are
cut otherwise stay as they are. -/
theorem tiled_copy {runAccess : Authorization} {call next : Reuse} (hsha : Function.Injective sha256)
    (hs : Tiled sha256 s) (hcall : call ∈ s.reuses)
    (h : copyPage runAccess call s = .ok (t, next)) :
    Tiled sha256 { t with reuses := t.reuses ++ [next] } := by
  obtain ⟨-, ⟨source, hsource, hmanifest⟩, hfold, hnext⟩ := copyPage_ok h
  obtain ⟨⟨prior, hprior, hpriorManifest⟩, hpage⟩ := hs.calls call hcall
  have hcopied : Tiled sha256 t ∧ t.sources = s.sources ∧ ∀ c ∈ s.checkpoints, c ∈ t.checkpoints := by
    refine foldlM_keeps (fun u => Tiled sha256 u ∧ u.sources = s.sources ∧
      ∀ c ∈ s.checkpoints, c ∈ u.checkpoints) ?_ hfold ⟨hs, rfl, fun c hc => hc⟩
    rintro u row v hrow ⟨hu, hsources, hkept⟩ hrowCopied
    rcases copyRow_ok hrowCopied with rfl | ⟨hplace, rfl⟩
    · exact ⟨hu, hsources, hkept⟩
    · obtain ⟨hmem, hrun, hsourceId⟩ := hpage row hrow
      have hsame : ∀ runId, u.source? runId call.sourceId = s.source? runId call.sourceId := by
        intro runId
        unfold State.source?
        rw [hsources]
      obtain ⟨content, hdeclares, hwithin⟩ := declares_copied hsha hu ((hsame _).trans hprior)
        hpriorManifest ((hsame _).trans hsource) hmanifest (hkept row hmem) hrun hsourceId
      have hsize := row_size_pos hs hmem
      refine ⟨tiled_row hu hsize hplace hdeclares hwithin, hsources, ?_⟩
      exact fun c hc => List.mem_append_left _ (hkept c hc)
  refine tiled_call hcopied.1 ⟨prior, ?_, ?_⟩ ?_
  · rw [hnext]
    unfold State.source?
    rw [hcopied.2.1]
    exact hprior
  · rw [hnext]
    exact hpriorManifest
  · rw [hnext]
    intro row hrow
    cases hrow

/-- A new source is of a run that had none of this name. -/
theorem tiled_addSource {source : RunSource} (h : addSource source s = some t) :
    Tiled sha256 t := by
  unfold addSource at h
  split_ifs at h with hnew
  obtain ⟨-, hunfrozen, -⟩ := hnew
  obtain rfl := Option.some.inj h
  have hkept : ∀ {runId sourceId r}, s.source? runId sourceId = some r →
      ({ s with sources := s.sources ++ [source] } : State).source? runId sourceId = some r := by
    intro runId sourceId r hr
    unfold State.source? at hr ⊢
    rw [List.find?_append, hr]
    rfl
  refine ⟨hs.tiles, ?_, ?_, ?_⟩
  · intro c hc
    obtain ⟨content, ⟨found, hfound, hfile⟩, hwithin⟩ := hs.within c hc
    exact ⟨content, ⟨found, hkept hfound, hfile⟩, hwithin⟩
  · intro r hr id hid
    rcases List.mem_append.mp hr with hold | hlast
    · exact hs.manifests r hold id hid
    · rw [List.mem_singleton.mp hlast, hunfrozen] at hid
      cases hid
  · intro call hcall
    obtain ⟨⟨prior, hprior, hmanifest⟩, hpage⟩ := hs.calls call hcall
    exact ⟨⟨prior, hkept hprior, hmanifest⟩, hpage⟩

/-- What `freezeManifest` does to a source. -/
def frozen (sha256 : String → String) (runId sourceId : String) (r : RunSource) : RunSource :=
  if r.runId = runId ∧ r.sourceId = sourceId then { r with manifestId := manifestDigest sha256 r } else r

theorem frozen_manifest {runId sourceId : String} {r : RunSource}
    (hr : r ∈ s.sources) : (frozen sha256 runId sourceId r).entries = r.entries ∧
      (∀ id, r.manifestId = some id → (frozen sha256 runId sourceId r).manifestId = some id) ∧
      ∀ id, (frozen sha256 runId sourceId r).manifestId = some id →
        manifestDigest sha256 (frozen sha256 runId sourceId r) = some id := by
  unfold frozen
  split_ifs
  · refine ⟨rfl, fun id hid => hs.manifests r hr id hid, ?_⟩
    intro id hid
    rw [manifestDigest_eq] at hid ⊢
    exact hid
  · exact ⟨rfl, fun _ hid => hid, fun id hid => hs.manifests r hr id hid⟩

omit hs in
theorem frozen_source? {runId sourceId runId' sourceId' : String} {r : RunSource}
    (h : s.source? runId' sourceId' = some r) :
    (freezeManifest sha256 runId sourceId s).source? runId' sourceId' =
      some (frozen sha256 runId sourceId r) := by
  unfold State.source? at h ⊢
  have hsources : (freezeManifest sha256 runId sourceId s).sources =
      s.sources.map (frozen sha256 runId sourceId) := rfl
  have hkeys : (fun r : RunSource => decide (r.runId = runId' ∧ r.sourceId = sourceId')) ∘
      frozen sha256 runId sourceId = fun r => decide (r.runId = runId' ∧ r.sourceId = sourceId') := by
    funext r
    unfold frozen
    rw [Function.comp_apply]
    split_ifs <;> rfl
  rw [hsources, List.find?_map, hkeys, h]
  rfl

theorem tiled_freeze (runId sourceId : String) :
    Tiled sha256 (freezeManifest sha256 runId sourceId s) := by
  refine ⟨hs.tiles, ?_, ?_, ?_⟩
  · intro c hc
    obtain ⟨content, ⟨found, hfound, hfile⟩, hwithin⟩ := hs.within c hc
    refine ⟨content, ⟨_, frozen_source? hfound, ?_⟩, hwithin⟩
    unfold fileOf at hfile ⊢
    rw [(frozen_manifest hs (List.mem_of_find?_eq_some hfound)).1]
    exact hfile
  · intro r hr id hid
    obtain ⟨old, hold, rfl⟩ := List.mem_map.mp hr
    exact (frozen_manifest hs hold).2.2 id hid
  · intro call hcall
    obtain ⟨⟨prior, hprior, hmanifest⟩, hpage⟩ := hs.calls call hcall
    exact ⟨⟨_, frozen_source? hprior,
      (frozen_manifest hs (List.mem_of_find?_eq_some hprior)).2.1 _ hmanifest⟩, hpage⟩

omit hs

theorem step_tiled {a : Act} (hsha : Function.Injective sha256) (hs : Tiled sha256 s)
    (h : step sha256 dateParse maxChunkBytes s a = some t) : Tiled sha256 t := by
  cases a with
  | truth act =>
    unfold step at h
    dsimp only at h
    split_ifs at h
    obtain ⟨truth, -, rfl⟩ := Option.map_eq_some_iff.mp h
    exact tiled_same hs rfl rfl rfl
  | addSource source => exact tiled_addSource hs h
  | freezeManifest runId sourceId =>
    obtain rfl := Option.some.inj h
    exact tiled_freeze hs runId sourceId
  | uploadChunk runAccess access context sourceId pathBytes actorId input lost =>
    exact tiled_upload hs (toOption_some h)
  | beginReuse runAccess context sourceId =>
    obtain ⟨previous, hbegin, h⟩ := Option.bind_eq_some_iff.mp h
    obtain ⟨found, rfl, rfl⟩ := Option.map_eq_some_iff.mp h
    obtain ⟨run, -, -, prior, source, hprior, -, hmanifest, -⟩ := beginReuse_ok (toOption_some hbegin)
    exact tiled_call hs ⟨prior, hprior, hmanifest⟩ fun row hrow => by cases hrow
  | readPage call =>
    unfold step at h
    dsimp only at h
    split_ifs at h with hcall
    obtain ⟨next, hnext, h⟩ := Option.bind_eq_some_iff.mp h
    obtain ⟨found, rfl, rfl⟩ := Option.map_eq_some_iff.mp h
    obtain ⟨-, hsourceId, hprevious, hmanifest, hpage⟩ := readPage_ok (toOption_some hnext)
    refine tiled_call hs ?_ ?_
    · rw [hprevious, hsourceId, hmanifest]
      exact (hs.calls call hcall).1
    · rw [hprevious, hsourceId]
      exact hpage
  | copyPage runAccess call =>
    unfold step at h
    dsimp only at h
    split_ifs at h with hcall
    obtain ⟨⟨copied, next⟩, hcopied, rfl⟩ := Option.map_eq_some_iff.mp h
    exact tiled_copy hsha hs hcall (toOption_some hcopied)
  | finishFile runAccess access context sourceId pathBytes reused =>
    obtain ⟨verified, rfl⟩ := finishFile_ok (toOption_some h)
    exact tiled_same hs rfl rfl rfl
  | requestRelease access confirmRelease runId =>
    obtain rfl | ⟨_, -, -, -, rfl⟩ := requestRelease_ok (toOption_some h)
    · exact hs
    · exact tiled_same hs rfl rfl rfl
  | listRelease runId =>
    unfold step at h
    dsimp only at h
    split_ifs at h
    obtain rfl := Option.some.inj h
    exact tiled_same hs rfl rfl rfl
  | planRelease access backups d =>
    unfold step at h
    dsimp only at h
    split_ifs at h
    obtain ⟨⟨planned, decision⟩, hplanned, rfl⟩ := Option.map_eq_some_iff.mp h
    obtain ⟨chunkReleases, rfl⟩ := planRelease_ok (toOption_some hplanned)
    exact tiled_same hs rfl rfl rfl
  | removeChunk access backups d lost =>
    unfold step at h
    dsimp only at h
    split_ifs at h
    obtain rfl | ⟨-, results, rfl⟩ := removeChunk_ok (toOption_some h)
    · exact hs
    · exact tiled_same hs rfl rfl rfl

theorem run_tiled {acts : List Act} (hsha : Function.Injective sha256)
    (h : Machine.run (step sha256 dateParse maxChunkBytes) s acts = some t) (hs : Tiled sha256 s) :
    Tiled sha256 t :=
  Machine.run_keeps (fun _ _ _ hs ht => step_tiled hsha hs ht) h hs

end Steps

/-! ## Verified chunks -/

section Verified

variable {s t : State} {sha256 : String → String} {dateParse : String → Option Int}
  {maxChunkBytes : Nat} {key : FileKey}

/-- The chunk of a checkpoint of a kept run can be read. -/
theorem readChunk_eq (hs : Staged s) {c : Checkpoint} (hc : c ∈ s.checkpoints)
    (hkept : c.key.runId ∉ s.store.stagingRelease) : readChunk s c = .ok () := by
  obtain ⟨chunk, hchunk, hid, hdigest, hsize⟩ := hs.present c hc hkept
  unfold readChunk
  cases hfound : s.chunks.find? fun chunk => chunk.id = c.chunkId with
  | none => simpa [hid] using List.find?_eq_none.mp hfound chunk hchunk
  | some found =>
    have hfoundId : found.id = c.chunkId := by simpa using List.find?_some hfound
    obtain rfl := List.inj_on_of_nodup_map hs.chunkIds (List.mem_of_find?_eq_some hfound) hchunk
      (hfoundId.trans hid.symm)
    dsimp only
    unfold requireValue
    rw [if_pos ⟨hdigest, hsize⟩]

/-- Rows that tile from a place, and whose chunks are there, are given without an error. -/
theorem yieldRows_eq {rows : List Checkpoint} {place : Nat}
    (htiles : Tiling.Tiles Checkpoint.offset Checkpoint.sizeBytes place rows)
    (hread : ∀ c ∈ rows, readChunk s c = .ok ()) :
    yieldRows s place rows = .ok (place + total Checkpoint.sizeBytes rows) := by
  induction rows generalizing place with
  | nil => rfl
  | cons row rows ih =>
    obtain ⟨hoffset, -, hrest⟩ := htiles
    unfold yieldRows
    rw [hoffset, requireValue, if_pos rfl, hread row List.mem_cons_self,
      Tiling.total_cons, ← Nat.add_assoc]
    exact ih hrest fun c hc => hread c (List.mem_cons_of_mem _ hc)

/-- The page at a place where a row ends: the rows after it, in their order. -/
theorem pageFrom_eq {front back : List Checkpoint} (htiles : TilesFile (s.rowsOf key))
    (hsplit : s.rowsOf key = front ++ back) :
    s.pageFrom key (total Checkpoint.sizeBytes front) = back.take 100 ∧
      Tiling.Tiles Checkpoint.offset Checkpoint.sizeBytes
        (total Checkpoint.sizeBytes front) back := by
  have hback : Tiling.Tiles Checkpoint.offset Checkpoint.sizeBytes
      (total Checkpoint.sizeBytes front) back := by
    unfold TilesFile at htiles
    rw [hsplit, Tiling.tiles_append, Nat.zero_add] at htiles
    exact htiles.2
  refine ⟨?_, hback⟩
  have hfilter := Tiling.filter_from (hsplit ▸ htiles : TilesFile (front ++ back))
  rw [Nat.zero_add] at hfilter
  unfold State.pageFrom
  rw [hsplit, hfilter, List.mergeSort_of_pairwise]
  exact (tiles_sorted hback).imp fun hlt => by simpa using hlt.le

/-- From a place where a row ends, `verifiedChunks` gives the rows after it. -/
theorem chunksFrom_eq {front back : List Checkpoint} {fuel : Nat} (htiles : TilesFile (s.rowsOf key))
    (hread : ∀ c ∈ s.rowsOf key, readChunk s c = .ok ()) (hsplit : s.rowsOf key = front ++ back)
    (hfuel : back.length < fuel) :
    chunksFrom s key fuel (total Checkpoint.sizeBytes front) = .ok back := by
  induction fuel generalizing front back with
  | zero => exact absurd hfuel (Nat.not_lt_zero _)
  | succ fuel ih =>
    obtain ⟨hpage, hback⟩ := pageFrom_eq htiles hsplit
    unfold chunksFrom
    rw [hpage]
    cases back with
    | nil => rfl
    | cons row rest =>
      have hyield := yieldRows_eq (tiles_take hback 100) fun c hc =>
        hread c (hsplit ▸ List.mem_append_right _ (List.mem_of_mem_take hc))
      have hrest : chunksFrom s key fuel (total Checkpoint.sizeBytes front +
          total Checkpoint.sizeBytes ((row :: rest).take 100)) = .ok ((row :: rest).drop 100) := by
        rw [← total_append]
        refine ih ?_ ?_
        · rw [List.append_assoc, List.take_append_drop]
          exact hsplit
        · rw [List.length_drop]
          rw [List.length_cons] at hfuel ⊢
          omega
      rw [if_neg (by simp), hyield]
      show (chunksFrom s key fuel _ >>= fun rest_1 => _) = _
      rw [hrest]
      show Except.ok _ = _
      rw [List.take_append_drop]

/-- Checkpoints are added at the end and never removed. -/
theorem step_checkpoints {a : Act} (h : step sha256 dateParse maxChunkBytes s a = some t) :
    s.checkpoints <+: t.checkpoints := by
  cases a with
  | truth act =>
    unfold step at h
    dsimp only at h
    split_ifs at h
    obtain ⟨truth, -, rfl⟩ := Option.map_eq_some_iff.mp h
    exact List.prefix_rfl
  | addSource | freezeManifest | uploadChunk | beginReuse | readPage | copyPage | finishFile
  | requestRelease | listRelease | planRelease | removeChunk =>
    exact (step_extends h fun _ h => by cases h).2

theorem run_rowsOf {acts : List Act}
    (h : Machine.run (step sha256 dateParse maxChunkBytes) s acts = some t) (key : FileKey) :
    s.rowsOf key <+: t.rowsOf key :=
  @Machine.run_keeps _ _ _ (fun u => s.rowsOf key <+: u.rowsOf key)
    (fun _ _ _ hu hv => hu.trans ((step_checkpoints hv).filter _)) _ _ _ h List.prefix_rfl

/-- What the rows of a file cover is within the file. -/
theorem prefix_within (hs : Tiled sha256 s) (hne : s.rowsOf key ≠ []) :
    ∃ content, Declares s key content ∧ s.prefixBytes key ≤ content.sizeBytes := by
  obtain ⟨last, hlast, hend⟩ := Tiling.exists_last (hs.tiles key) hne
  obtain ⟨hmem, hkey⟩ := List.mem_filter.mp hlast
  obtain ⟨content, hdeclares, hwithin⟩ := hs.within last hmem
  rw [of_decide_eq_true hkey] at hdeclares
  refine ⟨content, hdeclares, ?_⟩
  rw [Nat.zero_add, ← prefixBytes_eq] at hend
  omega

end Verified

/-- The checkpoints of a file in every reachable state: in the order of their offsets they begin at 0,
each begins where the one before it ends, no two have one offset, and they are within the file. So
`verifiedChunks` of a kept run gives all of them, which are the bytes that `prefix` counts; and each of
its pages succeeds in any later state, as what was given before stays. -/
theorem upload_checkpoints_tile (sha256 : String → String) (hsha : Function.Injective sha256)
    (dateParse : String → Option Int) (maxChunkBytes : Nat) (acts : List Act) (s : State)
    (h : Machine.run (step sha256 dateParse maxChunkBytes) SourceUploads.initial acts = some s)
    (key : FileKey) :
    (TilesFile (s.rowsOf key) ∧ (s.rowsOf key).Pairwise fun c c' => c.offset < c'.offset) ∧
    (s.rowsOf key ≠ [] → ∃ content, Declares s key content ∧ s.prefixBytes key ≤ content.sizeBytes) ∧
    (key.runId ∉ s.store.stagingRelease → verifiedChunks s key = .ok (s.rowsOf key) ∧
      total Checkpoint.sizeBytes (s.rowsOf key) = s.prefixBytes key ∧
      ∀ front back, s.rowsOf key = front ++ back →
        yieldRows s (total Checkpoint.sizeBytes front)
          (s.pageFrom key (total Checkpoint.sizeBytes front)) =
          .ok (total Checkpoint.sizeBytes (front ++ back.take 100))) ∧
    ∀ more t, Machine.run (step sha256 dateParse maxChunkBytes) s more = some t →
      s.rowsOf key <+: t.rowsOf key := by
  have htiled := run_tiled hsha h initial_tiled
  have hstaged := run_staged h initial_staged
  have htiles := htiled.tiles key
  refine ⟨⟨htiles, tiles_sorted htiles⟩, prefix_within htiled, ?_, fun more t ht => run_rowsOf ht key⟩
  intro hkept
  have hread : ∀ c ∈ s.rowsOf key, readChunk s c = .ok () := by
    intro c hc
    obtain ⟨hmem, hkey⟩ := List.mem_filter.mp hc
    refine readChunk_eq hstaged hmem ?_
    rw [of_decide_eq_true hkey]
    exact hkept
  refine ⟨?_, rfl, ?_⟩
  · exact chunksFrom_eq htiles hread (List.nil_append _).symm (Nat.lt_succ_self _)
  · intro front back hsplit
    obtain ⟨hpage, hback⟩ := pageFrom_eq htiles hsplit
    rw [hpage, total_append]
    refine yieldRows_eq (tiles_take hback 100) fun c hc => hread c ?_
    rw [hsplit]
    exact List.mem_append_right _ (List.mem_of_mem_take hc)

/-! ## A run -/

open SourceLifecycle (member)

/-- `abcde`. -/
def letters : FileContent :=
  { sizeBytes := 5
    digest := "36bbe50ed96841d10443bcb670d6554f0a34b761be67ec9c4a8ad2c0c44ca42c" }

/-- A directory with this one file. -/
def letterSource (runId : String) : RunSource :=
  { runId, sourceId := "source", kind := .DIRECTORY_UPLOAD, mode := none, scope := .null
    entries := [{ pathBytes := "YQ", content := some letters }], manifestId := none }

def letterKey (runId : String) : FileKey := { runId, sourceId := "source", pathBytes := "YQ" }

/-- `abc`. -/
def abc : ChunkInput :=
  { offset := 0, sizeBytes := 3
    digest := "ba7816bf8f01cfea414140de5dae2223b00361a396177a9cb410ff61f20015ad" }

/-- `ab`. -/
def ab : ChunkInput :=
  { offset := 0, sizeBytes := 2
    digest := "fb8e20fc2e4c3f248c60c39bd652f3c1347298bb977b8b4d5903b85055620603" }

/-- `cde`. -/
def cde : ChunkInput :=
  { offset := 2, sizeBytes := 3
    digest := "08a018a9549220d707e11c5c4fe94d8dd60825f010e71efaa91e5e784f364d7b" }

/-- The digests of the manifest and of the chunks. -/
def letterDigest : String → String :=
  listedDigest
    [((manifestDigest id (letterSource "first")).getD "",
        "74f0ff5917751d9af5f7a595abc688cf707d3132adb50916b520abcabdafe124"),
      (chunkId id (letterKey "first") abc,
        "a0090ebd7a55fe92c18cb1b19080998a9637fba645b50874d3c4abb90f9c8990"),
      (chunkId id (letterKey "second") ab,
        "df259d34385a9bbda89f6cf4b5d68a9636d7c1c3a90f93d8eb439f8e37943559"),
      (chunkId id (letterKey "second") cde,
        "4f3dc364339a221aefac19bc0a0958c932b34c9694a2b62cd0e56062798f9948")]

theorem letterDigest_injective : Function.Injective letterDigest :=
  SourceIdentity.listedDigest_injective (by decide) (by decide)

/-- A run is started, claimed, enumerated and frozen. -/
def letterStart (runId : String) (retryOf : Option String) : List Act :=
  [.truth (.startRun member "author" (some 1) (some "policy") retryOf runId),
    .truth (.claimRun runId "worker" 1000),
    .truth (.transition member (fileWorker runId) .PREFLIGHTING .ENUMERATING none none),
    .addSource (letterSource runId), .freezeManifest runId "source",
    .truth (.transition member (fileWorker runId) .ENUMERATING .WAITING_FOR_CLIENT none none)]

def letterUpload (runId : String) (input : ChunkInput) : Act :=
  .uploadChunk member member (fileWorker runId) "source" "YQ" "author" input false

/-- The call of the retry, and the page of the attempt. -/
def letterReuse : Reuse :=
  { context := fileWorker "second", sourceId := "source", previousRunId := "first"
    manifestId := "74f0ff5917751d9af5f7a595abc688cf707d3132adb50916b520abcabdafe124", after := none
    currentPath := none, expectedOffset := 0, page := [] }

def letterPage : Reuse :=
  { letterReuse with
    currentPath := some "YQ", expectedOffset := 3
    page := [{ key := letterKey "first", offset := 0, sizeBytes := 3, digest := abc.digest
               chunkId := "a0090ebd7a55fe92c18cb1b19080998a9637fba645b50874d3c4abb90f9c8990"
               actorId := "author", verifiedAt := 0 }] }

/-- A retry has sent its first two letters when the first three of the attempt are read for it. -/
def framedRun : List Act :=
  .truth (.saveDraft member "author" 0 (.obj []) (.ok ())) :: letterStart "first" none ++
    [letterUpload "first" abc,
      .truth (.transition member (fileWorker "first") .WAITING_FOR_CLIENT .FAILED_RETRYABLE none none)] ++
    letterStart "second" (some "first") ++
    [.beginReuse member (fileWorker "second") "source", .readPage letterReuse,
      letterUpload "second" ab, .copyPage member letterPage, letterUpload "second" cde,
      letterUpload "second" ab]

theorem framed_run_tiles :
    ∃ s, Machine.run (step letterDigest (fun _ => none) 4) SourceUploads.initial framedRun = some s ∧
      (s.rowsOf (letterKey "second")).map (fun c => (c.offset, c.sizeBytes)) = [(0, 2), (2, 3)] ∧
      TilesFile (s.rowsOf (letterKey "second")) := by
  have hrun : (Machine.run (step letterDigest (fun _ => none) 4) SourceUploads.initial framedRun).map
      (fun s => (s.rowsOf (letterKey "second")).map fun c => (c.offset, c.sizeBytes)) =
        some [(0, 2), (2, 3)] := by decide +kernel
  obtain ⟨s, hs, hrows⟩ := Option.map_eq_some_iff.mp hrun
  exact ⟨s, hs, hrows, (upload_checkpoints_tile letterDigest letterDigest_injective (fun _ => none) 4
    framedRun s hs (letterKey "second")).1.1⟩

end Traqen.SourceTiles
