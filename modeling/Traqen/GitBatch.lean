-- Verified batches of Git objects (`source-truth/git-batch.js`): a pull cursor over the chunks of a
-- stream, the frames that are read from it, and what they say about the bytes of the stream. Sizes
-- are natural numbers: a JavaScript number is exact up to 2^53 bytes, more than any stream holds.
import Mathlib.Data.Nat.Digits.Defs
import Mathlib.Data.List.TakeWhile
import Mathlib.Tactic.Common

namespace Traqen.GitBatch

abbrev Bytes := List UInt8

/-! ## Failures -/

/-- The code and the message of a `SourceTruthError`. -/
structure SourceError where
  code : String
  message : String
  deriving Repr, DecidableEq

def integrityFailed (message : String) : SourceError :=
  { code := "SOURCE_GIT_INTEGRITY_FAILED", message }

def streamTruncated : SourceError := integrityFailed "Git 批量对象流被截断"

def headerTooLong : SourceError := integrityFailed "Git 批量对象头超过边界"

def headerMismatch : SourceError := integrityFailed "Git 对象顺序、类型或长度与冻结清单不一致"

def contentMismatch : SourceError := integrityFailed "Git 对象字节摘要或帧边界不一致"

def undeclaredTail : SourceError := integrityFailed "Git 对象流包含未声明的尾部"

/-! ## The cursor -/

structure BatchCursor where
  /-- What the iterator has yet to yield. -/
  chunks : List Bytes
  pending : Bytes
  ended : Bool

namespace BatchCursor

def refill (c : BatchCursor) : BatchCursor :=
  if c.pending ≠ [] ∨ c.ended = true then c
  else
    match c.chunks with
    | [] => { c with ended := true, pending := [] }
    | chunk :: rest => { chunks := rest, pending := chunk, ended := false }

def take (c : BatchCursor) (size : Nat) : Except SourceError (Bytes × BatchCursor) :=
  let c := c.refill
  if c.pending = [] then .error streamTruncated
  else
    let part := c.pending.take size
    .ok (part, { c with pending := c.pending.drop part.length })

/-- `Buffer.toString("ascii")` drops the high bit of each byte. -/
def asciiText (bytes : Bytes) : String :=
  String.ofList (bytes.map fun byte => Char.ofNat (byte.toNat % 128))

/-- The loop of `line`, of the number of bytes that it may still take. -/
def lineFrom : Nat → Bytes → BatchCursor → Except SourceError (String × BatchCursor)
  | 0, _, _ => .error headerTooLong
  | size + 1, bytes, c =>
    match c.take 1 with
    | .error failure => .error failure
    | .ok (part, c) =>
      let byte := part.headD 0
      if byte = 10 then .ok (asciiText bytes, c) else lineFrom size (bytes ++ [byte]) c

def line (c : BatchCursor) : Except SourceError (String × BatchCursor) := lineFrom 200 [] c

end BatchCursor

/-! ## Entries -/

/-- A manifest entry of a Git file: its object id and its size. -/
structure Entry where
  oid : String
  sizeBytes : Nat
  oid_length : oid.length = 40 ∨ oid.length = 64
  oid_hex : ∀ c ∈ oid.toList, c.isDigit = true ∨ 'a' ≤ c ∧ c ≤ 'f'
  size_digits : sizeBytes < 10 ^ 40

namespace Entry

def sizeText (e : Entry) : String := String.ofList (Nat.toDigits 10 e.sizeBytes)

def headerText (e : Entry) : String := e.oid ++ " blob " ++ e.sizeText

end Entry

/-- The bytes of a text of ASCII characters. -/
def asciiBytes (text : String) : Bytes := text.toList.map fun c => UInt8.ofNat c.toNat

/-! ## The batch -/

/-- What a consumer drained from the content of one entry. -/
structure Content where
  bytes : Bytes
  complete : Bool
  deriving Repr, DecidableEq

/-- What a consumer that drains every content gets, and how the batch ended. -/
structure Outcome where
  contents : List Content
  failure : Option SourceError
  deriving Repr, DecidableEq

section Batch

-- `createHash(objectFormat).update(…).digest("hex")`
variable (objectHash : Bytes → String)

/-- The Git object hash of a blob. -/
def nativeHash (e : Entry) (content : Bytes) : String :=
  objectHash (asciiBytes ("blob " ++ e.sizeText) ++ 0 :: content)

/-- The loop of the content stream; every turn takes a byte at least. -/
def contentFrom : Nat → Nat → BatchCursor → Bytes × Except SourceError BatchCursor
  | 0, _, c => ([], .ok c)
  | _ + 1, 0, c => ([], .ok c)
  | turns + 1, remaining, c =>
    match c.take (min remaining (64 * 1024)) with
    | .error failure => ([], .error failure)
    | .ok (bytes, c) =>
      let (more, result) := contentFrom turns (remaining - bytes.length) c
      (bytes ++ more, result)

/-- The content stream of an entry, drained. -/
def content (e : Entry) (c : BatchCursor) : Bytes × Except SourceError BatchCursor :=
  match contentFrom e.sizeBytes e.sizeBytes c with
  | (bytes, .error failure) => (bytes, .error failure)
  | (bytes, .ok c) =>
    match c.take 1 with
    | .error failure => (bytes, .error failure)
    | .ok (part, c) =>
      if part.headD 0 = 10 ∧ nativeHash objectHash e bytes = e.oid then (bytes, .ok c)
      else (bytes, .error contentMismatch)

/-- The batch under a consumer that drains each content before it asks for the next entry. -/
def verifiedGitBatch : List Entry → BatchCursor → Outcome
  | [], c =>
    let c := c.refill
    if c.ended = true ∧ c.pending = [] then { contents := [], failure := none }
    else { contents := [], failure := some undeclaredTail }
  | entry :: entries, c =>
    match c.line with
    | .error failure => { contents := [], failure := some failure }
    | .ok (header, c) =>
      if header ≠ entry.headerText then { contents := [], failure := some headerMismatch }
      else
        match content objectHash entry c with
        | (bytes, .error failure) =>
          { contents := [{ bytes, complete := false }], failure := some failure }
        | (bytes, .ok c) =>
          let rest := verifiedGitBatch entries c
          { contents := { bytes, complete := true } :: rest.contents, failure := rest.failure }

/-- The batch over a stream of chunks. -/
def drained (entries : List Entry) (chunks : List Bytes) : Outcome :=
  verifiedGitBatch objectHash entries { chunks, pending := [], ended := false }

end Batch

/-! ## Frames of a byte string -/

/-- A frame of an entry, under a reading of headers, and what stands after it. -/
structure Frame (objectHash : Bytes → String) (header : Entry → Bytes → Prop) (e : Entry)
    (bytes head content rest : Bytes) : Prop where
  split : bytes = head ++ 10 :: (content ++ 10 :: rest)
  header : header e head
  size : content.length = e.sizeBytes
  hash : nativeHash objectHash e content = e.oid

/-- The concatenation of the frames of the entries, with nothing after them. -/
def Framed (objectHash : Bytes → String) (header : Entry → Bytes → Prop) :
    List Entry → Bytes → Prop
  | [], bytes => bytes = []
  | e :: es, bytes => ∃ head content rest,
      Frame objectHash header e bytes head content rest ∧ Framed objectHash header es rest

/-- The header of an entry, to the byte. -/
def Plain (e : Entry) (head : Bytes) : Prop := head = asciiBytes e.headerText

/-- A header that reads as that of the entry, whatever the high bits of its bytes. -/
def SevenBit (e : Entry) (head : Bytes) : Prop := BatchCursor.asciiText head = e.headerText

/-- The bytes end inside the frame of an entry, after these contents. -/
def CutShort (objectHash : Bytes → String) : List Entry → Bytes → List Content → Prop
  | [], _, _ => False
  | e :: es, bytes, contents =>
    (10 ∉ bytes ∧ bytes.length < 200 ∧ contents = []) ∨
    (∃ head content, bytes = head ++ 10 :: content ∧ SevenBit e head ∧
      content.length ≤ e.sizeBytes ∧ contents = [{ bytes := content, complete := false }]) ∨
    ∃ head content rest more, Frame objectHash SevenBit e bytes head content rest ∧
      CutShort objectHash es rest more ∧ contents = { bytes := content, complete := true } :: more

/-! ## The batch as a function of bytes -/

def readLine : Nat → Bytes → Bytes → Except SourceError (String × Bytes)
  | 0, _, _ => .error headerTooLong
  | _ + 1, _, [] => .error streamTruncated
  | size + 1, line, byte :: bytes =>
    if byte = 10 then .ok (BatchCursor.asciiText line, bytes)
    else readLine size (line ++ [byte]) bytes

section Reading

variable (objectHash : Bytes → String)

/-- One entry: its content and what stands after it, or what was drained and the failure. -/
def readEntry (e : Entry) (bytes : Bytes) : Except (List Content × SourceError) (Bytes × Bytes) :=
  match readLine 200 [] bytes with
  | .error failure => .error ([], failure)
  | .ok (header, bytes) =>
    if header ≠ e.headerText then .error ([], headerMismatch)
    else
      match bytes.drop e.sizeBytes with
      | [] => .error ([{ bytes := bytes.take e.sizeBytes, complete := false }], streamTruncated)
      | byte :: rest =>
        if byte = 10 ∧ nativeHash objectHash e (bytes.take e.sizeBytes) = e.oid then
          .ok (bytes.take e.sizeBytes, rest)
        else .error ([{ bytes := bytes.take e.sizeBytes, complete := false }], contentMismatch)

/-- The outcome of a batch, of the bytes that the cursor comes to and whether the stream ends after
them. -/
def readBatch (atEnd : Bool) : List Entry → Bytes → Outcome
  | [], bytes =>
    if bytes = [] ∧ atEnd = true then { contents := [], failure := none }
    else { contents := [], failure := some undeclaredTail }
  | e :: es, bytes =>
    match readEntry objectHash e bytes with
    | .error (contents, failure) => { contents, failure := some failure }
    | .ok (content, rest) =>
      let more := readBatch atEnd es rest
      { contents := { bytes := content, complete := true } :: more.contents
        failure := more.failure }

end Reading

/-! ## The cursor follows the bytes -/

/-- A chunk that is worth reading. -/
def filled (chunk : Bytes) : Bool := !chunk.isEmpty

/-- The bytes that come before the first empty chunk. -/
def beforeEmpty (chunks : List Bytes) : Bytes := (chunks.takeWhile filled).flatten

/-- The cursor stands before these bytes; `atEnd` says whether the stream ends after them. -/
structure Reads (c : BatchCursor) (bytes : Bytes) (atEnd : Bool) : Prop where
  running : c.ended = false
  ahead : c.pending ++ beforeEmpty c.chunks = bytes
  ending : c.chunks.all filled = atEnd

theorem reads_start (chunks : List Bytes) :
    Reads { chunks, pending := [], ended := false } (beforeEmpty chunks) (chunks.all filled) :=
  ⟨rfl, rfl, rfl⟩

variable {c : BatchCursor} {bytes : Bytes} {atEnd : Bool}

/-- A refill leaves something pending while bytes are ahead. -/
theorem refill_reads (h : Reads c bytes atEnd) (hbytes : bytes ≠ []) :
    Reads c.refill bytes atEnd ∧ c.refill.pending ≠ [] := by
  obtain ⟨chunks, pending, ended⟩ := c
  obtain ⟨hrunning, hahead, hending⟩ := h
  dsimp only at hrunning hahead hending
  subst hrunning
  by_cases hpending : pending = []
  · subst hpending
    cases chunks with
    | nil => exact absurd hahead.symm hbytes
    | cons chunk rest =>
      by_cases hchunk : chunk = []
      · subst hchunk
        exact absurd hahead.symm hbytes
      · have hfilled : filled chunk = true := by simp [filled, hchunk]
        have hbefore : beforeEmpty (chunk :: rest) = chunk ++ beforeEmpty rest := by
          simp [beforeEmpty, hfilled]
        refine ⟨⟨rfl, ?_, ?_⟩, hchunk⟩
        · rw [← hahead, hbefore]
          rfl
        · rw [← hending, List.all_cons, hfilled, Bool.true_and]
          rfl
  · have hsame : BatchCursor.refill ⟨chunks, pending, false⟩ = ⟨chunks, pending, false⟩ :=
      if_pos (Or.inl hpending)
    rw [hsame]
    exact ⟨⟨rfl, hahead, hending⟩, hpending⟩

/-- With no bytes ahead a refill leaves nothing pending, and the end is seen if it is there. -/
theorem refill_ends (h : Reads c [] atEnd) :
    c.refill.pending = [] ∧ c.refill.ended = atEnd := by
  obtain ⟨chunks, pending, ended⟩ := c
  obtain ⟨hrunning, hahead, hending⟩ := h
  dsimp only at hrunning hahead hending
  obtain ⟨hpending, hbefore⟩ := List.append_eq_nil_iff.mp hahead
  subst hrunning hpending hending
  cases chunks with
  | nil => exact ⟨rfl, rfl⟩
  | cons chunk rest =>
    have hchunk : chunk = [] := by
      by_contra hchunk
      have hfilled : filled chunk = true := by simp [filled, hchunk]
      rw [beforeEmpty, List.takeWhile_cons, if_pos hfilled, List.flatten_cons] at hbefore
      exact hchunk (List.append_eq_nil_iff.mp hbefore).1
    subst hchunk
    exact ⟨rfl, rfl⟩

theorem take_truncated (h : Reads c [] atEnd) (size : Nat) :
    c.take size = .error streamTruncated :=
  if_pos (refill_ends h).1

/-- A take gives the first bytes ahead, one at least and no more than asked for. -/
theorem take_reads (h : Reads c bytes atEnd) (hbytes : bytes ≠ []) {size : Nat} (hsize : 0 < size) :
    ∃ part c' rest, c.take size = .ok (part, c') ∧ bytes = part ++ rest ∧ part ≠ [] ∧
      part.length ≤ size ∧ Reads c' rest atEnd := by
  obtain ⟨⟨hrunning, hahead, hending⟩, hpending⟩ := refill_reads h hbytes
  refine ⟨c.refill.pending.take size, _,
    c.refill.pending.drop (c.refill.pending.take size).length ++ beforeEmpty c.refill.chunks,
    if_neg hpending, ?_, ?_, List.length_take_le _ _, ⟨hrunning, rfl, hending⟩⟩
  · rw [← hahead, ← List.append_assoc, List.length_take]
    congr 1
    by_cases hshort : size ≤ c.refill.pending.length
    · rw [Nat.min_eq_left hshort, List.take_append_drop]
    · rw [Nat.min_eq_right (by omega), List.drop_length, List.append_nil,
        List.take_of_length_le (by omega)]
  · intro hnone
    have hlength := congrArg List.length hnone
    rw [List.length_take] at hlength
    have hpositive := List.length_pos_iff.mpr hpending
    simp only [List.length_nil] at hlength
    omega

/-- One byte of what is ahead. -/
theorem take_one (byte : UInt8) (h : Reads c (byte :: bytes) atEnd) :
    ∃ c', c.take 1 = .ok ([byte], c') ∧ Reads c' bytes atEnd := by
  obtain ⟨part, c', rest, htake, hsplit, hpart, hlength, hreads⟩ :=
    take_reads h (List.cons_ne_nil _ _) Nat.one_pos
  cases part with
  | nil => exact absurd rfl hpart
  | cons first others =>
    have hothers : others = [] := by
      rw [List.length_cons] at hlength
      exact List.length_eq_zero_iff.mp (by omega)
    subst hothers
    obtain ⟨rfl, rfl⟩ := List.cons_eq_cons.mp hsplit
    exact ⟨c', htake, hreads⟩

/-- What the cursor reads is what the bytes say. -/
def Follows {α : Type} (atEnd : Bool) (read : Except SourceError (α × BatchCursor))
    (said : Except SourceError (α × Bytes)) : Prop :=
  match said with
  | .error failure => read = .error failure
  | .ok (value, rest) => ∃ c, read = .ok (value, c) ∧ Reads c rest atEnd

theorem lineFrom_follows (size : Nat) (line : Bytes) (h : Reads c bytes atEnd) :
    Follows atEnd (BatchCursor.lineFrom size line c) (readLine size line bytes) := by
  induction size generalizing c bytes line with
  | zero => rfl
  | succ size ih =>
    cases bytes with
    | nil =>
      unfold BatchCursor.lineFrom
      rw [take_truncated h]
      rfl
    | cons byte bytes =>
      obtain ⟨c', htake, hreads⟩ := take_one byte h
      unfold BatchCursor.lineFrom readLine
      rw [htake]
      dsimp only
      by_cases hbyte : byte = 10
      · rw [if_pos hbyte, if_pos (show [byte].headD 0 = 10 from hbyte)]
        exact ⟨c', rfl, hreads⟩
      · rw [if_neg hbyte, if_neg (show ¬ [byte].headD 0 = 10 from hbyte)]
        exact ih (line ++ [byte]) hreads

/-- The content loop drains what is there, up to the size. -/
theorem contentFrom_reads (turns remaining : Nat) (hturns : remaining ≤ turns)
    (h : Reads c bytes atEnd) :
    (contentFrom turns remaining c).1 = bytes.take remaining ∧
      if bytes.length < remaining then
        (contentFrom turns remaining c).2 = .error streamTruncated
      else ∃ c', (contentFrom turns remaining c).2 = .ok c' ∧
        Reads c' (bytes.drop remaining) atEnd := by
  induction turns generalizing c bytes remaining with
  | zero =>
    obtain rfl := Nat.le_zero.mp hturns
    exact ⟨rfl, c, rfl, h⟩
  | succ turns ih =>
    cases remaining with
    | zero => exact ⟨rfl, c, rfl, h⟩
    | succ remaining =>
      by_cases hbytes : bytes = []
      · subst hbytes
        rw [contentFrom, take_truncated h]
        · exact ⟨rfl, rfl⟩
        · exact Nat.succ_ne_zero remaining
      · obtain ⟨part, c', rest, htake, hsplit, hpart, hlength, hreads⟩ :=
          take_reads h hbytes (show 0 < min (remaining + 1) (64 * 1024) by omega)
        have hpositive := List.length_pos_iff.mpr hpart
        have hsize : part.length ≤ remaining + 1 := by omega
        obtain ⟨hdrained, hrest⟩ := ih (remaining + 1 - part.length) (by omega) hreads
        have hwhole : contentFrom (turns + 1) (remaining + 1) c =
            (part ++ (contentFrom turns (remaining + 1 - part.length) c').1,
              (contentFrom turns (remaining + 1 - part.length) c').2) := by
          rw [contentFrom, htake]
          exact Nat.succ_ne_zero remaining
        rw [hwhole, hsplit, hdrained, List.length_append, List.take_append,
          List.drop_append, List.take_of_length_le hsize, List.drop_of_length_le hsize]
        refine ⟨rfl, ?_⟩
        by_cases hshort : rest.length < remaining + 1 - part.length
        · rw [if_pos hshort] at hrest
          rw [if_pos (by omega)]
          exact hrest
        · rw [if_neg hshort] at hrest
          rw [if_neg (by omega), List.nil_append]
          exact hrest

/-- The content of an entry is the bytes up to its size, if a newline and the hash bear it out. -/
theorem content_reads (objectHash : Bytes → String) (e : Entry) (h : Reads c bytes atEnd) :
    match bytes.drop e.sizeBytes with
    | [] => content objectHash e c = (bytes.take e.sizeBytes, .error streamTruncated)
    | byte :: rest =>
      if byte = 10 ∧ nativeHash objectHash e (bytes.take e.sizeBytes) = e.oid then
        ∃ c', content objectHash e c = (bytes.take e.sizeBytes, .ok c') ∧ Reads c' rest atEnd
      else content objectHash e c = (bytes.take e.sizeBytes, .error contentMismatch) := by
  obtain ⟨hdrained, hresult⟩ := contentFrom_reads e.sizeBytes e.sizeBytes le_rfl h
  by_cases hshort : bytes.length < e.sizeBytes
  · rw [if_pos hshort] at hresult
    have hpair : contentFrom e.sizeBytes e.sizeBytes c =
        (bytes.take e.sizeBytes, .error streamTruncated) := Prod.ext hdrained hresult
    rw [List.drop_of_length_le (by omega)]
    simp only [content, hpair]
  · rw [if_neg hshort] at hresult
    obtain ⟨c', hresult, hreads⟩ := hresult
    have hpair : contentFrom e.sizeBytes e.sizeBytes c = (bytes.take e.sizeBytes, .ok c') :=
      Prod.ext hdrained hresult
    cases hrest : bytes.drop e.sizeBytes with
    | nil =>
      rw [hrest] at hreads
      simp only [content, hpair, take_truncated hreads]
    | cons byte rest =>
      rw [hrest] at hreads
      obtain ⟨c'', htake, hreads'⟩ := take_one byte hreads
      dsimp only
      by_cases hgood : byte = 10 ∧ nativeHash objectHash e (bytes.take e.sizeBytes) = e.oid
      · rw [if_pos hgood]
        refine ⟨c'', ?_, hreads'⟩
        simp only [content, hpair, htake]
        rw [if_pos (show [byte].headD 0 = 10 ∧ _ from hgood)]
      · rw [if_neg hgood]
        simp only [content, hpair, htake]
        rw [if_neg (show ¬ ([byte].headD 0 = 10 ∧ _) from hgood)]

/-- The batch is a function of the bytes that the cursor comes to. -/
theorem verifiedGitBatch_eq (objectHash : Bytes → String) (entries : List Entry)
    (h : Reads c bytes atEnd) :
    verifiedGitBatch objectHash entries c = readBatch objectHash atEnd entries bytes := by
  induction entries generalizing c bytes with
  | nil =>
    unfold verifiedGitBatch readBatch
    by_cases hbytes : bytes = []
    · subst hbytes
      obtain ⟨hpending, hended⟩ := refill_ends h
      dsimp only
      rw [hpending, hended]
      simp only [and_true, true_and]
    · obtain ⟨-, hpending⟩ := refill_reads h hbytes
      dsimp only
      rw [if_neg fun hend => hpending hend.2, if_neg fun hend => hbytes hend.1]
  | cons e es ih =>
    have hline := lineFrom_follows 200 [] h
    unfold verifiedGitBatch readBatch readEntry BatchCursor.line
    cases hsaid : readLine 200 [] bytes with
    | error failure =>
      rw [hsaid] at hline
      simp only [show BatchCursor.lineFrom 200 [] c = .error failure from hline]
    | ok said =>
      obtain ⟨header, rest⟩ := said
      rw [hsaid] at hline
      obtain ⟨c', hread, hreads⟩ := hline
      simp only [hread]
      by_cases hheader : header ≠ e.headerText
      · rw [if_pos hheader, if_pos hheader]
      · rw [if_neg hheader, if_neg hheader]
        have hcontent := content_reads objectHash e hreads
        cases hdrop : rest.drop e.sizeBytes with
        | nil =>
          rw [hdrop] at hcontent
          simp only [show content objectHash e c' = _ from hcontent]
        | cons byte after =>
          rw [hdrop] at hcontent
          dsimp only at hcontent
          dsimp only
          by_cases hgood : byte = 10 ∧ nativeHash objectHash e (rest.take e.sizeBytes) = e.oid
          · rw [if_pos hgood] at hcontent ⊢
            obtain ⟨c'', hread', hreads'⟩ := hcontent
            simp only [hread', ih hreads']
          · rw [if_neg hgood] at hcontent ⊢
            simp only [hcontent]

theorem drained_eq (objectHash : Bytes → String) (entries : List Entry) (chunks : List Bytes) :
    drained objectHash entries chunks =
      readBatch objectHash (chunks.all filled) entries (beforeEmpty chunks) :=
  verifiedGitBatch_eq objectHash entries (reads_start chunks)

/-! ## Lines and entries of a byte string -/

theorem readLine_ok_iff (size : Nat) (line rest : Bytes) (text : String) :
    readLine size line bytes = .ok (text, rest) ↔
      ∃ head, bytes = head ++ 10 :: rest ∧ 10 ∉ head ∧ head.length < size ∧
        text = BatchCursor.asciiText (line ++ head) := by
  induction size generalizing bytes line with
  | zero => simp [readLine]
  | succ size ih =>
    cases bytes with
    | nil => simp [readLine]
    | cons byte bytes =>
      by_cases hbyte : byte = 10
      · subst hbyte
        rw [readLine, if_pos rfl]
        constructor
        · intro h
          obtain ⟨rfl, rfl⟩ := Prod.mk.inj (Except.ok.inj h)
          exact ⟨[], rfl, List.not_mem_nil, Nat.succ_pos size, by rw [List.append_nil]⟩
        · rintro ⟨head, hsplit, hhead, -, rfl⟩
          cases head with
          | nil =>
            obtain ⟨-, rfl⟩ := List.cons_eq_cons.mp hsplit
            rw [List.append_nil]
          | cons first head =>
            obtain ⟨rfl, -⟩ := List.cons_eq_cons.mp hsplit
            exact absurd List.mem_cons_self hhead
      · rw [readLine, if_neg hbyte, ih]
        constructor
        · rintro ⟨head, rfl, hhead, hlength, rfl⟩
          refine ⟨byte :: head, rfl, ?_, Nat.succ_lt_succ hlength, ?_⟩
          · rw [List.mem_cons, not_or]
            exact ⟨fun h => hbyte h.symm, hhead⟩
          · rw [List.append_assoc, List.singleton_append]
        · rintro ⟨head, hsplit, hhead, hlength, rfl⟩
          cases head with
          | nil => exact absurd (List.cons_eq_cons.mp hsplit).1 hbyte
          | cons first head =>
            obtain ⟨rfl, rfl⟩ := List.cons_eq_cons.mp hsplit
            rw [List.mem_cons, not_or] at hhead
            refine ⟨head, rfl, hhead.2, Nat.lt_of_succ_lt_succ hlength, ?_⟩
            rw [List.append_assoc, List.singleton_append]

theorem readLine_truncated_iff (size : Nat) (line : Bytes) :
    readLine size line bytes = .error streamTruncated ↔ 10 ∉ bytes ∧ bytes.length < size := by
  induction size generalizing bytes line with
  | zero => simp [readLine, headerTooLong, streamTruncated, integrityFailed]
  | succ size ih =>
    cases bytes with
    | nil => simp [readLine]
    | cons byte bytes =>
      by_cases hbyte : byte = 10
      · simp [readLine, hbyte]
      · rw [readLine, if_neg hbyte, ih, List.mem_cons, not_or, List.length_cons,
          Nat.add_lt_add_iff_right]
        constructor
        · rintro ⟨hbytes, hlength⟩
          exact ⟨⟨fun h => hbyte h.symm, hbytes⟩, hlength⟩
        · rintro ⟨⟨-, hbytes⟩, hlength⟩
          exact ⟨hbytes, hlength⟩

variable {failure : SourceError}

/-- A line that is too long stays so, whatever comes after. -/
theorem readLine_decided (size : Nat) (line more : Bytes)
    (h : readLine size line bytes = .error failure) (hfailure : failure ≠ streamTruncated) :
    readLine size line (bytes ++ more) = .error failure := by
  induction size generalizing bytes line with
  | zero => exact h
  | succ size ih =>
    cases bytes with
    | nil => exact absurd (Except.error.inj h).symm hfailure
    | cons byte bytes =>
      rw [readLine] at h
      rw [List.cons_append, readLine]
      by_cases hbyte : byte = 10
      · rw [if_pos hbyte] at h
        cases h
      · rw [if_neg hbyte] at h ⊢
        exact ih (line ++ [byte]) h

/-! ## Headers -/

theorem headerText_chars (e : Entry) :
    ∀ c ∈ e.headerText.toList, c.toNat < 128 ∧ c.toNat ≠ 10 := by
  have hdigit : ∀ c : Char, c.isDigit = true → c.toNat < 128 ∧ c.toNat ≠ 10 := by
    intro c hc
    rw [Char.isDigit, Bool.and_eq_true, decide_eq_true_iff, decide_eq_true_iff] at hc
    have hlow : 48 ≤ c.toNat := hc.1
    have hhigh : c.toNat ≤ 57 := hc.2
    omega
  intro c hc
  unfold Entry.headerText at hc
  rw [String.toList_append, String.toList_append, List.mem_append, List.mem_append] at hc
  obtain (hoid | hblob) | hsize := hc
  · obtain hc | ⟨hlow, hhigh⟩ := e.oid_hex c hoid
    · exact hdigit c hc
    · have hlow' : 97 ≤ c.toNat := hlow
      have hhigh' : c.toNat ≤ 102 := hhigh
      omega
  · have hall : (" blob ".toList.all fun c => decide (c.toNat < 128 ∧ c.toNat ≠ 10)) = true := by
      decide +kernel
    exact of_decide_eq_true (List.all_eq_true.mp hall c hblob)
  · rw [Entry.sizeText, String.toList_ofList] at hsize
    exact hdigit c (Nat.isDigit_of_mem_toDigits (by decide) (by decide) hsize)

theorem headerText_length (e : Entry) : e.headerText.length < 200 := by
  have hsize : (Nat.toDigits 10 e.sizeBytes).length ≤ 40 :=
    (Nat.length_toDigits_le_iff (by decide) (by decide)).mpr e.size_digits
  have hblob : " blob ".length = 6 := by decide
  have hoid := e.oid_length
  unfold Entry.headerText Entry.sizeText
  rw [String.length_append, String.length_append, hblob, String.length_ofList]
  omega

variable {head rest : Bytes}

theorem sevenBit_head {e : Entry} (h : SevenBit e head) :
    10 ∉ head ∧ head.length < 200 := by
  have hlist : head.map (fun byte => Char.ofNat (byte.toNat % 128)) = e.headerText.toList := by
    have htext := congrArg String.toList h
    rwa [BatchCursor.asciiText, String.toList_ofList] at htext
  constructor
  · intro hten
    have hmem : Char.ofNat 10 ∈ e.headerText.toList := by
      rw [← hlist]
      exact List.mem_map_of_mem (f := fun byte : UInt8 => Char.ofNat (byte.toNat % 128)) hten
    exact (headerText_chars e _ hmem).2 (by decide)
  · have hlength := congrArg List.length hlist
    rw [List.length_map, String.length_toList] at hlength
    rw [hlength]
    exact headerText_length e

/-- A plain header reads as itself. -/
theorem sevenBit_of_plain {e : Entry} (h : Plain e head) : SevenBit e head := by
  unfold Plain at h
  subst h
  have hchars : ∀ c ∈ e.headerText.toList,
      Char.ofNat ((UInt8.ofNat c.toNat).toNat % 128) = c := by
    intro c hc
    have hsmall := (headerText_chars e c hc).1
    have hbyte : (UInt8.ofNat c.toNat).toNat % 128 = c.toNat := by
      rw [UInt8.toNat_ofNat']
      omega
    rw [hbyte, Char.ofNat_toNat]
  unfold SevenBit BatchCursor.asciiText asciiBytes
  rw [List.map_map]
  have hmap : e.headerText.toList.map
      ((fun byte : UInt8 => Char.ofNat (byte.toNat % 128)) ∘ fun c => UInt8.ofNat c.toNat) =
      e.headerText.toList := by
    conv_rhs => rw [← List.map_id e.headerText.toList]
    exact List.map_congr_left hchars
  rw [hmap, String.ofList_toList]

/-! ## Entries -/

variable {contents : List Content}

section Entries

variable {objectHash : Bytes → String} {e : Entry}

/-- A line that is read is the header up to the first newline. -/
theorem header_read (h : SevenBit e head) :
    readLine 200 [] (head ++ 10 :: rest) = .ok (e.headerText, rest) := by
  obtain ⟨hten, hlength⟩ := sevenBit_head h
  refine (readLine_ok_iff 200 [] rest e.headerText).mpr ⟨head, rfl, hten, hlength, ?_⟩
  rw [List.nil_append]
  exact h.symm

theorem readEntry_header (h : SevenBit e head) :
    readEntry objectHash e (head ++ 10 :: rest) =
      match rest.drop e.sizeBytes with
      | [] => .error ([{ bytes := rest.take e.sizeBytes, complete := false }], streamTruncated)
      | byte :: after =>
        if byte = 10 ∧ nativeHash objectHash e (rest.take e.sizeBytes) = e.oid then
          .ok (rest.take e.sizeBytes, after)
        else .error ([{ bytes := rest.take e.sizeBytes, complete := false }], contentMismatch) := by
  unfold readEntry
  rw [header_read h]
  dsimp only
  rw [if_neg (not_not_intro rfl)]

theorem readEntry_ok_iff (content rest : Bytes) :
    readEntry objectHash e bytes = .ok (content, rest) ↔
      ∃ head, Frame objectHash SevenBit e bytes head content rest := by
  constructor
  · intro h
    cases hline : readLine 200 [] bytes with
    | error failure =>
      unfold readEntry at h
      rw [hline] at h
      cases h
    | ok line =>
      obtain ⟨text, after⟩ := line
      obtain ⟨head, hsplit, -, -, htext⟩ := (readLine_ok_iff 200 [] after text).mp hline
      by_cases hheader : text = e.headerText
      · have hseven : SevenBit e head := htext.symm.trans hheader
        rw [hsplit, readEntry_header hseven] at h
        cases hdrop : after.drop e.sizeBytes with
        | nil =>
          rw [hdrop] at h
          cases h
        | cons byte others =>
          rw [hdrop] at h
          dsimp only at h
          by_cases hgood : byte = 10 ∧ nativeHash objectHash e (after.take e.sizeBytes) = e.oid
          · rw [if_pos hgood] at h
            obtain ⟨rfl, rfl⟩ := Prod.mk.inj (Except.ok.inj h)
            refine ⟨head, ?_, hseven, ?_, hgood.2⟩
            · rw [hsplit, ← hgood.1, ← hdrop, List.take_append_drop]
            · have hlength := congrArg List.length hdrop
              rw [List.length_drop, List.length_cons] at hlength
              rw [List.length_take]
              omega
          · rw [if_neg hgood] at h
            cases h
      · unfold readEntry at h
        rw [hline] at h
        dsimp only at h
        rw [if_pos hheader] at h
        cases h
  · rintro ⟨head, hframe⟩
    rw [hframe.split, readEntry_header hframe.header, ← hframe.size, List.drop_left,
      List.take_left]
    dsimp only
    rw [if_pos ⟨rfl, hframe.hash⟩]

/-- An entry that is read is read the same with more bytes after it. -/
theorem readEntry_append {content : Bytes} (more : Bytes)
    (h : readEntry objectHash e bytes = .ok (content, rest)) :
    readEntry objectHash e (bytes ++ more) = .ok (content, rest ++ more) := by
  obtain ⟨head, hframe⟩ := (readEntry_ok_iff content rest).mp h
  refine (readEntry_ok_iff content (rest ++ more)).mpr
    ⟨head, ?_, hframe.header, hframe.size, hframe.hash⟩
  rw [hframe.split]
  simp only [List.append_assoc, List.cons_append]

theorem readEntry_truncated_iff (contents : List Content) :
    readEntry objectHash e bytes = .error (contents, streamTruncated) ↔
      (10 ∉ bytes ∧ bytes.length < 200 ∧ contents = []) ∨
      ∃ head content, bytes = head ++ 10 :: content ∧ SevenBit e head ∧
        content.length ≤ e.sizeBytes ∧ contents = [{ bytes := content, complete := false }] := by
  constructor
  · intro h
    cases hline : readLine 200 [] bytes with
    | error failure =>
      unfold readEntry at h
      rw [hline] at h
      obtain ⟨rfl, rfl⟩ := Prod.mk.inj (Except.error.inj h)
      obtain ⟨hbytes, hlength⟩ := (readLine_truncated_iff 200 []).mp hline
      exact Or.inl ⟨hbytes, hlength, rfl⟩
    | ok line =>
      obtain ⟨text, after⟩ := line
      obtain ⟨head, hsplit, -, -, htext⟩ := (readLine_ok_iff 200 [] after text).mp hline
      by_cases hheader : text = e.headerText
      · have hseven : SevenBit e head := htext.symm.trans hheader
        rw [hsplit, readEntry_header hseven] at h
        cases hdrop : after.drop e.sizeBytes with
        | nil =>
          rw [hdrop] at h
          obtain ⟨rfl, -⟩ := Prod.mk.inj (Except.error.inj h)
          have hlength := List.drop_eq_nil_iff.mp hdrop
          refine Or.inr ⟨head, after, hsplit, hseven, hlength, ?_⟩
          rw [List.take_of_length_le hlength]
        | cons byte others =>
          rw [hdrop] at h
          dsimp only at h
          by_cases hgood : byte = 10 ∧ nativeHash objectHash e (after.take e.sizeBytes) = e.oid
          · rw [if_pos hgood] at h
            cases h
          · rw [if_neg hgood] at h
            have hfailure := (Prod.mk.inj (Except.error.inj h)).2
            exact absurd hfailure (by decide)
      · unfold readEntry at h
        rw [hline] at h
        dsimp only at h
        rw [if_pos hheader] at h
        have hfailure := (Prod.mk.inj (Except.error.inj h)).2
        exact absurd hfailure (by decide)
  · rintro (⟨hbytes, hlength, rfl⟩ | ⟨head, content, rfl, hseven, hlength, rfl⟩)
    · unfold readEntry
      rw [(readLine_truncated_iff 200 []).mpr ⟨hbytes, hlength⟩]
    · rw [readEntry_header hseven, List.drop_of_length_le hlength, List.take_of_length_le hlength]

/-- A failure that is no truncation stays so, whatever comes after. -/
theorem readEntry_decided (more : Bytes)
    (h : readEntry objectHash e bytes = .error (contents, failure))
    (hfailure : failure ≠ streamTruncated) :
    readEntry objectHash e (bytes ++ more) = .error (contents, failure) := by
  cases hline : readLine 200 [] bytes with
  | error cause =>
    unfold readEntry at h ⊢
    rw [hline] at h
    obtain ⟨rfl, rfl⟩ := Prod.mk.inj (Except.error.inj h)
    rw [readLine_decided 200 [] more hline hfailure]
  | ok line =>
    obtain ⟨text, after⟩ := line
    obtain ⟨head, hsplit, hten, hlength, htext⟩ := (readLine_ok_iff 200 [] after text).mp hline
    have hmore : bytes ++ more = head ++ 10 :: (after ++ more) := by
      rw [hsplit, List.append_assoc, List.cons_append]
    by_cases hheader : text = e.headerText
    · have hseven : SevenBit e head := htext.symm.trans hheader
      rw [hsplit, readEntry_header hseven] at h
      rw [hmore, readEntry_header hseven]
      cases hdrop : after.drop e.sizeBytes with
      | nil =>
        rw [hdrop] at h
        exact absurd (Prod.mk.inj (Except.error.inj h)).2.symm hfailure
      | cons byte others =>
        have hroom : e.sizeBytes ≤ after.length := by
          have hcount := congrArg List.length hdrop
          rw [List.length_drop, List.length_cons] at hcount
          omega
        rw [List.drop_append_of_le_length hroom, List.take_append_of_le_length hroom]
        rw [hdrop] at h ⊢
        rw [List.cons_append]
        dsimp only at h ⊢
        by_cases hgood : byte = 10 ∧ nativeHash objectHash e (after.take e.sizeBytes) = e.oid
        · rw [if_pos hgood] at h
          cases h
        · rw [if_neg hgood] at h ⊢
          exact h
    · have hline' : readLine 200 [] (bytes ++ more) = .ok (text, after ++ more) :=
        (readLine_ok_iff 200 [] (after ++ more) text).mpr ⟨head, hmore, hten, hlength, htext⟩
      unfold readEntry at h ⊢
      rw [hline] at h
      rw [hline']
      dsimp only at h ⊢
      rw [if_pos hheader] at h ⊢
      exact h

end Entries

/-! ## Batches of a byte string -/

section Batches

variable {objectHash : Bytes → String}

theorem readBatch_cons {e : Entry} {content : Bytes} (es : List Entry)
    (h : readEntry objectHash e bytes = .ok (content, rest)) :
    readBatch objectHash atEnd (e :: es) bytes =
      { contents := { bytes := content, complete := true } ::
          (readBatch objectHash atEnd es rest).contents
        failure := (readBatch objectHash atEnd es rest).failure } := by
  rw [readBatch, h]

theorem readBatch_error {e : Entry}
    (es : List Entry) (h : readEntry objectHash e bytes = .error (contents, failure)) :
    readBatch objectHash atEnd (e :: es) bytes = { contents, failure := some failure } := by
  rw [readBatch, h]

/-- A batch is accepted when the bytes are the frames, up to the high bits of headers. -/
theorem readBatch_accepted_iff (entries : List Entry) :
    (readBatch objectHash true entries bytes).failure = none ↔
      Framed objectHash SevenBit entries bytes := by
  induction entries generalizing bytes with
  | nil =>
    unfold readBatch Framed
    by_cases hbytes : bytes = [] <;> simp [hbytes]
  | cons e es ih =>
    cases hentry : readEntry objectHash e bytes with
    | error failed =>
      obtain ⟨contents, failure⟩ := failed
      rw [readBatch_error es hentry]
      constructor
      · intro h
        cases h
      · rintro ⟨head, content, rest, hframe, -⟩
        rw [(readEntry_ok_iff content rest).mpr ⟨head, hframe⟩] at hentry
        cases hentry
    | ok read =>
      obtain ⟨content, rest⟩ := read
      rw [readBatch_cons es hentry]
      dsimp only
      rw [ih]
      constructor
      · intro hrest
        obtain ⟨head, hframe⟩ := (readEntry_ok_iff content rest).mp hentry
        exact ⟨head, content, rest, hframe, hrest⟩
      · rintro ⟨head, content', rest', hframe, hrest⟩
        rw [(readEntry_ok_iff content' rest').mpr ⟨head, hframe⟩] at hentry
        obtain ⟨-, rfl⟩ := Prod.mk.inj (Except.ok.inj hentry)
        exact hrest

theorem readBatch_truncated_iff (entries : List Entry) (contents : List Content) :
    readBatch objectHash atEnd entries bytes = { contents, failure := some streamTruncated } ↔
      CutShort objectHash entries bytes contents := by
  induction entries generalizing bytes contents with
  | nil =>
    unfold readBatch CutShort
    by_cases hend : bytes = [] ∧ atEnd = true
    · rw [if_pos hend]
      simp
    · rw [if_neg hend]
      simp [undeclaredTail, streamTruncated, integrityFailed]
  | cons e es ih =>
    cases hentry : readEntry objectHash e bytes with
    | error failed =>
      obtain ⟨drained, failure⟩ := failed
      rw [readBatch_error es hentry]
      constructor
      · intro h
        injection h with hcontents hfailure
        subst hcontents
        rw [Option.some_inj.mp hfailure] at hentry
        obtain hcut | hcut := (readEntry_truncated_iff drained).mp hentry
        · exact Or.inl hcut
        · exact Or.inr (Or.inl hcut)
      · rintro (hcut | hcut | ⟨head, content, rest, more, hframe, -⟩)
        · rw [(readEntry_truncated_iff contents).mpr (Or.inl hcut)] at hentry
          obtain ⟨rfl, rfl⟩ := Prod.mk.inj (Except.error.inj hentry)
          rfl
        · rw [(readEntry_truncated_iff contents).mpr (Or.inr hcut)] at hentry
          obtain ⟨rfl, rfl⟩ := Prod.mk.inj (Except.error.inj hentry)
          rfl
        · rw [(readEntry_ok_iff content rest).mpr ⟨head, hframe⟩] at hentry
          cases hentry
    | ok read =>
      obtain ⟨content, rest⟩ := read
      rw [readBatch_cons es hentry]
      constructor
      · intro h
        injection h with hcontents hfailure
        obtain ⟨head, hframe⟩ := (readEntry_ok_iff content rest).mp hentry
        refine Or.inr (Or.inr ⟨head, content, rest, _, hframe, (ih _).mp ?_, hcontents.symm⟩)
        rw [← hfailure]
      · rintro (hcut | hcut | ⟨head, content', rest', more, hframe, hrest, rfl⟩)
        · rw [(readEntry_truncated_iff contents).mpr (Or.inl hcut)] at hentry
          cases hentry
        · rw [(readEntry_truncated_iff contents).mpr (Or.inr hcut)] at hentry
          cases hentry
        · rw [(readEntry_ok_iff content' rest').mpr ⟨head, hframe⟩] at hentry
          obtain ⟨rfl, rfl⟩ := Prod.mk.inj (Except.ok.inj hentry)
          rw [(ih more).mpr hrest]

/-- The frames of a batch give their contents, and the tail decides how it ends. -/
theorem readBatch_framed {entries : List Entry} (h : Framed objectHash SevenBit entries bytes) :
    ∃ contents, ∀ atEnd more, readBatch objectHash atEnd entries (bytes ++ more) =
      { contents, failure := if more = [] ∧ atEnd = true then none else some undeclaredTail } := by
  induction entries generalizing bytes with
  | nil =>
    have hbytes : bytes = [] := h
    subst hbytes
    refine ⟨[], fun atEnd more => ?_⟩
    rw [List.nil_append, readBatch]
    by_cases hend : more = [] ∧ atEnd = true
    · rw [if_pos hend, if_pos hend]
    · rw [if_neg hend, if_neg hend]
  | cons e es ih =>
    obtain ⟨head, content, rest, hframe, hrest⟩ := h
    obtain ⟨contents, hall⟩ := ih hrest
    have hentry := (readEntry_ok_iff content rest).mpr ⟨head, hframe⟩
    refine ⟨{ bytes := content, complete := true } :: contents, fun atEnd more => ?_⟩
    rw [readBatch_cons es (readEntry_append more hentry), hall]

/-- A failure that is no truncation is decided by the bytes so far. -/
theorem readBatch_decided {entries : List Entry}
    (atEnd : Bool) (more : Bytes)
    (h : readBatch objectHash true entries bytes = { contents, failure := some failure })
    (hfailure : failure ≠ streamTruncated) :
    readBatch objectHash atEnd entries (bytes ++ more) =
      { contents, failure := some failure } := by
  induction entries generalizing bytes contents with
  | nil =>
    unfold readBatch at h ⊢
    by_cases hbytes : bytes = []
    · rw [if_pos ⟨hbytes, rfl⟩] at h
      cases h
    · rw [if_neg fun hend => hbytes hend.1] at h
      rw [if_neg fun hend => hbytes (List.append_eq_nil_iff.mp hend.1).1]
      exact h
  | cons e es ih =>
    cases hentry : readEntry objectHash e bytes with
    | error failed =>
      obtain ⟨drained, cause⟩ := failed
      rw [readBatch_error es hentry] at h
      injection h with hcontents hcause
      subst hcontents
      rw [Option.some_inj.mp hcause] at hentry
      exact readBatch_error es (readEntry_decided more hentry hfailure)
    | ok read =>
      obtain ⟨content, rest⟩ := read
      rw [readBatch_cons es hentry] at h
      injection h with hcontents hrest
      subst hcontents
      rw [readBatch_cons es (readEntry_append more hentry)]
      have hsame : readBatch objectHash true es rest =
          { contents := (readBatch objectHash true es rest).contents, failure := some failure } := by
        rw [← hrest]
      rw [ih hsame]

end Batches

/-! ## Chunks -/

/-- The bytes after the first empty chunk. -/
def afterEmpty (chunks : List Bytes) : Bytes := (chunks.dropWhile filled).flatten

theorem flatten_split (chunks : List Bytes) :
    chunks.flatten = beforeEmpty chunks ++ afterEmpty chunks := by
  unfold beforeEmpty afterEmpty
  rw [← List.flatten_append, List.takeWhile_append_dropWhile]

theorem beforeEmpty_of_filled {chunks : List Bytes} (h : chunks.all filled = true) :
    beforeEmpty chunks = chunks.flatten := by
  unfold beforeEmpty
  rw [List.takeWhile_eq_self_iff.mpr (List.all_eq_true.mp h)]

/-- The batch over these chunks: the outcome is that of every splitting into chunks with bytes in
them, and it accepts just the concatenation of the frames. -/
structure ChunkingIndependent (objectHash : Bytes → String) (entries : List Entry)
    (chunks : List Bytes) : Prop where
  same : ∀ others : List Bytes, others.flatten = chunks.flatten → (∀ chunk ∈ others, chunk ≠ []) →
    drained objectHash entries chunks = drained objectHash entries others
  accepts : (drained objectHash entries chunks).failure = none ↔
    Framed objectHash Plain entries chunks.flatten

/-- An empty chunk comes only where it changes nothing: not at the end of all frames, and inside a
frame only when the bytes after it leave the batch in that same place. Headers that match do so to
the byte. -/
structure Harmless (objectHash : Bytes → String) (entries : List Entry) (chunks : List Bytes) :
    Prop where
  atEnd : chunks.all filled = false → Framed objectHash SevenBit entries (beforeEmpty chunks) →
    afterEmpty chunks ≠ []
  inside : chunks.all filled = false → ∀ contents,
    CutShort objectHash entries (beforeEmpty chunks) contents →
    CutShort objectHash entries chunks.flatten contents
  headers : Framed objectHash SevenBit entries chunks.flatten →
    Framed objectHash Plain entries chunks.flatten

section Chunks

variable {objectHash : Bytes → String} {entries : List Entry} {chunks : List Bytes}

theorem framed_of_plain (h : Framed objectHash Plain entries bytes) :
    Framed objectHash SevenBit entries bytes := by
  induction entries generalizing bytes with
  | nil => exact h
  | cons e es ih =>
    obtain ⟨head, content, rest, hframe, hrest⟩ := h
    exact ⟨head, content, rest,
      ⟨hframe.split, sevenBit_of_plain hframe.header, hframe.size, hframe.hash⟩, ih hrest⟩

theorem drained_filled {others : List Bytes} (h : ∀ chunk ∈ others, chunk ≠ []) :
    drained objectHash entries others = readBatch objectHash true entries others.flatten := by
  have hall : others.all filled = true := by
    rw [List.all_eq_true]
    intro chunk hchunk
    simp [filled, h chunk hchunk]
  rw [drained_eq, hall, beforeEmpty_of_filled hall]

/-- A byte at a time. -/
def singles (bytes : Bytes) : List Bytes := bytes.map fun byte => [byte]

theorem singles_filled (bytes : Bytes) : ∀ chunk ∈ singles bytes, chunk ≠ [] := by
  intro chunk hchunk
  obtain ⟨byte, -, rfl⟩ := List.mem_map.mp hchunk
  exact List.cons_ne_nil _ _

theorem singles_flatten (bytes : Bytes) : (singles bytes).flatten = bytes := by
  induction bytes with
  | nil => rfl
  | cons byte bytes ih =>
    have hcons : singles (byte :: bytes) = [byte] :: singles bytes := rfl
    rw [hcons, List.flatten_cons, ih, List.singleton_append]

/-- Harmless chunks give the outcome of their bytes. -/
theorem drained_of_harmless (h : Harmless objectHash entries chunks) :
    drained objectHash entries chunks = readBatch objectHash true entries chunks.flatten := by
  rw [drained_eq]
  cases hall : chunks.all filled with
  | true => rw [beforeEmpty_of_filled hall]
  | false =>
    have hsplit := flatten_split chunks
    cases hread : readBatch objectHash true entries (beforeEmpty chunks) with
    | mk contents failure =>
      cases failure with
      | none =>
        have hframed : Framed objectHash SevenBit entries (beforeEmpty chunks) := by
          rw [← readBatch_accepted_iff, hread]
        have hafter := h.atEnd hall hframed
        obtain ⟨contents', hends⟩ := readBatch_framed hframed
        have hfalse := hends false []
        rw [List.append_nil] at hfalse
        have htail : ¬ (afterEmpty chunks = [] ∧ true = true) := fun hend => hafter hend.1
        rw [hsplit, hends, if_neg htail, hfalse, if_neg (by simp)]
      | some failure =>
        by_cases htruncated : failure = streamTruncated
        · subst htruncated
          have hcut := (readBatch_truncated_iff entries contents).mp hread
          rw [(readBatch_truncated_iff entries contents).mpr hcut,
            (readBatch_truncated_iff entries contents).mpr (h.inside hall contents hcut)]
        · have hmore := readBatch_decided true (afterEmpty chunks) hread htruncated
          have hnone := readBatch_decided false [] hread htruncated
          rw [List.append_nil] at hnone
          rw [hnone, hsplit, hmore]

/-- Chunks that give the outcome of their bytes hold no harmful empty chunk. -/
theorem empties_of_same
    (h : drained objectHash entries chunks = readBatch objectHash true entries chunks.flatten)
    (hall : chunks.all filled = false) :
    (Framed objectHash SevenBit entries (beforeEmpty chunks) → afterEmpty chunks ≠ []) ∧
      ∀ contents, CutShort objectHash entries (beforeEmpty chunks) contents →
        CutShort objectHash entries chunks.flatten contents := by
  rw [drained_eq, hall] at h
  constructor
  · intro hframed hafter
    obtain ⟨contents, hends⟩ := readBatch_framed hframed
    have hfalse := hends false []
    have htrue := hends true []
    rw [flatten_split chunks, hafter, htrue] at h
    rw [List.append_nil] at hfalse
    rw [hfalse] at h
    injection h with _ hfailure
    simp at hfailure
  · intro contents hcut
    refine (readBatch_truncated_iff entries contents).mp (h.symm.trans ?_)
    exact (readBatch_truncated_iff entries contents).mpr hcut

/-- Verification of a batch does not depend on how its bytes are cut into chunks, and accepts just
the frames, exactly when empty chunks are harmless and headers match to the byte. -/
theorem chunking_independent_iff (objectHash : Bytes → String) (entries : List Entry)
    (chunks : List Bytes) :
    ChunkingIndependent objectHash entries chunks ↔ Harmless objectHash entries chunks := by
  constructor
  · intro h
    have hsame := h.same (singles chunks.flatten) (singles_flatten _) (singles_filled _)
    rw [drained_filled (singles_filled _), singles_flatten] at hsame
    refine ⟨fun hall => (empties_of_same hsame hall).1, fun hall => (empties_of_same hsame hall).2,
      fun hframed => h.accepts.mp ?_⟩
    rw [hsame]
    exact (readBatch_accepted_iff entries).mpr hframed
  · intro h
    have hsame := drained_of_harmless h
    refine ⟨fun others hflat hfilled => ?_, ?_⟩
    · rw [hsame, drained_filled hfilled, hflat]
    · rw [hsame, readBatch_accepted_iff]
      exact ⟨h.headers, framed_of_plain⟩

end Chunks

/-- The empty file, as SHA-1 names it. -/
def emptyFile : Entry where
  oid := "e69de29bb2d1d6434b8b29ae775ad8c2e48c5391"
  sizeBytes := 0
  oid_length := by decide
  oid_hex := fun c hc => of_decide_eq_true (List.all_eq_true.mp
    (show ("e69de29bb2d1d6434b8b29ae775ad8c2e48c5391".toList.all fun c =>
      decide (c.isDigit = true ∨ 'a' ≤ c ∧ c ≤ 'f')) = true by decide +kernel) c hc)
  size_digits := by decide

/-- The hash of the empty blob, and of no other. -/
def emptyBlobHash (bytes : Bytes) : String :=
  if bytes = asciiBytes "blob 0" ++ [0] then emptyFile.oid else ""

def emptyFileStream : Bytes := asciiBytes emptyFile.headerText ++ [10, 10]

/-- An empty chunk at the end of the stream turns an accepted batch into a refused one. -/
theorem empty_chunk_refuses_a_framed_batch :
    Framed emptyBlobHash Plain [emptyFile] emptyFileStream ∧
      drained emptyBlobHash [emptyFile] [emptyFileStream] =
        { contents := [{ bytes := [], complete := true }], failure := none } ∧
      drained emptyBlobHash [emptyFile] [emptyFileStream, []] =
        { contents := [{ bytes := [], complete := true }], failure := some undeclaredTail } ∧
      ¬ ∀ (entries : List Entry) (chunks others : List Bytes), chunks.flatten = others.flatten →
        drained emptyBlobHash entries chunks = drained emptyBlobHash entries others := by
  have hone : drained emptyBlobHash [emptyFile] [emptyFileStream] =
      { contents := [{ bytes := [], complete := true }], failure := none } := by decide +kernel
  have htwo : drained emptyBlobHash [emptyFile] [emptyFileStream, []] =
      { contents := [{ bytes := [], complete := true }], failure := some undeclaredTail } := by
    decide +kernel
  have hframe : Frame emptyBlobHash Plain emptyFile emptyFileStream
      (asciiBytes emptyFile.headerText) [] [] :=
    ⟨by decide +kernel, rfl, rfl, by decide +kernel⟩
  refine ⟨⟨_, _, _, hframe, rfl⟩, hone, htwo, fun h => ?_⟩
  have hsame := h [emptyFile] [emptyFileStream, []] [emptyFileStream] (by
    rw [List.flatten_cons, List.flatten_cons, List.flatten_cons, List.nil_append])
  rw [hone, htwo] at hsame
  cases hsame

end Traqen.GitBatch
