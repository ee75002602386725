import Mathlib.Algebra.Order.BigOperators.Group.List
import Mathlib.Tactic.Ring
import AudioReach.SpfCircBuf.Buffer

/-!
# Chunks that are recreated or destroyed when the writer reaches them

A new media format marks the chunks of the buffer, and the writer replaces or destroys a marked
chunk when it comes to it.  Readers that have still data in the chunk are moved on to the next
chunk, and what they lose is to be taken from their counts.

The code reads the length of one frame, that of the reader, and takes it once for every frame that
the reader is moved over.  It also frees the metadata of the chunk first, which clears the length
of each frame that has metadata.  `Keeps` is that the counts stay right, and
`checkAndRecreate_keeps_iff` says for which buffers they do.
-/

namespace AudioReach.SpfCircBuf

open List Option

/-! ## Sizes -/

/-- The number of values of a `uint32_t`. -/
abbrev wordSize : ℕ := 4294967296

/-- The sum of two `uint32_t`. -/
def add32 (a b : ℕ) : ℕ := (((a : ℤ) + b) % 4294967296).toNat

/-- The difference of two `uint32_t`. -/
def sub32 (a b : ℕ) : ℕ := (((a : ℤ) - b) % 4294967296).toNat

/-- `_CEIL` on `uint32_t`. -/
def ceil32 (x y : ℕ) : ℕ := sub32 (add32 x y) 1 / y

/-- `convert_us_to_bytes`: the samples rounded up, and the whole bytes of a sample. -/
def convertUsToBytes (us : ℕ) (mf : MfInfo) : ℕ :=
  (us * mf.samplingRate + 999999) / 1000000 % wordSize * (mf.bitsPerSample % 65536 / 8) % wordSize

/-- What `_circ_buf_compute_chunk_info` computes. -/
structure ChunkInfo where
  totalNumFrames : ℕ
  frameDataSizeInBytes : ℕ
  totalNumChunks : ℕ
  actualChunkSize : ℕ
  lastChunkSize : ℕ
  deriving DecidableEq, Repr

/-- `_circ_buf_compute_chunk_info`; `none` is a division by zero. -/
def CircBuf.computeChunkInfo (b : CircBuf) (mf : MfInfo) (bufferSizeInUs : ℕ) : Option ChunkInfo :=
  let bufferSizeInBytes := convertUsToBytes bufferSizeInUs mf
  let frameData := convertUsToBytes b.wr.containerFrameSizeInUs mf
  let totalFrameSize := b.chunkFrameSize frameData
  if frameData = 0 then none
  else
    let totalNumFrames := ceil32 bufferSizeInBytes frameData
    let framesPerChunk := ceil32 b.preferredChunkSize totalFrameSize
    let actualChunkSize := framesPerChunk * totalFrameSize % wordSize
    if framesPerChunk = 0 then none
    else some {
      totalNumFrames
      frameDataSizeInBytes := frameData
      totalNumChunks := ceil32 totalNumFrames framesPerChunk
      actualChunkSize
      lastChunkSize :=
        if totalNumFrames % framesPerChunk ≠ 0 then
          totalFrameSize * (totalNumFrames % framesPerChunk) % wordSize
        else actualChunkSize }

/-- `_circ_buf_allocate_chunk`: the chunk that is made if the heap has the memory. -/
def CircBuf.allocateChunk (b : CircBuf) (frameDataSize chunkSize : ℕ) (mf : MfInfo) : Chunk where
  size := chunkSize % 65536
  numFrames := chunkSize / b.chunkFrameSize frameDataSize % 65536
  frameSize := frameDataSize % 65536
  recreate := false
  destroy := false
  mf := mf
  numChannels := mf.numChannels % 256
  frame := fun _ => blankFrame

/-! ## Dropping the data of a chunk -/

/-- `_circ_buf_free_chunk_metadata`: the headers of the frames with metadata are cleared. -/
def CircBuf.freeChunkMetadata (b : CircBuf) (c : Chunk) : Chunk :=
  { c with
    frame := fun p =>
      if (c.frame p).hasMetadata ∧ b.chunkFrameSize c.frameSize ∣ p ∧
          p + b.chunkFrameSize c.frameSize ≤ c.size then (c.frame p).cleared
      else c.frame p }

/-- The rounds after which a loop that moves out of a chunk is through, or never. -/
def walkRounds (c : Chunk) : ℕ := c.size + 2

/-- The loop that moves a reader to the next chunk and sums up `len`, the length that was read
from the reader's frame before the loop. -/
def CircBuf.dropLoop (b : CircBuf) (x len : ℕ) : ℕ → Position → ℕ → Option (Position × ℕ)
  | 0, _, _ => none
  | rounds + 1, pos, bytes => do
    let node ← pos.chunkNode
    if node = x then
      let next ← b.advanceToNextFrame pos
      b.dropLoop x len rounds next (add32 bytes (sub32 len pos.frameOffset))
    else
      return (pos, bytes)

/-- The body of the loop over the readers: a reader with data in the chunk is moved on. -/
def CircBuf.dropFromReader (b : CircBuf) (x : ℕ) (c : Chunk) (rd : Client) : Option Client := do
  let node ← rd.pos.chunkNode
  if node ≠ x then
    return rd
  else if b.isBufferEmpty rd then
    return rd
  else if b.numChunks > 1 then
    let (pos, bytes) ←
      b.dropLoop x (c.frame rd.pos.framePosition).actualDataLen (walkRounds c) rd.pos 0
    return { rd with
      pos, unreadBytes := if bytes < rd.unreadBytes then rd.unreadBytes - bytes else 0 }
  else
    return { rd with unreadBytes := 0 }

/-- The first loop over the readers, if overflow is not allowed: is there one with data in the
chunk? -/
def CircBuf.readerInChunk (b : CircBuf) (x : ℕ) : List Client → Option Bool
  | [] => some false
  | rd :: rds => do
    let node ← rd.pos.chunkNode
    if node = x ∧ ¬ b.isBufferEmpty rd then return true else b.readerInChunk x rds

/-- The last loop over the readers: who is still on the old node goes to the writer. -/
def syncReader (x : ℕ) (wr : Position) (rd : Client) : Client :=
  if rd.pos.chunkNode = some x then { rd with pos := wr } else rd

/-- The chunk is given back: it no longer counts. -/
def CircBuf.giveBack (b : CircBuf) (x : ℕ) (c : Chunk) : CircBuf :=
  { b with
    numChunks := sub32 b.numChunks 1
    circBufSizeBytes := sub32 b.circBufSizeBytes (c.numFrames * c.frameSize)
    chunk := Function.update b.chunk x none }

/-- The branch for `flags.recreate`; `alloc` is whether the heap has the memory. -/
def CircBuf.recreateChunk (b : CircBuf) (alloc : Bool) (x : ℕ) (c : Chunk) :
    Option (Result × Bool × CircBuf) := do
  let freed := b.giveBack x c
  let mf ← b.wr.operatingMf
  let info ← freed.computeChunkInfo mf b.circBufSizeInUs
  if !alloc then
    return (fail, true, freed)
  else
    let new := freed.allocateChunk info.frameDataSizeInBytes info.actualChunkSize mf
    let wrPos : Position := ⟨some x, 0, 0⟩
    return (success, true, { freed with
      numChunks := add32 freed.numChunks 1
      circBufSizeBytes := add32 freed.circBufSizeBytes (new.numFrames * new.frameSize)
      chunk := Function.update freed.chunk x (some new)
      wr := { b.wr with pos := wrPos }
      readers := b.readers.map (syncReader x wrPos) })

/-- The branch for `flags.destroy`. -/
def CircBuf.destroyChunk (b : CircBuf) (x : ℕ) (c : Chunk) : Option (Result × Bool × CircBuf) :=
  let freed := b.giveBack x c
  let chunkList := b.chunkList.erase x
  let wrPos : Position :=
    if chunkList.isEmpty then ⟨none, 0, 0⟩ else ⟨b.nextChunkNode x, 0, 0⟩
  some (success, true, { freed with
    chunkList
    wr := { b.wr with pos := wrPos }
    readers := b.readers.map (syncReader x wrPos) })

/-- `_circ_buf_check_and_recreate`: the result, `*did_recreate_ptr`, and the buffer. -/
def CircBuf.checkAndRecreate (b : CircBuf) (alloc allowOverflow : Bool) :
    Option (Result × Bool × CircBuf) := do
  let x ← b.wr.pos.chunkNode
  let c ← b.chunk x
  if !c.destroy && !c.recreate then
    return (success, false, b)
  else
    let held ← if allowOverflow then some false else b.readerInChunk x b.readers
    if held then
      return (overrun, false, b)
    else
      let c' := b.freeChunkMetadata c
      let b' := { b with chunk := Function.update b.chunk x (some c') }
      let readers ← b.readers.mapM (b'.dropFromReader x c')
      let dropped := { b' with readers }
      if c.recreate then dropped.recreateChunk alloc x c' else dropped.destroyChunk x c'

/-! ## What the loop over the frames of the chunk takes -/

/-- What holds of a buffer between two calls. -/
structure CircBuf.Sound (b : CircBuf) : Prop where
  nodup : b.chunkList.Nodup
  /-- `num_chunks` counts them. -/
  count : b.numChunks = b.chunkList.length
  alive : ∀ n ∈ b.chunkList, ∃ c, b.chunk n = some c
  /-- A reader is at a frame of a chunk, and has read no more of it than there is. -/
  reader : ∀ rd ∈ b.readers, ∃ n ∈ b.chunkList, ∃ c, b.chunk n = some c ∧
    rd.pos.chunkNode = some n ∧ rd.pos.framePosition ∈ b.framePositions c ∧
    rd.pos.frameOffset ≤ (c.frame rd.pos.framePosition).actualDataLen
  /-- The counts are 32-bit words, the frames are no longer than 16-bit lengths say. -/
  words : (∀ rd ∈ b.readers, rd.unreadBytes < wordSize) ∧
    ∀ n c, b.chunk n = some c → ∀ p, (c.frame p).actualDataLen ≤ 65535

/-- The writer has reached the first frame of a chunk that is marked. -/
structure CircBuf.AtMarked (b : CircBuf) (x : ℕ) (c : Chunk) : Prop where
  node : b.wr.pos.chunkNode = some x
  first : b.wr.pos.framePosition = 0
  mem : x ∈ b.chunkList
  chunk : b.chunk x = some c
  marked : c.recreate ∨ c.destroy
  /-- Chunks are marked once the writer has a media format and the sizes for it are computed. -/
  sizes : ∃ mf info, b.wr.operatingMf = some mf ∧
    b.computeChunkInfo mf b.circBufSizeInUs = some info

section Frames

variable (b : CircBuf) (c : Chunk)

lemma CircBuf.framesIn_pos : 0 < b.framesIn c := Nat.lt_of_lt_of_le Nat.one_pos (le_max_left _ _)

lemma CircBuf.mem_framePositions {p : ℕ} :
    p ∈ b.framePositions c ↔ ∃ k < b.framesIn c, k * b.chunkFrameSize c.frameSize = p := by
  simp [framePositions]

/-- The frames from the `k`th on. -/
lemma CircBuf.framePositions_from {k : ℕ} (hk : k ≤ b.framesIn c) :
    (b.framePositions c).filter (k * b.chunkFrameSize c.frameSize ≤ ·) =
      (range' k (b.framesIn c - k)).map (· * b.chunkFrameSize c.frameSize) := by
  have hpos := b.chunkFrameSize_pos c.frameSize
  have hfilter : (range (b.framesIn c)).filter (k ≤ ·) = range' k (b.framesIn c - k) := by
    obtain ⟨m, hm⟩ := Nat.exists_eq_add_of_le hk
    have hsplit : range (k + m) = range k ++ range' k m := by
      rw [range_eq_range', range_eq_range', ← range'_append_1]
      simp
    rw [hm, hsplit, filter_append, Nat.add_sub_cancel_left]
    have hnone : (range k).filter (k ≤ ·) = [] := by
      rw [filter_eq_nil_iff]
      intro a ha
      have hlt := mem_range.mp ha
      simpa using hlt
    have hall : (range' k m).filter (k ≤ ·) = range' k m := by
      rw [filter_eq_self]
      intro a ha
      have hle := (mem_range'_1.mp ha).1
      simpa using hle
    rw [hnone, hall, nil_append]
  rw [framePositions, List.filter_map, ← hfilter]
  congr 1
  apply filter_congr
  intro a _
  simp [Nat.mul_le_mul_right_iff hpos]

end Frames

/-! ## Moving to the next chunk -/

lemma nextInList_append {pre post : List ℕ} {x : ℕ} (hx : x ∉ pre) :
    nextInList (pre ++ x :: post) x = post.head? := by
  induction pre with
  | nil =>
    cases post with
    | nil => rfl
    | cons y ys => simp [nextInList]
  | cons a pre ih =>
    have hne : a ≠ x := fun h => hx (h ▸ mem_cons_self)
    have hrest := ih fun h => hx (mem_cons_of_mem a h)
    cases pre with
    | nil => simpa [nextInList, hne] using hrest
    | cons d pre => simpa [nextInList, hne] using hrest

lemma CircBuf.nextChunkNode_eq {b : CircBuf} {x : ℕ} (hnd : b.chunkList.Nodup)
    (hmem : x ∈ b.chunkList) :
    b.nextChunkNode x = some ((nodesAfter b.chunkList x).headD x) := by
  obtain ⟨pre, post, hl⟩ := append_of_mem hmem
  have hx : x ∉ pre := by
    intro hpre
    rw [hl] at hnd
    exact (nodup_append.mp hnd).2.2 x hpre x mem_cons_self rfl
  rw [nextChunkNode, hl, nextInList_append hx, nodesAfter_of_append hx]
  cases post with
  | cons y ys => rfl
  | nil =>
    cases pre with
    | nil => rfl
    | cons y ys => rfl

lemma add32_sub32 {bytes len o : ℕ} (ho : o < wordSize) :
    add32 bytes (sub32 len o) = (bytes + len + wordSize - o) % wordSize := by
  unfold add32 sub32 wordSize at *
  omega

section Walk

variable {b : CircBuf} {x y : ℕ} {c : Chunk}

/-- From the `k`th frame of a chunk: to the next frame of it, or out of it. -/
lemma CircBuf.advance_frame (hc : b.chunk x = some c) {k : ℕ} (o : ℕ) :
    b.advanceToNextFrame ⟨some x, k * b.chunkFrameSize c.frameSize, o⟩ =
      some (if k + 1 < b.framesIn c then
          ⟨some x, (k + 1) * b.chunkFrameSize c.frameSize, 0⟩
        else ⟨b.nextChunkNode x, 0, 0⟩) := by
  have hpos := b.chunkFrameSize_pos c.frameSize
  have hiff : k * b.chunkFrameSize c.frameSize + b.chunkFrameSize c.frameSize +
      b.chunkFrameSize c.frameSize > c.size ↔ ¬ k + 1 < b.framesIn c := by
    have hdiv : c.size / b.chunkFrameSize c.frameSize < k + 2 ↔
        c.size < (k + 2) * b.chunkFrameSize c.frameSize := Nat.div_lt_iff_lt_mul hpos
    have hmul : (k + 2) * b.chunkFrameSize c.frameSize =
        k * b.chunkFrameSize c.frameSize + b.chunkFrameSize c.frameSize +
          b.chunkFrameSize c.frameSize := by ring
    unfold framesIn
    omega
  unfold advanceToNextFrame
  simp only [bind_eq_bind, bind_some, hc, hiff, Nat.add_mul, Nat.one_mul]
  by_cases hlast : k + 1 < b.framesIn c
  · simp [hlast]
  · simp [hlast]

/-- The loop ends at the next chunk, and has taken the one length for each of the frames. -/
lemma CircBuf.dropLoop_eq (hc : b.chunk x = some c) (hnext : b.nextChunkNode x = some y)
    (hne : y ≠ x) (len : ℕ) {k : ℕ} (hk : k < b.framesIn c) {rounds : ℕ}
    (hrounds : b.framesIn c < rounds + k) {o : ℕ} (ho : o < wordSize) (bytes : ℕ) :
    b.dropLoop x len rounds ⟨some x, k * b.chunkFrameSize c.frameSize, o⟩ bytes =
      some (⟨some y, 0, 0⟩, (bytes + (b.framesIn c - k) * len + wordSize - o) % wordSize) := by
  induction rounds generalizing k o bytes with
  | zero => omega
  | succ rounds ih =>
    rw [dropLoop]
    simp only [bind_eq_bind, bind_some, if_true, advance_frame hc]
    by_cases hlast : k + 1 < b.framesIn c
    · rw [if_pos hlast, ih hlast (by omega) (by norm_num), add32_sub32 ho]
      have hmul : (b.framesIn c - k) * len = (b.framesIn c - (k + 1)) * len + len := by
        rw [show b.framesIn c - k = b.framesIn c - (k + 1) + 1 by omega]
        ring
      have hsum : ((bytes + len + wordSize - o) % wordSize +
            (b.framesIn c - (k + 1)) * len + wordSize - 0) % wordSize =
          (bytes + (b.framesIn c - k) * len + wordSize - o) % wordSize := by
        rw [hmul]
        generalize (b.framesIn c - (k + 1)) * len = rest
        unfold wordSize at *
        omega
      rw [hsum]
    · rw [if_neg hlast, hnext]
      have hone : b.framesIn c - k = 1 := by omega
      obtain ⟨rounds, rfl⟩ : ∃ r, rounds = r + 1 := ⟨rounds - 1, by omega⟩
      rw [dropLoop]
      simp only [bind_eq_bind, bind_some, if_neg hne, hone, Nat.one_mul, add32_sub32 ho]
      rfl

end Walk

/-! ## Data around the ring -/

lemma isRotated_nodesAfter {l : List ℕ} {x : ℕ} (hl : l.Nodup) (hmem : x ∈ l) :
    l ~r (x :: nodesAfter l x) := by
  obtain ⟨pre, post, rfl⟩ := append_of_mem hmem
  have hx : x ∉ pre := by
    intro hpre
    exact (nodup_append.mp hl).2.2 x hpre x mem_cons_self rfl
  rw [nodesAfter_of_append hx, ← cons_append]
  exact isRotated_append

/-- In a ring that is turned to start at `z`, what follows `y` before `z` comes again. -/
lemma takeWhile_nodesAfter {l A B : List ℕ} {y z : ℕ} (hl : l.Nodup) (h : l ~r (A ++ y :: B))
    (hz : (A ++ y :: B).head? = some z) : (nodesAfter l y).takeWhile (· ≠ z) = B := by
  have hturn : l ~r (y :: (B ++ A)) := by
    exact h.trans isRotated_append
  rw [nodesAfter_of_isRotated hl hturn]
  have hnd : (A ++ y :: B).Nodup := h.nodup_iff.mp hl
  have hB : ∀ a ∈ B, decide (a ≠ z) = true := by
    intro a ha
    have hne : a ≠ z := by
      rintro rfl
      cases A with
      | nil =>
        obtain rfl : y = a := by simpa using hz
        exact (nodup_cons.mp hnd).1 ha
      | cons d A =>
        obtain rfl : d = a := by simpa using hz
        exact (nodup_cons.mp hnd).1 (mem_append_right A (mem_cons_of_mem y ha))
    exact decide_eq_true hne
  rw [takeWhile_append_of_pos hB]
  cases A with
  | nil => simp
  | cons d A =>
    obtain rfl : d = z := by simpa using hz
    simp

section Data

variable {b : CircBuf}

lemma CircBuf.dataBetween_ring {A B : List ℕ} {y z : ℕ} (hl : b.chunkList.Nodup)
    (h : b.chunkList ~r (A ++ y :: B)) (hz : (A ++ y :: B).head? = some z) (p o o' : ℕ) :
    b.dataBetween ⟨some y, p, o⟩ ⟨some z, 0, o'⟩ =
      b.chunkData y p none + (B.map (b.chunkData · 0 none)).sum := by
  have hnone : b.chunkData z 0 (some 0) = 0 := by
    unfold chunkData
    cases b.chunk z <;> simp
  simp only [dataBetween, Nat.not_lt_zero, and_false, if_false,
    takeWhile_nodesAfter hl h hz, hnone, Nat.add_zero]

lemma CircBuf.chunkData_congr {b' : CircBuf} {n : ℕ} (h : b'.chunk n = b.chunk n)
    (hhdr : b'.frameHeaderSize = b.frameHeaderSize) (p : ℕ) (q : Option ℕ) :
    b'.chunkData n p q = b.chunkData n p q := by
  unfold chunkData framePositions framesIn chunkFrameSize
  rw [h, hhdr]

end Data

/-! ## What a reader is left with -/

section Drop

variable (b : CircBuf) (x : ℕ) (c : Chunk) (rd : Client)

/-- The reader has still data in the chunk that the writer has reached. -/
def CircBuf.Overtaken : Prop := rd.pos.chunkNode = some x ∧ b.isBufferEmpty rd = false

instance : Decidable (b.Overtaken x rd) := inferInstanceAs (Decidable (_ ∧ _))

/-- The frames of the chunk that the reader has still before it. -/
def CircBuf.framesLeft : List ℕ := (b.framePositions c).filter (rd.pos.framePosition ≤ ·)

/-- What the reader loses: the data of those frames, but for what it has read of the first. -/
def CircBuf.ownData : ℕ :=
  ((b.framesLeft c rd).map fun p => (c.frame p).actualDataLen).sum - rd.pos.frameOffset

/-- What the loop sums up: the length of the reader's frame once for each of those frames.  The
length is zero if the frame has metadata. -/
def CircBuf.summedData : ℕ :=
  ((b.framesLeft c rd).length *
    ((b.freeChunkMetadata c).frame rd.pos.framePosition).actualDataLen + wordSize -
      rd.pos.frameOffset) % wordSize

/-- The reader after the first loop over the readers. -/
def CircBuf.droppedReader : Client :=
  if b.Overtaken x rd then
    if b.chunkList.length > 1 then
      { rd with
        pos := ⟨b.nextChunkNode x, 0, 0⟩
        unreadBytes := rd.unreadBytes - b.summedData c rd }
    else { rd with unreadBytes := 0 }
  else rd

end Drop

/-- The counts stay right: a reader whose count was the data before it has lost what it had in the
chunk, no more and no less, and its count is again the data before it. -/
def CircBuf.Keeps (b : CircBuf) (x : ℕ) (c : Chunk) (b' : CircBuf) : Prop :=
  List.Forall₂ (fun rd rd' => b.Accurate rd →
    rd.unreadBytes = rd'.unreadBytes + (if b.Overtaken x rd then b.ownData c rd else 0) ∧
      b'.Accurate rd') b.readers b'.readers

/-! ## The loop over the readers -/

section Readers

variable {b : CircBuf} {x : ℕ} {c : Chunk}

lemma CircBuf.isBufferEmpty_iff {rd : Client} :
    b.isBufferEmpty rd = true ↔ b.wr.pos.chunkNode = rd.pos.chunkNode ∧
      b.wr.pos.framePosition = rd.pos.framePosition ∧ rd.unreadBytes = 0 := by
  simp [isBufferEmpty, and_assoc]

lemma CircBuf.sum_framesLeft (hc : b.chunk x = some c) (rd : Client) :
    ((b.framesLeft c rd).map fun p => (c.frame p).actualDataLen).sum =
      b.chunkData x rd.pos.framePosition none := by
  simp [chunkData, hc, framesLeft]

/-- Another buffer in which the chunk has lost its metadata. -/
lemma CircBuf.dropFromReader_eq (hs : b.Sound) (hm : b.AtMarked x c) {rd : Client}
    (hrd : rd ∈ b.readers) (ho : rd.pos.frameOffset < wordSize) :
    { b with chunk := Function.update b.chunk x (some (b.freeChunkMetadata c)) }.dropFromReader
      x (b.freeChunkMetadata c) rd = some (b.droppedReader x c rd) := by
  obtain ⟨n, hn, cn, hcn, hnode, hframe, hoff⟩ := hs.reader rd hrd
  set b' : CircBuf :=
    { b with chunk := Function.update b.chunk x (some (b.freeChunkMetadata c)) } with hb'
  unfold dropFromReader droppedReader Overtaken
  simp only [hnode, bind_eq_bind, bind_some, Option.some.injEq]
  by_cases hx : n = x
  · subst hx
    obtain rfl : cn = c := Option.some.inj (hcn.symm.trans hm.chunk)
    have hempty : b'.isBufferEmpty rd = b.isBufferEmpty rd := rfl
    rw [hempty]
    cases hcase : b.isBufferEmpty rd with
    | true => simp
    | false =>
      by_cases hmany : b.chunkList.length > 1
      · have hmany' : b'.numChunks > 1 := by
          rw [hs.count]
          exact hmany
        obtain ⟨y, t, hring⟩ : ∃ y t, nodesAfter b.chunkList n = y :: t := by
          have hlen := (isRotated_nodesAfter hs.nodup hn).perm.length_eq
          cases ht : nodesAfter b.chunkList n with
          | nil =>
            rw [ht] at hlen
            simp at hlen
            omega
          | cons y t => exact ⟨y, t, rfl⟩
        have hnext : b.nextChunkNode n = some y := by
          rw [nextChunkNode_eq hs.nodup hn, hring]
          rfl
        have hne : y ≠ n := by
          rintro rfl
          have hnd := (isRotated_nodesAfter hs.nodup hn).nodup_iff.mp hs.nodup
          rw [hring] at hnd
          simp at hnd
        obtain ⟨k, hk, hpos⟩ := (b.mem_framePositions cn).mp hframe
        have hchunk : b'.chunk n = some (b.freeChunkMetadata cn) := by
          simp [hb']
        have hrounds : b'.framesIn (b.freeChunkMetadata cn) <
            walkRounds (b.freeChunkMetadata cn) + k := by
          change max 1 (cn.size / b.chunkFrameSize cn.frameSize) < cn.size + 2 + k
          have hle := Nat.div_le_self cn.size (b.chunkFrameSize cn.frameSize)
          omega
        have hloop := dropLoop_eq hchunk hnext hne
          ((b.freeChunkMetadata cn).frame rd.pos.framePosition).actualDataLen hk
          hrounds ho 0
        have hposition : rd.pos = ⟨some n, k * b'.chunkFrameSize (b.freeChunkMetadata cn).frameSize,
              rd.pos.frameOffset⟩ := by
          have hmul : rd.pos.framePosition =
              k * b'.chunkFrameSize (b.freeChunkMetadata cn).frameSize := hpos.symm
          rw [← hmul, ← hnode]
        have hcountLeft : (b.framesLeft cn rd).length = b.framesIn cn - k := by
          rw [framesLeft, ← hpos, b.framePositions_from cn (Nat.le_of_lt hk)]
          simp
        rw [← hposition] at hloop
        have hsummed : (0 + (b'.framesIn (b.freeChunkMetadata cn) - k) *
              ((b.freeChunkMetadata cn).frame rd.pos.framePosition).actualDataLen + wordSize -
                rd.pos.frameOffset) % wordSize = b.summedData cn rd := by
          rw [summedData, hcountLeft, Nat.zero_add]
          rfl
        rw [hsummed] at hloop
        have hsub : (if b.summedData cn rd < rd.unreadBytes
            then rd.unreadBytes - b.summedData cn rd else 0) =
              rd.unreadBytes - b.summedData cn rd := by
          split <;> omega
        simp [hmany, hmany', hloop, hnext, hsub]
      · have hmany' : ¬ b'.numChunks > 1 := by
          rw [hs.count]
          exact hmany
        simp [hmany, hmany']
  · simp [hx]

lemma mapM_some {α β : Type} {f : α → Option β} {g : α → β} {l : List α}
    (h : ∀ a ∈ l, f a = some (g a)) : l.mapM f = some (l.map g) := by
  induction l with
  | nil => rfl
  | cons a l ih =>
    rw [mapM_cons, h a mem_cons_self, ih fun d hd => h d (mem_cons_of_mem a hd)]
    rfl

end Readers

/-! ## The counts after the call -/

section Counts

variable {b b' : CircBuf} {x : ℕ} {c : Chunk} {rd : Client}

lemma CircBuf.accurate_iff {A B : List ℕ} {y z p o : ℕ} (hl : b.chunkList.Nodup)
    (h : b.chunkList ~r (A ++ y :: B)) (hz : (A ++ y :: B).head? = some z)
    (hwr : b.wr.pos.chunkNode = some z) (hfirst : b.wr.pos.framePosition = 0)
    (hpos : rd.pos = ⟨some y, p, o⟩) :
    b.Accurate rd ↔ b.isBufferEmpty rd = true ∨
      rd.unreadBytes = b.chunkData y p none + (B.map (b.chunkData · 0 none)).sum - o := by
  have hwriter : b.wr.pos = ⟨some z, 0, b.wr.pos.frameOffset⟩ := by
    rw [← hwr, ← hfirst]
  have hdata : b.dataBetween rd.pos b.wr.pos =
      b.chunkData y p none + (B.map (b.chunkData · 0 none)).sum := by
    rw [hpos, hwriter]
    exact dataBetween_ring hl h hz p o _
  unfold Accurate unreadData
  rw [hdata]
  cases hcase : b.isBufferEmpty rd with
  | true => simpa using (isBufferEmpty_iff.mp hcase).2.2
  | false => simp [hpos]

lemma CircBuf.accurate_of_empty (h : b.isBufferEmpty rd = true) : b.Accurate rd := by
  unfold Accurate unreadData
  rw [if_pos h]
  exact (isBufferEmpty_iff.mp h).2.2

/-- The nodes other than the writer's hold the same data after the call. -/
structure CircBuf.SameElsewhere (b : CircBuf) (x : ℕ) (b' : CircBuf) : Prop where
  header : b'.frameHeaderSize = b.frameHeaderSize
  chunk : ∀ n ≠ x, b'.chunk n = b.chunk n

lemma CircBuf.SameElsewhere.data (h : b.SameElsewhere x b') {n : ℕ} (hn : n ≠ x) (p : ℕ) :
    b'.chunkData n p none = b.chunkData n p none := chunkData_congr (h.chunk n hn) h.header p none

lemma CircBuf.SameElsewhere.sum (h : b.SameElsewhere x b') {B : List ℕ} (hB : x ∉ B) :
    (B.map (b'.chunkData · 0 none)).sum = (B.map (b.chunkData · 0 none)).sum := by
  congr 1
  apply map_congr_left
  intro n hn
  exact h.data (fun hx => hB (hx ▸ hn)) 0

/-- The ring after the call, turned to the writer: the old one, or the old one without the node. -/
inductive CircBuf.RingAfter (b : CircBuf) (x : ℕ) (b' : CircBuf) : Prop
  /-- The node has a new chunk, or none. -/
  | kept (hlist : b'.chunkList = b.chunkList) (hwr : b'.wr.pos.chunkNode = some x)
  /-- The node is gone and the writer is at the next one. -/
  | gone (hlist : b'.chunkList = b.chunkList.erase x)
      (hwr : b'.wr.pos.chunkNode = (nodesAfter b.chunkList x).head?)

/-- A reader that is at another node after the call: what it has to count is what it has in its
chunk and in those that follow up to the old node. -/
lemma CircBuf.accurate_after (hs : b.Sound) (hx : x ∈ b.chunkList)
    (hsame : b.SameElsewhere x b') (hring : b.RingAfter x b')
    (hfirst : b'.wr.pos.framePosition = 0) {A B : List ℕ} {y p o : ℕ}
    (hnodes : nodesAfter b.chunkList x = A ++ y :: B) (hpos : rd.pos = ⟨some y, p, o⟩) :
    b'.Accurate rd ↔ b'.isBufferEmpty rd = true ∨
      rd.unreadBytes = b.chunkData y p none + (B.map (b.chunkData · 0 none)).sum - o := by
  have hturn := isRotated_nodesAfter hs.nodup hx
  have hnd := hturn.nodup_iff.mp hs.nodup
  rw [hnodes] at hturn hnd
  have hxy : y ≠ x := by
    rintro rfl
    simp at hnd
  have hxB : x ∉ B := by
    intro hmem
    simp [hmem] at hnd
  rw [← hsame.data hxy p, ← hsame.sum hxB]
  cases hring with
  | kept hlist hwr =>
    refine accurate_iff (A := x :: A) (hlist ▸ hs.nodup) ?_ rfl hwr hfirst hpos
    rw [hlist, cons_append]
    exact hturn
  | gone hlist hwr =>
    have hturn' : b'.chunkList ~r (A ++ y :: B) := by
      obtain ⟨pre, post, hl⟩ := append_of_mem hx
      have hpre : x ∉ pre := by
        intro hmem
        have hnd := hs.nodup
        rw [hl] at hnd
        exact (nodup_append.mp hnd).2.2 x hmem x mem_cons_self rfl
      rw [hl, nodesAfter_of_append hpre] at hnodes
      rw [hlist, hl, erase_append_right _ hpre, erase_cons_head, ← hnodes]
      exact isRotated_append
    obtain ⟨z, hz⟩ : ∃ z, (A ++ y :: B).head? = some z := by
      cases A with
      | nil => exact ⟨y, rfl⟩
      | cons d A => exact ⟨d, rfl⟩
    rw [hnodes, hz] at hwr
    exact accurate_iff (hlist ▸ hs.nodup.erase x) hturn' hz hwr hfirst hpos

end Counts

/-! ## The outcomes of the call -/

section Outcome

variable {b b' : CircBuf} {x : ℕ} {c : Chunk}

/-- What every outcome of the call has in common. -/
structure CircBuf.After (b : CircBuf) (x : ℕ) (c : Chunk) (g : Client → Client) (b' : CircBuf) :
    Prop where
  same : b.SameElsewhere x b'
  ring : b.RingAfter x b' ∨ nodesAfter b.chunkList x = []
  first : b'.wr.pos.framePosition = 0
  /-- The readers: first the data of the chunk are dropped. -/
  readers : b'.readers = (b.readers.map (b.droppedReader x c)).map g
  elsewhere : ∀ rd : Client, rd.pos.chunkNode ≠ some x → g rd = rd
  /-- Who is still at the node has nothing to read there. -/
  here : ∀ rd : Client, rd.pos.chunkNode = some x → rd.unreadBytes = 0 →
    b.isBufferEmpty rd = true ∨ nodesAfter b.chunkList x = [] →
    (g rd).unreadBytes = 0 ∧ b'.Accurate (g rd)

/-- The loop takes from the reader what is its own. -/
def CircBuf.TakesOwn (b : CircBuf) (c : Chunk) (rd : Client) : Prop :=
  min rd.unreadBytes (b.summedData c rd) = b.ownData c rd

section

variable {g : Client → Client} (hs : b.Sound) (hm : b.AtMarked x c) (h : b.After x c g b')
include hs hm h

/-- One reader keeps its count if and only if the loop takes its own data from it. -/
lemma CircBuf.After.reader_iff {rd : Client} (hrd : rd ∈ b.readers) (hacc : b.Accurate rd) :
    (rd.unreadBytes = (g (b.droppedReader x c rd)).unreadBytes +
        (if b.Overtaken x rd then b.ownData c rd else 0) ∧
      b'.Accurate (g (b.droppedReader x c rd))) ↔
    (b.Overtaken x rd → 1 < b.chunkList.length → b.TakesOwn c rd) := by
  obtain ⟨n, hn, cn, hcn, hnode, hframe, hoff⟩ := hs.reader rd hrd
  have hturn := isRotated_nodesAfter hs.nodup hm.mem
  have hlen := hturn.perm.length_eq
  rw [length_cons] at hlen
  have hposition : rd.pos = ⟨some n, rd.pos.framePosition, rd.pos.frameOffset⟩ := by rw [← hnode]
  by_cases hover : b.Overtaken x rd
  · -- the reader is in the chunk, its count is the rest of the chunk and all other chunks
    obtain rfl : n = x := Option.some.inj (hnode.symm.trans hover.1)
    obtain rfl : cn = c := Option.some.inj (hcn.symm.trans hm.chunk)
    have hcount : rd.unreadBytes = b.chunkData n rd.pos.framePosition none +
        ((nodesAfter b.chunkList n).map (b.chunkData · 0 none)).sum - rd.pos.frameOffset := by
      have hcases := (accurate_iff (A := []) hs.nodup hturn rfl hm.node hm.first
        hposition).mp hacc
      rw [hover.2] at hcases
      simpa using hcases
    have hown : b.ownData cn rd = b.chunkData n rd.pos.framePosition none - rd.pos.frameOffset := by
      rw [ownData, sum_framesLeft hm.chunk]
    have hread : rd.pos.frameOffset ≤ b.chunkData n rd.pos.framePosition none := by
      rw [← sum_framesLeft hm.chunk]
      refine hoff.trans (single_le_sum (by simp) _ (List.mem_map_of_mem ?_))
      rw [framesLeft, mem_filter]
      exact ⟨hframe, by simp⟩
    rw [if_pos hover]
    by_cases hmany : 1 < b.chunkList.length
    · obtain ⟨y, t, hnodes⟩ : ∃ y t, nodesAfter b.chunkList n = y :: t := by
        cases ht : nodesAfter b.chunkList n with
        | nil =>
          rw [ht] at hlen
          simp at hlen
          omega
        | cons y t => exact ⟨y, t, rfl⟩
      have hnext : b.nextChunkNode n = some y := by
        rw [nextChunkNode_eq hs.nodup hm.mem, hnodes]
        rfl
      have hne : y ≠ n := by
        rintro rfl
        have hnd := hturn.nodup_iff.mp hs.nodup
        rw [hnodes] at hnd
        simp at hnd
      have hring : b.RingAfter n b' := h.ring.resolve_right (by rw [hnodes]; simp)
      have hdropped : g (b.droppedReader n cn rd) =
          { rd with
            pos := ⟨some y, 0, 0⟩, unreadBytes := rd.unreadBytes - b.summedData cn rd } := by
        rw [droppedReader, if_pos hover, if_pos hmany, hnext]
        exact h.elsewhere _ (by simpa using hne)
      rw [hdropped, accurate_after hs hm.mem h.same hring h.first
        (A := []) hnodes rfl]
      rw [hnodes, map_cons, sum_cons] at hcount
      constructor
      · rintro ⟨hsum, -⟩ - -
        unfold TakesOwn
        dsimp only at hsum
        omega
      · intro htakes
        have htakes := htakes hover hmany
        unfold TakesOwn at htakes
        refine ⟨?_, Or.inr ?_⟩
        · dsimp only
          omega
        · dsimp only
          omega
    · have hnil : nodesAfter b.chunkList n = [] := by
        apply eq_nil_of_length_eq_zero
        omega
      have hdropped : b.droppedReader n cn rd = { rd with unreadBytes := 0 } := by
        rw [droppedReader, if_pos hover, if_neg hmany]
      rw [hdropped]
      obtain ⟨hzero, haccurate⟩ := h.here { rd with unreadBytes := 0 } hnode rfl (Or.inr hnil)
      rw [hzero, hown, hcount, hnil]
      simp [haccurate, hmany]
  · have hdropped : b.droppedReader x c rd = rd := by rw [droppedReader, if_neg hover]
    rw [hdropped, if_neg hover, Nat.add_zero]
    by_cases hx : n = x
    · -- at the node, and so with nothing to read
      subst hx
      have hempty : b.isBufferEmpty rd = true := by
        cases hcase : b.isBufferEmpty rd with
        | true => rfl
        | false => exact absurd ⟨hnode, hcase⟩ hover
      have hzero := (isBufferEmpty_iff.mp hempty).2.2
      obtain ⟨hzero', haccurate⟩ := h.here rd hnode hzero (Or.inl hempty)
      rw [hzero, hzero']
      simp [haccurate, hover]
    · have hmem : n ∈ nodesAfter b.chunkList x := by
        have := hturn.mem_iff.mp hn
        simpa [hx] using this
      obtain ⟨A, B, hnodes⟩ := append_of_mem hmem
      have hring : b.RingAfter x b' := h.ring.resolve_right (by rw [hnodes]; simp)
      have hstays : g rd = rd := h.elsewhere rd (by rw [hnode]; simpa using hx)
      rw [hstays]
      have hbefore := (accurate_iff hs.nodup
        (by rw [cons_append, ← hnodes]; exact hturn) rfl hm.node hm.first hposition).mp hacc
      have hnotempty : b.isBufferEmpty rd ≠ true := by
        intro hempty
        have := (isBufferEmpty_iff.mp hempty).1
        rw [hm.node, hnode] at this
        exact hx (Option.some.inj this).symm
      have hafter : b'.Accurate rd :=
        (accurate_after hs hm.mem h.same hring h.first hnodes hposition).mpr
          (Or.inr (hbefore.resolve_left hnotempty))
      simp [hafter, hover]

lemma CircBuf.After.keeps_iff :
    b.Keeps x c b' ↔ ∀ rd ∈ b.readers, b.Accurate rd → b.Overtaken x rd →
      1 < b.chunkList.length → b.TakesOwn c rd := by
  rw [Keeps, h.readers, List.map_map, List.forall₂_map_right_iff, List.forall₂_same]
  refine forall₂_congr fun rd hrd => forall_congr' fun hacc => ?_
  exact h.reader_iff hs hm hrd hacc

end

/-- The buffer after the loops over the metadata and over the readers. -/
def CircBuf.withDropped (b : CircBuf) (x : ℕ) (c : Chunk) : CircBuf :=
  { b with
    chunk := Function.update b.chunk x (some (b.freeChunkMetadata c))
    readers := b.readers.map (b.droppedReader x c) }

/-- The buffer with a new chunk in place of the one that is given back. -/
def CircBuf.renewed (b : CircBuf) (x : ℕ) (c new : Chunk) : CircBuf :=
  { b.giveBack x c with
    numChunks := add32 (b.giveBack x c).numChunks 1
    circBufSizeBytes := add32 (b.giveBack x c).circBufSizeBytes (new.numFrames * new.frameSize)
    chunk := Function.update (b.giveBack x c).chunk x (some new)
    wr := { b.wr with pos := ⟨some x, 0, 0⟩ }
    readers := b.readers.map (syncReader x ⟨some x, 0, 0⟩) }

lemma bind_bind_of_eq_some {α β γ : Type} {o : Option α} {a : α} {d : β} (g : α → Option β)
    (f : α → β → Option γ) (ho : o = some a) (hg : g a = some d) :
    (o.bind fun a => (g a).bind (f a)) = f a d := by
  rw [ho, bind_some, hg, bind_some]

lemma CircBuf.recreateChunk_of_sizes {mf : MfInfo} {info : ChunkInfo}
    (hmf : b.wr.operatingMf = some mf)
    (hinfo : (b.giveBack x c).computeChunkInfo mf b.circBufSizeInUs = some info) (alloc : Bool) :
    b.recreateChunk alloc x c =
      if !alloc then some (fail, true, b.giveBack x c)
      else some (success, true, b.renewed x c ((b.giveBack x c).allocateChunk
        info.frameDataSizeInBytes info.actualChunkSize mf)) :=
  bind_bind_of_eq_some (fun mf => (b.giveBack x c).computeChunkInfo mf b.circBufSizeInUs)
    (fun mf info => if !alloc then some (fail, true, b.giveBack x c)
      else some (success, true, b.renewed x c ((b.giveBack x c).allocateChunk
        info.frameDataSizeInBytes info.actualChunkSize mf))) hmf hinfo

lemma CircBuf.computeChunkInfo_congr (hheader : b'.frameHeaderSize = b.frameHeaderSize)
    (hpreferred : b'.preferredChunkSize = b.preferredChunkSize)
    (hframe : b'.wr.containerFrameSizeInUs = b.wr.containerFrameSizeInUs) (mf : MfInfo) (us : ℕ) :
    b'.computeChunkInfo mf us = b.computeChunkInfo mf us := by
  unfold computeChunkInfo chunkFrameSize
  rw [hheader, hpreferred, hframe]

lemma CircBuf.computeChunkInfo_freed (mf : MfInfo) (us : ℕ) :
    ((b.withDropped x c).giveBack x (b.freeChunkMetadata c)).computeChunkInfo mf us =
      b.computeChunkInfo mf us := computeChunkInfo_congr rfl rfl rfl mf us

lemma CircBuf.checkAndRecreate_eq (hs : b.Sound) (hm : b.AtMarked x c) (alloc : Bool) :
    b.checkAndRecreate alloc true =
      if c.recreate then (b.withDropped x c).recreateChunk alloc x (b.freeChunkMetadata c)
      else (b.withDropped x c).destroyChunk x (b.freeChunkMetadata c) := by
  have hreaders : b.readers.mapM ({ b with
      chunk := Function.update b.chunk x (some (b.freeChunkMetadata c)) }.dropFromReader x
        (b.freeChunkMetadata c)) = some (b.readers.map (b.droppedReader x c)) := by
    apply mapM_some
    intro rd hrd
    apply dropFromReader_eq hs hm hrd
    obtain ⟨n, -, cn, hcn, -, -, hoff⟩ := hs.reader rd hrd
    have hle := hs.words.2 n cn hcn rd.pos.framePosition
    unfold wordSize
    omega
  have hflags : (!c.destroy && !c.recreate) = false := by
    rcases hm.marked with h | h <;> simp [h]
  simp only [checkAndRecreate, hm.node, hm.chunk, hflags, bind_eq_bind, bind_some,
    if_true, Bool.false_eq_true, if_false, hreaders]
  rfl

lemma CircBuf.sameElsewhere_of_update {d : Option Chunk} {b' : CircBuf}
    (hhdr : b'.frameHeaderSize = b.frameHeaderSize)
    (hchunk : b'.chunk = Function.update (b.withDropped x c).chunk x d) :
    b.SameElsewhere x b' := by
  refine ⟨hhdr, fun n hn => ?_⟩
  have hdropped : (b.withDropped x c).chunk n = b.chunk n := Function.update_of_ne hn _ _
  rw [hchunk, Function.update_of_ne hn, hdropped]

section

variable {rd : Client} (hrd : rd.pos.chunkNode = some x) (hzero : rd.unreadBytes = 0)
include hrd hzero

lemma CircBuf.syncReader_here :
    (syncReader x b'.wr.pos rd).unreadBytes = 0 ∧ b'.Accurate (syncReader x b'.wr.pos rd) := by
  rw [syncReader, if_pos hrd]
  exact ⟨hzero, accurate_of_empty (isBufferEmpty_iff.mpr ⟨rfl, rfl, hzero⟩)⟩

lemma CircBuf.accurate_of_gone (hwr : b.wr.pos.chunkNode = some x) (hgone : b.chunk x = none)
    (hnil : nodesAfter b.chunkList x = []) : b.Accurate rd := by
  have hdata : ∀ p q, b.chunkData x p q = 0 := by
    intro p q
    simp [chunkData, hgone]
  have hbetween : b.dataBetween rd.pos b.wr.pos = 0 := by
    simp [dataBetween, hrd, hwr, hdata, hnil]
  unfold Accurate unreadData
  rw [hbetween, hzero]
  split <;> simp

end

lemma CircBuf.after_failed (hm : b.AtMarked x c) :
    b.After x c id ((b.withDropped x c).giveBack x (b.freeChunkMetadata c)) where
  same := sameElsewhere_of_update rfl rfl
  ring := Or.inl (.kept rfl hm.node)
  first := hm.first
  readers := (List.map_id _).symm
  elsewhere _ _ := rfl
  here rd hrd hzero hcase := by
    refine ⟨hzero, ?_⟩
    rcases hcase with hempty | hnil
    · exact accurate_of_empty hempty
    · exact accurate_of_gone hrd hzero hm.node (by simp [giveBack]) hnil

lemma CircBuf.after_recreated {r : Result} {did : Bool} (hm : b.AtMarked x c)
    (h : (b.withDropped x c).recreateChunk true x (b.freeChunkMetadata c) = some (r, did, b')) :
    b.After x c (syncReader x b'.wr.pos) b' := by
  obtain ⟨mf, info, hmf, hinfo⟩ := hm.sizes
  have hmf' : (b.withDropped x c).wr.operatingMf = some mf := hmf
  have hinfo' : ((b.withDropped x c).giveBack x (b.freeChunkMetadata c)).computeChunkInfo mf
      (b.withDropped x c).circBufSizeInUs = some info := (computeChunkInfo_freed mf _).trans hinfo
  rw [recreateChunk_of_sizes hmf' hinfo', Bool.not_true, if_neg Bool.false_ne_true,
    Option.some.injEq, Prod.mk.injEq, Prod.mk.injEq] at h
  obtain ⟨-, -, rfl⟩ := h
  refine ⟨?_, Or.inl (.kept rfl rfl), rfl, rfl, ?_, ?_⟩
  · exact sameElsewhere_of_update rfl (Function.update_idem _ _ _)
  · intro rd hrd
    exact if_neg hrd
  · intro rd hrd hzero _
    exact syncReader_here hrd hzero

/-- The node is gone. -/
lemma CircBuf.after_destroyed {r : Result} {did : Bool} (hs : b.Sound) (hm : b.AtMarked x c)
    (h : (b.withDropped x c).destroyChunk x (b.freeChunkMetadata c) = some (r, did, b')) :
    b.After x c (syncReader x b'.wr.pos) b' := by
  obtain ⟨-, -, rfl⟩ := h
  have hturn := isRotated_nodesAfter hs.nodup hm.mem
  have hlen := hturn.perm.length_eq
  have hnext : (b.withDropped x c).nextChunkNode x =
      some ((nodesAfter b.chunkList x).headD x) := nextChunkNode_eq hs.nodup hm.mem
  refine ⟨sameElsewhere_of_update rfl rfl, ?_, ?_, rfl, ?_, ?_⟩
  · cases ht : nodesAfter b.chunkList x with
    | nil => exact Or.inr rfl
    | cons y t =>
      refine Or.inl (.gone rfl ?_)
      have hne : ((b.withDropped x c).chunkList.erase x).isEmpty = false := by
        have herase : ((b.withDropped x c).chunkList.erase x).length =
            b.chunkList.length - 1 := length_erase_of_mem hm.mem
        rw [ht] at hlen
        cases hcase : (b.withDropped x c).chunkList.erase x with
        | nil =>
          rw [hcase] at herase
          simp at herase hlen
          omega
        | cons d l => rfl
      simp only [hne, Bool.false_eq_true, if_false, hnext, ht]
      rfl
  · split <;> rfl
  · intro rd hrd
    exact if_neg hrd
  · intro rd hrd hzero _
    exact syncReader_here hrd hzero

lemma exists_result_iff {r : Result} {did : Bool} {P : CircBuf → Prop} :
    (∃ r' did' b'', some (r, did, b') = some (r', did', b'') ∧ P b'') ↔ P b' := by
  constructor
  · rintro ⟨r', did', b'', heq, h⟩
    obtain ⟨-, -, rfl⟩ := by simpa using heq
    exact h
  · intro h
    exact ⟨r, did, b', rfl, h⟩

lemma CircBuf.recreateChunk_eq (hm : b.AtMarked x c) (alloc : Bool) :
    ∃ r did b', (b.withDropped x c).recreateChunk alloc x (b.freeChunkMetadata c) =
        some (r, did, b') ∧
      (alloc = false → b' = (b.withDropped x c).giveBack x (b.freeChunkMetadata c)) := by
  obtain ⟨mf, info, hmf, hinfo⟩ := hm.sizes
  have hmf' : (b.withDropped x c).wr.operatingMf = some mf := hmf
  have hinfo' : ((b.withDropped x c).giveBack x (b.freeChunkMetadata c)).computeChunkInfo mf
      (b.withDropped x c).circBufSizeInUs = some info := (computeChunkInfo_freed mf _).trans hinfo
  rw [recreateChunk_of_sizes hmf' hinfo']
  cases alloc with
  | false => exact ⟨_, _, _, rfl, fun _ => rfl⟩
  | true => exact ⟨_, _, _, rfl, fun h => absurd h Bool.noConfusion⟩

/-- **Recreation and destruction of chunks.**  When overflow is allowed, the counts of the readers
stay right if and only if, in a buffer of more than one chunk, the loop takes from each reader in
the chunk what it has there: the length of the reader's frame (zero if the frame has metadata) once
for each frame up to the end of the chunk has to be what those frames hold, or both have to use up
the whole count. -/
theorem CircBuf.checkAndRecreate_keeps_iff (hs : b.Sound) (hm : b.AtMarked x c) (alloc : Bool) :
    (∃ r did b', b.checkAndRecreate alloc true = some (r, did, b') ∧ b.Keeps x c b') ↔
      ∀ rd ∈ b.readers, b.Accurate rd → b.Overtaken x rd → 1 < b.chunkList.length →
        b.TakesOwn c rd := by
  rw [checkAndRecreate_eq hs hm]
  by_cases hrec : c.recreate = true
  · rw [if_pos hrec]
    obtain ⟨r, did, b', hresult, hfailed⟩ := recreateChunk_eq hm alloc
    rw [hresult, exists_result_iff]
    cases alloc with
    | false =>
      rw [hfailed rfl]
      exact (after_failed hm).keeps_iff hs hm
    | true => exact (after_recreated hm hresult).keeps_iff hs hm
  · rw [if_neg hrec]
    obtain ⟨r, did, b', hresult⟩ : ∃ r did b', (b.withDropped x c).destroyChunk x
        (b.freeChunkMetadata c) = some (r, did, b') := ⟨_, _, _, rfl⟩
    rw [hresult, exists_result_iff]
    exact (after_destroyed hs hm hresult).keeps_iff hs hm

end Outcome

/-! ## A chunk with frames of different lengths -/

/-- A chunk of two frames of four bytes that hold `m` and `n` bytes. -/
def pairChunk (destroy : Bool) (m n : ℕ) : Chunk where
  size := 112
  numFrames := 2
  frameSize := 4
  recreate := false
  destroy := destroy
  mf := ⟨16, 8000, 1⟩
  numChannels := 1
  frame p := ⟨false, if p = 0 then m else n, fun _ => []⟩

/-- Two chunks.  The writer is at the first, which is to be destroyed; the reader is there too, with
all of the fourteen bytes to read, of which two are in the second frame. -/
def unevenBuf : CircBuf where
  frameHeaderSize := 44
  circBufSizeInUs := 1000
  circBufSizeBytes := 16
  preferredChunkSize := 112
  numChunks := 2
  chunkList := [0, 1]
  chunk n := if n = 0 then some (pairChunk true 4 2)
    else if n = 1 then some (pairChunk false 4 4) else none
  wr := ⟨0, 0, ⟨some 0, 0, 0⟩, 0, some ⟨16, 8000, 1⟩, 250⟩
  writeByteCounter := 14
  readers := [⟨0, 0, ⟨some 0, 0, 0⟩, 14, none, 0⟩]

lemma unevenBuf_sound : unevenBuf.Sound where
  nodup := by decide
  count := rfl
  alive := by
    intro n hn
    rcases mem_cons.mp hn with rfl | hn
    · exact ⟨_, rfl⟩
    · obtain rfl := mem_singleton.mp hn
      exact ⟨_, rfl⟩
  reader := by
    intro rd hrd
    obtain rfl := mem_singleton.mp hrd
    exact ⟨0, by decide, pairChunk true 4 2, rfl, rfl, by decide, Nat.zero_le _⟩
  words := by
    refine ⟨?_, ?_⟩
    · intro rd hrd
      obtain rfl := mem_singleton.mp hrd
      decide
    · intro n c hc p
      by_cases hzero : n = 0
      · obtain rfl : pairChunk true 4 2 = c := by simpa [unevenBuf, hzero] using hc
        dsimp only [pairChunk]
        split <;> decide
      · by_cases hone : n = 1
        · obtain rfl : pairChunk false 4 4 = c := by simpa [unevenBuf, hone] using hc
          dsimp only [pairChunk]
          split <;> decide
        · simp [unevenBuf, hzero, hone] at hc

lemma unevenBuf_atMarked : unevenBuf.AtMarked 0 (pairChunk true 4 2) where
  node := rfl
  first := rfl
  mem := by decide
  chunk := rfl
  marked := Or.inr rfl
  sizes := ⟨⟨16, 8000, 1⟩, ⟨4, 4, 2, 112, 112⟩, rfl, by decide +kernel⟩

theorem checkAndRecreate_keeps_iff_unevenBuf :
    (∃ r did b', unevenBuf.checkAndRecreate true true = some (r, did, b') ∧
      unevenBuf.Keeps 0 (pairChunk true 4 2) b') ↔
      ∀ rd ∈ unevenBuf.readers, unevenBuf.Accurate rd → unevenBuf.Overtaken 0 rd →
        1 < unevenBuf.chunkList.length → unevenBuf.TakesOwn (pairChunk true 4 2) rd :=
  CircBuf.checkAndRecreate_keeps_iff unevenBuf_sound unevenBuf_atMarked true

/-- **A count that goes wrong.**  Of fourteen unread bytes six are dropped, and the code takes
eight. -/
theorem not_checkAndRecreate_keeps :
    ¬ ∀ (b : CircBuf) (x : ℕ) (c : Chunk) (alloc : Bool), b.Sound → b.AtMarked x c →
      ∃ r did b', b.checkAndRecreate alloc true = some (r, did, b') ∧ b.Keeps x c b' := by
  intro h
  obtain ⟨r, did, b', hresult, hkeeps⟩ :=
    h unevenBuf 0 (pairChunk true 4 2) true unevenBuf_sound unevenBuf_atMarked
  have hreaders : (unevenBuf.checkAndRecreate true true).map (fun out => out.2.2.readers) =
      some [⟨0, 0, ⟨some 1, 0, 0⟩, 6, none, 0⟩] := by decide
  rw [hresult] at hreaders
  have hreaders : b'.readers = [⟨0, 0, ⟨some 1, 0, 0⟩, 6, none, 0⟩] := Option.some.inj hreaders
  rw [CircBuf.Keeps, hreaders] at hkeeps
  cases hkeeps with
  | cons hcount _ =>
    have hsum := (hcount (by decide)).1
    revert hsum
    decide

end AudioReach.SpfCircBuf
