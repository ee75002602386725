import AudioReach.SpfCircBuf.Lap
import AudioReach.SpfCircBuf.WriteData

/-!
# What the writer has before it

The lane of a buffer is its ring as the writer sees it: the frames that will be written next, one
after the other, and between them the marked chunks, which are first to be recreated or destroyed.
Readers stand in the lane.  One that has data to read holds its frame if overflow is not allowed,
and in a marked chunk any reader does that is not at the frame of the writer with nothing to read.

`pass` goes over the marked chunks to the next frame, and `Takes` says that the frames of a lane
take a number of bytes before one is held or cannot be filled.  That the code does the same on the
buffer itself is `recreateLoop_of_pass` and `recreateLoop_of_blocked`.
-/

namespace AudioReach.SpfCircBuf

open Function (update update_of_ne update_self)
open List Option

/-! ## Lanes -/

/-- What comes next for the writer. -/
inductive Stop
  /-- A frame of a node, with its byte position, its data bytes and the channels of its chunk. -/
  | frame (node position size channels : ℕ)
  /-- A marked chunk, with the data bytes of its frames and its channels. -/
  | marked (node size channels : ℕ) (recreate : Bool)
  deriving DecidableEq, Repr

namespace Stop

/-- The node of the chunk. -/
def node : Stop → ℕ
  | frame node _ _ _ => node
  | marked node _ _ _ => node

/-- The data bytes of a frame of the chunk. -/
def size : Stop → ℕ
  | frame _ _ size _ => size
  | marked _ size _ _ => size

/-- The channels of the chunk. -/
def channels : Stop → ℕ
  | frame _ _ _ channels => channels
  | marked _ _ channels _ => channels

/-- Is this a frame? -/
def IsFrame : Stop → Prop
  | frame .. => True
  | marked .. => False

end Stop

/-- Where a reader stands, and whether it has nothing to read. -/
structure Place where
  node : Option ℕ
  position : ℕ
  idle : Bool
  deriving DecidableEq, Repr

/-- The reader does not let the writer pass. -/
def Stop.heldBy : Stop → Place → Bool
  | .frame node position _ _, r => r.node = some node && r.position = position && !r.idle
  | .marked node _ _ _, r => r.node = some node && !(r.position = 0 && r.idle)

/-- A reader in the chunk of a node goes to the first frame of another. -/
def Place.follow (node dest : ℕ) (r : Place) : Place :=
  if r.node = some node then { r with node := some dest, position := 0 } else r

/-- There is something to read. -/
def Place.used (r : Place) : Place := { r with idle := false }

section Takes

variable (fresh : ℕ → List Stop) (memory : ℕ → Bool)

/-- The marked chunks at the head of a lane are recreated and destroyed.  There is no way on if one
of them is held, if there is no memory for a new one, or if nothing is left. -/
def pass : List Stop → List Place → Option (List Stop × List Place)
  | [], _ => none
  | .frame node position size channels :: rest, places =>
    some (.frame node position size channels :: rest, places)
  | .marked node size channels recreate :: rest, places =>
    if places.any (Stop.marked node size channels recreate).heldBy then none
    else if recreate then
      if memory node then some (fresh node ++ rest, places.map (Place.follow node node)) else none
    else
      match rest with
      | [] => none
      | next :: _ => pass rest (places.map (Place.follow node next.node))

section Pass

variable {fresh memory} {node size channels : ℕ} {rest : List Stop} {places : List Place}

lemma pass_held {recreate : Bool}
    (h : places.any (Stop.marked node size channels recreate).heldBy = true) :
    pass fresh memory (.marked node size channels recreate :: rest) places = none := by
  cases rest <;> rw [pass, if_pos h]

lemma pass_recreate (h : places.any (Stop.marked node size channels true).heldBy = false) :
    pass fresh memory (.marked node size channels true :: rest) places =
      if memory node then some (fresh node ++ rest, places.map (Place.follow node node))
      else none := by
  cases rest <;> simp [pass, h]

section

variable (h : places.any (Stop.marked node size channels false).heldBy = false)
include h

lemma pass_destroy (next : Stop) :
    pass fresh memory (.marked node size channels false :: next :: rest) places =
      pass fresh memory (next :: rest) (places.map (Place.follow node next.node)) := by
  simp [pass, h]

lemma pass_destroy_last : pass fresh memory [.marked node size channels false] places = none := by
  simp [pass, h]

end

end Pass

/-- The lane takes a number of bytes: each frame that is come to is not held and has a source
buffer for each channel, and takes what is left, but no more than its own size and that of the
frames of the chunk in which the writer was before. -/
inductive Takes : List Stop → List Place → (ℕ → Bool) → ℕ → Prop
  /-- There is nothing left. -/
  | done {stops places buffers} : Takes stops places buffers 0
  /-- One frame, which is then the last one of the lane. -/
  | frame {entry stops places buffers left f rest places'} (hleft : 0 < left)
      (hpass : pass fresh memory (entry :: stops) places = some (f :: rest, places'))
      (hfree : places'.any f.heldBy = false)
      (hbuffers : ∀ i < f.channels, i < entry.channels ∨ buffers i = true)
      (hrest : Takes (rest ++ [f]) (places'.map Place.used)
        (fun i => i < entry.channels || buffers i) (left - min (min left entry.size) f.size)) :
      Takes (entry :: stops) places buffers left

end Takes

/-! ## The lane of a buffer -/

/-- The chunk is to be recreated or destroyed. -/
def Chunk.marked (c : Chunk) : Bool := c.recreate || c.destroy

/-- The frames of a chunk. -/
def CircBuf.frameStops (b : CircBuf) (node : ℕ) (c : Chunk) : List Stop :=
  (b.framePositions c).map fun p => .frame node p c.frameSize c.numChannels

/-- What the writer comes to at a node. -/
def CircBuf.stopsOf (b : CircBuf) (node : ℕ) : List Stop :=
  match b.chunk node with
  | none => []
  | some c =>
    if c.marked then [.marked node c.frameSize c.numChannels c.recreate] else b.frameStops node c

/-- What the writer has before it. -/
def CircBuf.stops (b : CircBuf) : List Stop :=
  match b.wr.pos.chunkNode with
  | none => []
  | some x =>
    match b.chunk x with
    | none => []
    | some c => b.around b.stopsOf x (b.wr.pos.framePosition / b.chunkFrameSize c.frameSize)

/-- Where a reader stands. -/
def Client.place (rd : Client) : Place :=
  ⟨rd.pos.chunkNode, rd.pos.framePosition, rd.unreadBytes = 0⟩

@[simp] lemma Client.place_node (rd : Client) : rd.place.node = rd.pos.chunkNode := rfl

@[simp] lemma Client.place_position (rd : Client) : rd.place.position = rd.pos.framePosition := rfl

@[simp] lemma Client.place_idle (rd : Client) : rd.place.idle = decide (rd.unreadBytes = 0) := rfl

/-- The readers that can hold a frame: none if overflow is allowed. -/
def CircBuf.places (b : CircBuf) (allowOverflow : Bool) : List Place :=
  if allowOverflow then [] else b.readers.map Client.place

/-- The chunk that is made of a chunk to be recreated. -/
def CircBuf.freshChunk (b : CircBuf) : Option Chunk := do
  let mf ← b.wr.operatingMf
  let info ← b.computeChunkInfo mf b.circBufSizeInUs
  return b.allocateChunk info.frameDataSizeInBytes info.actualChunkSize mf

/-- The frames of that chunk. -/
def CircBuf.freshStops (b : CircBuf) (node : ℕ) : List Stop :=
  match b.freshChunk with
  | none => []
  | some c => b.frameStops node c

/-! ## Buffers that can be written -/

/-- The bytes of the frames of a chunk. -/
def Chunk.bytes (c : Chunk) : ℕ := c.numFrames * c.frameSize

/-- A chunk has a frame of at least one byte and a channel. -/
structure Chunk.Usable (c : Chunk) : Prop where
  frameSize : 0 < c.frameSize
  small : c.frameSize ≤ 65535
  numFrames : 0 < c.numFrames
  numChannels : 0 < c.numChannels

/-- The bytes of the chunk of a node. -/
def CircBuf.bytesOf (b : CircBuf) (node : ℕ) : ℕ := (b.chunk node).elim 0 Chunk.bytes

/-- The bytes of the chunk of a node, or those of the chunk that is made of it if they are more. -/
def CircBuf.mostBytes (b : CircBuf) (node : ℕ) : ℕ :=
  max (b.bytesOf node) (b.freshChunk.elim 0 Chunk.bytes)

/-- What holds of a buffer between two calls, as far as a write depends on it. -/
structure CircBuf.Ready (b : CircBuf) (allowOverflow : Bool) : Prop where
  /-- The ring and the positions of the readers are in order. -/
  sound : b.Sound
  /-- The writer is at the start of a frame, and of the first one in a marked chunk. -/
  writer : ∃ x ∈ b.chunkList, ∃ c, b.chunk x = some c ∧ ∃ k < b.framesIn c,
    b.wr.pos = ⟨some x, k * b.chunkFrameSize c.frameSize, 0⟩ ∧ (c.marked = true → k = 0)
  /-- The chunks can be filled, and when one is marked, so can the new ones. -/
  chunks : ∀ n ∈ b.chunkList, ∀ c, b.chunk n = some c → c.Usable ∧
    (c.marked = true → ∃ new, b.freshChunk = some new ∧ new.Usable)
  /-- `circ_buf_size_bytes` is the sum over the chunks. -/
  size : b.circBufSizeBytes = (b.chunkList.map b.bytesOf).sum
  room : (b.chunkList.map b.mostBytes).sum + 65536 ≤ wordSize
  /-- A reader that is in the middle of a frame has something to read. -/
  midway : ∀ rd ∈ b.readers, 0 < rd.pos.frameOffset → rd.unreadBytes ≠ 0
  counts : ∀ rd ∈ b.readers, allowOverflow = false ∨ 0 < rd.pos.frameOffset →
    rd.unreadBytes + 65536 ≤ wordSize

/-! ## The writer at a marked chunk -/

section Marked

variable {b b' : CircBuf} {allow : Bool} {x z : ℕ} {c new : Chunk}

lemma CircBuf.freshChunk_eq (h : b.freshChunk = some new) : ∃ mf info,
    b.wr.operatingMf = some mf ∧ b.computeChunkInfo mf b.circBufSizeInUs = some info ∧
      new = b.allocateChunk info.frameDataSizeInBytes info.actualChunkSize mf := by
  simp only [freshChunk, bind_eq_bind, bind_eq_some_iff, Option.pure_def, Option.some.injEq] at h
  obtain ⟨mf, hmf, info, hinfo, rfl⟩ := h
  exact ⟨mf, info, hmf, hinfo, rfl⟩

lemma CircBuf.Ready.atMarked (h : b.Ready allow) (hwr : b.wr.pos = ⟨some x, 0, 0⟩)
    (hx : x ∈ b.chunkList) (hc : b.chunk x = some c) (hmark : c.marked = true) :
    b.AtMarked x c := by
  obtain ⟨new, hnew, -⟩ := (h.chunks x hx c hc).2 hmark
  obtain ⟨mf, info, hmf, hinfo, -⟩ := freshChunk_eq hnew
  refine ⟨by rw [hwr], by rw [hwr], hx, hc, ?_, mf, info, hmf, hinfo⟩
  simpa [Chunk.marked] using hmark

lemma CircBuf.heldBy_marked (hwr : b.wr.pos = ⟨some x, 0, 0⟩) (size channels : ℕ)
    (recreate : Bool) (rd : Client) :
    (Stop.marked x size channels recreate).heldBy rd.place = true ↔ b.Overtaken x rd := by
  have hempty : b.isBufferEmpty rd = true ↔
      some x = rd.pos.chunkNode ∧ 0 = rd.pos.framePosition ∧ rd.unreadBytes = 0 := by
    rw [isBufferEmpty_iff, hwr]
  rw [Overtaken, ← Bool.not_eq_true, hempty, Stop.heldBy, Bool.and_eq_true, Bool.not_eq_true',
    ← Bool.not_eq_true, Bool.and_eq_true, decide_eq_true_iff, decide_eq_true_iff]
  simp only [Client.place_node, Client.place_position, Client.place_idle, decide_eq_true_eq]
  constructor
  · rintro ⟨hnode, hne⟩
    exact ⟨hnode, fun h => hne ⟨h.2.1.symm, h.2.2⟩⟩
  · rintro ⟨hnode, hne⟩
    exact ⟨hnode, fun h => hne ⟨hnode.symm, h.1.symm, h.2⟩⟩

lemma CircBuf.readerInChunk_eq {rds : List Client}
    (h : ∀ rd ∈ rds, ∃ n, rd.pos.chunkNode = some n) :
    b.readerInChunk x rds = some (rds.any fun rd => decide (b.Overtaken x rd)) := by
  induction rds with
  | nil => rfl
  | cons rd rds ih =>
    obtain ⟨n, hn⟩ := h rd mem_cons_self
    have hrest := ih fun r hr => h r (mem_cons_of_mem rd hr)
    rw [readerInChunk, hrest]
    unfold Overtaken
    by_cases hover : n = x ∧ b.isBufferEmpty rd = false
    · simp [hn, hover]
    · by_cases hnode : n = x
      · have hempty : b.isBufferEmpty rd = true := by
          cases hcase : b.isBufferEmpty rd with
          | true => rfl
          | false => exact absurd ⟨hnode, hcase⟩ hover
        simp [hn, hnode, hempty]
      · simp [hn, hnode]

lemma CircBuf.checkAndRecreate_free (hs : b.Sound) (hm : b.AtMarked x c) (alloc : Bool)
    (hfree : allow = false → ∀ rd ∈ b.readers, ¬ b.Overtaken x rd) :
    b.checkAndRecreate alloc allow =
      if c.recreate then (b.withDropped x c).recreateChunk alloc x (b.freeChunkMetadata c)
      else (b.withDropped x c).destroyChunk x (b.freeChunkMetadata c) := by
  rw [← checkAndRecreate_eq hs hm alloc]
  cases allow with
  | true => rfl
  | false =>
    have hnone : b.readerInChunk x b.readers = some false := by
      rw [readerInChunk_eq, Option.some.injEq, List.any_eq_false]
      · intro rd hrd
        simpa using hfree rfl rd hrd
      · intro rd hrd
        obtain ⟨n, -, -, -, hn, -⟩ := hs.reader rd hrd
        exact ⟨n, hn⟩
    simp [checkAndRecreate, hm.node, hnone]

lemma CircBuf.checkAndRecreate_held (hs : b.Sound) (hm : b.AtMarked x c) (alloc : Bool)
    (hheld : ∃ rd ∈ b.readers, b.Overtaken x rd) :
    b.checkAndRecreate alloc false = some (overrun, false, b) := by
  have hsome : b.readerInChunk x b.readers = some true := by
    rw [readerInChunk_eq, Option.some.injEq, List.any_eq_true]
    · simpa using hheld
    · intro rd hrd
      obtain ⟨n, -, -, -, hn, -⟩ := hs.reader rd hrd
      exact ⟨n, hn⟩
  have hflags : (!c.destroy && !c.recreate) = false := by
    rcases hm.marked with h | h <;> simp [h]
  simp only [checkAndRecreate, hm.node, hm.chunk, hflags, bind_eq_bind, bind_some,
    Bool.false_eq_true, if_false, hsome, if_true, Option.pure_def]

end Marked

/-! ## After a marked chunk -/

/-- What recreation and destruction have in common: the writer is at the first frame of a node, and
with it the readers of the old chunk. -/
structure CircBuf.Replaced (b : CircBuf) (x : ℕ) (c : Chunk) (z : ℕ) (b' : CircBuf) : Prop where
  header : b'.frameHeaderSize = b.frameHeaderSize
  /-- Nor does the size that the clients have asked for. -/
  us : b'.circBufSizeInUs = b.circBufSizeInUs
  preferred : b'.preferredChunkSize = b.preferredChunkSize
  chunk : ∀ n ≠ x, b'.chunk n = b.chunk n
  /-- The chunk of the node is a new one, if there is one. -/
  new : ∀ d, b'.chunk x = some d → b.freshChunk = some d
  kept : ∀ n ∈ b.chunkList, n ≠ x → n ∈ b'.chunkList
  /-- No node is added, and a node that is left has its chunk. -/
  alive : ∀ n ∈ b'.chunkList, n ∈ b.chunkList ∧ ∃ d, b'.chunk n = some d
  mem : z ∈ b'.chunkList
  wr : b'.wr = { b.wr with pos := ⟨some z, 0, 0⟩ }
  readers : b'.readers = (b.readers.map (b.droppedReader x c)).map (syncReader x ⟨some z, 0, 0⟩)

section Replaced

variable {b b' : CircBuf} {allow : Bool} {x z : ℕ} {c new : Chunk}

lemma CircBuf.Replaced.freshChunk (h : b.Replaced x c z b') : b'.freshChunk = b.freshChunk := by
  have hmf : b'.wr.operatingMf = b.wr.operatingMf := by rw [h.wr]
  have hframe : b'.wr.containerFrameSizeInUs = b.wr.containerFrameSizeInUs := by rw [h.wr]
  unfold CircBuf.freshChunk computeChunkInfo allocateChunk chunkFrameSize
  rw [hmf, hframe, h.us, h.preferred, h.header]

/-- A reader stays where it is, in another chunk, or goes to the first frame of a chunk. -/
lemma CircBuf.Replaced.reader_cases (h : b.Replaced x c z b') (hs : b.Sound)
    (hx : x ∈ b.chunkList) {rd' : Client} (hrd : rd' ∈ b'.readers) :
    ∃ rd ∈ b.readers, (rd' = rd ∧ rd.pos.chunkNode ≠ some x) ∨
      (rd'.unreadBytes ≤ rd.unreadBytes ∧ ∃ y ∈ b'.chunkList, rd'.pos = ⟨some y, 0, 0⟩) := by
  rw [h.readers, List.map_map, List.mem_map] at hrd
  obtain ⟨rd, hrd, rfl⟩ := hrd
  refine ⟨rd, hrd, ?_⟩
  rw [Function.comp_apply]
  by_cases hnode : rd.pos.chunkNode = some x
  · right
    unfold droppedReader
    by_cases hover : b.Overtaken x rd
    · by_cases hmany : b.chunkList.length > 1
      · obtain ⟨hmem, -⟩ := around_next (f := fun n => [n]) hs.nodup hx
          (nextChunkNode_eq hs.nodup hx)
        have hne : (nodesAfter b.chunkList x).headD x ≠ x := by
          have hturn := isRotated_nodesAfter hs.nodup hx
          have hlen := hturn.perm.length_eq
          have hnd := hturn.nodup_iff.mp hs.nodup
          cases hafter : nodesAfter b.chunkList x with
          | nil =>
            rw [hafter] at hlen
            simp at hlen
            omega
          | cons y t =>
            rw [hafter] at hnd
            rw [headD_cons]
            rintro rfl
            simp at hnd
        rw [if_pos hover, if_pos hmany, nextChunkNode_eq hs.nodup hx, syncReader, if_neg]
        · exact ⟨Nat.sub_le _ _, _, h.kept _ hmem hne, rfl⟩
        · simpa using hne
      · rw [if_pos hover, if_neg hmany, syncReader, if_pos (by exact hnode)]
        exact ⟨Nat.zero_le _, z, h.mem, rfl⟩
    · rw [if_neg hover, syncReader, if_pos hnode]
      exact ⟨le_rfl, z, h.mem, rfl⟩
  · left
    have hover : ¬ b.Overtaken x rd := fun hover => hnode hover.1
    rw [droppedReader, if_neg hover, syncReader, if_neg hnode]
    exact ⟨rfl, hnode⟩

lemma CircBuf.Replaced.framesIn (h : b.Replaced x c z b') (d : Chunk) :
    b'.framesIn d = b.framesIn d ∧ b'.framePositions d = b.framePositions d := by
  unfold framePositions CircBuf.framesIn chunkFrameSize
  rw [h.header]
  exact ⟨rfl, rfl⟩

lemma CircBuf.zero_mem_framePositions (d : Chunk) : 0 ∈ b.framePositions d :=
  (b.mem_framePositions d).mpr ⟨0, b.framesIn_pos d, Nat.zero_mul _⟩

lemma CircBuf.Replaced.sound (h : b.Replaced x c z b') (hs : b.Sound) (hx : x ∈ b.chunkList)
    (hnd : b'.chunkList.Nodup) (hcount : b'.numChunks = b'.chunkList.length) : b'.Sound where
  nodup := hnd
  count := hcount
  alive n hn := (h.alive n hn).2
  reader := by
    intro rd' hrd'
    obtain ⟨rd, hrd, ⟨rfl, hnode⟩ | ⟨-, y, hy, hpos⟩⟩ := h.reader_cases hs hx hrd'
    · obtain ⟨n, hn, d, hd, hat, hframe, hoff⟩ := hs.reader rd' hrd
      have hne : n ≠ x := by
        rintro rfl
        exact hnode hat
      refine ⟨n, h.kept n hn hne, d, (h.chunk n hne).trans hd, hat, ?_, hoff⟩
      rwa [(h.framesIn d).2]
    · obtain ⟨-, d, hd⟩ := h.alive y hy
      refine ⟨y, hy, d, hd, ?_⟩
      rw [hpos]
      exact ⟨rfl, b'.zero_mem_framePositions d, Nat.zero_le _⟩
  words := by
    refine ⟨?_, ?_⟩
    · intro rd' hrd'
      obtain ⟨rd, hrd, ⟨rfl, -⟩ | ⟨hle, -⟩⟩ := h.reader_cases hs hx hrd'
      · exact hs.words.1 rd' hrd
      · exact hle.trans_lt (hs.words.1 rd hrd)
    · intro n d hd p
      by_cases hne : n = x
      · subst hne
        obtain ⟨mf, info, -, -, rfl⟩ := freshChunk_eq (h.new d hd)
        exact Nat.zero_le _
      · rw [h.chunk n hne] at hd
        exact hs.words.2 n d hd p

lemma CircBuf.freshChunk_unmarked (h : b.freshChunk = some new) : new.marked = false := by
  obtain ⟨mf, info, -, -, rfl⟩ := freshChunk_eq h
  rfl

/-- The buffer can still be written. -/
lemma CircBuf.Replaced.ready (h : b.Replaced x c z b') (hb : b.Ready allow)
    (hx : x ∈ b.chunkList) (hc : b.chunk x = some c) (hmark : c.marked = true)
    (hsound : b'.Sound) (hsize : b'.circBufSizeBytes = (b'.chunkList.map b'.bytesOf).sum)
    (hroom : (b'.chunkList.map b'.mostBytes).sum + 65536 ≤ wordSize) : b'.Ready allow where
  sound := hsound
  writer := by
    obtain ⟨-, d, hd⟩ := h.alive z h.mem
    refine ⟨z, h.mem, d, hd, 0, b'.framesIn_pos d, ?_, fun _ => rfl⟩
    rw [h.wr, Nat.zero_mul]
  chunks := by
    intro n hn d hd
    obtain ⟨new, hnew, husable⟩ := (hb.chunks x hx c hc).2 hmark
    by_cases hne : n = x
    · subst hne
      have hfresh := h.new d hd
      obtain rfl : new = d := Option.some.inj (hnew.symm.trans hfresh)
      refine ⟨husable, fun hmarked => ?_⟩
      rw [freshChunk_unmarked hfresh] at hmarked
      cases hmarked
    · rw [h.chunk n hne] at hd
      refine ⟨(hb.chunks n (h.alive n hn).1 d hd).1, fun _ => ⟨new, ?_, husable⟩⟩
      rw [h.freshChunk, hnew]
  size := hsize
  room := hroom
  midway := by
    intro rd' hrd' hoff
    obtain ⟨rd, hrd, ⟨rfl, -⟩ | ⟨-, y, -, hpos⟩⟩ := h.reader_cases hb.sound hx hrd'
    · exact hb.midway rd' hrd hoff
    · rw [hpos] at hoff
      exact absurd hoff (Nat.lt_irrefl 0)
  counts := by
    intro rd' hrd' hcase
    obtain ⟨rd, hrd, ⟨rfl, -⟩ | ⟨hle, y, -, hpos⟩⟩ := h.reader_cases hb.sound hx hrd'
    · exact hb.counts rd' hrd hcase
    · have hallow : allow = false := by
        rcases hcase with hallow | hoff
        · exact hallow
        · rw [hpos] at hoff
          exact absurd hoff (Nat.lt_irrefl 0)
      have hbound := hb.counts rd hrd (Or.inl hallow)
      omega

end Replaced

/-! ## The two steps over a marked chunk -/

section Steps

variable {b b' : CircBuf} {allow : Bool} {x z : ℕ} {c new : Chunk}

lemma CircBuf.bytesOf_eq {n : ℕ} (h : b.chunk n = some c) : b.bytesOf n = c.bytes := by
  rw [bytesOf, h]
  rfl

lemma Chunk.Usable.bytes_pos (h : c.Usable) : 0 < c.bytes := Nat.mul_pos h.numFrames h.frameSize

lemma CircBuf.Replaced.bytesOf_eq (h : b.Replaced x c z b') {n : ℕ} (hn : n ≠ x) :
    b'.bytesOf n = b.bytesOf n ∧ b'.mostBytes n = b.mostBytes n := by
  unfold mostBytes bytesOf
  rw [h.freshChunk, h.chunk n hn]
  exact ⟨rfl, rfl⟩

lemma CircBuf.Replaced.sums_eq (h : b.Replaced x c z b') (hnd : b.chunkList.Nodup) :
    ((b.chunkList.erase x).map b'.bytesOf).sum = ((b.chunkList.erase x).map b.bytesOf).sum ∧
      ((b.chunkList.erase x).map b'.mostBytes).sum =
        ((b.chunkList.erase x).map b.mostBytes).sum := by
  have hne : ∀ n ∈ b.chunkList.erase x, n ≠ x := fun n hn => (hnd.mem_erase_iff.mp hn).1
  exact ⟨congrArg List.sum (map_congr_left fun n hn => (h.bytesOf_eq (hne n hn)).1),
    congrArg List.sum (map_congr_left fun n hn => (h.bytesOf_eq (hne n hn)).2)⟩

lemma CircBuf.Ready.numChunks_lt (hb : b.Ready allow) : b.chunkList.length + 65536 ≤ wordSize := by
  have hone : ∀ m ∈ b.chunkList.map b.mostBytes, 1 ≤ m := by
    intro m hm
    obtain ⟨n, hn, rfl⟩ := List.mem_map.mp hm
    obtain ⟨d, hd⟩ := hb.sound.alive n hn
    have hpos := (hb.chunks n hn d hd).1.bytes_pos
    rw [← CircBuf.bytesOf_eq hd] at hpos
    exact hpos.trans_le (le_max_left _ _)
  have hlen := card_nsmul_le_sum _ 1 hone
  rw [length_map, Nat.nsmul_eq_mul, Nat.mul_one] at hlen
  have hroom := hb.room
  omega

/-- `circ_buf_size_bytes` is far from the largest word. -/
lemma CircBuf.Ready.size_le (hb : b.Ready allow) : b.circBufSizeBytes + 65536 ≤ wordSize := by
  have hle : (b.chunkList.map b.bytesOf).sum ≤ (b.chunkList.map b.mostBytes).sum :=
    sum_le_sum fun n _ => le_max_left _ _
  have hroom := hb.room
  rw [hb.size]
  omega

lemma add32_sub32_swap {S R B B' : ℕ} (hS : S = B + R) (h : B' + R < wordSize) :
    add32 (sub32 S B) B' = B' + R := by
  unfold add32 sub32 wordSize at *
  omega

lemma sub32_cancel {S R B : ℕ} (hS : S = B + R) (h : R < wordSize) : sub32 S B = R := by
  unfold sub32 wordSize at *
  omega

/-- The buffer after a chunk was recreated. -/
def CircBuf.recreatedWith (b : CircBuf) (x : ℕ) (c new : Chunk) : CircBuf :=
  (b.withDropped x c).renewed x (b.freeChunkMetadata c) new

lemma CircBuf.recreateChunk_of_fresh (hnew : b.freshChunk = some new) (mem : Bool) :
    (b.withDropped x c).recreateChunk mem x (b.freeChunkMetadata c) =
      if !mem then some (fail, true, (b.withDropped x c).giveBack x (b.freeChunkMetadata c))
      else some (success, true, b.recreatedWith x c new) := by
  obtain ⟨mf, info, hmf, hinfo, hmade⟩ := freshChunk_eq hnew
  have hmf' : (b.withDropped x c).wr.operatingMf = some mf := hmf
  have hinfo' : ((b.withDropped x c).giveBack x (b.freeChunkMetadata c)).computeChunkInfo mf
      (b.withDropped x c).circBufSizeInUs = some info := (computeChunkInfo_freed mf _).trans hinfo
  rw [recreateChunk_of_sizes hmf' hinfo', recreatedWith, hmade]
  rfl

lemma CircBuf.recreatedWith_chunk {n : ℕ} (hn : n ≠ x) :
    (b.recreatedWith x c new).chunk n = b.chunk n := by
  change update (update (update b.chunk x _) x none) x _ n = _
  rw [update_of_ne hn, update_of_ne hn, update_of_ne hn]

lemma CircBuf.recreatedWith_self : (b.recreatedWith x c new).chunk x = some new :=
  update_self _ _ _

lemma CircBuf.replaced_recreatedWith (hs : b.Sound) (hx : x ∈ b.chunkList)
    (hnew : b.freshChunk = some new) : b.Replaced x c x (b.recreatedWith x c new) where
  header := rfl
  us := rfl
  preferred := rfl
  chunk n hn := recreatedWith_chunk hn
  new d hd := by rw [hnew, ← hd, recreatedWith_self]
  kept n hn _ := hn
  alive := by
    intro n hn
    refine ⟨hn, ?_⟩
    by_cases hne : n = x
    · exact ⟨new, hne ▸ recreatedWith_self⟩
    · obtain ⟨d, hd⟩ := hs.alive n hn
      exact ⟨d, (recreatedWith_chunk hne).trans hd⟩
  mem := hx
  wr := rfl
  readers := rfl

/-- **Recreation.**  The buffer with the new chunk can be written. -/
lemma CircBuf.Ready.recreatedWith (hb : b.Ready allow) (hx : x ∈ b.chunkList)
    (hc : b.chunk x = some c) (hmark : c.marked = true) (hnew : b.freshChunk = some new) :
    (b.recreatedWith x c new).Ready allow := by
  set b' := b.recreatedWith x c new with hb'
  have hreplaced : b.Replaced x c x b' := replaced_recreatedWith hb.sound hx hnew
  have hsums := hreplaced.sums_eq hb.sound.nodup
  have hsplit : b.bytesOf x + ((b.chunkList.erase x).map b.bytesOf).sum =
      (b.chunkList.map b.bytesOf).sum := sum_map_erase _ hx
  have hsplit' : b'.bytesOf x + ((b.chunkList.erase x).map b'.bytesOf).sum =
      (b.chunkList.map b'.bytesOf).sum := sum_map_erase _ hx
  have hmost : b.mostBytes x + ((b.chunkList.erase x).map b.mostBytes).sum =
      (b.chunkList.map b.mostBytes).sum := sum_map_erase _ hx
  have hmost' : b'.mostBytes x + ((b.chunkList.erase x).map b'.mostBytes).sum =
      (b.chunkList.map b'.mostBytes).sum := sum_map_erase _ hx
  have hle : ((b.chunkList.erase x).map b.bytesOf).sum ≤
      ((b.chunkList.erase x).map b.mostBytes).sum := sum_le_sum fun n _ => le_max_left _ _
  have hbytes : b'.bytesOf x = new.bytes := CircBuf.bytesOf_eq recreatedWith_self
  have hnewMost : b'.mostBytes x ≤ b.mostBytes x ∧ new.bytes ≤ b.mostBytes x := by
    unfold mostBytes
    rw [hreplaced.freshChunk, hnew, hbytes]
    exact ⟨max_le (le_max_right _ _) (le_max_right _ _), le_max_right _ _⟩
  have hroom := hb.room
  have hcount : b'.numChunks = b'.chunkList.length := by
    change add32 (sub32 b.numChunks 1) 1 = b.chunkList.length
    have hlen := hb.numChunks_lt
    have hpos := length_pos_of_mem hx
    rw [hb.sound.count]
    exact (add32_sub32_swap (R := b.chunkList.length - 1) (by omega) (by omega)).trans (by omega)
  have hsize : b'.circBufSizeBytes = (b'.chunkList.map b'.bytesOf).sum := by
    change add32 (sub32 b.circBufSizeBytes c.bytes) new.bytes = (b.chunkList.map b'.bytesOf).sum
    rw [← hsplit', hsums.1, hbytes]
    apply add32_sub32_swap
    · rw [hb.size, ← hsplit, CircBuf.bytesOf_eq hc]
    · omega
  apply hreplaced.ready hb hx hc hmark (hreplaced.sound hb.sound hx hb.sound.nodup hcount) hsize
  change (b.chunkList.map b'.mostBytes).sum + 65536 ≤ wordSize
  omega

/-- The buffer after a chunk was destroyed and the writer has gone to the node `z`. -/
def CircBuf.destroyedTo (b : CircBuf) (x : ℕ) (c : Chunk) (z : Option ℕ) : CircBuf :=
  { (b.withDropped x c).giveBack x (b.freeChunkMetadata c) with
    chunkList := b.chunkList.erase x
    wr := { b.wr with pos := ⟨z, 0, 0⟩ }
    readers := (b.readers.map (b.droppedReader x c)).map (syncReader x ⟨z, 0, 0⟩) }

lemma CircBuf.destroyChunk_eq (hnd : b.chunkList.Nodup) (hx : x ∈ b.chunkList) :
    (b.withDropped x c).destroyChunk x (b.freeChunkMetadata c) =
      some (success, true, b.destroyedTo x c (nodesAfter b.chunkList x).head?) := by
  have hturn := isRotated_nodesAfter hnd hx
  have hlen := hturn.perm.length_eq
  have herase : (b.chunkList.erase x).length = b.chunkList.length - 1 := length_erase_of_mem hx
  have hnext : (b.withDropped x c).nextChunkNode x =
      some ((nodesAfter b.chunkList x).headD x) := nextChunkNode_eq hnd hx
  have hlist : ((b.withDropped x c).chunkList.erase x) = b.chunkList.erase x := rfl
  unfold destroyChunk
  simp only [hlist, hnext]
  cases hafter : nodesAfter b.chunkList x with
  | nil =>
    rw [hafter] at hlen
    have hnil : b.chunkList.erase x = [] := by
      apply eq_nil_of_length_eq_zero
      rw [herase, hlen]
      rfl
    unfold destroyedTo
    rw [hnil]
    rfl
  | cons y t =>
    rw [hafter] at hlen
    have hne : (b.chunkList.erase x).isEmpty = false := by
      rw [isEmpty_eq_false_iff, ← length_pos_iff, herase, hlen]
      simp
    simp only [hne, Bool.false_eq_true, if_false, headD_cons, head?_cons]
    rfl

lemma CircBuf.destroyedTo_chunk {n : ℕ} {z : Option ℕ} (hn : n ≠ x) :
    (b.destroyedTo x c z).chunk n = b.chunk n := by
  change update (update b.chunk x _) x none n = _
  rw [update_of_ne hn, update_of_ne hn]

lemma isRotated_erase {l : List ℕ} (hnd : l.Nodup) (hx : x ∈ l) : l.erase x ~r nodesAfter l x := by
  obtain ⟨pre, post, rfl⟩ := append_of_mem hx
  have hpre : x ∉ pre := by
    intro hmem
    exact (nodup_append.mp hnd).2.2 x hmem x mem_cons_self rfl
  rw [nodesAfter_of_append hpre, erase_append_right _ hpre, erase_cons_head]
  exact isRotated_append

lemma CircBuf.replaced_destroyedTo (hs : b.Sound) (hx : x ∈ b.chunkList) {y : ℕ} {t : List ℕ}
    (hafter : nodesAfter b.chunkList x = y :: t) :
    b.Replaced x c y (b.destroyedTo x c (some y)) where
  header := rfl
  us := rfl
  preferred := rfl
  chunk n hn := destroyedTo_chunk hn
  new d hd := by
    have hnone : (b.destroyedTo x c (some y)).chunk x = none := update_self _ _ _
    rw [hnone] at hd
    cases hd
  kept n hn hne := (mem_erase_of_ne hne).mpr hn
  alive := by
    intro n hn
    have hmem := mem_of_mem_erase hn
    have hne : n ≠ x := (hs.nodup.mem_erase_iff.mp hn).1
    obtain ⟨d, hd⟩ := hs.alive n hmem
    exact ⟨hmem, d, (destroyedTo_chunk hne).trans hd⟩
  mem := by
    have hturn := isRotated_erase hs.nodup hx
    rw [hafter] at hturn
    exact hturn.mem_iff.mpr mem_cons_self
  wr := rfl
  readers := rfl

/-- **Destruction.**  If a chunk is left, the buffer can be written. -/
lemma CircBuf.Ready.destroyedTo (hb : b.Ready allow) (hx : x ∈ b.chunkList)
    (hc : b.chunk x = some c) (hmark : c.marked = true) {y : ℕ} {t : List ℕ}
    (hafter : nodesAfter b.chunkList x = y :: t) :
    (b.destroyedTo x c (some y)).Ready allow := by
  set b' := b.destroyedTo x c (some y) with hb'
  have hreplaced : b.Replaced x c y b' := replaced_destroyedTo hb.sound hx hafter
  have hsums := hreplaced.sums_eq hb.sound.nodup
  have hsplit : b.bytesOf x + ((b.chunkList.erase x).map b.bytesOf).sum =
      (b.chunkList.map b.bytesOf).sum := sum_map_erase _ hx
  have hmost : b.mostBytes x + ((b.chunkList.erase x).map b.mostBytes).sum =
      (b.chunkList.map b.mostBytes).sum := sum_map_erase _ hx
  have hsizeLe := hb.size_le
  have hcount : b'.numChunks = b'.chunkList.length := by
    change sub32 b.numChunks 1 = (b.chunkList.erase x).length
    have hlen := hb.numChunks_lt
    have hpos := length_pos_of_mem hx
    rw [hb.sound.count, length_erase_of_mem hx]
    exact sub32_cancel (by omega) (by omega)
  have hsize : b'.circBufSizeBytes = (b'.chunkList.map b'.bytesOf).sum := by
    change sub32 b.circBufSizeBytes c.bytes = ((b.chunkList.erase x).map b'.bytesOf).sum
    have hold := hb.size
    rw [← hsplit, CircBuf.bytesOf_eq hc] at hold
    rw [hsums.1]
    exact sub32_cancel hold (by omega)
  apply hreplaced.ready hb hx hc hmark
    (hreplaced.sound hb.sound hx (hb.sound.nodup.erase x) hcount) hsize
  change ((b.chunkList.erase x).map b'.mostBytes).sum + 65536 ≤ wordSize
  have hroom := hb.room
  omega

end Steps

/-! ## The lane after a marked chunk -/

section Lanes

variable {b b' : CircBuf} {allow : Bool} {x z : ℕ} {c new : Chunk}

lemma CircBuf.stops_eq {k o : ℕ} (hwr : b.wr.pos = ⟨some x, k * b.chunkFrameSize c.frameSize, o⟩)
    (hc : b.chunk x = some c) : b.stops = b.around b.stopsOf x k := by
  simp only [stops, hwr, hc, Nat.mul_div_cancel _ (b.chunkFrameSize_pos c.frameSize)]

lemma CircBuf.stopsOf_marked (hc : b.chunk x = some c) (hmark : c.marked = true) :
    b.stopsOf x = [.marked x c.frameSize c.numChannels c.recreate] := by
  simp only [stopsOf, hc, hmark, if_true]

lemma CircBuf.stopsOf_unmarked (hc : b.chunk x = some c) (hmark : c.marked = false) :
    b.stopsOf x = b.frameStops x c := by
  simp only [stopsOf, hc, hmark, Bool.false_eq_true, if_false]

lemma CircBuf.length_frameStops (n : ℕ) (d : Chunk) : (b.frameStops n d).length = b.framesIn d := by
  simp [frameStops, framePositions]

lemma CircBuf.getElem?_frameStops {k : ℕ} (n : ℕ) {d : Chunk} (hk : k < b.framesIn d) :
    (b.frameStops n d)[k]? =
      some (.frame n (k * b.chunkFrameSize d.frameSize) d.frameSize d.numChannels) := by
  simp [frameStops, framePositions, getElem?_range hk]

lemma CircBuf.stopsOf_cons {n : ℕ} {d : Chunk} (hd : b.chunk n = some d) :
    ∃ s rest, b.stopsOf n = s :: rest ∧ s.node = n := by
  cases hmark : d.marked with
  | true => exact ⟨_, [], stopsOf_marked hd hmark, rfl⟩
  | false =>
    rw [stopsOf_unmarked hd hmark]
    have hfirst := getElem?_frameStops n (b.framesIn_pos d)
    cases hlist : b.frameStops n d with
    | nil => simp [hlist] at hfirst
    | cons s rest =>
      refine ⟨s, rest, rfl, ?_⟩
      rw [hlist, getElem?_cons_zero, Option.some.injEq] at hfirst
      rw [hfirst]
      rfl

lemma CircBuf.stops_marked (hwr : b.wr.pos = ⟨some x, 0, 0⟩) (hc : b.chunk x = some c)
    (hmark : c.marked = true) :
    b.stops = .marked x c.frameSize c.numChannels c.recreate ::
      (nodesAfter b.chunkList x).flatMap b.stopsOf := by
  have hwr' : b.wr.pos = ⟨some x, 0 * b.chunkFrameSize c.frameSize, 0⟩ := by
    rw [hwr, Nat.zero_mul]
  rw [stops_eq hwr' hc, around, rotate_zero, flatMap_cons, stopsOf_marked hc hmark]
  rfl

lemma not_mem_nodesAfter {l : List ℕ} (hnd : l.Nodup) (hx : x ∈ l) : x ∉ nodesAfter l x :=
  (nodup_cons.mp ((isRotated_nodesAfter hnd hx).nodup_iff.mp hnd)).1

section

variable (h : b.Replaced x c z b')
include h

lemma CircBuf.Replaced.frameStops (n : ℕ) (d : Chunk) : b'.frameStops n d = b.frameStops n d := by
  unfold CircBuf.frameStops
  rw [(h.framesIn d).2]

lemma CircBuf.Replaced.freshStops : b'.freshStops = b.freshStops := by
  funext n
  unfold CircBuf.freshStops
  rw [h.freshChunk]
  cases b.freshChunk with
  | none => rfl
  | some d => exact h.frameStops n d

lemma CircBuf.Replaced.flatMap_stopsOf {nodes : List ℕ} (hx : x ∉ nodes) :
    nodes.flatMap b'.stopsOf = nodes.flatMap b.stopsOf := by
  apply flatMap_congr
  intro n hn
  have hne : n ≠ x := by
    rintro rfl
    exact hx hn
  unfold CircBuf.stopsOf
  rw [h.chunk n hne]
  cases b.chunk n with
  | none => rfl
  | some d => simp only [h.frameStops]

lemma CircBuf.Replaced.places (hfree : allow = false → ∀ rd ∈ b.readers, ¬ b.Overtaken x rd) :
    b'.places allow = (b.places allow).map (Place.follow x z) := by
  cases allow with
  | true => rfl
  | false =>
    simp only [CircBuf.places, Bool.false_eq_true, if_false, h.readers, List.map_map]
    apply map_congr_left
    intro rd hrd
    have hsame : b.droppedReader x c rd = rd := if_neg (hfree rfl rd hrd)
    rw [Function.comp_apply, Function.comp_apply, Function.comp_apply, hsame, syncReader,
      Place.follow, Client.place_node]
    by_cases hnode : rd.pos.chunkNode = some x
    · rw [if_pos hnode, if_pos hnode]
      rfl
    · rw [if_neg hnode, if_neg hnode]

end

lemma CircBuf.any_heldBy_marked (hwr : b.wr.pos = ⟨some x, 0, 0⟩) (size channels : ℕ)
    (recreate : Bool) :
    (b.places allow).any (Stop.marked x size channels recreate).heldBy = true ↔
      allow = false ∧ ∃ rd ∈ b.readers, b.Overtaken x rd := by
  cases allow with
  | true => simp [places]
  | false =>
    simp only [places, Bool.false_eq_true, if_false, true_and, List.any_map, List.any_eq_true,
      Function.comp_apply, heldBy_marked hwr]

lemma CircBuf.stops_recreatedWith (hs : b.Sound) (hx : x ∈ b.chunkList)
    (hnew : b.freshChunk = some new) : (b.recreatedWith x c new).stops =
      b.freshStops x ++ (nodesAfter b.chunkList x).flatMap b.stopsOf := by
  have hreplaced := replaced_recreatedWith (c := c) hs hx hnew
  have hwr : (b.recreatedWith x c new).wr.pos =
      ⟨some x, 0 * (b.recreatedWith x c new).chunkFrameSize new.frameSize, 0⟩ := by
    rw [Nat.zero_mul]
    rfl
  have hlist : (b.recreatedWith x c new).chunkList = b.chunkList := rfl
  rw [stops_eq hwr recreatedWith_self, around, rotate_zero, flatMap_cons, hlist,
    hreplaced.flatMap_stopsOf (not_mem_nodesAfter hs.nodup hx),
    stopsOf_unmarked recreatedWith_self (freshChunk_unmarked hnew), hreplaced.frameStops]
  simp only [freshStops, hnew]

lemma CircBuf.stops_destroyedTo (hs : b.Sound) (hx : x ∈ b.chunkList) {y : ℕ} {t : List ℕ}
    (hafter : nodesAfter b.chunkList x = y :: t) :
    (b.destroyedTo x c (some y)).stops = (nodesAfter b.chunkList x).flatMap b.stopsOf := by
  have hreplaced := replaced_destroyedTo (c := c) hs hx hafter
  obtain ⟨-, d, hd⟩ := hreplaced.alive y hreplaced.mem
  have hwr : (b.destroyedTo x c (some y)).wr.pos =
      ⟨some y, 0 * (b.destroyedTo x c (some y)).chunkFrameSize d.frameSize, 0⟩ := by
    rw [Nat.zero_mul]
    rfl
  have hturn := isRotated_erase hs.nodup hx
  rw [hafter] at hturn
  have hnext : nodesAfter (b.destroyedTo x c (some y)).chunkList y = t :=
    nodesAfter_of_isRotated (hs.nodup.erase x) hturn
  rw [stops_eq hwr hd, around, rotate_zero, hnext, hafter]
  apply hreplaced.flatMap_stopsOf
  rw [← hafter]
  exact not_mem_nodesAfter hs.nodup hx

end Lanes

/-! ## The loop over the marked chunks -/

section RecreateLoop

variable {alloc : ℕ → Bool} {b b' : CircBuf} {allow : Bool} {x : ℕ} {c new : Chunk}

/-- The lane of a buffer after the marked chunks at its head. -/
def CircBuf.passed (b : CircBuf) (alloc : ℕ → Bool) (allowOverflow : Bool) :
    Option (List Stop × List Place) :=
  pass b.freshStops alloc b.stops (b.places allowOverflow)

/-- How the repeated calls of `_circ_buf_check_and_recreate` end. -/
inductive CircBuf.LoopEnds (b : CircBuf) (alloc : ℕ → Bool) (allow : Bool) :
    Option (Result × CircBuf) → Prop
  /-- The writer is at a chunk that is not marked. -/
  | through {b' : CircBuf} (ready : b'.Ready allow) (fresh : b'.freshStops = b.freshStops)
      (hpass : b.passed alloc allow = some (b'.stops, b'.places allow))
      (front : ∃ x c, b'.wr.pos.chunkNode = some x ∧ b'.chunk x = some c ∧ c.marked = false) :
      b.LoopEnds alloc allow (some (success, b'))
  /-- A reader holds a marked chunk. -/
  | held {b' : CircBuf} (hallow : allow = false) (ready : b'.Ready allow)
      (fresh : b'.freshStops = b.freshStops) (hpass : b.passed alloc allow = none)
      (hpass' : b'.passed alloc allow = none) : b.LoopEnds alloc allow (some (overrun, b'))
  /-- There is no memory for a chunk, or no chunk is left. -/
  | lost (hpass : b.passed alloc allow = none) : b.LoopEnds alloc allow none

section

variable {o p : ℕ} (hwr : b.wr.pos = ⟨some x, p, o⟩)
include hwr

lemma CircBuf.checkAndRecreate_unmarked (hc : b.chunk x = some c) (hmark : c.marked = false)
    (mem : Bool) : b.checkAndRecreate mem allow = some (success, false, b) := by
  have hflags : (!c.destroy && !c.recreate) = true := by
    rw [Chunk.marked, Bool.or_eq_false_iff] at hmark
    simp [hmark]
  simp only [checkAndRecreate, hwr, hc, hflags, bind_eq_bind, bind_some, if_true, Option.pure_def]

lemma CircBuf.recreateLoop_succ {res : Result} {did : Bool}
    (hcall : b.checkAndRecreate (alloc x) allow = some (res, did, b')) (rounds : ℕ) :
    CircBuf.recreateLoop alloc allow (rounds + 1) b =
      if did then CircBuf.recreateLoop alloc allow rounds b' else some (res, b') := by
  rw [recreateLoop]
  simp [hwr, hcall]

lemma CircBuf.recreateLoop_unmarked (hc : b.chunk x = some c) (hmark : c.marked = false)
    (rounds : ℕ) : CircBuf.recreateLoop alloc allow (rounds + 1) b = some (success, b) := by
  rw [recreateLoop_succ hwr (checkAndRecreate_unmarked hwr hc hmark _)]
  rfl

end

lemma CircBuf.recreateLoop_gone {x : ℕ} (hwr : b.wr.pos.chunkNode = some x)
    (hgone : b.chunk x = none) (rounds : ℕ) :
    CircBuf.recreateLoop alloc allow rounds b = none := by
  cases rounds with
  | zero => rfl
  | succ rounds => simp [recreateLoop, checkAndRecreate, hwr, hgone]

/-- The lane starts with a frame if the writer is at a chunk that is not marked. -/
lemma CircBuf.Ready.stops_frame (hb : b.Ready allow) (hwr : b.wr.pos.chunkNode = some x)
    (hc : b.chunk x = some c) (hmark : c.marked = false) :
    ∃ k < b.framesIn c, b.wr.pos = ⟨some x, k * b.chunkFrameSize c.frameSize, 0⟩ ∧
      x ∈ b.chunkList ∧ ∃ rest, b.stops =
        .frame x (k * b.chunkFrameSize c.frameSize) c.frameSize c.numChannels :: rest := by
  obtain ⟨y, hy, d, hd, k, hk, hpos, -⟩ := hb.writer
  obtain rfl : y = x := by
    rw [hpos] at hwr
    exact Option.some.inj hwr
  obtain rfl : d = c := Option.some.inj (hd.symm.trans hc)
  refine ⟨k, hk, hpos, hy, ?_⟩
  have hof := stopsOf_unmarked hd hmark
  have hhead : b.stops.head? =
      some (.frame y (k * b.chunkFrameSize d.frameSize) d.frameSize d.numChannels) := by
    rw [stops_eq hpos hd, head?_around (by rw [hof, length_frameStops]; exact hk), hof,
      getElem?_frameStops y hk]
  cases hstops : b.stops with
  | nil =>
    rw [hstops] at hhead
    cases hhead
  | cons s rest =>
    rw [hstops, head?_cons, Option.some.injEq] at hhead
    exact ⟨rest, by rw [hhead]⟩

/-- **The marked chunks.**  The loop does to the buffer what `pass` does to its lane. -/
lemma CircBuf.Ready.loopEnds (hb : b.Ready allow) : b.LoopEnds alloc allow
      (CircBuf.recreateLoop alloc allow (b.chunkList.length + 1) b) := by
  induction hn : b.chunkList.length generalizing b with
  | zero =>
    obtain ⟨x, hx, -⟩ := hb.writer
    rw [length_eq_zero_iff.mp hn] at hx
    cases hx
  | succ n ih =>
    obtain ⟨x, hx, c, hc, k, hk, hwr, hfirst⟩ := hb.writer
    cases hmark : c.marked with
    | false =>
      rw [recreateLoop_unmarked hwr hc hmark]
      obtain ⟨_, _, _, _, rest, hstops⟩ := hb.stops_frame (by rw [hwr]) hc hmark
      refine .through hb rfl ?_ ⟨x, c, by rw [hwr], hc, hmark⟩
      rw [passed, hstops]
      rfl
    | true =>
      obtain rfl := hfirst hmark
      rw [Nat.zero_mul] at hwr
      have hstops := stops_marked hwr hc hmark
      have hm := hb.atMarked hwr hx hc hmark
      obtain ⟨new, hnew, -⟩ := (hb.chunks x hx c hc).2 hmark
      by_cases hheld : allow = false ∧ ∃ rd ∈ b.readers, b.Overtaken x rd
      · -- a reader has still data in the chunk
        obtain ⟨rfl, hreader⟩ := hheld
        have hnone : b.passed alloc false = none := by
          rw [passed, hstops, pass_held]
          exact (any_heldBy_marked hwr _ _ _).mpr ⟨rfl, hreader⟩
        rw [recreateLoop_succ hwr (checkAndRecreate_held hb.sound hm _ hreader)]
        exact .held rfl hb rfl hnone hnone
      · have hfree : allow = false → ∀ rd ∈ b.readers, ¬ b.Overtaken x rd :=
          fun hallow rd hrd hover => hheld ⟨hallow, rd, hrd, hover⟩
        have hany : (b.places allow).any
            (Stop.marked x c.frameSize c.numChannels c.recreate).heldBy = false := by
          rw [← Bool.not_eq_true, any_heldBy_marked hwr]
          exact hheld
        have hcall := checkAndRecreate_free hb.sound hm (alloc x) hfree
        cases hrec : c.recreate with
        | true =>
          rw [if_pos hrec] at hcall
          cases hmem : alloc x with
          | true =>
            rw [hmem, recreateChunk_of_fresh hnew, Bool.not_true, if_neg Bool.false_ne_true] at hcall
            have hcall' : b.checkAndRecreate (alloc x) allow =
                some (success, true, b.recreatedWith x c new) := by rw [hmem, hcall]
            rw [recreateLoop_succ hwr hcall', if_pos rfl,
              recreateLoop_unmarked rfl recreatedWith_self
                (freshChunk_unmarked hnew)]
            have hreplaced := replaced_recreatedWith (c := c) hb.sound hx hnew
            refine .through (hb.recreatedWith hx hc hmark hnew) hreplaced.freshStops ?_
              ⟨x, new, rfl, recreatedWith_self, freshChunk_unmarked hnew⟩
            rw [passed, hstops, hrec, pass_recreate hany, if_pos hmem,
              stops_recreatedWith hb.sound hx hnew, hreplaced.places hfree]
          | false =>
            rw [hmem, recreateChunk_of_fresh hnew, Bool.not_false, if_pos rfl] at hcall
            have hcall' : b.checkAndRecreate (alloc x) allow = some (fail, true,
                (b.withDropped x c).giveBack x (b.freeChunkMetadata c)) := by rw [hmem, hcall]
            have hnone : b.passed alloc allow = none := by
              rw [passed, hstops, hrec, pass_recreate hany, hmem]
              rfl
            have hnode : ((b.withDropped x c).giveBack x
                (b.freeChunkMetadata c)).wr.pos.chunkNode = some x := by
              change b.wr.pos.chunkNode = some x
              rw [hwr]
            rw [recreateLoop_succ hwr hcall', if_pos rfl,
              recreateLoop_gone hnode (update_self _ _ _)]
            exact .lost hnone
        | false =>
          rw [hrec, if_neg (by simp), destroyChunk_eq hb.sound.nodup hx] at hcall
          rw [recreateLoop_succ hwr hcall, if_pos rfl]
          cases hafter : nodesAfter b.chunkList x with
          | nil =>
            have hnone : b.passed alloc allow = none := by
              rw [passed, hstops, hrec, hafter, flatMap_nil, pass_destroy_last hany]
            exact .lost hnone
          | cons y t =>
            rw [head?_cons]
            set b₁ := b.destroyedTo x c (some y) with hb₁
            have hreplaced : b.Replaced x c y b₁ := replaced_destroyedTo hb.sound hx hafter
            have hready : b₁.Ready allow := hb.destroyedTo hx hc hmark hafter
            have hlen : b₁.chunkList.length = n := by
              change (b.chunkList.erase x).length = n
              rw [length_erase_of_mem hx, hn]
              rfl
            have hsame : b.passed alloc allow = b₁.passed alloc allow := by
              obtain ⟨d, hd⟩ := hb.sound.alive y
                ((isRotated_nodesAfter hb.sound.nodup hx).mem_iff.mpr (by simp [hafter]))
              obtain ⟨s, rest, hs, hnode⟩ := stopsOf_cons hd
              have hcons : (nodesAfter b.chunkList x).flatMap b.stopsOf =
                  s :: (rest ++ t.flatMap b.stopsOf) := by
                rw [hafter, flatMap_cons, hs]
                rfl
              rw [passed, passed, hreplaced.freshStops, hb₁, stops_destroyedTo hb.sound hx hafter,
                ← hb₁, hreplaced.places hfree, hstops, hrec, hcons, pass_destroy hany, hnode]
            have hrest := ih hready hlen
            generalize CircBuf.recreateLoop alloc allow (n + 1) b₁ = out at hrest ⊢
            cases hrest with
            | through ready fresh hpass front =>
              exact .through ready (fresh.trans hreplaced.freshStops) (hsame.trans hpass) front
            | held hallow ready fresh hpass hpass' =>
              exact .held hallow ready (fresh.trans hreplaced.freshStops) (hsame.trans hpass) hpass'
            | lost hpass => exact .lost (hsame.trans hpass)

end RecreateLoop

end AudioReach.SpfCircBuf
