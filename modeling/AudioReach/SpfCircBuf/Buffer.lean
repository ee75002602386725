import Mathlib.Algebra.Ring.Nat
import Mathlib.Data.List.Rotate

/-!
# The fragmented circular buffer

`spf_circular_buffer` keeps its data in a list of chunks, a chunk is cut into frames of one size,
and a write fills one frame, be it only in part.  The writer and every reader have a position: a
chunk node, a frame of its chunk and an offset into the frame.  A reader also counts the bytes that
it has not read.

A chunk node is a number and the list of the nodes stands for the links; `chunk` gives the object
of a node, and `none` is memory that was freed.  A frame is named by its byte position in the
chunk.  The lengths are natural numbers; where a difference of 32-bit words can wrap around, the
wrap is written out.
-/

namespace AudioReach.SpfCircBuf

open List

/-- `spf_circ_buf_result_t`, whose values the code joins bit by bit. -/
abbrev Result := ℕ

/-- `SPF_CIRCBUF_SUCCESS`. -/
def success : Result := 0

/-- `SPF_CIRCBUF_FAIL`. -/
def fail : Result := 1

/-- `SPF_CIRCBUF_OVERRUN`. -/
def overrun : Result := 2

/-- `spf_circ_buf_mf_info_t`, as far as sizes depend on it. -/
structure MfInfo where
  bitsPerSample : ℕ
  samplingRate : ℕ
  numChannels : ℕ
  deriving DecidableEq, Repr

/-- `spf_circ_buf_frame_t`, the headers and the data of one frame in all channels. -/
structure Frame where
  /-- `sdata.metadata_list_ptr` is not NULL. -/
  hasMetadata : Bool
  actualDataLen : ℕ
  data : ℕ → List UInt8

/-- `memset` of a frame header: nothing is in the frame. -/
def Frame.cleared (f : Frame) : Frame := { f with hasMetadata := false, actualDataLen := 0 }

/-- A frame of a chunk that was allocated. -/
def blankFrame : Frame := ⟨false, 0, fun _ => []⟩

/-- `spf_circ_buf_chunk_t`. -/
structure Chunk where
  /-- `size`, in bytes and with the frame headers. -/
  size : ℕ
  numFrames : ℕ
  /-- `frame_size`: the data bytes of a frame. -/
  frameSize : ℕ
  recreate : Bool
  destroy : Bool
  mf : MfInfo
  numChannels : ℕ
  frame : ℕ → Frame

/-- `spf_circ_buf_position_t`. -/
structure Position where
  /-- `chunk_node_ptr`. -/
  chunkNode : Option ℕ
  /-- `frame_position`: the frame, by its byte position in the chunk. -/
  framePosition : ℕ
  frameOffset : ℕ
  deriving DecidableEq, Repr

/-- `spf_circ_buf_client_t`. -/
structure Client where
  initBaseBufferSizeInUs : ℕ
  dynamicResizeReqInUs : ℕ
  /-- `rw_pos`. -/
  pos : Position
  unreadBytes : ℕ
  operatingMf : Option MfInfo
  containerFrameSizeInUs : ℕ
  deriving DecidableEq, Repr

/-- `spf_circ_buf_t` with its clients. -/
structure CircBuf where
  /-- `sizeof(spf_circ_buf_frame_t)` on the target. -/
  frameHeaderSize : ℕ
  circBufSizeInUs : ℕ
  circBufSizeBytes : ℕ
  preferredChunkSize : ℕ
  numChunks : ℕ
  /-- The nodes from `head_chunk_ptr` on. -/
  chunkList : List ℕ
  /-- The `obj_ptr` of a node. -/
  chunk : ℕ → Option Chunk
  /-- `wr_client_ptr`. -/
  wr : Client
  writeByteCounter : ℕ
  /-- `rd_client_list_ptr`. -/
  readers : List Client

/-! ## Frames and positions -/

/-- `GET_CHUNK_FRAME_SIZE`: a frame with its header, brought to the next multiple of eight. -/
def CircBuf.chunkFrameSize (b : CircBuf) (frameSize : ℕ) : ℕ :=
  (frameSize + b.frameHeaderSize) / 8 * 8 + 8

lemma CircBuf.chunkFrameSize_pos (b : CircBuf) (n : ℕ) : 0 < b.chunkFrameSize n := by
  unfold chunkFrameSize
  omega

/-- The node after `x` in a list, if there is one. -/
def nextInList : List ℕ → ℕ → Option ℕ
  | a :: c :: l, x => if a = x then some c else nextInList (c :: l) x
  | _, _ => none

/-- `_circ_buf_next_chunk_node`: the next node, or the head after the tail. -/
def CircBuf.nextChunkNode (b : CircBuf) (node : ℕ) : Option ℕ :=
  match nextInList b.chunkList node with
  | some next => some next
  | none => b.chunkList.head?

/-- `_circ_buf_advance_to_next_frame`; `none` reads through a pointer that is not valid. -/
def CircBuf.advanceToNextFrame (b : CircBuf) (pos : Position) : Option Position := do
  let node ← pos.chunkNode
  let c ← b.chunk node
  let next := pos.framePosition + b.chunkFrameSize c.frameSize
  if next + b.chunkFrameSize c.frameSize > c.size then
    return ⟨b.nextChunkNode node, 0, 0⟩
  else
    return ⟨some node, next, 0⟩

/-- `spf_circ_buf_driver_is_buffer_empty`: the reader is at the writer's frame with nothing to
read. -/
def CircBuf.isBufferEmpty (b : CircBuf) (rd : Client) : Bool :=
  b.wr.pos.chunkNode = rd.pos.chunkNode && b.wr.pos.framePosition = rd.pos.framePosition &&
    rd.unreadBytes = 0

/-- The chunk at a position, and the frame in it. -/
def CircBuf.frameAt (b : CircBuf) (pos : Position) : Option Frame := do
  let node ← pos.chunkNode
  let c ← b.chunk node
  return c.frame pos.framePosition

/-! ## The data between two positions -/

/-- How many frames of a chunk are passed: those that fit, and the first one in any case. -/
def CircBuf.framesIn (b : CircBuf) (c : Chunk) : ℕ :=
  max 1 (c.size / b.chunkFrameSize c.frameSize)

/-- The positions of the frames of a chunk. -/
def CircBuf.framePositions (b : CircBuf) (c : Chunk) : List ℕ :=
  (range (b.framesIn c)).map (· * b.chunkFrameSize c.frameSize)

/-- The data in those frames of a chunk that are at or after one position and before another. -/
def CircBuf.chunkData (b : CircBuf) (node start : ℕ) (stop : Option ℕ) : ℕ :=
  match b.chunk node with
  | none => 0
  | some c =>
    (((b.framePositions c).filter fun p => start ≤ p ∧ ∀ q ∈ stop, p < q).map
      fun p => (c.frame p).actualDataLen).sum

/-- The nodes that follow `x` around the ring. -/
def nodesAfter (l : List ℕ) (x : ℕ) : List ℕ :=
  (l.dropWhile (· ≠ x)).tail ++ l.takeWhile (· ≠ x)

/-- The data in the frames from one frame up to another, around the ring; all of the data if the
two are the same frame. -/
def CircBuf.dataBetween (b : CircBuf) (start stop : Position) : ℕ :=
  match start.chunkNode, stop.chunkNode with
  | some y, some x =>
    if y = x ∧ start.framePosition < stop.framePosition then
      b.chunkData y start.framePosition (some stop.framePosition)
    else
      b.chunkData y start.framePosition none +
        (((nodesAfter b.chunkList y).takeWhile (· ≠ x)).map (b.chunkData · 0 none)).sum +
        b.chunkData x 0 (some stop.framePosition)
  | _, _ => 0

/-- The data that a reader has still before it: none if it is at the writer's frame with nothing
to read, else what is between its position and the writer's. -/
def CircBuf.unreadData (b : CircBuf) (rd : Client) : ℕ :=
  if b.isBufferEmpty rd then 0 else b.dataBetween rd.pos b.wr.pos - rd.pos.frameOffset

/-- The count of a reader is the data between its position and the writer's. -/
def CircBuf.Accurate (b : CircBuf) (rd : Client) : Prop := rd.unreadBytes = b.unreadData rd

instance (b : CircBuf) (rd : Client) : Decidable (b.Accurate rd) :=
  inferInstanceAs (Decidable (_ = _))

/-! ## The ring of the nodes -/

lemma nodesAfter_of_append {pre post : List ℕ} {x : ℕ} (hx : x ∉ pre) :
    nodesAfter (pre ++ x :: post) x = post ++ pre := by
  have htake : (pre ++ x :: post).takeWhile (· ≠ x) = pre := by
    rw [takeWhile_append_of_pos (by
      intro a ha
      have hne : a ≠ x := fun h => hx (h ▸ ha)
      simpa using hne)]
    simp
  have hdrop : (pre ++ x :: post).dropWhile (· ≠ x) = x :: post := by
    rw [dropWhile_append_of_pos (by
      intro a ha
      have hne : a ≠ x := fun h => hx (h ▸ ha)
      simpa using hne)]
    simp
  rw [nodesAfter, htake, hdrop, tail_cons]

/-- A ring turned so that `x` comes first: the rest follows `x`. -/
lemma nodesAfter_of_isRotated {l t : List ℕ} {x : ℕ} (hl : l.Nodup) (h : l ~r (x :: t)) :
    nodesAfter l x = t := by
  obtain ⟨n, hn, hrot⟩ := isRotated_iff_mod.mp h
  rw [rotate_eq_drop_append_take hn] at hrot
  cases hdrop : l.drop n with
  | nil =>
    have hl' : l = x :: t := by
      rw [hdrop, nil_append, take_of_length_le (drop_eq_nil_iff.mp hdrop)] at hrot
      exact hrot
    have hx : x ∉ ([] : List ℕ) := not_mem_nil
    have hafter : nodesAfter ([] ++ x :: t) x = t ++ [] := nodesAfter_of_append hx
    rwa [nil_append, ← hl', append_nil] at hafter
  | cons y post =>
    rw [hdrop, cons_append] at hrot
    obtain ⟨rfl, rfl⟩ := List.cons.inj hrot
    have hsplit : l = l.take n ++ y :: post := by rw [← hdrop, take_append_drop]
    have hy : y ∉ l.take n := by
      intro hmem
      rw [hsplit] at hl
      exact (nodup_append.mp hl).2.2 y hmem y mem_cons_self rfl
    have hafter : nodesAfter (l.take n ++ y :: post) y = post ++ l.take n :=
      nodesAfter_of_append hy
    rwa [← hsplit] at hafter

end AudioReach.SpfCircBuf
