import Mathlib.Algebra.Ring.Nat
import Mathlib.Data.List.Basic

/-!
# The circular buffer of the audio dam

The buffer keeps its bytes in a list of separately allocated chunks of any sizes.  One writer
and any number of readers have a position in it: a chunk and an offset into that chunk.  A
reader also has a count of the bytes it has not read.

The model follows `circular_buffer_island.c` and `circular_buffer_read_island.c`.  A chunk
node is its place in the list, a chunk is the list of its bytes, and the buffer is not
resized.  The loops that walk over the chunks take a bound on their rounds; `none` is a loop
that is not through by then.  The two counters that are added to before they are capped are
32-bit words.
-/

namespace AudioReach

/-- `circbuf_result_t`. -/
inductive CircBufResult
  | success
  | fail
  | overrun
  | underrun
  deriving DecidableEq, Repr

/-- The number of values of a `uint32_t`. -/
def uint32Size : ℕ := 4294967296

/-- A position: `rw_chunk_node_ptr` and `rw_chunk_offset`. -/
structure ChunkPos where
  node : ℕ
  offset : ℕ
  deriving DecidableEq, Repr

/-- A `circ_buf_client_t` that reads. -/
structure ReadClient where
  pos : ChunkPos
  unreadBytes : ℕ
  deriving DecidableEq, Repr

/-- `circ_buf_t` with its clients. -/
structure CircBuf where
  /-- The chunks behind `head_chunk_ptr`. -/
  chunks : List (List UInt8)
  /-- The position of `wr_client_ptr`. -/
  wrPos : ChunkPos
  writeByteCounter : ℕ
  /-- The clients in `rd_client_list_ptr`. -/
  readers : List ReadClient
  deriving DecidableEq, Repr

/-! ## Walking over the chunks -/

section Walk

variable (chunks : List (List UInt8))

/-- `circ_buf_size`: the sum of the chunk sizes. -/
def circBufSize : ℕ := (chunks.map List.length).sum

/-- The chunk at a place of the list. -/
def chunkAt (node : ℕ) : List UInt8 := chunks.getD node []

/-- `add_circ_buf_next_chunk_node`: the next chunk, or the head after the last. -/
def nextChunkNode (node : ℕ) : ℕ := if node + 1 < chunks.length then node + 1 else 0

/-- The rounds after which each of the loops below is through: one for each chunk, one more
for the rest of the first, and one to see the counter at zero. -/
def walkRounds : ℕ := chunks.length + 2

/-- The loop of `add_circ_buf_position_shift_forward`. -/
def shiftLoop : ℕ → ChunkPos → ℕ → Option ChunkPos
  | 0, _, _ => none
  | rounds + 1, pos, counter =>
    if counter = 0 then some pos
    else
      let left := (chunkAt chunks pos.node).length - pos.offset
      if counter < left then shiftLoop rounds { pos with offset := pos.offset + counter } 0
      else shiftLoop rounds ⟨nextChunkNode chunks pos.node, 0⟩ (counter - left)

/-- `add_circ_buf_position_shift_forward`: the new position, or `none` on failure. -/
def positionShiftForward (pos : ChunkPos) (bytesToAdvance : ℕ) : Option ChunkPos :=
  if bytesToAdvance > circBufSize chunks then none
  else if bytesToAdvance = circBufSize chunks ∨ bytesToAdvance = 0 then some pos
  else shiftLoop chunks (walkRounds chunks) pos bytesToAdvance

/-- The loop of `circ_buf_read`: the bytes that are copied out, and the new position. -/
def readLoop : ℕ → ChunkPos → ℕ → Option (List UInt8 × ChunkPos)
  | 0, _, _ => none
  | rounds + 1, pos, counter =>
    if counter = 0 then some ([], pos)
    else
      let rest := (chunkAt chunks pos.node).drop pos.offset
      if counter < rest.length then
        (readLoop rounds { pos with offset := pos.offset + counter } 0).map fun out =>
          (rest.take counter ++ out.1, out.2)
      else
        (readLoop rounds ⟨nextChunkNode chunks pos.node, 0⟩ (counter - rest.length)).map
          fun out => (rest ++ out.1, out.2)

end Walk

/-- Store `data` in a chunk from `offset` on. -/
def storeAt (chunk : List UInt8) (offset : ℕ) (data : List UInt8) : List UInt8 :=
  chunk.take offset ++ data ++ chunk.drop (offset + data.length)

/-- The loop of `add_circ_buf_data_copy_util`; `data` is what is still to be copied, be it
from the source or a repeated byte. -/
def dataCopyLoop : ℕ → List (List UInt8) → ChunkPos → List UInt8 →
    Option (List (List UInt8) × ChunkPos)
  | 0, _, _, _ => none
  | rounds + 1, chunks, pos, data =>
    if data.length = 0 then some (chunks, pos)
    else
      let chunk := chunkAt chunks pos.node
      let left := chunk.length - pos.offset
      if data.length < left then
        dataCopyLoop rounds (chunks.set pos.node (storeAt chunk pos.offset data))
          { pos with offset := pos.offset + data.length } []
      else
        dataCopyLoop rounds (chunks.set pos.node (storeAt chunk pos.offset (data.take left)))
          ⟨nextChunkNode chunks pos.node, 0⟩ (data.drop left)

/-! ## The calls -/

/-- `add_circ_buf_read_advance`. -/
def readAdvance (chunks : List (List UInt8)) (rd : ReadClient) (bytesToAdvance : ℕ) :
    CircBufResult × ReadClient :=
  if chunks = [] then (.fail, rd)
  else if bytesToAdvance > rd.unreadBytes then (.fail, rd)
  else
    match positionShiftForward chunks rd.pos bytesToAdvance with
    | none => (.fail, rd)
    | some pos => (.success, { pos := pos, unreadBytes := rd.unreadBytes - bytesToAdvance })

/-- The body of `_circ_buf_detect_and_handle_overflow` for one reader. -/
def handleOverflow (chunks : List (List UInt8)) (bytesToWrite : ℕ) (rd : ReadClient) : ReadClient :=
  let freeBytes := circBufSize chunks - rd.unreadBytes
  if bytesToWrite > freeBytes then (readAdvance chunks rd (bytesToWrite - freeBytes)).2 else rd

/-- A 32-bit counter after `n` more bytes, capped at the size of the buffer. -/
def capCounter (size counter n : ℕ) : ℕ :=
  let sum := (counter + n) % uint32Size
  if sum > size then size else sum

namespace CircBuf

/-- `circ_buf_size`. -/
def size (b : CircBuf) : ℕ := circBufSize b.chunks

/-- A buffer after its writer and then its readers were registered: nothing is written, and
all clients are at the head. -/
def init (chunks : List (List UInt8)) (numReaders : ℕ) : CircBuf :=
  { chunks := chunks
    wrPos := ⟨0, 0⟩
    writeByteCounter := 0
    readers := List.replicate numReaders { pos := ⟨0, 0⟩, unreadBytes := 0 } }

/-- `add_circ_buf_write_util`.  `circ_buf_write` calls it with the bytes of its source, and
`circ_buf_memset` with one byte repeated. -/
def writeUtil (b : CircBuf) (data : List UInt8) : CircBufResult × CircBuf :=
  if b.chunks = [] then (.fail, b)
  else if data.length > b.size then (.fail, b)
  else
    let overrun := b.readers.any fun rd => data.length > b.size - rd.unreadBytes
    match dataCopyLoop (walkRounds b.chunks) b.chunks b.wrPos data with
    | none => (.fail, b)
    | some (chunks, wrPos) =>
      (if overrun then .overrun else .success,
        { chunks := chunks
          wrPos := wrPos
          writeByteCounter := capCounter b.size b.writeByteCounter data.length
          readers := b.readers.map fun rd =>
            let rd := handleOverflow b.chunks data.length rd
            { rd with unreadBytes := capCounter b.size rd.unreadBytes data.length } })

/-- `circ_buf_memset`. -/
def memset (b : CircBuf) (writeValue : UInt8) (numBytes : ℕ) : CircBufResult × CircBuf :=
  b.writeUtil (List.replicate numBytes writeValue)

/-- `circ_buf_read` for one reader: the result, the bytes read and the reader afterwards. -/
def readClient (b : CircBuf) (rd : ReadClient) (bytesToRead : ℕ) :
    CircBufResult × List UInt8 × ReadClient :=
  if b.chunks = [] ∨ bytesToRead > b.size then (.fail, [], rd)
  else if bytesToRead > rd.unreadBytes ∧ rd.unreadBytes = 0 then (.underrun, [], rd)
  else
    let n := if bytesToRead > rd.unreadBytes then rd.unreadBytes else bytesToRead
    match readLoop b.chunks (walkRounds b.chunks) rd.pos n with
    | none => (.fail, [], rd)
    | some (out, pos) => (.success, out, { pos := pos, unreadBytes := rd.unreadBytes - n })

/-- `add_circ_buf_read_client_reset` with `force_reset`. -/
def readClientReset (b : CircBuf) (_rd : ReadClient) : ReadClient :=
  let unread := min b.writeByteCounter b.size
  if unread < b.size then
    match positionShiftForward b.chunks b.wrPos (b.size - b.writeByteCounter) with
    | none => { pos := b.wrPos, unreadBytes := unread }
    | some pos => { pos := pos, unreadBytes := unread }
  else { pos := b.wrPos, unreadBytes := unread }

/-- `circ_buf_read_adjust` for one reader: the result, `*actual_unread_bytes_ptr` and the
reader afterwards. -/
def readAdjustClient (b : CircBuf) (rd : ReadClient) (readOffset : ℕ) (forceAdjust : Bool) :
    CircBufResult × ℕ × ReadClient :=
  let rd := if forceAdjust then b.readClientReset rd else rd
  let offset := if readOffset > rd.unreadBytes then rd.unreadBytes else readOffset
  let advanced := readAdvance b.chunks rd (rd.unreadBytes - offset)
  (advanced.1, offset, advanced.2)

end CircBuf

end AudioReach
