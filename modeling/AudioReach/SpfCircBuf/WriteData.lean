import AudioReach.SpfCircBuf.Recreate

/-!
# Writing data into the circular buffer

`_circ_buf_write_data` cuts its data into frames and writes one frame after the other.  A frame
write first recreates or destroys the marked chunks that the writer has come to, then moves the
readers out of the frame, or refuses if overflow is not allowed, and then fills the frame.

The loop goes on until nothing is left, and stops before only for a failure.  A frame write that
is refused takes nothing and is no failure, so the loop repeats it for ever.
-/

namespace AudioReach.SpfCircBuf

/-! ## The readers in the frame of the writer -/

/-- The loop of `_circ_buf_detect_and_handle_overflow`: the result, the readers, and whether the
loop was left before its end. -/
def CircBuf.overflowLoop (b : CircBuf) (allowOverflow : Bool) :
    List Client → Option (Result × List Client × Bool)
  | [] => some (success, [], false)
  | rd :: rds =>
    if rd.unreadBytes = 0 ∨ rd.pos.chunkNode ≠ b.wr.pos.chunkNode ∨
        rd.pos.framePosition ≠ b.wr.pos.framePosition then do
      let (res, rds, left) ← b.overflowLoop allowOverflow rds
      return (res, rd :: rds, left)
    else do
      let frame ← b.frameAt rd.pos
      if !allowOverflow then
        return (overrun, rd :: rds, true)
      else if rd.pos.frameOffset > frame.actualDataLen then
        return (fail, rd :: rds, true)
      else
        let pos ← b.advanceToNextFrame rd.pos
        let unreadBytes := sub32 rd.unreadBytes (frame.actualDataLen - rd.pos.frameOffset)
        let (res, rds, left) ← b.overflowLoop allowOverflow rds
        return (if left then res else res ||| overrun, { rd with pos, unreadBytes } :: rds, left)

/-- A frame of a chunk is replaced. -/
def CircBuf.setFrame (b : CircBuf) (node : ℕ) (c : Chunk) (p : ℕ) (f : Frame) : CircBuf :=
  { b with
    chunk := Function.update b.chunk node (some { c with frame := Function.update c.frame p f }) }

/-- `_circ_buf_detect_and_handle_overflow`: unless the loop is left, the header of the writer's
frame is cleared. -/
def CircBuf.detectAndHandleOverflow (b : CircBuf) (allowOverflow : Bool) :
    Option (Result × CircBuf) := do
  let (res, readers, left) ← b.overflowLoop allowOverflow b.readers
  if left then
    return (res, { b with readers })
  else
    let node ← b.wr.pos.chunkNode
    let c ← b.chunk node
    let p := b.wr.pos.framePosition
    return (res, { b with readers }.setFrame node c p (c.frame p).cleared)

/-! ## One frame -/

/-- The data to write: the buffers of the channels, or one byte to be repeated. -/
inductive Source
  | data (bufs : ℕ → List UInt8)
  | memset (value : UInt8)

/-- The buffer while data are written. -/
structure WriteState where
  buf : CircBuf
  /-- `scratch_buf_arr`: what the pointer of each channel points to, if it is not NULL. -/
  scratch : ℕ → Option (List UInt8)
  /-- The bytes of the first channel in the frames that were completed; not in the source. -/
  stored : List UInt8

/-- The bytes that go into the frame of a channel, if there are any to be had. -/
def Source.bytesFor (src : Source) (scratch : ℕ → Option (List UInt8)) (len ch : ℕ) :
    Option (List UInt8) :=
  match scratch ch, src with
  | some bytes, _ => some (bytes.take len)
  | none, .memset value => some (List.replicate len value)
  | none, .data _ => none

/-- The loop over the channels: the data of the frame, and whether it came to its end. -/
def fillChannels (src : Source) (scratch : ℕ → Option (List UInt8)) (len : ℕ) :
    List ℕ → (ℕ → List UInt8) → (ℕ → List UInt8) × Bool
  | [], data => (data, true)
  | ch :: chs, data =>
    match src.bytesFor scratch len ch with
    | some bytes => fillChannels src scratch len chs (Function.update data ch bytes)
    | none => (data, false)

/-- The count of a reader after a write. -/
def CircBuf.countUnread (b : CircBuf) (len : ℕ) (rd : Client) : Client :=
  { rd with unreadBytes := min (add32 rd.unreadBytes len) b.circBufSizeBytes }

/-- `_circ_buf_inc_write_byte_counter`. -/
def CircBuf.incWriteByteCounter (b : CircBuf) (len : ℕ) : CircBuf :=
  { b with writeByteCounter := min (add32 b.writeByteCounter len) b.circBufSizeBytes }

/-- The repeated calls of `_circ_buf_check_and_recreate`; `alloc` is whether the heap has the
memory for a new chunk of a node. -/
def CircBuf.recreateLoop (alloc : ℕ → Bool) (allowOverflow : Bool) :
    ℕ → CircBuf → Option (Result × CircBuf)
  | 0, _ => none
  | rounds + 1, b => do
    let node ← b.wr.pos.chunkNode
    let (res, didRecreate, b) ← b.checkAndRecreate (alloc node) allowOverflow
    if didRecreate then CircBuf.recreateLoop alloc allowOverflow rounds b else return (res, b)

/-- `_circ_buf_write_one_frame` for buffers without metadata: the result, the length that is
reported for the first channel, and the state.  Each round of the first loop takes a mark away. -/
def writeOneFrame (alloc : ℕ → Bool) (allowOverflow : Bool) (src : Source) (s : WriteState)
    (len : ℕ) : Option (Result × ℕ × WriteState) := do
  let (res, b) ←
    CircBuf.recreateLoop alloc allowOverflow (s.buf.chunkList.length + 1) s.buf
  if !allowOverflow && res = overrun then
    return (success, 0, { s with buf := b })
  else if b.wr.pos.frameOffset > 0 then
    return (fail, len, { s with buf := b })
  else
    let node ← b.wr.pos.chunkNode
    let c ← b.chunk node
    let bytesToWrite := min len c.frameSize
    let (res, b) ← b.detectAndHandleOverflow allowOverflow
    if !allowOverflow && res = overrun then
      return (res, if c.numChannels = 0 then len else 0,
        { s with buf := { b with readers := b.readers.map (b.countUnread 0) } })
    else
      let c ← b.chunk node
      let p := b.wr.pos.framePosition
      let (data, filled) := fillChannels src s.scratch bytesToWrite (List.range c.numChannels)
        (c.frame p).data
      -- the header of the first channel is written together with its data
      let written := if c.numChannels = 0 ∨ (src.bytesFor s.scratch bytesToWrite 0).isNone
        then (c.frame p).actualDataLen else bytesToWrite
      let b := b.setFrame node c p { (c.frame p) with actualDataLen := written, data }
      let reported := if c.numChannels = 0 ∨ (src.bytesFor s.scratch bytesToWrite 0).isNone
        then len else bytesToWrite
      if !filled then
        return (res, reported, { s with buf := b })
      else
        let consumed := if c.numChannels = 0 then 0 else bytesToWrite
        let pos ← b.advanceToNextFrame b.wr.pos
        let b := { b with wr := { b.wr with pos } }.incWriteByteCounter consumed
        return (res, reported, { s with
          buf := { b with readers := b.readers.map (b.countUnread consumed) }
          stored := s.stored ++ (data 0).take consumed })

/-! ## All the data -/

/-- The scratch buffers are set up for the channels of the chunk of the writer. -/
def Source.setScratch (src : Source) (numChannels bytesWritten : ℕ)
    (scratch : ℕ → Option (List UInt8)) (ch : ℕ) : Option (List UInt8) :=
  if ch < numChannels then
    match src with
    | .data bufs => some ((bufs ch).drop bytesWritten)
    | .memset _ => none
  else scratch ch

/-- The loop of `_circ_buf_write_data`: the result, the bytes left, and the state. -/
def writeLoop (alloc : ℕ → Bool) (allowOverflow : Bool) (src : Source) (bytesToWrite : ℕ) :
    ℕ → WriteState → ℕ → Result → Option (Result × ℕ × WriteState)
  | 0, _, _, _ => none
  | rounds + 1, s, left, res =>
    if left = 0 then some (res, 0, s)
    else do
      let node ← s.buf.wr.pos.chunkNode
      let c ← s.buf.chunk node
      let scratch := src.setScratch c.numChannels (bytesToWrite - left) s.scratch
      let (res, len, s) ←
        writeOneFrame alloc allowOverflow src { s with scratch } (min left c.frameSize)
      if res = fail then some (res, left, s)
      else writeLoop alloc allowOverflow src bytesToWrite rounds s (left - len) res

end AudioReach.SpfCircBuf
