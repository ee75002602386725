import AudioReach.Interleaver.Model
import AudioReach.Library.Interleave
import AudioReach.PushMode.Model

/-!
# Pull mode

The shared memory pull mode module reads PCM data from a circular buffer that a client fills, and
tells the client in a position buffer how far it is (`pull_push_mode.c`).  This file embeds
`pull_mode_read_input` for a module that copies: the framework gives the output buffers, and each
call fills them.  Where the circular buffer ends a frame is copied in pieces, and for every piece
the clients are sent an event for each watermark level that the read index passes.

The data of the module may be deinterleaved, with a buffer for each channel; the circular buffer is
always interleaved.  The cache operations, the messages and the priority of the thread are left
out.
-/

namespace AudioReach.PullMode

open Function (update)
open Interleaver Library

/-! ## State -/

/-- The module and the circular buffer, as far as a call does not change them. -/
structure PullCfg where
  /-- What is at `shared_circ_buf_start_ptr`. -/
  circBuf : Bytes
  sharedCircBufSize : UInt32
  dataInterleaving : Interleaving
  numChannels : UInt16
  /-- `media_fmt.bits_per_sample`, the word size. -/
  bitsPerSample : UInt32
  /-- The levels at `water_mark_levels_ptr`. -/
  waterMarkLevels : List UInt32

/-- `sh_mem_pull_push_mode_position_buffer_t`. -/
structure PosBuf where
  frameCounter : UInt32
  index : UInt32
  /-- `timestamp_us_lsw` and `timestamp_us_msw`. -/
  timestampUs : UInt64
  deriving DecidableEq

/-- `pull_push_mode_t`, as far as a call changes or checks it, and the position buffer. -/
structure PullPushMode where
  isDisabled : Bool
  /-- What is at `shared_pos_buf_ptr`. -/
  posBuf : PosBuf

/-- `pull_mode_update_pos_buffer`. -/
def pullModeUpdatePosBuffer (posBuf : PosBuf) (readIndex : UInt32) (timestamp : UInt64) : PosBuf :=
  ⟨posBuf.frameCounter + 1, readIndex, timestamp⟩

/-- `pull_push_mode_check_send_watermark_event`: the levels of the events. -/
def checkSendWatermarkEvent (cfg : PullCfg) (startLevel endLevel : UInt32) : List UInt32 :=
  cfg.waterMarkLevels.filter fun level => level > startLevel ∧ level ≤ endLevel

/-! ## The copy loop -/

/-- The variables of the copy loop, the output buffers and the events. -/
structure Copy where
  /-- What is at `module_buf_ptr[i].data_ptr`. -/
  output : ℕ → Bytes
  actualDataLen : UInt32
  numBytesCopied : UInt32
  readIndex : UInt32
  events : List UInt32

/-- A piece of interleaved data is appended to the first buffer. -/
def copyInterleaved (maxDataLen : UInt32) (src : Bytes) (bytesToCopyNow : UInt32) (s : Copy) :
    Copy :=
  let room := maxDataLen - s.actualDataLen
  let filled := s.actualDataLen.toNat
  { s with
    output := update s.output 0 (placeAt filled (s.output 0)
      (memscpy (min room bytesToCopyNow).toNat src (dropFirst filled (s.output 0))))
    actualDataLen := s.actualDataLen + min room bytesToCopyNow }

/-- A piece of the circular buffer is deinterleaved and appended to the buffers of the channels;
only the length of the first buffer is updated. -/
def copyDeinterleaved (cfg : PullCfg) (src : Bytes) (bytesToCopyNow : UInt32) (s : Copy) :
    Option (ArResult × Copy) :=
  let filled := s.actualDataLen.toNat
  let scratchBuf := fun i => ⟨dropFirst filled (s.output i), 0⟩
  (spfIntlvToDeintlv ⟨src, bytesToCopyNow⟩ scratchBuf cfg.numChannels.toUInt32
    cfg.bitsPerSample).map fun r =>
      (r.1, { s with
        output := fun i =>
          if i < cfg.numChannels.toNat then placeAt filled (s.output i) (r.2 i).data
          else s.output i
        actualDataLen := s.actualDataLen + (r.2 0).actualDataLen })

/-- What follows the copy of a piece in the loop: the events, and the wrap of the read index. -/
def finishPiece (cfg : PullCfg) (bytesToCopyNow : UInt32) (s : Copy) : Copy :=
  let readIndex := s.readIndex + bytesToCopyNow
  { s with
    numBytesCopied := s.numBytesCopied + bytesToCopyNow
    readIndex := if readIndex = cfg.sharedCircBufSize then 0 else readIndex
    events := s.events ++ checkSendWatermarkEvent cfg s.readIndex readIndex }

/-- The body of the copy loop. -/
def copyPiece (cfg : PullCfg) (maxDataLen totalCopySize : UInt32) (s : Copy) :
    Option (ArResult × Copy) :=
  let remLinSize := cfg.sharedCircBufSize - s.readIndex
  let bytesToCopyNow := min (totalCopySize - s.numBytesCopied) remLinSize
  let readPtr := dropFirst s.readIndex.toNat cfg.circBuf
  let copied : Option (ArResult × Copy) := match cfg.dataInterleaving with
    | .interleaved => some (.eok, copyInterleaved maxDataLen readPtr bytesToCopyNow s)
    | .deinterleaved => copyDeinterleaved cfg readPtr bytesToCopyNow s
  copied.map fun r => if r.1 = .eok then (.eok, finishPiece cfg bytesToCopyNow r.2) else r

/-- The copy loop, for as many rounds as there is fuel. -/
def copyLoop (cfg : PullCfg) (maxDataLen totalCopySize : UInt32) :
    ℕ → Copy → Option (ArResult × Copy)
  | 0, _ => none
  | fuel + 1, s =>
    (copyPiece cfg maxDataLen totalCopySize s).bind fun r =>
      if r.1 = .eok ∧ r.2.numBytesCopied ≠ totalCopySize then
        copyLoop cfg maxDataLen totalCopySize fuel r.2
      else some r

/-! ## A call -/

/-- `total_copy_size`. -/
def PullCfg.totalCopySize (cfg : PullCfg) (maxDataLen : UInt32) : UInt32 :=
  match cfg.dataInterleaving with
  | .interleaved => maxDataLen
  | .deinterleaved => maxDataLen * cfg.numChannels.toUInt32

/-- What a call leaves behind. -/
structure ReadResult where
  result : ArResult
  state : PullPushMode
  output : ℕ → Bytes
  actualDataLen : UInt32
  events : List UInt32

/-- `pull_mode_read_input` in copy mode.  The length that is left behind by a module that is
disabled is that of the caller, `0`. -/
def pullModeReadInput (cfg : PullCfg) (s : PullPushMode) (output : ℕ → Bytes) (maxDataLen : UInt32)
    (timestamp : UInt64) : Option ReadResult :=
  if s.isDisabled then some ⟨.efailed, s, output, 0, []⟩
  else
    let totalCopySize := cfg.totalCopySize maxDataLen
    (copyLoop cfg maxDataLen totalCopySize (totalCopySize.toNat + 1)
      ⟨output, 0, 0, s.posBuf.index, []⟩).map fun r =>
        let state := if r.1 = .eok then
          { s with posBuf := pullModeUpdatePosBuffer s.posBuf r.2.readIndex timestamp } else s
        ⟨r.1, state, r.2.output, r.2.actualDataLen, r.2.events⟩

end AudioReach.PullMode
