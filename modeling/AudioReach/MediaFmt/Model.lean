import AudioReach.ArResult
import Mathlib.Data.List.Basic

/-!
# Shared media format blocks

The ports of a topology refer to media formats that are kept once: `topo_mf_utils_t` has a list
of blocks, each with a format and the number of ports that refer to it, and a port has a pointer
to the block of its format.

The model follows `tu_mf_utils.c` and `tu_has_media_format_changed` of `tu.c`.  A block is the
object at its address; the format is the first field of `mf_utils_node_t`, so a pointer to the
format is a pointer to the block.  A function that would read a block that has been freed does
not return.  The raw buffers given back to the heap are recorded in the order of the calls.
-/

namespace AudioReach

open Function (update)

/-- `spf_data_format_t`. -/
inductive SpfDataFormat
  | unknownDataFormat
  | fixedPoint
  | floatingPoint
  | rawCompressed
  | iec61937Packetized
  | dsdDopPacketized
  | comprOverPcmPacketized
  | genericCompressed
  | iec60958Packetized
  | iec60958PacketizedNonLinear
  | deinterleavedRawCompressed
  deriving DecidableEq

/-- `SPF_IS_PACKETIZED_OR_PCM`. -/
def SpfDataFormat.isPacketizedOrPcm : SpfDataFormat → Bool
  | .unknownDataFormat => false
  | .rawCompressed => false
  | .deinterleavedRawCompressed => false
  | _ => true

/-- `topo_media_fmt_t`, with room for `maxCh` channels (`CAPI_MAX_CHANNELS_V2`).  The union of
`pcm` and `deint_raw` has the size of `pcm`, and `deint_raw.bufs_num` lies where
`pcm.sample_rate` does; the other words of `deint_raw` are only ever compared as bytes.  Two
values are equal exactly when `memcmp` finds no difference. -/
structure TopoMediaFmt (maxCh : ℕ) where
  dataFormat : SpfDataFormat
  fmtId : UInt32
  /-- `pcm.sample_rate`, or `deint_raw.bufs_num`. -/
  sampleRate : UInt32
  bitWidth : UInt8
  bitsPerSample : UInt8
  qFactor : UInt8
  numChannels : UInt8
  interleaving : UInt32
  endianness : UInt32
  chanMap : Vector UInt8 maxCh
  /-- `raw.buf_ptr`. -/
  rawBufPtr : Option Addr
  /-- `raw.buf_size`. -/
  rawBufSize : UInt32
  /-- Each channel of a PCM format has an entry in the map. -/
  numChannels_le : dataFormat.isPacketizedOrPcm → numChannels.toNat ≤ maxCh
  deriving DecidableEq

namespace TopoMediaFmt

variable {maxCh : ℕ}

/-- `default_media_fmt`: all bytes are zero. -/
def default (maxCh : ℕ) : TopoMediaFmt maxCh where
  dataFormat := .unknownDataFormat
  fmtId := 0
  sampleRate := 0
  bitWidth := 0
  bitsPerSample := 0
  qFactor := 0
  numChannels := 0
  interleaving := 0
  endianness := 0
  chanMap := Vector.replicate maxCh 0
  rawBufPtr := none
  rawBufSize := 0
  numChannels_le := fun h => by simp [SpfDataFormat.isPacketizedOrPcm] at h

/-- `tu_has_media_format_changed`.  Its first test compares the pointers; a format and itself
have the same bytes, which is what `isMfChanged` asks next. -/
def hasMediaFormatChanged (a b : TopoMediaFmt maxCh) : Bool :=
  if a.dataFormat ≠ b.dataFormat then true
  else if !a.dataFormat.isPacketizedOrPcm then true
  else if a.endianness ≠ b.endianness ∨ a.sampleRate ≠ b.sampleRate ∨ a.bitWidth ≠ b.bitWidth ∨
      a.bitsPerSample ≠ b.bitsPerSample ∨ a.interleaving ≠ b.interleaving ∨
      a.numChannels ≠ b.numChannels ∨ a.fmtId ≠ b.fmtId ∨ a.qFactor ≠ b.qFactor then true
  else (List.range a.numChannels.toNat).any fun i => a.chanMap[i]? ≠ b.chanMap[i]?

/-- `is_mf_changed`. -/
def isMfChanged (a b : TopoMediaFmt maxCh) : Bool :=
  a.hasMediaFormatChanged b && decide (a ≠ b)

/-- The number of channels that `tu_get_max_num_channels` sees in a format. -/
def numChs (mf : TopoMediaFmt maxCh) : ℕ :=
  let numChs := if mf.dataFormat.isPacketizedOrPcm then mf.numChannels.toNat else 1
  if mf.dataFormat = .deinterleavedRawCompressed then mf.sampleRate.toNat else numChs

/-- The raw buffer that a format of data format `SPF_RAW_COMPRESSED` comes with. -/
def rawBufs (mf : TopoMediaFmt maxCh) : List Addr :=
  if mf.dataFormat = .rawCompressed then mf.rawBufPtr.toList else []

end TopoMediaFmt

/-- `mf_utils_node_t`. -/
structure MfUtilsNode (maxCh : ℕ) where
  mf : TopoMediaFmt maxCh
  /-- `ref_count`; the ports that are counted are objects in memory, so it does not wrap. -/
  refCount : ℕ

/-- `topo_mf_utils_t`, with the blocks it allocated. -/
structure TopoMfUtils (maxCh : ℕ) where
  mem : Addr → Option (MfUtilsNode maxCh)
  /-- `mf_node_ptr`, the blocks in the order of the list. -/
  mfNodes : List Addr
  numNodes : ℤ
  freedBufs : List Addr

/-- Where the argument `src_mf_ptr` of `tu_set_media_fmt` points. -/
inductive MfSrc (maxCh : ℕ)
  /-- Nowhere. -/
  | null
  /-- To a format of the caller. -/
  | own (mf : TopoMediaFmt maxCh)
  /-- To the format in a block. -/
  | block (a : Addr)

namespace TopoMfUtils

variable {maxCh : ℕ}

/-- No blocks. -/
def init (maxCh : ℕ) : TopoMfUtils maxCh := ⟨fun _ => none, [], 0, []⟩

/-- `tu_release_media_fmt`; the pointer of the port is null afterwards. -/
def releaseMediaFmt (me : TopoMfUtils maxCh) (mfPtr : Option Addr) : Option (TopoMfUtils maxCh) :=
  match mfPtr with
  | none => some me
  | some a =>
    (me.mem a).map fun node =>
      let refCount := if 0 < node.refCount then node.refCount - 1 else 0
      if refCount = 0 then
        { mem := update me.mem a none
          mfNodes := me.mfNodes.erase a
          numNodes := me.numNodes - 1
          freedBufs := me.freedBufs ++ node.mf.rawBufs }
      else
        { me with mem := update me.mem a (some { node with refCount := refCount }) }

/-- One more port refers to a block. -/
def addRef (me : TopoMfUtils maxCh) (a : Addr) : Option (TopoMfUtils maxCh) :=
  (me.mem a).map fun node =>
    { me with mem := update me.mem a (some { node with refCount := node.refCount + 1 }) }

/-- `tu_set_media_fmt_from_port`: the result, the blocks and the pointer of the port. -/
def setMediaFmtFromPort (me : TopoMfUtils maxCh) (dst src : Option Addr) :
    Option (ArResult × TopoMfUtils maxCh × Option Addr) :=
  match src with
  | none => some (.efailed, me, dst)
  | some a =>
    if dst ≠ some a then
      (me.releaseMediaFmt dst).bind fun me =>
        (me.addRef a).map fun me => (.eok, me, some a)
    else some (.eok, me, dst)

/-- The format that `src_mf_ptr` points to. -/
def readSrc (me : TopoMfUtils maxCh) : MfSrc maxCh → Option (TopoMediaFmt maxCh)
  | .null => some (.default maxCh)
  | .own mf => some mf
  | .block a => (me.mem a).map MfUtilsNode.mf

/-- The first test of `tu_set_media_fmt`: the port has a format with the same bytes. -/
def hasSameBytes (me : TopoMfUtils maxCh) (dst : Option Addr) (src : MfSrc maxCh) : Option Bool :=
  match dst with
  | none => some false
  | some a =>
    (me.mem a).bind fun node => (me.readSrc src).map fun mf => decide (node.mf = mf)

/-- The loop of `tu_set_media_fmt`: the first block of a list with the format. -/
def findNode (me : TopoMfUtils maxCh) (mf : TopoMediaFmt maxCh) : List Addr → Option (Option Addr)
  | [] => some none
  | a :: nodes =>
    (me.mem a).bind fun node =>
      if !node.mf.isMfChanged mf then some (some a) else me.findNode mf nodes

/-- A block for a format that no block has, at the address that the heap gave. -/
def insertNode (me : TopoMfUtils maxCh) (newNode : Addr) (mf : TopoMediaFmt maxCh) :
    TopoMfUtils maxCh :=
  { me with
    mem := update me.mem newNode (some ⟨mf, 1⟩)
    mfNodes := me.mfNodes ++ [newNode]
    numNodes := me.numNodes + 1 }

/-- `tu_set_media_fmt`: the result, the blocks and the pointer of the port.  `newNode` is what
the heap would return. -/
def setMediaFmt (me : TopoMfUtils maxCh) (dst : Option Addr) (src : MfSrc maxCh)
    (newNode : Addr) : Option (ArResult × TopoMfUtils maxCh × Option Addr) :=
  (me.hasSameBytes dst src).bind fun same =>
    if same then some (.eok, me, dst)
    else
      -- the old block is given up before the new one is looked for
      (me.releaseMediaFmt dst).bind fun me =>
        (me.readSrc src).bind fun mf =>
          (me.findNode mf me.mfNodes).bind fun found =>
            match found with
            | some a => (me.addRef a).map fun me => (.eok, me, some a)
            | none => some (.eok, me.insertNode newNode mf, some newNode)

/-- The loop of `tu_get_max_num_channels`. -/
def maxNumChannelsLoop (me : TopoMfUtils maxCh) : List Addr → ℕ → Option ℕ
  | [], maxNumChannels => some maxNumChannels
  | a :: nodes, maxNumChannels =>
    (me.mem a).bind fun node =>
      me.maxNumChannelsLoop nodes (max maxNumChannels node.mf.numChs)

/-- `tu_get_max_num_channels`. -/
def getMaxNumChannels (me : TopoMfUtils maxCh) : Option ℕ :=
  me.maxNumChannelsLoop me.mfNodes 1

end TopoMfUtils

end AudioReach
