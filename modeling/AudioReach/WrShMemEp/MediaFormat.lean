import AudioReach.Library.Words
import AudioReach.MediaFmt.Model

/-!
# Media formats from a client of the write end point

A client of the shared memory write end point says in which format its data buffers are: a
`media_format_t` with a payload whose layout depends on the data format.  The parser of
`gen_cntr_wr_sh_mem_ep.c` fills a `topo_media_fmt_t` on its stack and hands it to the external
input port, and the data buffers that follow are tested against the format of the port.

The payload is the memory behind the header, also beyond `payload_size`; the parser keeps a record
of the bytes it reads there and of the bytes it writes to `chan_map` and to the raw buffer that the
format owns.  A result `none` of `inputDataBufferSetUp` stands for a division by zero.
-/

namespace AudioReach

open Function (update)
open Library (wordAt)

/-- What the build decides for the write end point. -/
structure WrEpBuild where
  /-- `CAPI_MAX_CHANNELS_V2`. -/
  maxCh : ℕ
  /-- The offload extension is built, and not its stub. -/
  offload : Bool
  cacheAlignment : UInt32

/-- `media_format_t`, and the memory behind it. -/
structure ClientMediaFormat where
  dataFormat : UInt32
  fmtId : UInt32
  payloadSize : UInt32
  payload : ℕ → UInt8

/-- The little-endian 16-bit word at `p`. -/
def halfAt (m : ℕ → UInt8) (p : ℕ) : UInt16 :=
  (m p).toUInt16 ||| ((m (p + 1)).toUInt16 <<< 8)

/-- `topo_media_fmt_t` on the stack of the parser.  The channel map has `maxCh` entries; nothing
says yet that the channels fit into it. -/
structure LocalMediaFmt where
  dataFormat : SpfDataFormat
  fmtId : UInt32
  sampleRate : UInt32
  bitWidth : UInt8
  bitsPerSample : UInt8
  qFactor : UInt8
  numChannels : UInt8
  interleaving : UInt32
  endianness : UInt32
  chanMap : ℕ → UInt8
  /-- `raw.buf_size`; the buffer is there if this is set. -/
  rawBufSize : Option UInt32

namespace LocalMediaFmt

/-- The format after `memset`. -/
def zero : LocalMediaFmt := ⟨.unknownDataFormat, 0, 0, 0, 0, 0, 0, 0, 0, fun _ => 0, none⟩

/-- `TOPO_BITS_TO_BYTES` of the bits per sample. -/
def bytesPerSample (f : LocalMediaFmt) : ℕ := f.bitsPerSample.toNat >>> 3

/-- A PCM or packetized format has a channel and a byte per sample. -/
def HasUnits (f : LocalMediaFmt) : Prop :=
  f.dataFormat.isPacketizedOrPcm → 1 ≤ f.numChannels.toNat ∧ 1 ≤ f.bytesPerSample

instance (f : LocalMediaFmt) : Decidable f.HasUnits :=
  inferInstanceAs (Decidable (_ → _))

/-- `tu_has_media_format_changed`.  A format with more channels than the map has entries is
compared further, with the bytes behind the maps; `past` says where those differ. -/
def hasMediaFormatChanged (maxCh : ℕ) (past : ℕ → Bool) (a b : LocalMediaFmt) : Bool :=
  if a.dataFormat ≠ b.dataFormat then true
  else if !a.dataFormat.isPacketizedOrPcm then true
  else if a.endianness ≠ b.endianness ∨ a.sampleRate ≠ b.sampleRate ∨ a.bitWidth ≠ b.bitWidth ∨
      a.bitsPerSample ≠ b.bitsPerSample ∨ a.interleaving ≠ b.interleaving ∨
      a.numChannels ≠ b.numChannels ∨ a.fmtId ≠ b.fmtId ∨ a.qFactor ≠ b.qFactor then true
  else (List.range a.numChannels.toNat).any fun i =>
    if i < maxCh then a.chanMap i ≠ b.chanMap i else past i

end LocalMediaFmt

/-! ## The formats a client may describe -/

/-- `payload_media_fmt_pcm_t`, 16 bytes; the channel map follows. -/
structure PayloadMediaFmtPcm where
  sampleRate : UInt32
  bitWidth : UInt16
  alignment : UInt8
  interleaved : UInt8
  bitsPerSample : UInt16
  qFactor : UInt16
  endianness : UInt16
  numChannels : UInt16

namespace ClientMediaFormat

/-- `MEDIA_FMT_ID_PCM`. -/
def idPcm : UInt32 := 0x09001000

/-- `MEDIA_FMT_ID_PCM_EXTN`. -/
def idPcmExtn : UInt32 := 0x09001011

/-- The payload as a `payload_media_fmt_pcm_t`. -/
def pcm (m : ClientMediaFormat) : PayloadMediaFmtPcm where
  sampleRate := wordAt m.payload 0
  bitWidth := halfAt m.payload 4
  alignment := m.payload 6
  interleaved := m.payload 7
  bitsPerSample := halfAt m.payload 8
  qFactor := halfAt m.payload 10
  endianness := halfAt m.payload 12
  numChannels := halfAt m.payload 14

end ClientMediaFormat

namespace PayloadMediaFmtPcm

/-- `capi_cmn_validate_client_pcm_common_media_format`. -/
def validateCommon (maxCh : ℕ) (p : PayloadMediaFmtPcm) : ArResult :=
  if p.numChannels = 0 ∨ maxCh < p.numChannels.toNat then .ebadparam
  else if p.sampleRate = 0 ∨ 384000 < p.sampleRate then .ebadparam
  else if p.endianness ≠ 1 ∧ p.endianness ≠ 2 then .ebadparam
  else .eok

/-- `capi_cmn_validate_client_pcm_float_media_format`. -/
def validateFloat (maxCh : ℕ) (p : PayloadMediaFmtPcm) : ArResult :=
  if p.validateCommon maxCh ≠ .eok then .ebadparam
  else if p.bitWidth = 32 then if p.bitsPerSample = 32 then .eok else .ebadparam
  else if p.bitWidth = 64 then if p.bitsPerSample = 64 then .eok else .ebadparam
  else .ebadparam

/-- `capi_cmn_validate_client_pcm_media_format`.  For 16 and for 32 bits the negation of the
source is around the test of the bits per sample only. -/
def validateFixed (maxCh : ℕ) (p : PayloadMediaFmtPcm) : ArResult :=
  if p.validateCommon maxCh ≠ .eok then .ebadparam
  else if p.bitWidth = 16 then
    if ¬ p.bitsPerSample = 16 ∧ p.qFactor = 15 then .ebadparam else .eok
  else if p.bitWidth = 24 then
    if p.bitsPerSample = 24 then if p.qFactor ≠ 23 then .ebadparam else .eok
    else if p.bitsPerSample = 32 then
      if ¬ (p.qFactor = 27 ∨ p.qFactor = 23 ∧ p.alignment = 1 ∨ p.qFactor = 31 ∧ p.alignment = 2)
      then .ebadparam else .eok
    else .ebadparam
  else if p.bitWidth = 32 then
    if ¬ p.bitsPerSample = 32 ∧ p.qFactor = 31 then .ebadparam else .eok
  else .ebadparam

/-- `gen_topo_convert_public_endianness_to_gen_topo_endianness`. -/
def topoEndianness (p : PayloadMediaFmtPcm) : UInt32 :=
  if p.endianness = 1 then 1 else if p.endianness = 2 then 2 else 0

/-- `gen_topo_convert_public_interleaving_to_gen_topo_interleaving`. -/
def topoInterleaving (p : PayloadMediaFmtPcm) : UInt32 :=
  if p.interleaved = 1 then 1 else if p.interleaved = 2 then 2
  else if p.interleaved = 3 then 4 else 0

end PayloadMediaFmtPcm

/-! ## The parser -/

/-- The format on the stack, and what the parser has done to memory so far. -/
structure ParseState where
  /-- `local_media_fmt`. -/
  fmt : LocalMediaFmt
  /-- The reads of the payload, as offset and number of bytes. -/
  reads : List (ℕ × ℕ)
  /-- The entries of `chan_map` that were written. -/
  chanWrites : List ℕ
  /-- The writes to the raw buffer, as offset and number of bytes. -/
  rawWrites : List (ℕ × ℕ)

/-- Programs of the parser. -/
abbrev ParseM := EStateM ArResult ParseState

/-- Before the parser runs. -/
def ParseState.init : ParseState := ⟨.zero, [], [], []⟩

/-- Read `len` bytes at `off` of the payload. -/
def readPayload (off len : ℕ) : ParseM Unit :=
  modify fun s => { s with reads := s.reads ++ [(off, len)] }

/-- Assign to fields of `local_media_fmt`. -/
def setFmt (f : LocalMediaFmt → LocalMediaFmt) : ParseM Unit :=
  modify fun s => { s with fmt := f s.fmt }

/-- `TRY` on a check that returned `r`. -/
def tryResult (r : ArResult) : ParseM Unit :=
  if r = .eok then pure () else throw r

/-- One round of the loop over the channel map, which starts behind the 16 bytes of
`payload_media_fmt_pcm_t`. -/
def copyChannel (m : ClientMediaFormat) (ch : ℕ) : ParseM Unit := do
  readPayload (16 + ch) 1
  modify fun s =>
    { s with
      fmt := { s.fmt with chanMap := update s.fmt.chanMap ch (m.payload (16 + ch)) }
      chanWrites := s.chanWrites ++ [ch] }

/-- The data format, checked, and the Q factor.  Only these two data formats get here. -/
def parsePcmDataFormat (b : WrEpBuild) (m : ClientMediaFormat) : ParseM Unit :=
  if m.dataFormat = 1 then do
    setFmt fun f => { f with dataFormat := .fixedPoint }
    tryResult (m.pcm.validateFixed b.maxCh)
    setFmt fun f => { f with qFactor := m.pcm.qFactor.toUInt8 }
  else do
    setFmt fun f => { f with dataFormat := .floatingPoint }
    tryResult (m.pcm.validateFloat b.maxCh)
    setFmt fun f => { f with qFactor := 0 }

/-- The fields that both PCM formats copy after the data format. -/
def parsePcmFields (m : ClientMediaFormat) : ParseM Unit := do
  setFmt fun f =>
    { f with
      bitsPerSample := m.pcm.bitsPerSample.toUInt8
      bitWidth := m.pcm.bitWidth.toUInt8
      endianness := m.pcm.topoEndianness }
  if m.pcm.topoEndianness = 0 then throw .efailed
  setFmt fun f =>
    { f with sampleRate := m.pcm.sampleRate, numChannels := m.pcm.numChannels.toUInt8 }

/-- The channel map, for the number of channels that was stored. -/
def parseChannelMap (m : ClientMediaFormat) : ParseM Unit :=
  (List.range m.pcm.numChannels.toUInt8.toNat).forM (copyChannel m)

/-- `gen_cntr_offload_parse_inp_pcm_media_fmt_from_gpr_client`, or its stub. -/
def genCntrOffloadParseInpPcmMediaFmt (b : WrEpBuild) (m : ClientMediaFormat) : ParseM Unit :=
  if b.offload && m.fmtId == ClientMediaFormat.idPcmExtn then do
    if m.payloadSize < 16 then throw .efailed
    readPayload 0 16
    setFmt fun f =>
      { f with fmtId := ClientMediaFormat.idPcm, interleaving := m.pcm.topoInterleaving }
    parsePcmDataFormat b m
    parsePcmFields m
    parseChannelMap m
  else throw .eunsupported

/-- `gen_cntr_parse_inp_pcm_media_fmt_from_gpr_client`. -/
def genCntrParseInpPcmMediaFmt (b : WrEpBuild) (m : ClientMediaFormat) : ParseM Unit :=
  if m.fmtId = ClientMediaFormat.idPcm then do
    if m.payloadSize < 16 then throw .efailed
    readPayload 0 16
    setFmt fun f => { f with fmtId := m.fmtId }
    parsePcmDataFormat b m
    parsePcmFields m
    if m.pcm.interleaved = 0 ∨ m.pcm.interleaved = 1 then
      setFmt fun f => { f with interleaving := 1 }
    else throw .ebadparam
    parseChannelMap m
  else genCntrOffloadParseInpPcmMediaFmt b m

/-- `tu_capi_create_raw_compr_med_fmt` with a header, for a format without a raw buffer.  The
size is computed in 32 bits; `memscpy` is told that the whole buffer is behind the header. -/
def tuCapiCreateRawComprMedFmt (m : ClientMediaFormat) (malloc : Bool) : ParseM Unit := do
  let bufSize := 8 + m.payloadSize
  if !malloc then throw .enomemory
  setFmt fun f => { f with rawBufSize := some bufSize }
  modify fun s => { s with rawWrites := s.rawWrites ++ [(0, 4), (4, 4)] }
  if m.payloadSize ≠ 0 then do
    let size := min bufSize.toNat m.payloadSize.toNat
    readPayload 0 size
    modify fun s => { s with rawWrites := s.rawWrites ++ [(8, size)] }

/-- A packetized format of IEC 60958 or IEC 61937. -/
def parseIecPacketized (m : ClientMediaFormat) : ParseM Unit := do
  if m.dataFormat = 3 then
    setFmt fun f =>
      { f with dataFormat := .iec60958Packetized, bitsPerSample := 32, bitWidth := 32, qFactor := 31 }
  else
    setFmt fun f =>
      { f with dataFormat := .iec61937Packetized, bitsPerSample := 16, bitWidth := 16, qFactor := 15 }
  readPayload 0 4
  readPayload 4 2
  setFmt fun f =>
    { f with
      fmtId := m.fmtId
      sampleRate := wordAt m.payload 0
      numChannels := (halfAt m.payload 4).toUInt8
      interleaving := 1
      endianness := 1 }

/-- A generic compressed format. -/
def parseGenericCompressed (m : ClientMediaFormat) : ParseM Unit := do
  readPayload 0 4
  readPayload 4 2
  readPayload 6 2
  setFmt fun f =>
    { f with
      dataFormat := .genericCompressed
      fmtId := m.fmtId
      bitWidth := (halfAt m.payload 4).toUInt8
      bitsPerSample := (halfAt m.payload 4).toUInt8
      sampleRate := wordAt m.payload 0
      numChannels := (halfAt m.payload 6).toUInt8
      interleaving := 1
      endianness := 1 }

/-- The switch of `gen_cntr_data_ctrl_cmd_handle_in_media_fmt_from_gpr_client`. -/
def parseInMediaFmt (b : WrEpBuild) (m : ClientMediaFormat) (malloc : Bool) : ParseM Unit :=
  if m.dataFormat = 1 ∨ m.dataFormat = 9 then genCntrParseInpPcmMediaFmt b m
  else if m.dataFormat = 6 then do
    tuCapiCreateRawComprMedFmt m malloc
    setFmt fun f => { f with dataFormat := .rawCompressed, fmtId := m.fmtId }
  else if m.dataFormat = 2 ∨ m.dataFormat = 3 then parseIecPacketized m
  else if m.dataFormat = 5 then parseGenericCompressed m
  else throw .eunsupported

/-! ## The data buffers -/

/-- What `gen_cntr_input_data_buffer_set_up_gpr_client_v2` reads of a data packet. -/
structure WrDataBuffer where
  dataBufAddrLsw : UInt32
  dataBufSize : UInt32
  mdBufAddrLsw : UInt32
  mdMemMapHandle : UInt32
  mdBufSize : UInt32
  /-- `GPR_PKT_GET_PAYLOAD_BYTE_SIZE` of the packet. -/
  pktSize : UInt32

/-- What becomes of a data packet before its buffers are mapped. -/
inductive DataBufferFate
  /-- It is returned with this status; `md` says that the metadata is at fault. -/
  | returned (status : ArResult) (md : Bool)
  /-- Its buffers are mapped next. -/
  | goesOn
  deriving DecidableEq, Repr

/-- `unit_size`. -/
def LocalMediaFmt.unitSize (f : LocalMediaFmt) : ℕ := f.numChannels.toNat * f.bytesPerSample

/-- `gen_cntr_input_data_buffer_set_up_gpr_client_v2` on a port with the format `fmt`, up to the
point where the buffers are mapped. -/
def inputDataBufferSetUp (b : WrEpBuild) (fmt : LocalMediaFmt) (d : WrDataBuffer) :
    Option DataBufferFate :=
  if d.dataBufSize = 0 ∧ d.mdBufSize = 0 then some (.returned .eok false)
  else if d.dataBufAddrLsw &&& b.cacheAlignment ≠ 0 then some (.returned .ebadparam false)
  else if d.mdMemMapHandle ≠ 0 ∧ d.mdBufAddrLsw &&& b.cacheAlignment ≠ 0 then
    some (.returned .eok true)
  else if d.mdMemMapHandle = 0 ∧ d.pktSize < 44 + d.mdBufSize then some (.returned .eok true)
  else if 0 < d.dataBufSize ∧ fmt.dataFormat.isPacketizedOrPcm then
    if fmt.unitSize = 0 then none
    else if d.dataBufSize.toNat % fmt.unitSize ≠ 0 then some (.returned .ebadparam false)
    else some .goesOn
  else some .goesOn

end AudioReach
