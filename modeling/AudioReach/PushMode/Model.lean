import AudioReach.ArResult
import AudioReach.Library.Words

/-!
# Push mode with batch headers

The shared memory push mode module copies the PCM frames that it receives to a circular buffer
that it shares with a client (`pull_push_mode.c`).  With batch headers enabled the frames up to
an end of stream, an end of frame, a batch end marker or a frame without a timestamp form a
batch, which is a header followed by the interleaved samples and by padding.  The header has a
parameter with the size of the samples and of the padding, which are written through saved
pointers when the batch ends, and then the position buffer tells the client where the next batch
starts.

This file embeds `push_mode_write_output` and what it calls, for a module with batch headers: the
module buffer access extension, which gives the framework a piece of the circular buffer to write
to, is then off.  A result `none` stands for a store outside the circular buffer, through the
null pointer included.  The events for the clients, the cache flushes and the messages are left
out.
-/

namespace AudioReach

open Library

/-! ## Configuration -/

/-- `capi_interleaving_t`. -/
inductive Interleaving
  | interleaved
  | deinterleaved
  deriving DecidableEq, Repr

/-- `pm_media_fmt_t`, as `pull_push_check_media_fmt_validity` accepts it. -/
structure PmMediaFmt where
  dataInterleaving : Interleaving
  numChannels : ℕ
  /-- `bits_per_sample`, the word size. -/
  bitsPerSample : ℕ
  numChannels_pos : 0 < numChannels
  bitsPerSample_eq : bitsPerSample = 16 ∨ bitsPerSample = 24 ∨ bitsPerSample = 32

/-- The bytes of a sample. -/
def PmMediaFmt.bytesPerSamp (fmt : PmMediaFmt) : ℕ := fmt.bitsPerSample >>> 3

lemma PmMediaFmt.bytesPerSamp_pos (fmt : PmMediaFmt) : 0 < fmt.bytesPerSamp := by
  rcases fmt.bitsPerSample_eq with h | h | h <;> simp [bytesPerSamp, h]

/-- `pull_push_mode_check_buf_size`. -/
def pullPushModeCheckBufSize (sharedCircBufSize : ℕ) (fmt : PmMediaFmt) : ArResult :=
  let unitSize := fmt.bytesPerSamp * fmt.numChannels
  if unitSize ≠ 0 ∧ sharedCircBufSize ≠ 0 ∧ sharedCircBufSize % unitSize ≠ 0 then .efailed else .eok

/-- The configuration of a push mode module with batch headers. -/
structure PushCfg where
  /-- `shared_circ_buf_size`. -/
  size : ℕ
  /-- `media_fmt`. -/
  fmt : PmMediaFmt
  headerTypeFlags : UInt32
  size_pos : 0 < size
  /-- `shared_circ_buf_size` is a `uint32_t`. -/
  size_lt : size < 2 ^ 32
  size_accepted : pullPushModeCheckBufSize size fmt = .eok

/-! ## Stores to the circular buffer -/

/-- A store of a `uint32_t` through a pointer into the circular buffer. -/
def storeWord (size : ℕ) (m : ℕ → UInt8) (ptr : Option ℕ) (v : ℕ) : Option (ℕ → UInt8) :=
  ptr.bind fun p => storeIn size m p (wordBytes (UInt32.ofNat v))

/-- The bytes of sample `i` of a channel. -/
def sampleBytes (src : ℕ → UInt8) (bytesPerSamp i : ℕ) : List UInt8 :=
  (List.range bytesPerSamp).map fun b => src (i * bytesPerSamp + b)

/-- `spf_deintlv_to_intlv_v2`, to the address `dst` of the circular buffer.  The word sizes of a
media format are all supported; each sample is copied in one piece. -/
def spfDeintlvToIntlvV2 (size : ℕ) (m : ℕ → UInt8) (dst : ℕ) (src : ℕ → ℕ → UInt8)
    (numChannels bytesPerSamp numSampPerCh : ℕ) : Option (ℕ → UInt8) :=
  if numChannels = 1 then
    storeIn size m dst ((List.range (numSampPerCh * bytesPerSamp)).map (src 0))
  else
    (List.range numChannels).foldlM (fun m j =>
      (List.range numSampPerCh).foldlM (fun m i =>
        storeIn size m (dst + bytesPerSamp * (i * numChannels + j))
          (sampleBytes (src j) bytesPerSamp i)) m) m

/-- `spf_deintlv_to_intlv`: all the samples of the input, whose length in bytes is that of a
channel.  The room at `dst` is not an argument. -/
def spfDeintlvToIntlv (cfg : PushCfg) (m : ℕ → UInt8) (dst : ℕ) (src : ℕ → ℕ → UInt8)
    (actualDataLen : ℕ) : Option (ℕ → UInt8) :=
  spfDeintlvToIntlvV2 cfg.size m dst src cfg.fmt.numChannels cfg.fmt.bytesPerSamp
    (actualDataLen / cfg.fmt.bytesPerSamp)

/-- The copy loop of `push_mode_write_output` for deinterleaved data: gives the memory, the bytes
copied of each channel and the write index. -/
def copyDeinterleaved (cfg : PushCfg) (src : ℕ → ℕ → UInt8) :
    ℕ → (ℕ → UInt8) → ℕ → ℕ → ℕ → Option ((ℕ → UInt8) × ℕ × ℕ)
  | _, m, 0, bytesCopied, writeIndex => some (m, bytesCopied, writeIndex)
  | 0, _, _ + 1, _, _ => none
  | fuel + 1, m, len + 1, bytesCopied, writeIndex =>
    let bytesToCopy := min ((len + 1) * cfg.fmt.numChannels) (cfg.size - writeIndex)
    let bytesCopiedNow := bytesToCopy / cfg.fmt.numChannels
    (spfDeintlvToIntlv cfg m writeIndex (fun c b => src c (bytesCopied + b)) (len + 1)).bind
      fun m => copyDeinterleaved cfg src fuel m (len + 1 - bytesCopiedNow)
        (bytesCopied + bytesCopiedNow) (wrapIndex cfg.size writeIndex bytesToCopy)

/-! ## The batch header -/

/-- `SH_MEM_PUSH_MODE_HEADER_SYNC_WORD`. -/
def headerSyncWord : UInt32 := 0x5350464D

/-- `PARAM_ID_HEADER_TYPE_UTC_TIMESTAMP`. -/
def paramIdUtcTimestamp : UInt32 := 0x08001BE0

/-- `PARAM_ID_HEADER_TYPE_PCM_DATA`. -/
def paramIdPcmData : UInt32 := 0x08001BE1

/-- `sh_mem_push_mode_param_header_t`. -/
def paramHeader (paramId actualSize paddingSize : UInt32) : List UInt8 :=
  wordBytes paramId ++ wordBytes actualSize ++ wordBytes paddingSize

/-- The parameters before the PCM data: the UTC timestamp, if it is enabled. -/
def enabledParams (headerTypeFlags : UInt32) (utcTime : UInt64) : List UInt8 :=
  if headerTypeFlags &&& 1 ≠ 0 then
    paramHeader paramIdUtcTimestamp 8 0 ++ wordBytes utcTime.toUInt32 ++
      wordBytes (utcTime >>> 32).toUInt32
  else []

/-- The sync word and the parameters before the PCM data. -/
def headerStart (headerTypeFlags : UInt32) (utcTime : UInt64) : List UInt8 :=
  wordBytes headerSyncWord ++ enabledParams headerTypeFlags utcTime

/-- The header of a batch whose sizes are not known yet. -/
def batchHeader (headerTypeFlags : UInt32) (utcTime : UInt64) : List UInt8 :=
  headerStart headerTypeFlags utcTime ++ paramHeader paramIdPcmData 0 0

/-! ## The module -/

/-- `sh_mem_pull_push_mode_position_buffer_t`. -/
structure PosBuf where
  frameCounter : UInt32
  index : ℕ
  /-- `timestamp_us_lsw` and `timestamp_us_msw`. -/
  timestampUs : UInt64
  deriving DecidableEq

/-- `capi_pm_t` and the shared memory. -/
structure PushMode where
  circBuf : ℕ → UInt8
  posBuf : PosBuf
  isDisabled : Bool
  isPendingPosBufReset : Bool
  lastValidTimestamp : UInt64
  /-- `is_update_header`: the next frame starts a batch. -/
  isUpdateHeader : Bool
  /-- `header_buffer_size`, `0` without a header buffer. -/
  headerBufferSize : ℕ
  /-- `pcm_param_actual_size_ptr`, as an index into the circular buffer. -/
  pcmParamActualSizePtr : Option ℕ
  /-- `pcm_param_padding_size_ptr`, as an index into the circular buffer. -/
  pcmParamPaddingSizePtr : Option ℕ
  batchWriteIndex : ℕ
  pcmBytesWritten : ℕ
  batchBytesWritten : ℕ

/-- An input of `push_mode_write_output`, with what the time module answers during the call. -/
structure PushInput where
  isTimestampValid : Bool
  timestamp : UInt64
  actualDataLen : ℕ
  /-- The bytes at `buf_ptr[c].data_ptr`, for each buffer `c`. -/
  dataPtr : ℕ → ℕ → UInt8
  markerEos : Bool
  endOfFrame : Bool
  metadataIds : List UInt32
  /-- What `posal_date_time_get_utc_time` gives for the timestamp. -/
  utcTime : UInt64

/-- `DAM_BATCH_END_MD_ID_MARKER`. -/
def damBatchEndMdIdMarker : UInt32 := 0x0A00106A

/-- `is_batch_completed`. -/
def PushInput.isBatchCompleted (i : PushInput) : Bool :=
  i.markerEos || i.endOfFrame || i.metadataIds.contains damBatchEndMdIdMarker

/-- `push_mode_write_batch_header`, at the batch write index. -/
def pushModeWriteBatchHeader (cfg : PushCfg) (s : PushMode) (utcTime : UInt64) :
    Option (ArResult × PushMode) :=
  let header := batchHeader cfg.headerTypeFlags utcTime
  let pcmParamOffset := (headerStart cfg.headerTypeFlags utcTime).length
  if s.headerBufferSize = 0 then some (.efailed, s)
  else if s.headerBufferSize < header.length then some (.efailed, s)
  else
    (storeRing cfg.size header.length s.circBuf s.batchWriteIndex header).map fun r =>
      (.eok, { s with
        circBuf := r.1
        pcmParamActualSizePtr := some ((s.batchWriteIndex + (pcmParamOffset + 4)) % cfg.size)
        pcmParamPaddingSizePtr := some ((s.batchWriteIndex + (pcmParamOffset + 8)) % cfg.size)
        batchWriteIndex := r.2
        batchBytesWritten := header.length })

/-- The padding of `push_mode_end_header_batch`: zeros up to the end of the buffer at most. -/
def writePadding (cfg : PushCfg) (s : PushMode) (paddingBytes : ℕ) : Option PushMode :=
  let remLinSize := cfg.size - s.batchWriteIndex
  let zeros := if paddingBytes ≤ remLinSize then paddingBytes else remLinSize
  (storeIn cfg.size s.circBuf s.batchWriteIndex (List.replicate zeros 0)).map fun m =>
    { s with circBuf := m, batchWriteIndex := wrapIndex cfg.size s.batchWriteIndex zeros }

/-- The padding that aligns the next header: `BYTE_FOR_HEADER_ALIGNMENT` is 4. -/
def paddingFor (pcmBytesWritten : ℕ) : ℕ :=
  if pcmBytesWritten % 4 ≠ 0 then 4 - pcmBytesWritten % 4 else 0

/-- `push_mode_end_header_batch`, with `pull_mode_update_pos_buffer`. -/
def pushModeEndHeaderBatch (cfg : PushCfg) (s : PushMode) (timestamp : UInt64) : Option PushMode :=
  let paddingBytes := paddingFor s.pcmBytesWritten
  (if s.pcmBytesWritten % 4 ≠ 0 then writePadding cfg s paddingBytes else some s).bind fun s =>
  (storeWord cfg.size s.circBuf s.pcmParamActualSizePtr s.pcmBytesWritten).bind fun m =>
  (storeWord cfg.size m s.pcmParamPaddingSizePtr paddingBytes).map fun m =>
    { s with
      circBuf := m
      batchBytesWritten := s.batchBytesWritten + (s.pcmBytesWritten + paddingBytes)
      posBuf := ⟨s.posBuf.frameCounter + 1, s.batchWriteIndex, timestamp⟩
      isUpdateHeader := true
      pcmBytesWritten := 0 }

/-- The copy of the frame at the batch write index. -/
def copyFrame (cfg : PushCfg) (s : PushMode) (i : PushInput) : Option PushMode :=
  match cfg.fmt.dataInterleaving with
  | .interleaved =>
    (storeRing cfg.size i.actualDataLen s.circBuf s.batchWriteIndex
      ((List.range i.actualDataLen).map (i.dataPtr 0))).map fun r =>
      { s with
        circBuf := r.1
        batchWriteIndex := r.2
        pcmBytesWritten := s.pcmBytesWritten + i.actualDataLen }
  | .deinterleaved =>
    (copyDeinterleaved cfg i.dataPtr (2 * i.actualDataLen) s.circBuf i.actualDataLen 0
      s.batchWriteIndex).map fun r =>
      { s with
        circBuf := r.1
        batchWriteIndex := r.2.2
        pcmBytesWritten := s.pcmBytesWritten + r.2.1 * cfg.fmt.numChannels }

/-- The header, before the first frame of a batch. -/
def startBatch (cfg : PushCfg) (s : PushMode) (i : PushInput) : Option (ArResult × PushMode) :=
  if s.isUpdateHeader then
    (pushModeWriteBatchHeader cfg
      { s with pcmBytesWritten := 0, batchWriteIndex := s.posBuf.index } i.utcTime).map fun r =>
      if r.1 = .eok then (.eok, { r.2 with isUpdateHeader := false }) else r
  else some (.eok, s)

/-- A frame with a valid timestamp. -/
def writeFrame (cfg : PushCfg) (s : PushMode) (i : PushInput) : Option (ArResult × PushMode) :=
  if i.actualDataLen = 0 then some (.eok, s)
  else
    (startBatch cfg s i).bind fun r =>
      if r.1 = .eok then (copyFrame cfg r.2 i).map fun s => (.eok, s) else some r

/-- The position buffer reset that an algorithmic reset has deferred. -/
def applyPosBufReset (s : PushMode) : PushMode :=
  if s.isPendingPosBufReset then
    { s with posBuf := ⟨0, 0, 0⟩, isPendingPosBufReset := false }
  else s

/-- `push_mode_write_output` with batch headers enabled. -/
def pushModeWriteOutput (cfg : PushCfg) (s : PushMode) (i : PushInput) :
    Option (ArResult × PushMode) :=
  if s.isDisabled then some (.efailed, s)
  else
    let s := applyPosBufReset s
    if i.isTimestampValid then
      let s := { s with lastValidTimestamp := i.timestamp }
      (writeFrame cfg s i).bind fun r =>
        if r.1 = .eok ∧ i.isBatchCompleted then
          (pushModeEndHeaderBatch cfg r.2 i.timestamp).map fun s => (.eok, s)
        else some r
    else
      -- the frame is dropped, and ends the batch before it
      if ¬ s.isUpdateHeader ∧ 0 < s.pcmBytesWritten then
        (pushModeEndHeaderBatch cfg s s.lastValidTimestamp).map fun s => (.eok, s)
      else some (.eok, s)

end AudioReach
