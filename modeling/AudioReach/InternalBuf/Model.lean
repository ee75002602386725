import AudioReach.ArResult
import AudioReach.Library.RingStream

/-!
# The internal buffer of the CAPI libraries

`capi_library_internal_buffer.c` gives a module a buffer of a fixed frame size between the frames
of the framework and those of its library.  The buffer has one stretch of memory, cut into as many
pieces as there are channels, and an array of the pointers to the pieces.  The fill level, the
capacity and the read offset are the same for all channels.  The frame size is kept in
microseconds and in samples; one of them is set, and the other is computed when the sampling rate
is known.

The pieces are offsets into the one allocation; a pointer is `none` if it is null or if the entry
of the array was never written.  A result `none` of an operation stands for an access outside the
memory that it may touch, through a null pointer included, or for a division by zero.  Log
messages are left out.
-/

namespace AudioReach

open Library

/-- The codes of `capi_err_t` that the functions return. -/
inductive CapiErr
  | eok
  | efailed
  | enomemory
  deriving DecidableEq, Repr

/-- The fields of `capi_media_fmt_v2_t` that are compared. -/
structure CapiMediaFmt where
  dataFormat : UInt32
  bitsPerSample : UInt32
  bitstreamFormat : UInt32
  dataInterleaving : UInt32
  dataIsSigned : UInt32
  numChannels : UInt32
  qFactor : UInt32
  samplingRate : UInt32
  deriving DecidableEq, Repr

/-- `capi_cmn_media_fmt_equal`. -/
def capiCmnMediaFmtEqual (a b : CapiMediaFmt) : Bool :=
  decide (a.dataFormat = b.dataFormat) && decide (a.bitsPerSample = b.bitsPerSample) &&
    decide (a.bitstreamFormat = b.bitstreamFormat) &&
    decide (a.dataInterleaving = b.dataInterleaving) &&
    decide (a.dataIsSigned = b.dataIsSigned) && decide (a.numChannels = b.numChannels) &&
    decide (a.qFactor = b.qFactor) && decide (a.samplingRate = b.samplingRate)

lemma capiCmnMediaFmtEqual_iff {a b : CapiMediaFmt} : capiCmnMediaFmtEqual a b = true ↔ a = b := by
  obtain ⟨⟩ := a
  obtain ⟨⟩ := b
  simp [capiCmnMediaFmtEqual, and_assoc]

/-- `capi_buf_t`, with the memory at `data_ptr`. -/
structure CapiBuf where
  data : List UInt8
  actualDataLen : UInt32
  maxDataLen : UInt32
  deriving DecidableEq, Repr

/-- What the heap answers to the two requests of a creation. -/
structure InternalBufEnv where
  ptrs : Bool
  /-- The data is allocated, with these bytes in it. -/
  data : Option (ℕ → UInt8)

/-- `capi_library_internal_buf_t`. -/
structure InternalBuf where
  /-- `data_ptrs`: the pointers of the array, as many as were allocated. -/
  dataPtrs : Option (List (Option ℕ))
  dataSize : ℕ
  data : ℕ → UInt8
  actualDataLenPerCh : UInt32
  maxDataLenPerCh : UInt32
  dataOffsetBytesPerCh : UInt32
  mediaFmt : CapiMediaFmt
  frameSizeUs : UInt32
  frameSizeSamplesPerCh : UInt32
  heapId : UInt32
  isMediaFmtReceived : Bool
  /-- `frame_size_recieved`. -/
  frameSizeReceived : Bool
  frameSizeInTime : Bool

namespace InternalBuf

/-- The structure of a module whose memory was set to zero. -/
def init : InternalBuf :=
  ⟨none, 0, fun _ => 0, 0, 0, 0, ⟨0, 0, 0, 0, 0, 0, 0, 0⟩, 0, 0, 0, false, false, false⟩

variable (abi : Abi) (s : InternalBuf)

/-- The number of channels. -/
def numCh : ℕ := s.mediaFmt.numChannels.toNat

/-- `capi_library_internal_buffer_exists`. -/
def bufferExists : Bool := s.dataPtrs.isSome

/-- The pointer of a channel, as a load through it needs it. -/
def ptrAt (ch : ℕ) : Option ℕ :=
  s.dataPtrs.bind fun ptrs => ptrs[ch]?.join

/-! ## Memory -/

/-- A store to the pointer array. -/
def storePtr (ptrs : List (Option ℕ)) (i : ℕ) (p : Option ℕ) : Option (List (Option ℕ)) :=
  if i < ptrs.length then some (ptrs.set i p) else none

/-- A load of `n` bytes from the data. -/
def loadData (off n : ℕ) : Option (List UInt8) :=
  if off + n ≤ s.dataSize then some (getAt s.data off n) else none

/-- A load of `n` bytes from the memory of a CAPI buffer. -/
def loadBuf (b : CapiBuf) (off n : ℕ) : Option (List UInt8) :=
  if off + n ≤ b.data.length then some ((b.data.drop off).take n) else none

/-- The bytes `bytes` are appended to a CAPI buffer. -/
def appendBuf (b : CapiBuf) (bytes : List UInt8) : Option CapiBuf :=
  if b.actualDataLen.toNat + bytes.length ≤ b.data.length then
    some { b with
      data := overwrite b.data b.actualDataLen.toNat bytes
      actualDataLen := b.actualDataLen + UInt32.ofNat bytes.length }
  else none

/-! ## Creation -/

/-- `capi_library_internal_buffer_flush`. -/
def flush : InternalBuf := { s with actualDataLenPerCh := 0, dataOffsetBytesPerCh := 0 }

/-- `capi_library_internal_buffer_destroy`. -/
def destroy : Option InternalBuf :=
  match s.dataPtrs with
  | none => some s
  | some ptrs =>
    ptrs[0]?.bind fun first =>
      (if first.isSome then
        (List.range s.numCh).foldlM (fun ptrs ch => storePtr ptrs ch none) ptrs
      else some ptrs).map fun _ => { s with dataPtrs := none, dataSize := 0 }

/-- `bytes_per_ch` of a new buffer. -/
def bytesPerCh : UInt32 := s.frameSizeSamplesPerCh * (s.mediaFmt.bitsPerSample >>> 3)

/-- `total_size` of a new buffer. -/
def totalSize : UInt32 := s.bytesPerCh * s.mediaFmt.numChannels

/-- The pointers that fit into the `data_ptrs_size` bytes of the array, none of them written. -/
def newPtrs : List (Option ℕ) :=
  List.replicate ((UInt32.ofNat abi.ptrSize * s.mediaFmt.numChannels).toNat / abi.ptrSize) none

/-- The loop that sets the pointers of the channels from the second on: gives the array and the
last pointer. -/
def setPtrs (ptrs : List (Option ℕ)) : Option (List (Option ℕ) × ℕ) :=
  (List.range (s.numCh - 1)).foldlM (fun r i =>
    (storePtr r.1 (i + 1) (some (r.2 + s.bytesPerCh.toNat))).map
      (·, r.2 + s.bytesPerCh.toNat)) (ptrs, 0)

/-- The allocations of `capi_library_internal_buffer_create`. -/
def allocate (env : InternalBufEnv) : Option (CapiErr × InternalBuf) :=
  if env.ptrs then
    match env.data with
    | none => (storePtr (s.newPtrs abi) 0 none).map fun ptrs =>
        (.enomemory, { s with dataPtrs := some ptrs })
    | some m =>
      (storePtr (s.newPtrs abi) 0 (some 0)).bind fun ptrs =>
        (s.setPtrs ptrs).map fun r =>
          (.eok, { s with
            dataPtrs := some r.1
            dataSize := s.totalSize.toNat
            data := m
            actualDataLenPerCh := 0
            maxDataLenPerCh := s.bytesPerCh
            dataOffsetBytesPerCh := 0 })
  else some (.enomemory, { s with dataPtrs := none })

/-- `capi_library_internal_buffer_create`. -/
def create (heapId : UInt32) (env : InternalBufEnv) : Option (CapiErr × InternalBuf) :=
  let s := { s with heapId := heapId }
  if s.totalSize = 0 then some (.efailed, s)
  else
    (if s.bufferExists then s.flush.destroy else some s).bind fun s => s.allocate abi env

/-! ## Settings -/

/-- `capi_library_internal_buffer_check_update_frame_size_units`. -/
def checkUpdateFrameSizeUnits : Option InternalBuf :=
  if !s.isMediaFmtReceived || !s.frameSizeReceived then some s
  else if s.frameSizeInTime then
    let temp : UInt64 := (s.frameSizeUs * s.mediaFmt.samplingRate).toUInt64
    some { s with frameSizeSamplesPerCh := (temp / 1000000).toUInt32 }
  else if s.mediaFmt.samplingRate = 0 then none
  else
    let temp : UInt64 := (s.frameSizeSamplesPerCh * 1000 * 1000).toUInt64
    some { s with frameSizeUs := (temp / s.mediaFmt.samplingRate.toUInt64).toUInt32 }

/-- The reallocation after a setting has changed.  The code drops the result of the creation,
which is given here with the state. -/
def recreate (env : InternalBufEnv) : Option (Option CapiErr × InternalBuf) :=
  if s.bufferExists then (s.create abi s.heapId env).map fun r => (some r.1, r.2)
  else some (none, s)

/-- The end of the setters: the frame size in the other unit and the reallocation. -/
def applySetting (env : InternalBufEnv) : Option (Option CapiErr × InternalBuf) :=
  s.checkUpdateFrameSizeUnits.bind fun s => s.recreate abi env

/-- `capi_library_internal_buffer_set_frame_size_us`. -/
def setFrameSizeUs (frameSizeUs : UInt32) (env : InternalBufEnv) :
    Option (Option CapiErr × InternalBuf) :=
  if frameSizeUs ≠ s.frameSizeUs then
    applySetting abi
      { s with frameSizeUs := frameSizeUs, frameSizeReceived := true, frameSizeInTime := true } env
  else some (none, s)

/-- `capi_library_internal_buffer_set_frame_size_samples`. -/
def setFrameSizeSamples (frameSizeSamplesPerCh : UInt32) (env : InternalBufEnv) :
    Option (Option CapiErr × InternalBuf) :=
  if frameSizeSamplesPerCh ≠ s.frameSizeSamplesPerCh then
    applySetting abi
      { s with
        frameSizeSamplesPerCh := frameSizeSamplesPerCh
        frameSizeReceived := true
        frameSizeInTime := false } env
  else some (none, s)

/-- `capi_library_internal_buffer_set_media_fmt`. -/
def setMediaFmt (fmt : CapiMediaFmt) (env : InternalBufEnv) :
    Option (Option CapiErr × InternalBuf) :=
  if !capiCmnMediaFmtEqual s.mediaFmt fmt then
    applySetting abi { s with mediaFmt := fmt, isMediaFmtReceived := true } env
  else some (none, s)

/-! ## Data -/

/-- The bytes that `memscpy` copies to a channel from a source of which `srcOffset` bytes were
consumed. -/
def bytesToWrite (b : CapiBuf) (srcOffset : UInt32) : ℕ :=
  min (s.maxDataLenPerCh - s.actualDataLenPerCh).toNat (b.actualDataLen - srcOffset).toNat

/-- One round of the loop of `capi_library_internal_buffer_write`, on the data and the number of
bytes copied last. -/
def writeCh (src : List CapiBuf) (srcOffset : UInt32) (r : (ℕ → UInt8) × ℕ) (ch : ℕ) :
    Option ((ℕ → UInt8) × ℕ) :=
  (s.ptrAt ch).bind fun base => src[ch]?.bind fun b =>
    (loadBuf b srcOffset.toNat (s.bytesToWrite b srcOffset)).bind fun bytes =>
      (storeIn s.dataSize r.1 (base + s.actualDataLenPerCh.toNat) bytes).map
        (·, s.bytesToWrite b srcOffset)

/-- `capi_library_internal_buffer_write`. -/
def write (src : List CapiBuf) (srcOffset : UInt32) : Option (ℕ × InternalBuf) :=
  ((List.range s.numCh).foldlM (s.writeCh src srcOffset) (s.data, 0)).map fun r =>
    (r.2, { s with
      data := r.1, actualDataLenPerCh := s.actualDataLenPerCh + UInt32.ofNat r.2 })

/-- The bytes that `memscpy` copies from a channel to a destination, whose room is that of its
first buffer `b`. -/
def bytesToRead (b : CapiBuf) : ℕ :=
  min (b.maxDataLen - b.actualDataLen).toNat (s.actualDataLenPerCh - s.dataOffsetBytesPerCh).toNat

/-- One round of the loop of `capi_library_internal_buffer_read`. -/
def readCh (n : ℕ) (dst : List CapiBuf) (ch : ℕ) : Option (List CapiBuf) :=
  (s.ptrAt ch).bind fun base => dst[ch]?.bind fun b =>
    (s.loadData (base + s.dataOffsetBytesPerCh.toNat) n).bind fun bytes =>
      (appendBuf b bytes).map fun b => dst.set ch b

/-- The end of `capi_library_internal_buffer_read`: `n` bytes of each channel are consumed, and
the buffer starts anew when all are. -/
def consume (n : ℕ) : InternalBuf :=
  let offset := s.dataOffsetBytesPerCh + UInt32.ofNat n
  if s.actualDataLenPerCh = offset then s.flush else { s with dataOffsetBytesPerCh := offset }

/-- `capi_library_internal_buffer_read`: gives the bytes read of each channel and the destination.
Without channels nothing is copied. -/
def read (dst : List CapiBuf) : Option (ℕ × List CapiBuf × InternalBuf) :=
  dst[0]?.bind fun first =>
    let n := if s.numCh = 0 then 0 else s.bytesToRead first
    ((List.range s.numCh).foldlM (s.readCh n) dst).map fun dst => (n, dst, s.consume n)

/-- `capi_library_internal_buffer_zero_fill`. -/
def zeroFill (zeroBytesPerCh : UInt32) : Option (ℕ × InternalBuf) :=
  if !s.bufferExists || decide (s.actualDataLenPerCh ≠ 0) then some (0, s)
  else
    let n := min s.maxDataLenPerCh.toNat zeroBytesPerCh.toNat
    ((List.range s.numCh).foldlM (fun m ch =>
      (s.ptrAt ch).bind fun base => storeIn s.dataSize m base (List.replicate n 0)) s.data).map
      fun m => (n, { s with data := m, actualDataLenPerCh := UInt32.ofNat n })

end InternalBuf

end AudioReach
