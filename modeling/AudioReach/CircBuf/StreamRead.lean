import AudioReach.ArResult
import AudioReach.CircBuf.Refine

/-!
# Reading a stream from the audio dam

A stream reader has one circular buffer for each channel.  `audio_dam_stream_read` goes over
the requested channels and reads one after the other into the output buffer of the channel.
Whatever goes wrong with a channel ends the loop, and the channels before it have been read
by then.

The model follows `audio_dam_driver_read_island.c` without the virtual writer mode.  The
requested channels are one list, each with its reader and its output buffer.  Time stamps are
left out, and a data pointer is never null.

For compressed data the buffer holds frames of one length: a header with a magic word and the
length of the data, the data, and unused bytes.  Only the data goes to the output.
-/

namespace AudioReach.AudioDam

open AudioReach
open List

/-- `audio_dam_driver_t`: the media format of the data. -/
structure Driver where
  isRawCompressed : Bool
  frameMaxDataLenInUs : ℕ
  frameMaxDataLenInBytes : ℕ
  bytesPerOneMs : ℕ
  deriving DecidableEq, Repr

/-- The `capi_buf_t` for the output of a channel. -/
structure OutBuf where
  /-- What was stored behind `data_ptr`, in order. -/
  data : List UInt8
  actualDataLen : ℕ
  maxDataLen : ℕ
  deriving DecidableEq, Repr

/-- A requested channel: an entry of `rd_client_ptr_arr` with its entry of
`output_buf_arr`. -/
structure Channel where
  /-- The circular buffer, with the clients of other stream readers. -/
  buf : CircBuf
  rd : ReadClient
  out : OutBuf
  deriving DecidableEq, Repr

/-- `audio_dam_stream_reader_t`. -/
structure StreamReader where
  /-- `driver_ptr`. -/
  drv : Driver
  /-- What is behind `ch_frame_scratch_buf_ptr` of the driver. -/
  scratch : List UInt8
  isBatchStreaming : Bool
  dataBatchingUs : ℕ
  pendingBatchBytes : ℕ
  deriving DecidableEq, Repr

/-- What a call of `audio_dam_stream_read` leaves behind. -/
structure ReadOutcome where
  result : ArResult
  /-- `*is_batch_sent` was set. -/
  isBatchSent : Bool
  reader : StreamReader
  channels : List Channel
  deriving DecidableEq, Repr

/-! ## The code -/

/-- `AUDIO_DAM_GET_TOTAL_FRAME_LEN`: the header and the longest data. -/
def totalFrameLen (drv : Driver) : ℕ := (4 + drv.frameMaxDataLenInBytes) % uint32Size

/-- `audio_dam_compute_buffer_size_in_bytes`. -/
def computeBufferSizeInBytes (drv : Driver) (bufferSizeInUs : ℕ) : ℕ :=
  if drv.isRawCompressed then
    let numFrames := ((bufferSizeInUs + (drv.frameMaxDataLenInUs + uint32Size - 1)) %
      uint32Size) / drv.frameMaxDataLenInUs
    numFrames * totalFrameLen drv % uint32Size
  else bufferSizeInUs / 1000 * drv.bytesPerOneMs % uint32Size

namespace OutBuf

/-- `max_data_len - actual_data_len`. -/
def freeSpace (o : OutBuf) : ℕ := (o.maxDataLen + uint32Size - o.actualDataLen) % uint32Size

/-- Bytes are stored behind the data, and `actual_data_len` grows by `len`. -/
def append (o : OutBuf) (bytes : List UInt8) (len : ℕ) : OutBuf :=
  { o with data := o.data ++ bytes, actualDataLen := (o.actualDataLen + len) % uint32Size }

end OutBuf

/-- `AUDIO_DAM_RAW_COMPRESSED_FRAME_MAGIC_WORD`. -/
def rawCompressedFrameMagicWord : ℕ := 0xA178

/-- `magic_word` of a frame. -/
def frameMagicWord (frame : List UInt8) : ℕ :=
  (frame.getD 0 0).toNat + 256 * (frame.getD 1 0).toNat

/-- `actual_data_len` of a frame. -/
def frameActualDataLen (frame : List UInt8) : ℕ :=
  (frame.getD 2 0).toNat + 256 * (frame.getD 3 0).toNat

/-- The scratch buffer after its header was cleared and `bytes` were read into it. -/
def readIntoScratch (scratch bytes : List UInt8) : List UInt8 :=
  bytes ++ ([0, 0, 0, 0] ++ scratch.drop 4).drop bytes.length

/-- The number of bytes that a round asks `circ_buf_read` for: `max_read_frame_len`. -/
def maxReadFrameLen (drv : Driver) (bytesReqToRead : ℕ) (out : OutBuf) : ℕ :=
  if drv.isRawCompressed then totalFrameLen drv
  else if bytesReqToRead ≠ 0 then bytesReqToRead
  else out.freeSpace

/-- The round of `audio_dam_stream_read_util_` for one channel: a result other than `AR_EOK`
is returned at once. -/
def readChannel (drv : Driver) (bytesReqToRead : ℕ) (scratch : List UInt8) (ch : Channel) :
    ArResult × List UInt8 × Channel :=
  let maxReadFrameLen := maxReadFrameLen drv bytesReqToRead ch.out
  let got := ch.buf.readClient ch.rd maxReadFrameLen
  let bytes := got.2.1
  let ch := { ch with rd := got.2.2 }
  let scratch := if drv.isRawCompressed then readIntoScratch scratch bytes else scratch
  if got.1 = .underrun then (.eneedmore, scratch, ch)
  else if drv.isRawCompressed then
    if maxReadFrameLen ≠ bytes.length then (.efailed, scratch, ch)
    else if rawCompressedFrameMagicWord ≠ frameMagicWord scratch then (.efailed, scratch, ch)
    else if frameActualDataLen scratch > ch.out.freeSpace then (.efailed, scratch, ch)
    else
      let len := frameActualDataLen scratch
      (.eok, scratch, { ch with out := ch.out.append ((scratch.drop 4).take len) len })
  else (.eok, scratch, { ch with out := ch.out.append bytes bytes.length })

/-- `audio_dam_stream_read_util_`: the loop over the requested channels. -/
def streamReadUtil (drv : Driver) (bytesReqToRead : ℕ) :
    List UInt8 → List Channel → ArResult × List UInt8 × List Channel
  | scratch, [] => (.eok, scratch, [])
  | scratch, ch :: chs =>
    let round := readChannel drv bytesReqToRead scratch ch
    if round.1 = .eok then
      let rest := streamReadUtil drv bytesReqToRead round.2.1 chs
      (rest.1, rest.2.1, round.2.2 :: rest.2.2)
    else (round.1, round.2.1, round.2.2 :: chs)

/-- `audio_dam_stream_batch_read`; `ch` is the first requested channel. -/
def streamBatchRead (r : StreamReader) (ch : Channel) (chs : List Channel) : ReadOutcome :=
  let requestedBatch := computeBufferSizeInBytes r.drv r.dataBatchingUs
  if r.pendingBatchBytes = 0 ∧ ¬ ch.rd.unreadBytes ≥ requestedBatch then
    -- the batching requirement is not met
    { result := .eok, isBatchSent := false, reader := r, channels := ch :: chs }
  else
    let pending := if r.pendingBatchBytes = 0 then requestedBatch else r.pendingBatchBytes
    let actualBytesToRead := if pending ≥ ch.out.freeSpace then ch.out.freeSpace else pending
    let got := streamReadUtil r.drv actualBytesToRead r.scratch (ch :: chs)
    let out := (got.2.2.headD ch).out
    let pending' :=
      if got.1 = .eok then (pending + uint32Size - out.actualDataLen) % uint32Size else pending
    { result := got.1
      isBatchSent := got.1 = .eok ∧ pending' = 0
      reader := { r with scratch := got.2.1, pendingBatchBytes := pending' }
      channels := got.2.2 }

/-- `audio_dam_stream_read` without the virtual writer mode; the list of the requested
channels has `num_chs_to_read` entries. -/
def streamRead (r : StreamReader) : List Channel → ReadOutcome
  | [] => { result := .efailed, isBatchSent := false, reader := r, channels := [] }
  | ch :: chs =>
    if r.isBatchStreaming then streamBatchRead r ch chs
    else
      let got := streamReadUtil r.drv 0 r.scratch (ch :: chs)
      { result := got.1
        isBatchSent := false
        reader := { r with scratch := got.2.1 }
        channels := got.2.2 }

/-! ## One channel -/

/-- The reader of the channel is on the ring and has no more to read than there is. -/
structure Channel.Ready (ch : Channel) : Prop where
  onRing : ch.buf.chunks ≠ [] → OnRing ch.buf.chunks ch.rd.pos
  unread_le : ch.rd.unreadBytes ≤ ch.buf.size

/-- The next `n` bytes of the channel. -/
def Channel.nextBytes (ch : Channel) (n : ℕ) : List UInt8 :=
  (ringView ch.buf.chunks ch.rd.pos).take n

/-- The number of bytes that `circ_buf_read` takes from the channel: none if more are asked
for than the buffer can hold. -/
def bytesTaken (drv : Driver) (bytesReqToRead : ℕ) (ch : Channel) : ℕ :=
  let asked := maxReadFrameLen drv bytesReqToRead ch.out
  if asked > ch.buf.size then 0 else min asked ch.rd.unreadBytes

/-- The round of the channel ends with an error.  Samples are an underrun if there are none.
A frame is an error if it is not whole, does not begin with the magic word or has more data
than the output buffer has space for. -/
def RoundFails (drv : Driver) (bytesReqToRead : ℕ) (ch : Channel) : Prop :=
  let asked := maxReadFrameLen drv bytesReqToRead ch.out
  let frame := ch.nextBytes (bytesTaken drv bytesReqToRead ch)
  if drv.isRawCompressed then
    asked ≠ bytesTaken drv bytesReqToRead ch ∨ rawCompressedFrameMagicWord ≠ frameMagicWord frame ∨
      frameActualDataLen frame > ch.out.freeSpace
  else 0 < asked ∧ asked ≤ ch.buf.size ∧ ch.rd.unreadBytes = 0

instance (drv : Driver) (bytesReqToRead : ℕ) (ch : Channel) :
    Decidable (RoundFails drv bytesReqToRead ch) := by
  unfold RoundFails
  infer_instance

/-- The channel was read by `n` bytes: the reader is `n` bytes further, and the output buffer
reports them.  Of a compressed frame the output buffer reports the data. -/
structure ReadBy (drv : Driver) (n : ℕ) (ch ch' : Channel) : Prop where
  buf : ch'.buf = ch.buf
  unread : ch'.rd.unreadBytes + n = ch.rd.unreadBytes
  /-- The position is `n` bytes further along the ring. -/
  moved : ringDistance ch.buf.chunks ch'.rd.pos ≡ ringDistance ch.buf.chunks ch.rd.pos + n
    [MOD ch.buf.size]
  reported : ch'.out.actualDataLen ≡ ch.out.actualDataLen +
    (if drv.isRawCompressed then frameActualDataLen (ch.nextBytes n) else n) [MOD uint32Size]
  /-- Samples are stored behind the output that was there. -/
  stored : drv.isRawCompressed = false → ch'.out.data = ch.out.data ++ ch.nextBytes n

section

variable {drv : Driver} {bytesReqToRead : ℕ} {scratch : List UInt8} {ch ch' : Channel}

/-- `circ_buf_read` takes the next bytes. -/
lemma readClient_spec (h : ch.Ready) (asked n : ℕ)
    (hn : (if asked > ch.buf.size then 0 else min asked ch.rd.unreadBytes) = n) :
    ∃ pos result, ch.buf.readClient ch.rd asked =
        (result, ch.nextBytes n, ⟨pos, ch.rd.unreadBytes - n⟩) ∧
      (ch.buf.chunks ≠ [] → OnRing ch.buf.chunks pos) ∧
      ringDistance ch.buf.chunks pos ≡ ringDistance ch.buf.chunks ch.rd.pos + n [MOD ch.buf.size] ∧
      (result = .underrun ↔ 0 < asked ∧ asked ≤ ch.buf.size ∧ ch.rd.unreadBytes = 0) ∧
      (n = 0 → pos = ch.rd.pos) := by
  have hnone : ch.nextBytes 0 = [] := take_zero
  unfold CircBuf.readClient
  by_cases hbad : ch.buf.chunks = [] ∨ asked > ch.buf.size
  · have hzero : n = 0 := by
      rcases hbad with hnil | hbig
      · have hempty : ch.buf.size = 0 := by rw [CircBuf.size, hnil]; rfl
        rw [← hn]
        split
        · rfl
        · omega
      · rw [← hn, if_pos hbig]
    have hcase : ¬ (0 < asked ∧ asked ≤ ch.buf.size ∧ ch.rd.unreadBytes = 0) := by
      rintro ⟨hpos, hle, -⟩
      rcases hbad with hnil | hbig
      · have hempty : ch.buf.size = 0 := by rw [CircBuf.size, hnil]; rfl
        omega
      · omega
    subst hzero
    rw [if_pos hbad, hnone]
    exact ⟨ch.rd.pos, .fail, rfl, h.onRing, Nat.ModEq.refl _,
      ⟨fun hfail => CircBufResult.noConfusion hfail, fun hc => absurd hc hcase⟩, fun _ => rfl⟩
  rw [if_neg hbad]
  push Not at hbad
  rw [if_neg (Nat.not_lt.mpr hbad.2)] at hn
  by_cases hunder : asked > ch.rd.unreadBytes ∧ ch.rd.unreadBytes = 0
  · have hzero : n = 0 := by rw [← hn, hunder.2, Nat.min_zero]
    subst hzero
    rw [if_pos hunder, hnone]
    refine ⟨ch.rd.pos, .underrun, rfl, h.onRing, Nat.ModEq.refl _, ⟨fun _ => ?_, fun _ => rfl⟩,
      fun _ => rfl⟩
    exact ⟨hunder.2 ▸ hunder.1, hbad.2, hunder.2⟩
  · rw [if_neg hunder]
    have hmin : (if asked > ch.rd.unreadBytes then ch.rd.unreadBytes else asked) = n := by
      split
      · omega
      · omega
    have hle : n ≤ circBufSize ch.buf.chunks := by
      have : n ≤ ch.buf.size := by omega
      exact this
    have hon := h.onRing hbad.1
    obtain ⟨⟨out, pos⟩, hloop⟩ := Option.isSome_iff_exists.mp
      (readLoop_isSome (Nat.le_trans hle (circBufSize_le_ringReach hon)))
    have hrun : readLoop ch.buf.chunks (walkRounds ch.buf.chunks) ch.rd.pos n =
        some (out, pos) := hloop
    obtain ⟨hon', hout, hmove⟩ := readLoop_spec hon hle hloop
    rw [hmin]
    dsimp only
    rw [hrun, hout]
    refine ⟨pos, .success, rfl, fun _ => hon', hmove, ?_, ?_⟩
    · refine ⟨fun hc => CircBufResult.noConfusion hc, ?_⟩
      rintro ⟨hpos, -, hzero⟩
      exact absurd ⟨hzero ▸ hpos, hzero⟩ hunder
    · rintro rfl
      cases hrun
      rfl

section

variable (scratch bytes : List UInt8)

lemma getD_readIntoScratch {i : ℕ} (hi : i < 4) :
    (readIntoScratch scratch bytes).getD i 0 = bytes.getD i 0 := by
  have hzero : ([0, 0, 0, 0] ++ scratch.drop 4)[i]?.getD 0 = (0 : UInt8) := by
    match i, hi with
    | 0, _ | 1, _ | 2, _ | 3, _ => rfl
  rw [getD_eq_getElem?_getD, getD_eq_getElem?_getD]
  unfold readIntoScratch
  by_cases hlt : i < bytes.length
  · rw [getElem?_append_left hlt]
  · have hge := Nat.le_of_not_lt hlt
    rw [getElem?_append_right hge, getElem?_drop, Nat.add_sub_cancel' hge, hzero,
      getElem?_eq_none hge]
    rfl

lemma frameMagicWord_readIntoScratch :
    frameMagicWord (readIntoScratch scratch bytes) = frameMagicWord bytes := by
  unfold frameMagicWord
  rw [getD_readIntoScratch _ _ (by decide), getD_readIntoScratch _ _ (by decide)]

lemma frameActualDataLen_readIntoScratch :
    frameActualDataLen (readIntoScratch scratch bytes) = frameActualDataLen bytes := by
  unfold frameActualDataLen
  rw [getD_readIntoScratch _ _ (by decide), getD_readIntoScratch _ _ (by decide)]

end

lemma OutBuf.append_actualDataLen (o : OutBuf) (bytes : List UInt8) (len : ℕ) :
    (o.append bytes len).actualDataLen ≡ o.actualDataLen + len [MOD uint32Size] :=
  Nat.mod_modEq _ _

lemma bytesTaken_le : bytesTaken drv bytesReqToRead ch ≤ ch.rd.unreadBytes := by
  unfold bytesTaken
  dsimp only
  split
  · exact Nat.zero_le _
  · exact Nat.min_le_right _ _

lemma length_nextBytes (h : ch.Ready) {n : ℕ} (hn : n ≤ ch.rd.unreadBytes) :
    (ch.nextBytes n).length = n := by
  have hsize : ch.buf.size = circBufSize ch.buf.chunks := rfl
  have := h.unread_le
  rw [Channel.nextBytes, length_take, length_ringView]
  omega

/-- What a round does to its channel: the bytes are taken, be they delivered or not. -/
structure RoundTakes (n : ℕ) (ch ch' : Channel) : Prop where
  buf : ch'.buf = ch.buf
  unread : ch'.rd.unreadBytes + n = ch.rd.unreadBytes
  /-- If there are none, the reader is where it was. -/
  still : n = 0 → ch'.rd = ch.rd

/-- **One round.** The round takes bytes from the channel; it fails as `RoundFails` says, and
otherwise the channel is read by these bytes. -/
lemma readChannel_spec (drv : Driver) (bytesReqToRead : ℕ) (scratch : List UInt8) (h : ch.Ready) :
    let round := readChannel drv bytesReqToRead scratch ch
    let n := bytesTaken drv bytesReqToRead ch
    RoundTakes n ch round.2.2 ∧ round.2.2.Ready ∧
      (round.1 ≠ .eok ↔ RoundFails drv bytesReqToRead ch) ∧
      (round.1 = .eok → ReadBy drv n ch round.2.2) ∧
      (round.1 ≠ .eok → round.2.2.out = ch.out) := by
  have hle : bytesTaken drv bytesReqToRead ch ≤ ch.rd.unreadBytes := bytesTaken_le
  generalize hasked : maxReadFrameLen drv bytesReqToRead ch.out = asked
  generalize hn : bytesTaken drv bytesReqToRead ch = n at hle
  have hn' : (if asked > ch.buf.size then 0 else min asked ch.rd.unreadBytes) = n := by
    rw [← hn, ← hasked]
    rfl
  obtain ⟨pos, result, hread, hon, hmove, hunder, hstill⟩ := readClient_spec h asked n hn'
  have hlength := length_nextBytes h hle
  have hunread : ch.rd.unreadBytes - n + n = ch.rd.unreadBytes := Nat.sub_add_cancel hle
  have hready : ∀ out, ({ ch with rd := ⟨pos, ch.rd.unreadBytes - n⟩, out := out } :
      Channel).Ready := fun out =>
    ⟨hon, Nat.le_trans (Nat.sub_le _ _) h.unread_le⟩
  have htakes : ∀ out, RoundTakes n ch
      { ch with rd := ⟨pos, ch.rd.unreadBytes - n⟩, out := out } := fun out =>
    ⟨rfl, hunread, fun hzero => by rw [hstill hzero, hzero]; rfl⟩
  -- a round that fails has taken the bytes, and the output buffer is as it was
  have hfails : ∀ (code : ArResult) (scratch' : List UInt8) (P : Prop), code ≠ .eok → P →
      let round := (code, scratch', { ch with rd := ⟨pos, ch.rd.unreadBytes - n⟩ })
      RoundTakes n ch round.2.2 ∧ round.2.2.Ready ∧ (round.1 ≠ .eok ↔ P) ∧
        (round.1 = .eok → ReadBy drv n ch round.2.2) ∧
        (round.1 ≠ .eok → round.2.2.out = ch.out) := by
    intro code scratch' P hcode hP
    exact ⟨htakes ch.out, hready ch.out, ⟨fun _ => hP, fun _ => hcode⟩,
      fun hok => absurd hok hcode, fun _ => rfl⟩
  unfold RoundFails readChannel
  dsimp only
  rw [hasked, hread, hn]
  cases hraw : drv.isRawCompressed with
  | true =>
    simp only [if_true, frameMagicWord_readIntoScratch, frameActualDataLen_readIntoScratch, hlength]
    by_cases hu : result = .underrun
    · obtain ⟨hpos, -, hzero⟩ := hunder.mp hu
      rw [if_pos hu]
      exact hfails _ _ _ (by decide) (Or.inl (by omega))
    rw [if_neg hu]
    by_cases hlen : asked ≠ n
    · rw [if_pos hlen]
      exact hfails _ _ _ (by decide) (Or.inl hlen)
    rw [if_neg hlen]
    by_cases hmagic : rawCompressedFrameMagicWord ≠ frameMagicWord (ch.nextBytes n)
    · rw [if_pos hmagic]
      exact hfails _ _ _ (by decide) (Or.inr (Or.inl hmagic))
    rw [if_neg hmagic]
    by_cases hfree : frameActualDataLen (ch.nextBytes n) > ch.out.freeSpace
    · rw [if_pos hfree]
      exact hfails _ _ _ (by decide) (Or.inr (Or.inr hfree))
    rw [if_neg hfree]
    refine ⟨htakes _, hready _, ⟨fun hne => absurd rfl hne, ?_⟩, fun _ => ?_,
      fun hne => absurd rfl hne⟩
    · rintro (hc | hc | hc)
      · exact absurd hc hlen
      · exact absurd hc hmagic
      · exact absurd hc hfree
    · refine ⟨rfl, hunread, hmove, ?_, fun hpcm => ?_⟩
      · rw [hraw, if_pos rfl]
        exact OutBuf.append_actualDataLen _ _ _
      · rw [hraw] at hpcm
        cases hpcm
  | false =>
    simp only [Bool.false_eq_true, if_false, hlength]
    by_cases hu : result = .underrun
    · rw [if_pos hu]
      exact hfails _ _ _ (by decide) (hunder.mp hu)
    rw [if_neg hu]
    refine ⟨htakes _, hready _, ⟨fun hne => absurd rfl hne, fun hc => absurd (hunder.mpr hc) hu⟩,
      fun _ => ?_, fun hne => absurd rfl hne⟩
    refine ⟨rfl, hunread, hmove, ?_, fun _ => rfl⟩
    rw [hraw]
    exact OutBuf.append_actualDataLen _ _ _

/-! ## The loop over the channels -/

/-- The rounds up to the first that fails take nothing. -/
def NothingTakenUntilFailure (drv : Driver) (bytesReqToRead : ℕ) : List Channel → Prop
  | [] => False
  | ch :: chs => bytesTaken drv bytesReqToRead ch = 0 ∧
      (RoundFails drv bytesReqToRead ch ∨ NothingTakenUntilFailure drv bytesReqToRead chs)

variable {chs : List Channel}

lemma NothingTakenUntilFailure.exists_fails (h : NothingTakenUntilFailure drv bytesReqToRead chs) :
    ∃ ch ∈ chs, RoundFails drv bytesReqToRead ch := by
  induction chs with
  | nil => exact h.elim
  | cons ch chs ih =>
    rcases h.2 with hfails | hrest
    · exact ⟨ch, mem_cons_self, hfails⟩
    · obtain ⟨ch', hmem, hfails⟩ := ih hrest
      exact ⟨ch', mem_cons_of_mem _ hmem, hfails⟩

/-- The loop succeeds when no round fails, and then each channel is read by what its round
takes. -/
lemma streamReadUtil_eok (drv : Driver) (bytesReqToRead : ℕ) (scratch : List UInt8)
    (h : ∀ ch ∈ chs, ch.Ready) :
    let got := streamReadUtil drv bytesReqToRead scratch chs
    (got.1 = .eok ↔ ∀ ch ∈ chs, ¬ RoundFails drv bytesReqToRead ch) ∧ (got.1 = .eok → List.Forall₂
        (fun ch ch' => ReadBy drv (bytesTaken drv bytesReqToRead ch) ch ch') chs got.2.2) := by
  induction chs generalizing scratch with
  | nil => exact ⟨⟨fun _ _ hmem => absurd hmem not_mem_nil, fun _ => rfl⟩, fun _ => .nil⟩
  | cons ch chs ih =>
    obtain ⟨hch, hchs⟩ := forall_mem_cons.mp h
    obtain ⟨-, -, hfails, hread, -⟩ :=
      readChannel_spec drv bytesReqToRead scratch hch
    unfold streamReadUtil
    by_cases hround : (readChannel drv bytesReqToRead scratch ch).1 = .eok
    · rw [if_pos hround]
      obtain ⟨hiff, hall⟩ := ih (readChannel drv bytesReqToRead scratch ch).2.1 hchs
      have hnot : ¬ RoundFails drv bytesReqToRead ch := fun hc => hfails.mpr hc hround
      refine ⟨?_, fun hok => .cons (hread hround) (hall hok)⟩
      rw [hiff, forall_mem_cons]
      exact ⟨fun hrest => ⟨hnot, hrest⟩, fun hrest => hrest.2⟩
    · rw [if_neg hround]
      refine ⟨⟨fun hok => absurd hok hround, fun hnone => ?_⟩, fun hok => absurd hok hround⟩
      exact absurd (hfails.mp hround) (hnone ch mem_cons_self)

/-- A loop that fails leaves all readers where they were when nothing is taken until then. -/
lemma streamReadUtil_error (drv : Driver) (bytesReqToRead : ℕ) (scratch : List UInt8)
    (h : ∀ ch ∈ chs, ch.Ready)
    (herror : (streamReadUtil drv bytesReqToRead scratch chs).1 ≠ .eok) :
    List.Forall₂ (fun ch ch' => ch'.rd = ch.rd) chs
        (streamReadUtil drv bytesReqToRead scratch chs).2.2 ↔
      NothingTakenUntilFailure drv bytesReqToRead chs := by
  induction chs generalizing scratch with
  | nil => exact absurd rfl herror
  | cons ch chs ih =>
    obtain ⟨hch, hchs⟩ := forall_mem_cons.mp h
    obtain ⟨htakes, -, hfails, -, -⟩ :=
      readChannel_spec drv bytesReqToRead scratch hch
    -- the reader of the first channel stays when its round takes nothing
    have hstill : (readChannel drv bytesReqToRead scratch ch).2.2.rd = ch.rd ↔
        bytesTaken drv bytesReqToRead ch = 0 := by
      refine ⟨fun heq => ?_, htakes.still⟩
      have hunread := htakes.unread
      rw [heq] at hunread
      omega
    unfold NothingTakenUntilFailure
    unfold streamReadUtil at herror ⊢
    by_cases hround : (readChannel drv bytesReqToRead scratch ch).1 = .eok
    · rw [if_pos hround] at herror ⊢
      have hnot : ¬ RoundFails drv bytesReqToRead ch := fun hc => hfails.mpr hc hround
      rw [List.forall₂_cons, hstill, ih _ hchs herror, or_iff_right hnot]
    · rw [if_neg hround, List.forall₂_cons, hstill, or_iff_left_of_imp]
      · refine and_congr_right fun _ => ⟨fun _ => hfails.mp hround, fun _ => ?_⟩
        exact List.forall₂_same.mpr fun _ _ => rfl
      · exact fun _ => hfails.mp hround

/-! ## One call -/

/-- The call reads the requested channels together: if it succeeds, all are read by the same
number of bytes, and if it returns an error, no reader has moved. -/
def ReadsTogether (drv : Driver) (chs : List Channel) (o : ReadOutcome) : Prop :=
  if o.result = .eok then ∃ n, List.Forall₂ (ReadBy drv n) chs o.channels
  else List.Forall₂ (fun ch ch' => ch'.rd = ch.rd) chs o.channels

/-- The channels agree on a request: no round fails and all take the same number of bytes, or
the rounds up to the first that fails take nothing. -/
def Agree (drv : Driver) (bytesReqToRead : ℕ) (chs : List Channel) : Prop :=
  (∃ n, ∀ ch ∈ chs, ¬ RoundFails drv bytesReqToRead ch ∧ bytesTaken drv bytesReqToRead ch = n) ∨
    NothingTakenUntilFailure drv bytesReqToRead chs

/-- A batch is on its way, or there is enough for the next. -/
def BatchDue (r : StreamReader) (ch : Channel) : Prop :=
  r.pendingBatchBytes ≠ 0 ∨ ch.rd.unreadBytes ≥ computeBufferSizeInBytes r.drv r.dataBatchingUs

/-- The bytes of the batch that is on its way, or of the next. -/
def pendingBatch (r : StreamReader) : ℕ :=
  if r.pendingBatchBytes = 0 then computeBufferSizeInBytes r.drv r.dataBatchingUs
  else r.pendingBatchBytes

/-- The request that a call makes to each channel; `ch` is the first.  Zero is as much as fits
into the output. -/
def bytesRequested (r : StreamReader) (ch : Channel) : ℕ :=
  if r.isBatchStreaming then min (pendingBatch r) ch.out.freeSpace else 0

/-- The channels agree on the request of the call, if it makes one. -/
def AgreeOnCall (r : StreamReader) : List Channel → Prop
  | [] => True
  | ch :: chs => (r.isBatchStreaming ∧ ¬ BatchDue r ch) ∨
      Agree r.drv (bytesRequested r ch) (ch :: chs)

section

variable {r : StreamReader} (hbatch : r.isBatchStreaming = true)
include hbatch

lemma streamRead_of_not_due (hdue : ¬ BatchDue r ch) : streamRead r (ch :: chs) =
      { result := .eok, isBatchSent := false, reader := r, channels := ch :: chs } := by
  unfold BatchDue at hdue
  push Not at hdue
  unfold streamRead streamBatchRead
  dsimp only
  rw [hbatch, if_pos rfl, if_pos ⟨hdue.1, Nat.not_le.mpr hdue.2⟩]

/-- The call that reads a part of a batch. -/
lemma streamRead_of_due (hdue : BatchDue r ch) :
    let got := streamReadUtil r.drv (bytesRequested r ch) r.scratch (ch :: chs)
    let pending := if got.1 = .eok then
      (pendingBatch r + uint32Size - (got.2.2.headD ch).out.actualDataLen) % uint32Size
      else pendingBatch r
    streamRead r (ch :: chs) =
      { result := got.1
        isBatchSent := got.1 = .eok ∧ pending = 0
        reader := { r with scratch := got.2.1, pendingBatchBytes := pending }
        channels := got.2.2 } := by
  have hnot : ¬ (r.pendingBatchBytes = 0 ∧
      ¬ ch.rd.unreadBytes ≥ computeBufferSizeInBytes r.drv r.dataBatchingUs) := by
    rintro ⟨hpending, hunread⟩
    exact hdue.elim (fun hc => hc hpending) hunread
  have hrequest : bytesRequested r ch =
      if pendingBatch r ≥ ch.out.freeSpace then ch.out.freeSpace else pendingBatch r := by
    rw [bytesRequested, hbatch, if_pos rfl]
    split
    · omega
    · omega
  rw [hrequest]
  unfold streamRead streamBatchRead
  dsimp only
  rw [hbatch, if_pos rfl, if_neg hnot]
  rfl

end

lemma readBy_zero (drv : Driver) (ch : Channel) : ReadBy drv 0 ch ch := by
  have hnone : ch.nextBytes 0 = [] := take_zero
  refine ⟨rfl, rfl, Nat.ModEq.refl _, ?_, fun _ => by rw [hnone, append_nil]⟩
  split
  · exact Nat.ModEq.refl _
  · exact Nat.ModEq.refl _

lemma forall₂_readBy_iff {chs' : List Channel}
    (hall : List.Forall₂ (fun ch ch' => ReadBy drv (bytesTaken drv bytesReqToRead ch) ch ch')
      chs chs') (n : ℕ) :
    List.Forall₂ (ReadBy drv n) chs chs' ↔ ∀ ch ∈ chs, bytesTaken drv bytesReqToRead ch = n := by
  induction hall with
  | nil => exact ⟨fun _ _ hmem => absurd hmem not_mem_nil, fun _ => .nil⟩
  | cons hread _ ih =>
    rw [List.forall₂_cons, forall_mem_cons, ih]
    refine and_congr_left fun _ => ⟨fun hn => ?_, fun hn => hn ▸ hread⟩
    have htaken := hread.unread
    have hread_n := hn.unread
    omega

/-- The loop reads the channels together when they agree on the request. -/
lemma streamReadUtil_together (h : ∀ ch ∈ chs, ch.Ready) (o : ReadOutcome)
    (hresult : o.result = (streamReadUtil drv bytesReqToRead scratch chs).1)
    (hchannels : o.channels = (streamReadUtil drv bytesReqToRead scratch chs).2.2) :
    ReadsTogether drv chs o ↔ Agree drv bytesReqToRead chs := by
  obtain ⟨hiff, hall⟩ := streamReadUtil_eok drv bytesReqToRead scratch h
  have herror := streamReadUtil_error drv bytesReqToRead scratch h
  rw [← hresult, ← hchannels] at hall
  rw [← hresult] at hiff herror
  rw [← hchannels] at herror
  unfold ReadsTogether Agree
  by_cases hok : o.result = .eok
  · have hnone := hiff.mp hok
    rw [if_pos hok]
    constructor
    · rintro ⟨n, hread⟩
      have hn := (forall₂_readBy_iff (hall hok) n).mp hread
      exact Or.inl ⟨n, fun ch hmem => ⟨hnone ch hmem, hn ch hmem⟩⟩
    · rintro (⟨n, hn⟩ | hstop)
      · exact ⟨n, (forall₂_readBy_iff (hall hok) n).mpr fun ch hmem => (hn ch hmem).2⟩
      · obtain ⟨ch, hmem, hfails⟩ := hstop.exists_fails
        exact absurd hfails (hnone ch hmem)
  · rw [if_neg hok, herror hok]
    refine ⟨Or.inr, ?_⟩
    rintro (⟨n, hn⟩ | hstop)
    · exact absurd (hiff.mpr fun ch hmem => (hn ch hmem).1) hok
    · exact hstop

/-- **Channels that are read together.** A call of `audio_dam_stream_read` advances all
requested channels by the same number of bytes and reports them in every output buffer, or
returns an error and moves no reader, exactly when it makes no request or the channels agree
on it. -/
theorem audioDamStreamRead_together (r : StreamReader) (chs : List Channel)
    (h : ∀ ch ∈ chs, ch.Ready) :
    ReadsTogether r.drv chs (streamRead r chs) ↔ AgreeOnCall r chs := by
  cases chs with
  | nil => exact ⟨fun _ => trivial, fun _ => .nil⟩
  | cons ch chs =>
    unfold AgreeOnCall
    cases hbatch : r.isBatchStreaming with
    | false =>
      have hrequest : bytesRequested r ch = 0 := by
        rw [bytesRequested, hbatch]
        rfl
      unfold streamRead
      dsimp only
      rw [hrequest, hbatch, or_iff_right (fun hc => Bool.noConfusion hc.1)]
      exact streamReadUtil_together h _ rfl rfl
    | true =>
      by_cases hdue : BatchDue r ch
      · rw [streamRead_of_due hbatch hdue]
        dsimp only
        rw [or_iff_right (fun hc => hc.2 hdue)]
        exact streamReadUtil_together h _ rfl rfl
      · rw [streamRead_of_not_due hbatch hdue]
        refine ⟨fun _ => Or.inl ⟨rfl, hdue⟩, fun _ => ?_⟩
        exact ⟨0, List.forall₂_same.mpr fun ch' _ => readBy_zero r.drv ch'⟩

end

/-! ## A channel that runs dry -/

/-- Samples, two bytes in a millisecond. -/
def pcmDriver : Driver :=
  { isRawCompressed := false, frameMaxDataLenInUs := 0, frameMaxDataLenInBytes := 0,
    bytesPerOneMs := 2 }

/-- A reader of samples that is not in batch mode. -/
def pcmReader : StreamReader :=
  { drv := pcmDriver, scratch := [], isBatchStreaming := false, dataBatchingUs := 0,
    pendingBatchBytes := 0 }

/-- A channel with one chunk of four bytes, of which the last `unread` ones are unread, and
with space for four bytes at the output. -/
def fourByteChannel (unread : ℕ) : Channel :=
  { buf := { chunks := [[1, 2, 3, 4]], wrPos := ⟨0, 0⟩, writeByteCounter := 4, readers := [] }
    rd := ⟨⟨0, 4 - unread⟩, unread⟩
    out := { data := [], actualDataLen := 0, maxDataLen := 4 } }

lemma fourByteChannel_ready {unread : ℕ} (h : unread ≤ 4) : (fourByteChannel unread).Ready :=
  { onRing := fun _ => ⟨Nat.zero_lt_one, Nat.sub_le 4 unread⟩
    unread_le := h }

/-- Two channels with two unread bytes each are read together. -/
theorem audioDamStreamRead_together_two :
    ReadsTogether pcmDriver [fourByteChannel 2, fourByteChannel 2]
      (streamRead pcmReader [fourByteChannel 2, fourByteChannel 2]) := by
  have hready : ∀ ch ∈ [fourByteChannel 2, fourByteChannel 2], ch.Ready := by
    intro ch hmem
    rw [mem_pair] at hmem
    rcases hmem with rfl | rfl
    · exact fourByteChannel_ready (by decide)
    · exact fourByteChannel_ready (by decide)
  refine (audioDamStreamRead_together pcmReader _ hready).mpr (Or.inr (Or.inl ⟨2, ?_⟩))
  decide

/-- **The first channel is read and the second runs dry.** The call returns `AR_ENEEDMORE`,
and the reader of the first channel has moved. -/
theorem not_audioDamStreamRead_together :
    ¬ ∀ (r : StreamReader) (chs : List Channel), (∀ ch ∈ chs, ch.Ready) →
      ReadsTogether r.drv chs (streamRead r chs) := by
  intro hall
  have hready : ∀ ch ∈ [fourByteChannel 4, fourByteChannel 0], ch.Ready := by
    intro ch hmem
    rw [mem_pair] at hmem
    rcases hmem with rfl | rfl
    · exact fourByteChannel_ready (by decide)
    · exact fourByteChannel_ready (by decide)
  have htogether := hall pcmReader [fourByteChannel 4, fourByteChannel 0] hready
  have hresult : (streamRead pcmReader [fourByteChannel 4, fourByteChannel 0]).result ≠ .eok := by
    decide
  unfold ReadsTogether at htogether
  rw [if_neg hresult] at htogether
  revert htogether
  decide

end AudioReach.AudioDam
