import AudioReach.PushMode.Copies

/-!
# Batches

What the client is to find in the circular buffer: the published batches one after another, and
behind them the header and the samples of the batch that is being written.  `PushStream` says
this without the buffer: which frames go into which batch.  The lemmas here are about one step of
the module each: the header, the frame, the padding and the sizes.
-/

namespace AudioReach

open Library List

/-! ## The batches of a sequence of frames -/

/-- The samples of a frame in interleaved order. -/
def framePcm (fmt : PmMediaFmt) (i : PushInput) : List UInt8 :=
  match fmt.dataInterleaving with
  | .interleaved => (range i.actualDataLen).map (i.dataPtr 0)
  | .deinterleaved => (range (i.actualDataLen * fmt.numChannels)).map
      (interleavedByte i.dataPtr fmt.numChannels fmt.bytesPerSamp)

/-- The bytes of a frame, over all channels. -/
def frameSize (fmt : PmMediaFmt) (i : PushInput) : ℕ :=
  match fmt.dataInterleaving with
  | .interleaved => i.actualDataLen
  | .deinterleaved => i.actualDataLen * fmt.numChannels

@[simp] lemma length_framePcm (fmt : PmMediaFmt) (i : PushInput) :
    (framePcm fmt i).length = frameSize fmt i := by
  unfold framePcm frameSize
  split <;> simp

lemma frameSize_eq_zero (fmt : PmMediaFmt) (i : PushInput) :
    frameSize fmt i = 0 ↔ i.actualDataLen = 0 := by
  have := fmt.numChannels_pos
  unfold frameSize
  split
  · rfl
  · rw [Nat.mul_eq_zero]
    omega

/-- A batch. -/
structure Batch where
  utcTime : UInt64
  pcm : List UInt8

/-- A batch in the buffer: the sync word, the enabled parameters, the header of the PCM data with
its size and its padding, the samples and the padding. -/
def Batch.bytes (flags : UInt32) (b : Batch) : List UInt8 :=
  headerStart flags b.utcTime ++ paramHeader paramIdPcmData (UInt32.ofNat b.pcm.length)
    (UInt32.ofNat (paddingFor b.pcm.length)) ++ b.pcm ++ replicate (paddingFor b.pcm.length) 0

/-- A batch that is not complete: the sizes are not known yet. -/
def Batch.openBytes (flags : UInt32) (b : Batch) : List UInt8 :=
  batchHeader flags b.utcTime ++ b.pcm

/-- The batches of the frames so far. -/
structure PushStream where
  published : List Batch
  current : Option Batch

namespace PushStream

variable (fmt : PmMediaFmt) (flags : UInt32) (t : PushStream)

/-- The current batch is complete. -/
def close : PushStream :=
  match t.current with
  | none => t
  | some b => ⟨t.published ++ [b], none⟩

/-- A frame is added to the current batch, or starts one. -/
def add (i : PushInput) : PushStream :=
  if i.actualDataLen = 0 then t
  else
    match t.current with
    | none => { t with current := some ⟨i.utcTime, framePcm fmt i⟩ }
    | some b => { t with current := some { b with pcm := b.pcm ++ framePcm fmt i } }

/-- A frame without a timestamp is dropped. -/
def take (i : PushInput) : PushStream :=
  if i.isTimestampValid then t.add fmt i else t

/-- The frame ends a batch. -/
def ends (i : PushInput) : Bool :=
  !i.isTimestampValid || i.isBatchCompleted

/-- The batches after a frame. -/
def receive (i : PushInput) : PushStream :=
  if ends i then (t.take fmt i).close else t.take fmt i

/-- The published batches in the buffer. -/
def publishedBytes : List UInt8 :=
  t.published.flatMap (Batch.bytes flags)

/-- The current batch in the buffer. -/
def currentBytes : List UInt8 :=
  t.current.elim [] (Batch.openBytes flags)

/-- Everything that was written. -/
def bytes : List UInt8 :=
  t.publishedBytes flags ++ t.currentBytes flags

end PushStream

/-! ## Sizes -/

/-- The size of the sync word and of the enabled parameters. -/
def headerStartSize (flags : UInt32) : ℕ :=
  if flags &&& 1 ≠ 0 then 24 else 4

/-- The size of a header. -/
def headerSize (flags : UInt32) : ℕ := headerStartSize flags + 12

@[simp] lemma length_paramHeader (id actual padding : UInt32) :
    (paramHeader id actual padding).length = 12 := rfl

section

variable (flags : UInt32)

@[simp] lemma length_headerStart (utc : UInt64) :
    (headerStart flags utc).length = headerStartSize flags := by
  unfold headerStart headerStartSize enabledParams
  split <;> rfl

@[simp] lemma length_batchHeader (utc : UInt64) :
    (batchHeader flags utc).length = headerSize flags := by
  simp [batchHeader, headerSize]

lemma length_openBytes (b : Batch) :
    (b.openBytes flags).length = headerSize flags + b.pcm.length := by
  simp [Batch.openBytes]

lemma length_bytes (b : Batch) :
    (b.bytes flags).length = headerSize flags + b.pcm.length + paddingFor b.pcm.length := by
  simp [Batch.bytes, headerSize]
  omega

end

/-! ## The steps of the module -/

section Steps

variable {cfg : PushCfg} {s : PushMode} {i : PushInput} {start : ℕ} {S : List UInt8}

variable (cfg) in
/-- The header is written after what is there. -/
lemma pushModeWriteBatchHeader_eq (utc : UInt64)
    (hbuf : s.headerBufferSize = headerSize cfg.headerTypeFlags)
    (hshows : Shows cfg.size s.circBuf start S)
    (hindex : s.batchWriteIndex = (start + S.length) % cfg.size) :
    ∃ m, Shows cfg.size m start (S ++ batchHeader cfg.headerTypeFlags utc) ∧
      pushModeWriteBatchHeader cfg s utc = some (.eok, { s with
        circBuf := m
        pcmParamActualSizePtr := some ((start + S.length +
          (headerStartSize cfg.headerTypeFlags + 4)) % cfg.size)
        pcmParamPaddingSizePtr := some ((start + S.length +
          (headerStartSize cfg.headerTypeFlags + 8)) % cfg.size)
        batchWriteIndex := (start + (S ++ batchHeader cfg.headerTypeFlags utc).length) % cfg.size
        batchBytesWritten := headerSize cfg.headerTypeFlags }) := by
  obtain ⟨m, hloop, hm⟩ := hshows.storeRing (batchHeader cfg.headerTypeFlags utc)
    cfg.size_pos _ (Nat.le_refl _)
  refine ⟨m, hm, ?_⟩
  have hne : s.headerBufferSize ≠ 0 := by
    rw [hbuf, headerSize]
    omega
  rw [pushModeWriteBatchHeader, if_neg hne,
    if_neg (by rw [hbuf, length_batchHeader]; exact lt_irrefl _), hindex, hloop, Option.map_some]
  simp only [length_headerStart, length_batchHeader, Nat.mod_add_mod]

/-- The frame of a deinterleaved stream. -/
lemma copyDeinterleaved_eq {m : ℕ → UInt8} {writeIndex : ℕ} (hlen : i.actualDataLen ≠ 0)
    (hdvd : cfg.fmt.bytesPerSamp ∣ i.actualDataLen)
    (hfits : writeIndex + i.actualDataLen * cfg.fmt.numChannels ≤ cfg.size) :
    copyDeinterleaved cfg i.dataPtr (2 * i.actualDataLen) m i.actualDataLen 0 writeIndex
      = some (putAt m writeIndex ((range (i.actualDataLen * cfg.fmt.numChannels)).map
          (interleavedByte i.dataPtr cfg.fmt.numChannels cfg.fmt.bytesPerSamp)), i.actualDataLen,
        wrapIndex cfg.size writeIndex (i.actualDataLen * cfg.fmt.numChannels)) := by
  obtain ⟨n, hn⟩ := hdvd
  obtain ⟨len, hlen'⟩ := Nat.exists_eq_succ_of_ne_zero hlen
  have hbps := cfg.fmt.bytesPerSamp_pos
  have htotal : cfg.fmt.bytesPerSamp * (n * cfg.fmt.numChannels)
      = i.actualDataLen * cfg.fmt.numChannels := by
    rw [hn, Nat.mul_assoc]
  have hcopy : spfDeintlvToIntlv cfg m writeIndex (fun c b => i.dataPtr c (0 + b))
      i.actualDataLen = some (putAt m writeIndex
        ((range (i.actualDataLen * cfg.fmt.numChannels)).map
          (interleavedByte i.dataPtr cfg.fmt.numChannels cfg.fmt.bytesPerSamp))) := by
    have hdiv : i.actualDataLen / cfg.fmt.bytesPerSamp = n := by
      rw [hn, Nat.mul_div_cancel_left _ hbps]
    simp only [Nat.zero_add]
    rw [spfDeintlvToIntlv, hdiv, spfDeintlvToIntlvV2_eq cfg.fmt.numChannels_pos hbps
      (by rw [htotal]; exact hfits), interleavedBytes, htotal]
  have hmin : min (i.actualDataLen * cfg.fmt.numChannels) (cfg.size - writeIndex)
      = i.actualDataLen * cfg.fmt.numChannels := by omega
  rw [hlen', Nat.succ_eq_add_one] at hcopy hmin ⊢
  rw [Nat.mul_add, copyDeinterleaved, hcopy, hmin, Option.bind_some,
    Nat.mul_div_cancel _ cfg.fmt.numChannels_pos, Nat.sub_self, Nat.zero_add, copyDeinterleaved]

/-- A deinterleaved frame has whole samples and room before the end of the buffer. -/
def Copyable (cfg : PushCfg) (writeIndex : ℕ) (i : PushInput) : Prop :=
  cfg.fmt.dataInterleaving = .deinterleaved → i.actualDataLen ≠ 0 →
    cfg.fmt.bytesPerSamp ∣ i.actualDataLen ∧
      writeIndex + i.actualDataLen * cfg.fmt.numChannels ≤ cfg.size

instance (cfg : PushCfg) (writeIndex : ℕ) (i : PushInput) : Decidable (Copyable cfg writeIndex i) :=
  inferInstanceAs (Decidable (_ → _ → _ ∧ _))

/-- The frame is written after what is there. -/
lemma copyFrame_eq (hlen : i.actualDataLen ≠ 0) (hcopy : Copyable cfg s.batchWriteIndex i)
    (hshows : Shows cfg.size s.circBuf start S)
    (hindex : s.batchWriteIndex = (start + S.length) % cfg.size) :
    ∃ m, Shows cfg.size m start (S ++ framePcm cfg.fmt i) ∧
      copyFrame cfg s i = some { s with
        circBuf := m
        batchWriteIndex := (start + (S ++ framePcm cfg.fmt i).length) % cfg.size
        pcmBytesWritten := s.pcmBytesWritten + (framePcm cfg.fmt i).length } := by
  cases hint : cfg.fmt.dataInterleaving with
  | interleaved =>
    obtain ⟨m, hloop, hm⟩ := hshows.storeRing
      ((range i.actualDataLen).map (i.dataPtr 0)) cfg.size_pos i.actualDataLen (by simp)
    simp only [copyFrame, framePcm, hint]
    refine ⟨m, hm, ?_⟩
    rw [hindex, hloop, Option.map_some, length_map, length_range]
  | deinterleaved =>
    obtain ⟨hdvd, hfits⟩ := hcopy hint hlen
    have hpcm : framePcm cfg.fmt i = (range (i.actualDataLen * cfg.fmt.numChannels)).map
        (interleavedByte i.dataPtr cfg.fmt.numChannels cfg.fmt.bytesPerSamp) := by
      rw [framePcm, hint]
    have hsize : (framePcm cfg.fmt i).length = i.actualDataLen * cfg.fmt.numChannels := by
      rw [length_framePcm, frameSize, hint]
    rw [hindex] at hfits
    refine ⟨_, hshows.append _ (by rw [hsize]; exact hfits), ?_⟩
    simp only [copyFrame, hint]
    rw [hindex, copyDeinterleaved_eq hlen hdvd hfits, Option.map_some, wrapIndex_eq hfits,
      length_append, hsize, ← hpcm, Nat.add_assoc]

lemma writePadding_eq {n : ℕ} (hfits : s.batchWriteIndex + n ≤ cfg.size)
    (hshows : Shows cfg.size s.circBuf start S)
    (hindex : s.batchWriteIndex = (start + S.length) % cfg.size) :
    ∃ m, Shows cfg.size m start (S ++ replicate n 0) ∧
      writePadding cfg s n = some { s with
        circBuf := m
        batchWriteIndex := (start + (S ++ replicate n 0).length) % cfg.size } := by
  rw [hindex] at hfits
  refine ⟨_, hshows.append _ (by rw [length_replicate]; exact hfits), ?_⟩
  rw [writePadding, if_pos (by omega), hindex,
    storeIn_eq_some (by rw [length_replicate]; exact hfits), Option.map_some,
    wrapIndex_eq hfits, length_append, length_replicate, Nat.add_assoc]

/-- The two sizes are written into the header, which `rest` follows. -/
lemma storeSizes_eq {m : ℕ → UInt8} {P H rest : List UInt8} (actual padding : ℕ)
    (hshows : Shows cfg.size m start (P ++ (H ++ paramHeader paramIdPcmData 0 0 ++ rest)))
    (hroom : H.length + 12 + rest.length ≤ cfg.size)
    (hactual : (start + P.length + (H.length + 4)) % cfg.size + 4 ≤ cfg.size)
    (hpadding : (start + P.length + (H.length + 8)) % cfg.size + 4 ≤ cfg.size) :
    ∃ m' m'', storeWord cfg.size m (some ((start + P.length + (H.length + 4)) % cfg.size)) actual
        = some m' ∧
      storeWord cfg.size m' (some ((start + P.length + (H.length + 8)) % cfg.size)) padding
        = some m'' ∧
      Shows cfg.size m'' start (P ++ (H ++ paramHeader paramIdPcmData (UInt32.ofNat actual)
        (UInt32.ofNat padding) ++ rest)) := by
  have hsplit : ∀ v w : List UInt8, P ++ (H ++ (wordBytes paramIdPcmData ++ v ++ w) ++ rest)
      = (P ++ H ++ wordBytes paramIdPcmData) ++ (v ++ (w ++ rest)) := by simp
  have hsplit' : ∀ v w : List UInt8, (P ++ H ++ wordBytes paramIdPcmData) ++ (v ++ (w ++ rest))
      = (P ++ H ++ wordBytes paramIdPcmData ++ v) ++ (w ++ rest) := by simp
  have hplace : start + (P ++ H ++ wordBytes paramIdPcmData).length
      = start + P.length + (H.length + 4) := by
    simp only [length_append, length_wordBytes]
    omega
  have hplace' : ∀ v : UInt32, start + (P ++ H ++ wordBytes paramIdPcmData ++ wordBytes v).length
      = start + P.length + (H.length + 8) := by
    intro v
    simp only [length_append, length_wordBytes]
    omega
  rw [paramHeader, hsplit] at hshows
  have hfirst := hshows.patch (wordBytes (UInt32.ofNat actual)) rfl
    (by rw [hplace, length_wordBytes]; exact hactual)
    (by simp only [length_append, length_wordBytes]; omega)
  rw [hsplit', hplace] at hfirst
  have hsecond := hfirst.patch (wordBytes (UInt32.ofNat padding)) rfl
    (by rw [hplace', length_wordBytes]; exact hpadding)
    (by simp only [length_wordBytes]; omega)
  rw [← hsplit', ← hsplit, hplace'] at hsecond
  have hstore : ∀ m p v, p + 4 ≤ cfg.size →
      storeWord cfg.size m (some p) v = some (putAt m p (wordBytes (UInt32.ofNat v))) :=
    fun m p v hp => storeIn_eq_some hp
  exact ⟨_, _, hstore _ _ _ hactual, hstore _ _ _ hpadding, hsecond⟩

end Steps

end AudioReach
