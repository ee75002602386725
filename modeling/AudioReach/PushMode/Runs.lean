import AudioReach.Library.Runs
import AudioReach.PushMode.Batches

/-!
# Runs of push mode

The module follows the stream of batches frame by frame: the circular buffer shows everything
that was written, the position buffer tells where the published batches end, and the saved
pointers are the places of the sizes in the header of the current batch.  From this every batch
that no later one has overwritten can be read between two published indices.

The code keeps it only for the frames that `Fits` describes.  It ends a batch that there is not,
writes sizes that go around the end of the buffer past its end, cuts padding off there, and
interleaves all of a frame although only a part has room before the end.
-/

namespace AudioReach

open Library List Option

/-- The position buffer that the next frame sees. -/
def nextPosBuf (s : PushMode) : PosBuf := (applyPosBufReset s).posBuf

/-- The module and the batches of the frames that it received. -/
structure PushRun where
  s : PushMode
  t : PushStream

namespace PushRun

variable {cfg : PushCfg} {p₀ : PosBuf} {s : PushMode} {t : PushStream} {i : PushInput}

/-- The next frame. -/
def step (cfg : PushCfg) (r : PushRun) (i : PushInput) : PushRun :=
  ⟨((pushModeWriteOutput cfg r.s i).map (·.2)).getD r.s, r.t.receive cfg.fmt i⟩

/-- No batches yet. -/
def init (s : PushMode) : PushRun := ⟨s, ⟨[], none⟩⟩

/-- A module whose batch headers were just enabled. -/
structure Ready (cfg : PushCfg) (s : PushMode) : Prop where
  enabled : s.isDisabled = false
  closed : s.isUpdateHeader = true
  headerBuffer : s.headerBufferSize = headerSize cfg.headerTypeFlags
  index : (nextPosBuf s).index < cfg.size

/-- The batch that the frame is added to, or that it ends, does not exceed the buffer. -/
def Admitted (cfg : PushCfg) (r : PushRun) (i : PushInput) : Prop :=
  ∀ b, (r.t.take cfg.fmt i).current = some b →
    (if PushStream.ends i then b.bytes cfg.headerTypeFlags
      else b.openBytes cfg.headerTypeFlags).length ≤ cfg.size

instance (cfg : PushCfg) (r : PushRun) (i : PushInput) : Decidable (Admitted cfg r i) :=
  match h : (r.t.take cfg.fmt i).current with
  | none => isTrue fun b hb => by rw [h] at hb; contradiction
  | some b => decidable_of_iff ((if PushStream.ends i then b.bytes cfg.headerTypeFlags
      else b.openBytes cfg.headerTypeFlags).length ≤ cfg.size)
      ⟨fun hle b' hb => by rw [h, Option.some.injEq] at hb; exact hb ▸ hle, fun hall => hall b h⟩

/-- **What the client finds.**  `p₀` is the position buffer before the first frame. -/
structure Decodable (cfg : PushCfg) (p₀ : PosBuf) (r : PushRun) : Prop where
  /-- The published index is where the published batches end. -/
  index : (nextPosBuf r.s).index
    = (p₀.index + (r.t.publishedBytes cfg.headerTypeFlags).length) % cfg.size
  frameCounter : (nextPosBuf r.s).frameCounter
    = p₀.frameCounter + UInt32.ofNat r.t.published.length
  fits : ∀ b ∈ r.t.published, (b.bytes cfg.headerTypeFlags).length ≤ cfg.size
  sizes : ∀ b ∈ r.t.published, (UInt32.ofNat b.pcm.length).toNat = b.pcm.length
  /-- Each published batch that the writer has not come around to again is in the buffer,
  between the index before it and the index after it. -/
  readable : ∀ before b after, r.t.published = before ++ b :: after →
    (b.bytes cfg.headerTypeFlags).length +
      ((after.flatMap (Batch.bytes cfg.headerTypeFlags)).length +
        (r.t.currentBytes cfg.headerTypeFlags).length) ≤ cfg.size →
    ∀ j x, (b.bytes cfg.headerTypeFlags)[j]? = some x →
      r.s.circBuf ((p₀.index + (before.flatMap (Batch.bytes cfg.headerTypeFlags)).length + j)
        % cfg.size) = x

/-- Every store of the call stays inside the circular buffer. -/
def Stored (cfg : PushCfg) (r : PushRun) (i : PushInput) : Prop :=
  ∃ s', pushModeWriteOutput cfg r.s i = some (.eok, s')

/-! ## When the code writes decodable batches -/

/-- There is a batch once the frame is added. -/
def Opened (s : PushMode) (i : PushInput) : Prop :=
  s.isUpdateHeader = false ∨ i.isTimestampValid ∧ i.actualDataLen ≠ 0

instance (s : PushMode) (i : PushInput) : Decidable (Opened s i) :=
  inferInstanceAs (Decidable (_ ∨ _ ∧ _))

/-- Where the samples of the frame go. -/
def dataIndex (cfg : PushCfg) (s : PushMode) : ℕ :=
  if s.isUpdateHeader then ((nextPosBuf s).index + headerSize cfg.headerTypeFlags) % cfg.size
  else s.batchWriteIndex

/-- The samples of the batch with the frame, in bytes. -/
def pcmWithFrame (cfg : PushCfg) (s : PushMode) (i : PushInput) : ℕ :=
  (if s.isUpdateHeader then 0 else s.pcmBytesWritten) +
    if i.isTimestampValid then frameSize cfg.fmt i else 0

/-- The sizes of the batch, at `index`, are not cut by the end of the buffer, and neither is its
padding. -/
def Uncut (cfg : PushCfg) (index pcmBytes : ℕ) : Prop :=
  (index + (headerStartSize cfg.headerTypeFlags + 4)) % cfg.size + 4 ≤ cfg.size ∧
  (index + (headerStartSize cfg.headerTypeFlags + 8)) % cfg.size + 4 ≤ cfg.size ∧
  (index + (headerSize cfg.headerTypeFlags + pcmBytes)) % cfg.size + paddingFor pcmBytes ≤ cfg.size

instance (cfg : PushCfg) (index pcmBytes : ℕ) : Decidable (Uncut cfg index pcmBytes) :=
  inferInstanceAs (Decidable (_ ∧ _ ∧ _))

/-- The frames that the code handles. -/
def Fits (cfg : PushCfg) (s : PushMode) (i : PushInput) : Prop :=
  (i.isTimestampValid → i.isBatchCompleted → Opened s i) ∧
  (i.isTimestampValid → Copyable cfg (dataIndex cfg s) i) ∧
  (Opened s i → PushStream.ends i → Uncut cfg (nextPosBuf s).index (pcmWithFrame cfg s i))

instance (cfg : PushCfg) (s : PushMode) (i : PushInput) : Decidable (Fits cfg s i) :=
  inferInstanceAs (Decidable ((_ → _ → _) ∧ (_ → _) ∧ (_ → _ → _)))

/-! ## The invariant -/

/-- The module is in the middle of the batch `b`, which starts at the position `n`. -/
structure OpenAt (cfg : PushCfg) (n : ℕ) (s : PushMode) (b : Batch) : Prop where
  opened : s.isUpdateHeader = false
  nonempty : 0 < b.pcm.length
  applied : s.isPendingPosBufReset = false
  sizePtr : s.pcmParamActualSizePtr
    = some ((n + (headerStartSize cfg.headerTypeFlags + 4)) % cfg.size)
  paddingPtr : s.pcmParamPaddingSizePtr
    = some ((n + (headerStartSize cfg.headerTypeFlags + 8)) % cfg.size)
  writeIndex : s.batchWriteIndex = (n + (b.openBytes cfg.headerTypeFlags).length) % cfg.size
  pcmBytes : s.pcmBytesWritten = b.pcm.length

/-- The module knows the current batch. -/
def Current (cfg : PushCfg) (n : ℕ) (s : PushMode) : Option Batch → Prop
  | none => s.isUpdateHeader = true
  | some b => OpenAt cfg n s b

/-- The module follows the stream. -/
structure Held (cfg : PushCfg) (p₀ : PosBuf) (s : PushMode) (t : PushStream) : Prop where
  enabled : s.isDisabled = false
  headerBuffer : s.headerBufferSize = headerSize cfg.headerTypeFlags
  shows : Shows cfg.size s.circBuf p₀.index (t.bytes cfg.headerTypeFlags)
  index : (nextPosBuf s).index
    = (p₀.index + (t.publishedBytes cfg.headerTypeFlags).length) % cfg.size
  frameCounter : (nextPosBuf s).frameCounter = p₀.frameCounter + UInt32.ofNat t.published.length
  fits : ∀ b ∈ t.published, (b.bytes cfg.headerTypeFlags).length ≤ cfg.size
  current : Current cfg (p₀.index + (t.publishedBytes cfg.headerTypeFlags).length) s t.current

lemma Held.init (h : Ready cfg s) : Held cfg (nextPosBuf s) s ⟨[], none⟩ := by
  refine ⟨h.enabled, h.headerBuffer, Shows.nil, ?_, ?_, by simp, h.closed⟩
  · exact (Nat.mod_eq_of_lt h.index).symm
  · exact (UInt32.add_zero _).symm

lemma Held.decodable (h : Held cfg p₀ s t) : Decodable cfg p₀ ⟨s, t⟩ := by
  refine ⟨h.index, h.frameCounter, h.fits, ?_, ?_⟩
  · intro b hb
    have hfits := h.fits b hb
    rw [length_bytes] at hfits
    have hsize := cfg.size_lt
    exact UInt32.toNat_ofNat_of_lt' (by show b.pcm.length < 2 ^ 32; omega)
  · rintro before b after hpublished hlast j x hx
    have hshows := h.shows
    rw [PushStream.bytes, PushStream.publishedBytes, show t.published = _ from hpublished,
      flatMap_append, flatMap_cons, append_assoc, append_assoc,
      ← append_assoc] at hshows
    exact hshows.read (by rw [length_append]; exact hlast) j x hx

/-! ## One frame -/

@[simp] lemma nextPosBuf_applyPosBufReset : nextPosBuf (applyPosBufReset s) = nextPosBuf s := by
  unfold nextPosBuf applyPosBufReset
  cases h : s.isPendingPosBufReset <;> simp [h]

lemma nextPosBuf_of_applied (h : s.isPendingPosBufReset = false) : nextPosBuf s = s.posBuf := by
  simp [nextPosBuf, applyPosBufReset, h]

/-- The deferred reset changes nothing that the invariant is about. -/
lemma Held.applyPosBufReset (h : Held cfg p₀ s t) : Held cfg p₀ (applyPosBufReset s) t ∧
      (AudioReach.applyPosBufReset s).isPendingPosBufReset = false := by
  cases hpending : s.isPendingPosBufReset with
  | false =>
    have hsame : AudioReach.applyPosBufReset s = s := by
      simp [AudioReach.applyPosBufReset, hpending]
    rw [hsame]
    exact ⟨h, hpending⟩
  | true =>
    have hreset : AudioReach.applyPosBufReset s
        = { s with posBuf := ⟨0, 0, 0⟩, isPendingPosBufReset := false } := by
      simp [AudioReach.applyPosBufReset, hpending]
    have hnext : nextPosBuf (AudioReach.applyPosBufReset s) = nextPosBuf s :=
      nextPosBuf_applyPosBufReset
    have hcurrent := h.current
    refine ⟨⟨?_, ?_, ?_, hnext ▸ h.index, hnext ▸ h.frameCounter, h.fits, ?_⟩, by rw [hreset]⟩
    · rw [hreset]; exact h.enabled
    · rw [hreset]; exact h.headerBuffer
    · rw [hreset]; exact h.shows
    · cases hb : t.current with
      | none =>
        rw [hb] at hcurrent
        rw [hreset]
        exact hcurrent
      | some b =>
        rw [hb] at hcurrent
        rw [hcurrent.applied] at hpending
        contradiction

lemma add_of_empty (hlen : i.actualDataLen = 0) : t.add cfg.fmt i = t := if_pos hlen

lemma add_of_none (hlen : i.actualDataLen ≠ 0) (hnone : t.current = none) :
    t.add cfg.fmt i = ⟨t.published, some ⟨i.utcTime, framePcm cfg.fmt i⟩⟩ := by
  simp [PushStream.add, hlen, hnone]

lemma add_of_some {b : Batch} (hlen : i.actualDataLen ≠ 0) (hsome : t.current = some b) :
    t.add cfg.fmt i = ⟨t.published, some ⟨b.utcTime, b.pcm ++ framePcm cfg.fmt i⟩⟩ := by
  simp [PushStream.add, hlen, hsome]

/-- The module after the header of a batch at the position `n`. -/
def headed (cfg : PushCfg) (s : PushMode) (n : ℕ) (m : ℕ → UInt8) : PushMode :=
  { s with
    circBuf := m
    isUpdateHeader := false
    pcmParamActualSizePtr := some ((n + (headerStartSize cfg.headerTypeFlags + 4)) % cfg.size)
    pcmParamPaddingSizePtr := some ((n + (headerStartSize cfg.headerTypeFlags + 8)) % cfg.size)
    batchWriteIndex := (n + headerSize cfg.headerTypeFlags) % cfg.size
    pcmBytesWritten := 0
    batchBytesWritten := headerSize cfg.headerTypeFlags }

lemma startBatch_eq {start : ℕ} {S : List UInt8} (hclosed : s.isUpdateHeader = true)
    (hbuf : s.headerBufferSize = headerSize cfg.headerTypeFlags)
    (hshows : Shows cfg.size s.circBuf start S)
    (hindex : s.posBuf.index = (start + S.length) % cfg.size) :
    ∃ m, Shows cfg.size m start (S ++ batchHeader cfg.headerTypeFlags i.utcTime) ∧
      startBatch cfg s i = some (.eok, headed cfg s (start + S.length) m) := by
  obtain ⟨m, hm, hheader⟩ := pushModeWriteBatchHeader_eq cfg
    (s := { s with pcmBytesWritten := 0, batchWriteIndex := s.posBuf.index }) i.utcTime hbuf hshows
    hindex
  refine ⟨m, hm, ?_⟩
  have hplace : start + (S ++ batchHeader cfg.headerTypeFlags i.utcTime).length
      = start + S.length + headerSize cfg.headerTypeFlags := by
    rw [length_append, length_batchHeader, Nat.add_assoc]
  rw [hplace] at hheader
  rw [startBatch, if_pos hclosed, hheader, map_some, if_pos rfl]
  rfl

section

variable (h : Held cfg p₀ s t) (happlied : s.isPendingPosBufReset = false)
include h happlied

section

variable (hlen : i.actualDataLen ≠ 0) (hcopy : Copyable cfg (dataIndex cfg s) i)
include hlen hcopy

/-- A frame starts a batch. -/
lemma Held.startFrame (hnone : t.current = none) :
    ∃ s', writeFrame cfg s i = some (.eok, s') ∧ Held cfg p₀ s' (t.add cfg.fmt i) ∧
      s'.posBuf = s.posBuf ∧ s'.isPendingPosBufReset = false := by
  have hcurrent := h.current
  rw [hnone] at hcurrent
  have hclosed : s.isUpdateHeader = true := hcurrent
  have hindex := h.index
  have hcount := h.frameCounter
  rw [nextPosBuf_of_applied happlied] at hindex hcount
  have hshows := h.shows
  rw [PushStream.bytes, PushStream.currentBytes, hnone, elim_none, append_nil] at hshows
  obtain ⟨m, hm, hstart⟩ := startBatch_eq (i := i) hclosed h.headerBuffer hshows hindex
  have hplace : (headed cfg s (p₀.index + (t.publishedBytes cfg.headerTypeFlags).length)
      m).batchWriteIndex = (p₀.index + (t.publishedBytes cfg.headerTypeFlags ++
        batchHeader cfg.headerTypeFlags i.utcTime).length) % cfg.size := by
    rw [length_append, length_batchHeader, ← Nat.add_assoc]
    rfl
  have hcopy' : Copyable cfg (headed cfg s
      (p₀.index + (t.publishedBytes cfg.headerTypeFlags).length) m).batchWriteIndex i := by
    rw [dataIndex, if_pos hclosed, nextPosBuf_of_applied happlied, hindex, Nat.mod_add_mod] at hcopy
    exact hcopy
  obtain ⟨m', hm', hframe⟩ := copyFrame_eq hlen hcopy' hm hplace
  have hwrite : writeFrame cfg s i = (copyFrame cfg (headed cfg s
      (p₀.index + (t.publishedBytes cfg.headerTypeFlags).length) m) i).map fun s => (.eok, s) := by
    rw [writeFrame, if_neg hlen, hstart, bind_some, if_pos rfl]
  rw [hframe, map_some] at hwrite
  refine ⟨_, hwrite, ?_, rfl, happlied⟩
  · rw [add_of_none hlen hnone]
    refine ⟨h.enabled, h.headerBuffer, ?_, ?_, ?_, h.fits, ?_⟩
    · rw [append_assoc] at hm'
      exact hm'
    · rw [nextPosBuf_of_applied]
      exacts [hindex, happlied]
    · rw [nextPosBuf_of_applied]
      exacts [hcount, happlied]
    · refine ⟨rfl, ?_, happlied, rfl, rfl, ?_, Nat.zero_add _⟩
      · rw [length_framePcm]
        exact Nat.pos_of_ne_zero fun hzero => hlen ((frameSize_eq_zero _ _).mp hzero)
      · rw [append_assoc, length_append, ← Nat.add_assoc]
        rfl

/-- A frame is added to the current batch. -/
lemma Held.addFrame {b : Batch} (hsome : t.current = some b) :
    ∃ s', writeFrame cfg s i = some (.eok, s') ∧ Held cfg p₀ s' (t.add cfg.fmt i) ∧
      s'.posBuf = s.posBuf ∧ s'.isPendingPosBufReset = false := by
  have hopen := h.current
  rw [hsome] at hopen
  have hbytes : t.bytes cfg.headerTypeFlags
      = t.publishedBytes cfg.headerTypeFlags ++ b.openBytes cfg.headerTypeFlags := by
    simp [PushStream.bytes, PushStream.currentBytes, hsome]
  have hshows := h.shows
  rw [hbytes] at hshows
  have hindex := hopen.writeIndex
  rw [Nat.add_assoc, ← length_append] at hindex
  rw [dataIndex, if_neg (by rw [hopen.opened]; exact Bool.false_ne_true)] at hcopy
  obtain ⟨m, hm, hframe⟩ := copyFrame_eq hlen hcopy hshows hindex
  have hwrite : writeFrame cfg s i = (copyFrame cfg s i).map fun s => (.eok, s) := by
    rw [writeFrame, if_neg hlen, startBatch,
      if_neg (by rw [hopen.opened]; exact Bool.false_ne_true), bind_some, if_pos rfl]
  rw [hframe, map_some] at hwrite
  refine ⟨_, hwrite, ?_, rfl, happlied⟩
  · have hindex' := h.index
    have hcount := h.frameCounter
    rw [nextPosBuf_of_applied happlied] at hindex' hcount
    rw [add_of_some hlen hsome]
    refine ⟨h.enabled, h.headerBuffer, ?_, ?_, ?_, h.fits, ?_⟩
    · rw [Batch.openBytes, append_assoc, append_assoc] at hm
      exact hm
    · rw [nextPosBuf_of_applied]
      exacts [hindex', happlied]
    · rw [nextPosBuf_of_applied]
      exacts [hcount, happlied]
    · refine ⟨hopen.opened, ?_, happlied, hopen.sizePtr, hopen.paddingPtr, ?_, ?_⟩
      · rw [length_append]
        exact Nat.add_pos_left hopen.nonempty _
      · rw [Batch.openBytes, append_assoc, append_assoc, length_append, ← Nat.add_assoc]
        rfl
      · show s.pcmBytesWritten + _ = (b.pcm ++ framePcm cfg.fmt i).length
        rw [hopen.pcmBytes, length_append]

end

lemma Held.writeFrame (hcopy : Copyable cfg (dataIndex cfg s) i) :
    ∃ s', writeFrame cfg s i = some (.eok, s') ∧ Held cfg p₀ s' (t.add cfg.fmt i) ∧
      s'.posBuf = s.posBuf ∧ s'.isPendingPosBufReset = false := by
  by_cases hlen : i.actualDataLen = 0
  · refine ⟨s, if_pos hlen, ?_, rfl, happlied⟩
    rw [add_of_empty hlen]
    exact h
  · cases hb : t.current with
    | none => exact h.startFrame happlied hlen hcopy hb
    | some b => exact h.addFrame happlied hlen hcopy hb

end

variable (cfg) in
lemma writeZeros_eq {S : List UInt8} {start : ℕ}
    (hfits : s.batchWriteIndex + paddingFor s.pcmBytesWritten ≤ cfg.size)
    (hshows : Shows cfg.size s.circBuf start S)
    (hindex : s.batchWriteIndex = (start + S.length) % cfg.size) :
    ∃ m, Shows cfg.size m start (S ++ replicate (paddingFor s.pcmBytesWritten) 0) ∧
      (if s.pcmBytesWritten % 4 ≠ 0 then writePadding cfg s (paddingFor s.pcmBytesWritten)
        else some s) = some { s with
          circBuf := m
          batchWriteIndex := (start +
            (S ++ replicate (paddingFor s.pcmBytesWritten) 0).length) % cfg.size } := by
  by_cases haligned : s.pcmBytesWritten % 4 ≠ 0
  · rw [if_pos haligned]
    exact writePadding_eq hfits hshows hindex
  · have hzero : paddingFor s.pcmBytesWritten = 0 := if_neg haligned
    rw [if_neg haligned, hzero, replicate_zero, append_nil, ← hindex]
    exact ⟨s.circBuf, hshows, rfl⟩

/-- **The end of a batch.** -/
lemma Held.endHeaderBatch (h : Held cfg p₀ s t) (happlied : s.isPendingPosBufReset = false)
    {b : Batch} (hsome : t.current = some b)
    (hsize : (b.bytes cfg.headerTypeFlags).length ≤ cfg.size)
    (huncut : Uncut cfg s.posBuf.index b.pcm.length) (timestamp : UInt64) :
    ∃ s', pushModeEndHeaderBatch cfg s timestamp = some s' ∧ Held cfg p₀ s' t.close := by
  have hopen := h.current
  rw [hsome] at hopen
  have hpcm := hopen.pcmBytes
  have hindex := h.index
  have hcount := h.frameCounter
  rw [nextPosBuf_of_applied happlied] at hindex hcount
  rw [Uncut, hindex, Nat.mod_add_mod, Nat.mod_add_mod, Nat.mod_add_mod] at huncut
  obtain ⟨hactual, hpadding, hzeros⟩ := huncut
  have hwrite := hopen.writeIndex
  rw [length_openBytes] at hwrite
  have hbytes : t.bytes cfg.headerTypeFlags
      = t.publishedBytes cfg.headerTypeFlags ++ b.openBytes cfg.headerTypeFlags := by
    simp [PushStream.bytes, PushStream.currentBytes, hsome]
  have hwrite' : s.batchWriteIndex
      = (p₀.index + (t.bytes cfg.headerTypeFlags).length) % cfg.size := by
    rw [hopen.writeIndex, hbytes, length_append, Nat.add_assoc]
  obtain ⟨m, hm, hpad⟩ := writeZeros_eq cfg (by rw [hpcm, hwrite]; exact hzeros) h.shows hwrite'
  rw [hpcm, hbytes, Batch.openBytes, batchHeader, append_assoc, append_assoc _ b.pcm] at hm
  obtain ⟨m', m'', hstore, hstore', hshows⟩ := storeSizes_eq b.pcm.length
    (paddingFor b.pcm.length) hm (by
      rw [length_bytes, headerSize] at hsize
      rw [length_headerStart, length_append, length_replicate]
      omega) (by rw [length_headerStart]; exact hactual)
      (by rw [length_headerStart]; exact hpadding)
  rw [length_headerStart] at hstore hstore'
  have hclose : t.close = ⟨t.published ++ [b], none⟩ := by
    simp [PushStream.close, hsome]
  have hpublished : t.close.publishedBytes cfg.headerTypeFlags
      = t.publishedBytes cfg.headerTypeFlags ++ b.bytes cfg.headerTypeFlags := by
    simp [PushStream.publishedBytes, hclose]
  rw [pushModeEndHeaderBatch, hpad, bind_some]
  simp only [hopen.sizePtr, hopen.paddingPtr, hpcm]
  rw [hstore, bind_some, hstore', map_some]
  refine ⟨_, rfl, h.enabled, h.headerBuffer, ?_, ?_, ?_, ?_, ?_⟩
  · have hall : t.close.bytes cfg.headerTypeFlags
        = t.publishedBytes cfg.headerTypeFlags ++ b.bytes cfg.headerTypeFlags := by
      rw [PushStream.bytes, hpublished, PushStream.currentBytes, hclose, elim_none, append_nil]
    rw [hall, Batch.bytes, append_assoc _ b.pcm]
    exact hshows
  · rw [nextPosBuf_of_applied, hpublished, hbytes]
    · simp only [length_append, length_replicate, length_openBytes, length_bytes]
      congr 1
      omega
    · exact happlied
  · rw [nextPosBuf_of_applied, hclose]
    · show s.posBuf.frameCounter + 1 = _
      rw [hcount, length_append, length_singleton, UInt32.ofNat_add, UInt32.add_assoc]
      rfl
    · exact happlied
  · rw [hclose]
    intro b' hb'
    rcases mem_append.mp hb' with hb' | hb'
    · exact h.fits b' hb'
    · rw [mem_singleton.mp hb']
      exact hsize
  · rw [hclose]
    rfl

/-- The batch that the frame is added to has the samples that the module counts. -/
lemma Held.take_current (h : Held cfg p₀ s t) (hopened : Opened s i) :
    ∃ b, (t.take cfg.fmt i).current = some b ∧ b.pcm.length = pcmWithFrame cfg s i := by
  have hcurrent := h.current
  cases hb : t.current with
  | none =>
    rw [hb] at hcurrent
    have hclosed : s.isUpdateHeader = true := hcurrent
    obtain ⟨hvalid, hlen⟩ : i.isTimestampValid ∧ i.actualDataLen ≠ 0 := by
      rcases hopened with hfalse | hframe
      · rw [hclosed] at hfalse
        contradiction
      · exact hframe
    refine ⟨⟨i.utcTime, framePcm cfg.fmt i⟩, ?_, ?_⟩
    · rw [PushStream.take, if_pos hvalid, add_of_none hlen hb]
    · rw [pcmWithFrame, if_pos hclosed, if_pos hvalid, length_framePcm, Nat.zero_add]
  | some b =>
    rw [hb] at hcurrent
    have hopen : s.isUpdateHeader ≠ true := by
      rw [hcurrent.opened]
      exact Bool.false_ne_true
    by_cases hvalid : i.isTimestampValid = true
    · rw [PushStream.take, if_pos hvalid, pcmWithFrame, if_neg hopen, if_pos hvalid,
        hcurrent.pcmBytes]
      by_cases hlen : i.actualDataLen = 0
      · rw [add_of_empty hlen, (frameSize_eq_zero _ _).mpr hlen]
        exact ⟨b, hb, rfl⟩
      · rw [add_of_some hlen hb]
        exact ⟨_, rfl, by rw [length_append, length_framePcm]⟩
    · rw [PushStream.take, if_neg hvalid, pcmWithFrame, if_neg hopen, if_neg hvalid,
        hcurrent.pcmBytes]
      exact ⟨b, hb, rfl⟩

lemma applyPosBufReset_fields : (applyPosBufReset s).isDisabled = s.isDisabled ∧
    (applyPosBufReset s).isUpdateHeader = s.isUpdateHeader ∧
    (applyPosBufReset s).batchWriteIndex = s.batchWriteIndex ∧
    (applyPosBufReset s).pcmBytesWritten = s.pcmBytesWritten := by
  unfold applyPosBufReset
  split <;> exact ⟨rfl, rfl, rfl, rfl⟩

lemma Held.noteTimestamp (h : Held cfg p₀ s t) (timestamp : UInt64)
    (happlied : s.isPendingPosBufReset = false) :
    Held cfg p₀ { s with lastValidTimestamp := timestamp } t := by
  have hindex := h.index
  have hcount := h.frameCounter
  rw [nextPosBuf_of_applied happlied] at hindex hcount
  refine ⟨h.enabled, h.headerBuffer, h.shows, ?_, ?_, h.fits, ?_⟩
  · rw [nextPosBuf_of_applied]
    exacts [hindex, happlied]
  · rw [nextPosBuf_of_applied]
    exacts [hcount, happlied]
  · have hcurrent := h.current
    cases hb : t.current with
    | none =>
      rw [hb] at hcurrent
      exact hcurrent
    | some b =>
      rw [hb] at hcurrent
      exact ⟨hcurrent.opened, hcurrent.nonempty, happlied, hcurrent.sizePtr, hcurrent.paddingPtr,
        hcurrent.writeIndex, hcurrent.pcmBytes⟩

section

variable (h : Held cfg p₀ s t) (hadm : Admitted cfg ⟨s, t⟩ i) (hfits : Fits cfg s i)
include h hadm hfits

/-- A frame with a timestamp. -/
lemma Held.validFrame (hvalid : i.isTimestampValid = true) :
    ∃ s', pushModeWriteOutput cfg s i = some (.eok, s') ∧ Held cfg p₀ s' (t.receive cfg.fmt i) := by
  obtain ⟨hopened, hcopy, huncut⟩ := hfits
  obtain ⟨h₁, happlied⟩ := h.applyPosBufReset
  obtain ⟨-, hupdate, hwriteIndex, -⟩ := applyPosBufReset_fields (s := s)
  have h₂ := h₁.noteTimestamp i.timestamp happlied
  have hplace : dataIndex cfg { AudioReach.applyPosBufReset s with
      lastValidTimestamp := i.timestamp } = dataIndex cfg s := by
    rw [dataIndex, dataIndex, nextPosBuf_of_applied]
    · simp only [hupdate, hwriteIndex]
      rfl
    · exact happlied
  obtain ⟨s₃, hwrite, h₃, hpos, happlied₃⟩ := h₂.writeFrame happlied (hplace ▸ hcopy hvalid)
  have hcall : pushModeWriteOutput cfg s i = if i.isBatchCompleted then
      (pushModeEndHeaderBatch cfg s₃ i.timestamp).map fun s => (.eok, s) else some (.eok, s₃) := by
    simp only [pushModeWriteOutput, h.enabled, hvalid, if_true, hwrite, bind_some, true_and]
    rfl
  have htake : t.take cfg.fmt i = t.add cfg.fmt i := if_pos hvalid
  by_cases hend : i.isBatchCompleted = true
  · have hends : PushStream.ends i = true := by
      rw [PushStream.ends, hend, Bool.or_true]
    obtain ⟨b, hb, hpcm⟩ := h.take_current (hopened hvalid hend)
    have hsize := hadm b hb
    rw [if_pos hends] at hsize
    rw [htake] at hb
    obtain ⟨s₄, hclose, h₄⟩ := h₃.endHeaderBatch happlied₃ hb hsize
      (by rw [hpos, hpcm]; exact huncut (hopened hvalid hend) hends) i.timestamp
    refine ⟨s₄, by rw [hcall, if_pos hend, hclose, map_some], ?_⟩
    rw [PushStream.receive, if_pos hends, htake]
    exact h₄
  · have hends : PushStream.ends i ≠ true := by
      simp [PushStream.ends, hvalid, hend]
    refine ⟨s₃, by rw [hcall, if_neg hend], ?_⟩
    rw [PushStream.receive, if_neg hends, htake]
    exact h₃

/-- A frame without a timestamp. -/
lemma Held.droppedFrame (hinvalid : ¬ i.isTimestampValid = true) :
    ∃ s', pushModeWriteOutput cfg s i = some (.eok, s') ∧ Held cfg p₀ s' (t.receive cfg.fmt i) := by
  obtain ⟨-, -, huncut⟩ := hfits
  obtain ⟨h₁, happlied⟩ := h.applyPosBufReset
  obtain ⟨-, hupdate, -, -⟩ := applyPosBufReset_fields
  have hends : PushStream.ends i = true := by
    simp [PushStream.ends, hinvalid]
  have htake : t.take cfg.fmt i = t := if_neg hinvalid
  have hcurrent := h₁.current
  rw [PushStream.receive, if_pos hends, htake]
  cases hb : t.current with
  | none =>
    rw [hb] at hcurrent
    have hclosed : (AudioReach.applyPosBufReset s).isUpdateHeader = true := hcurrent
    have hsame : t.close = t := by
      simp [PushStream.close, hb]
    rw [hsame]
    refine ⟨_, ?_, h₁⟩
    simp [pushModeWriteOutput, h.enabled, hinvalid, hclosed]
  | some b =>
    rw [hb] at hcurrent
    have hsize := hadm b (by rw [htake]; exact hb)
    rw [if_pos hends] at hsize
    have hopened : Opened s i := Or.inl (hupdate ▸ hcurrent.opened)
    obtain ⟨b', hb', hpcm⟩ := h.take_current hopened
    rw [htake, hb, Option.some.injEq] at hb'
    subst hb'
    obtain ⟨s₂, hclose, h₂⟩ := h₁.endHeaderBatch happlied hb hsize
      (by rw [hpcm]; exact huncut hopened hends) (AudioReach.applyPosBufReset s).lastValidTimestamp
    have hsamples := hcurrent.nonempty
    rw [← hcurrent.pcmBytes] at hsamples
    refine ⟨s₂, ?_, h₂⟩
    simp [pushModeWriteOutput, h.enabled, hinvalid, hcurrent.opened, hsamples, hclose]

/-- **One frame.** A frame that the code handles is stored inside the buffer, and the module
follows the stream. -/
lemma Held.call : ∃ s', pushModeWriteOutput cfg s i = some (.eok, s') ∧
      Held cfg p₀ s' (t.receive cfg.fmt i) := by
  by_cases hvalid : i.isTimestampValid = true
  · exact h.validFrame hadm hfits hvalid
  · exact h.droppedFrame hadm hfits hvalid

end

/-! ## Runs -/

/-- **Push-mode batches are decodable.** Along every run whose frames the code handles, each
published batch that was not overwritten can be read between two published indices, and every
store stays inside the buffer. -/
theorem pushBatches_decodable (cfg : PushCfg) (s₀ : PushMode) (frames : List PushInput)
    (hready : Ready cfg s₀) (hadm : Meets (step cfg) (Admitted cfg) (init s₀) frames)
    (hfits : Meets (step cfg) (fun r i => Fits cfg r.s i) (init s₀) frames) :
    Along (step cfg) (Decodable cfg (nextPosBuf s₀)) (init s₀) frames ∧
      Meets (step cfg) (Stored cfg) (init s₀) frames := by
  have hheld : Along (step cfg) (fun r => Held cfg (nextPosBuf s₀) r.s r.t) (init s₀) frames := by
    refine along_of_meets (fun r i h hi => ?_) (Held.init hready) (hadm.and hfits)
    obtain ⟨s', hcall, h'⟩ := h.call hi.1 hi.2
    rw [step, hcall]
    exact h'
  refine ⟨hheld.mono fun r h => h.decodable, meets_of_along (fun r i h hi => ?_) hheld
    (hadm.and hfits)⟩
  obtain ⟨s', hcall, -⟩ := h.call hi.1 hi.2
  exact ⟨s', hcall⟩

/-! ## Two runs -/

lemma bits16_eq : 16 = 16 ∨ 16 = 24 ∨ 16 = 32 := Or.inl rfl

/-- Deinterleaved stereo samples of 16 bits. -/
def stereoFmt : PmMediaFmt := ⟨.deinterleaved, 2, 16, Nat.two_pos, bits16_eq⟩

/-- Mono samples of 16 bits. -/
def monoFmt : PmMediaFmt := ⟨.interleaved, 1, 16, Nat.one_pos, bits16_eq⟩

lemma stereoSize_pos : 0 < 96 := by decide

lemma stereoSize_lt : 96 < 2 ^ 32 := by decide

lemma stereoSize_accepted : pullPushModeCheckBufSize 96 stereoFmt = .eok := by decide

lemma monoSize_pos : 0 < 40 := by decide

lemma monoSize_lt : 40 < 2 ^ 32 := by decide

lemma monoSize_accepted : pullPushModeCheckBufSize 40 monoFmt = .eok := by decide

/-- A buffer of 96 bytes for deinterleaved stereo samples of 16 bits. -/
def stereoCfg : PushCfg where
  size := 96
  fmt := stereoFmt
  headerTypeFlags := 1
  size_pos := stereoSize_pos
  size_lt := stereoSize_lt
  size_accepted := stereoSize_accepted

/-- A buffer of 40 bytes for mono samples of 16 bits. -/
def monoCfg : PushCfg where
  size := 40
  fmt := monoFmt
  headerTypeFlags := 1
  size_pos := monoSize_pos
  size_lt := monoSize_lt
  size_accepted := monoSize_accepted

/-- A module whose batch headers were just enabled, with an empty buffer. -/
def readyModule : PushMode :=
  ⟨fun _ => 0, ⟨0, 0, 0⟩, false, false, 0, true, 36, none, none, 0, 0, 0⟩

lemma ready_readyModule (hflags : headerSize cfg.headerTypeFlags = 36) : Ready cfg readyModule :=
  ⟨rfl, rfl, hflags.symm, cfg.size_pos⟩

/-- A frame of `len` bytes a channel, that ends a batch or not. -/
def frameOf (len : ℕ) (endOfFrame : Bool) : PushInput :=
  ⟨true, 0, len, fun c b => UInt8.ofNat (16 * c + b), false, endOfFrame, [], 0⟩

/-- Three batches, the second of two frames and the third around the end of the buffer, with a
frame without a timestamp between the first two. -/
def threeBatches : List PushInput :=
  [frameOf 4 true, { frameOf 4 false with isTimestampValid := false }, frameOf 4 false,
    frameOf 2 true, frameOf 4 true]

theorem pushBatches_decodable_threeBatches :
    Along (step stereoCfg) (Decodable stereoCfg (nextPosBuf readyModule)) (init readyModule)
        threeBatches ∧
      Meets (step stereoCfg) (Stored stereoCfg) (init readyModule) threeBatches :=
  pushBatches_decodable stereoCfg readyModule threeBatches (ready_readyModule (by decide))
    (by decide) (by decide)

/-- **The claim fails.** An empty frame that ends a batch, right after a batch was published,
overwrites the size in the header of that batch. -/
theorem not_pushBatches_decodable :
    ¬ ∀ (cfg : PushCfg) (s₀ : PushMode) (frames : List PushInput), Ready cfg s₀ →
      Meets (step cfg) (Admitted cfg) (init s₀) frames →
      Along (step cfg) (Decodable cfg (nextPosBuf s₀)) (init s₀) frames ∧
        Meets (step cfg) (Stored cfg) (init s₀) frames := by
  intro h
  have hdecodable := (h monoCfg readyModule [frameOf 4 true, frameOf 0 true]
    (ready_readyModule (by decide)) (by decide)).1.last
  have hsize := hdecodable.readable [] ⟨0, framePcm monoCfg.fmt (frameOf 4 true)⟩ [] rfl (by decide)
    28 4 (by decide)
  revert hsize
  decide

end PushRun

end AudioReach
