import AudioReach.PullMode.Copy

/-!
# Pull mode does not depend on how reads are cut

A framework that reads some number of bytes gets the same streams in one call or in many, and
leaves the same position behind.  The client gets the same watermark events; it gets them in the
same order if it listed its levels in ascending order.  For deinterleaved data the position has to
be one of whole frames, as it is after every call that starts at such a position.
-/

namespace AudioReach.PullMode

open Interleaver Library
open List

/-! ## A call -/

/-- A call copies a prefix of the stream of each channel. -/
structure ReadOne (cfg : PullCfg) (start : ℕ) (old : ℕ → Bytes) (total : ℕ) (s : PullPushMode)
    (r : ReadResult) : Prop where
  result : r.result = .eok
  isDisabled : r.state.isDisabled = s.isDisabled
  index : r.state.posBuf.index.toNat = (start + total) % cfg.size
  filled : Filled cfg start old total r.output r.actualDataLen
  events : SamePassed UInt32.toNat cfg.waterMarkLevels r.events
    (crossedRound UInt32.toNat cfg.waterMarkLevels cfg.size start total)

/-- One call copies its frame, moves the index on and raises the levels on its way. -/
lemma pullModeReadInput_spec {cfg : PullCfg} {s : PullPushMode} {maxDataLen : UInt32}
    (hr : Ready cfg s.posBuf.index.toNat maxDataLen (cfg.totalCopySize maxDataLen))
    (henabled : s.isDisabled = false) (hindex : s.posBuf.index.toNat < cfg.size)
    (output : ℕ → Bytes) (timestamp : UInt64) :
    ∃ r, pullModeReadInput cfg s output maxDataLen timestamp = some r ∧
      ReadOne cfg s.posBuf.index.toNat output (cfg.totalCopySize maxDataLen).toNat s r := by
  have hstart : Copied cfg s.posBuf.index.toNat output 0 ⟨output, 0, 0, s.posBuf.index, []⟩ := by
    refine ⟨⟨fun j _ => ?_, ?_⟩, rfl, ?_, .of_eq rfl⟩
    · rw [Nat.zero_div, overlay_zero]
    · rw [Nat.zero_div]
      rfl
    · rw [Nat.add_zero, Nat.mod_eq_of_lt hindex]
  obtain ⟨c, hrun, hdone⟩ := copyLoop_spec hr (fun _ => Nat.dvd_zero _) (Nat.zero_le _)
    (Nat.lt_succ_of_le (Nat.sub_le _ _)) hstart
  rw [pullModeReadInput, henabled, if_neg (by decide)]
  dsimp only
  rw [hrun]
  exact ⟨_, rfl, rfl, henabled.symm, hdone.readIndex, hdone.filled, hdone.events⟩

/-! ## A sequence of calls -/

/-- A call of the framework: its buffers hold whole samples, and their total size is a
`uint32_t`. -/
structure Frame (cfg : PullCfg) where
  maxDataLen : UInt32
  output : ℕ → Bytes
  timestamp : UInt64
  whole : cfg.dataInterleaving = .deinterleaved → cfg.width.bytes ∣ maxDataLen.toNat
  fits : cfg.dataInterleaving = .deinterleaved → maxDataLen.toNat * cfg.numChannels.toNat < 2 ^ 32

/-- The bytes that a call asks for. -/
def Frame.bytes {cfg : PullCfg} (f : Frame cfg) : ℕ := f.maxDataLen.toNat * cfg.numBufs

/-- What a sequence of calls gives. -/
structure Reads where
  /-- `index` of the position buffer at the end. -/
  index : UInt32
  delivered : ℕ → List UInt8
  events : List UInt32

/-- A sequence of calls that succeed. -/
def readFrames (cfg : PullCfg) : List (Frame cfg) → PullPushMode → Option Reads
  | [], s => some ⟨s.posBuf.index, fun _ => [], []⟩
  | f :: fs, s => (pullModeReadInput cfg s f.output f.maxDataLen f.timestamp).bind fun r =>
    if r.result = .eok then
      (readFrames cfg fs r.state).map fun rest =>
        ⟨rest.index, fun j => (range r.actualDataLen.toNat).map (r.output j) ++ rest.delivered j,
          r.events ++ rest.events⟩
    else none

/-- The bytes that a sequence of calls asks for. -/
def totalBytes {cfg : PullCfg} (fs : List (Frame cfg)) : ℕ := (fs.map Frame.bytes).sum

/-- A module that reads from a position. -/
structure Reading where
  cfg : PullCfg
  state : PullPushMode
  accepted : Accepted cfg
  enabled : state.isDisabled = false
  index_lt : state.posBuf.index.toNat < cfg.size
  /-- The position of deinterleaved data is one of whole frames. -/
  index_whole : cfg.Whole state.posBuf.index.toNat

/-- The position from which a module reads. -/
def Reading.start (m : Reading) : ℕ := m.state.posBuf.index.toNat

/-- What a sequence of calls gives, by the bytes that it asks for: prefixes of the streams of the
channels, and an event each time that the position reaches a level. -/
structure Delivers (m : Reading) (total : ℕ) (r : Reads) : Prop where
  index : r.index.toNat = (m.start + total) % m.cfg.size
  delivered : ∀ j < m.cfg.numBufs, r.delivered j =
    (range (total / m.cfg.numBufs)).map (m.cfg.chStream m.start j)
  events : SamePassed UInt32.toNat m.cfg.waterMarkLevels r.events
    (crossedRound UInt32.toNat m.cfg.waterMarkLevels m.cfg.size m.start total)

/-- Reading does not depend on how it is cut. -/
structure CutFree (m : Reading) : Prop where
  /-- What a sequence of calls gives is determined by the bytes that it asks for. -/
  delivers : ∀ fs : List (Frame m.cfg),
    ∃ r, readFrames m.cfg fs m.state = some r ∧ Delivers m (totalBytes fs) r
  /-- Two sequences of calls that ask for as many bytes give the same. -/
  same : ∀ fs fs' : List (Frame m.cfg), totalBytes fs = totalBytes fs' →
    ∃ r r', readFrames m.cfg fs m.state = some r ∧ readFrames m.cfg fs' m.state = some r' ∧
      r.index = r'.index ∧ (∀ j < m.cfg.numBufs, r.delivered j = r'.delivered j) ∧
      r.events.Perm r'.events ∧ (m.cfg.waterMarkLevels.Pairwise (· ≤ ·) → r.events = r'.events)

/-! ## The run -/

section Run

variable {cfg : PullCfg}

/-- The size that the code computes is that of the frame. -/
lemma Frame.toNat_totalCopySize (f : Frame cfg) :
    (cfg.totalCopySize f.maxDataLen).toNat = f.bytes := by
  rw [PullCfg.totalCopySize, Frame.bytes, PullCfg.numBufs]
  cases hi : cfg.dataInterleaving with
  | interleaved => rw [Nat.mul_one]
  | deinterleaved =>
    rw [UInt32.toNat_mul, UInt16.toNat_toUInt32, Nat.mod_eq_of_lt (f.fits hi)]

/-- A frame is a whole number of sample frames. -/
lemma Frame.bytes_whole (f : Frame cfg) : cfg.Whole f.bytes := by
  intro hd
  rw [Frame.bytes, numBufs_deinterleaved hd, Nat.mul_comm cfg.numChannels.toNat]
  exact Nat.mul_dvd_mul_right (f.whole hd) _

/-- An accepted configuration is ready for every frame. -/
lemma Frame.ready (hcfg : Accepted cfg) (f : Frame cfg) {start : ℕ} (hstart : cfg.Whole start) :
    Ready cfg start f.maxDataLen (cfg.totalCopySize f.maxDataLen) where
  accepted := hcfg
  start_whole := hstart
  total_whole := by
    rw [f.toNat_totalCopySize]
    exact f.bytes_whole
  room hi := by rw [PullCfg.totalCopySize, hi]

/-- The index stays whole modulo the size of the buffer. -/
lemma whole_mod (hcfg : Accepted cfg) {k : ℕ} (hk : cfg.Whole k) : cfg.Whole (k % cfg.size) := by
  intro hd
  have hdvd := hcfg.size_whole
  rw [hcfg.bytesPerSamp, Width.toNat_bytesPerSamp] at hdvd
  exact (Nat.dvd_mod_iff hdvd).mpr (hk hd)

/-- What one call delivers joins on to what the next one does. -/
lemma range_map_append {old : ℕ → Bytes} {start k k' j : ℕ} {output : ℕ → Bytes}
    {len : UInt32} (hj : j < cfg.numBufs) (hk : cfg.Whole k)
    (h : Filled cfg start old k output len) :
    (range len.toNat).map (output j) ++
        (range (k' / cfg.numBufs)).map (cfg.chStream ((start + k) % cfg.size) j) =
      (range ((k + k') / cfg.numBufs)).map (cfg.chStream start j) := by
  rw [hk.add_div, range_add, map_append, map_map, PullCfg.chStream_mod,
    hk.chStream_add hj, h.len, h.data j hj]
  congr 1
  refine map_congr_left fun x hx => ?_
  rw [overlay, if_pos (mem_range.mp hx)]

/-- **A sequence of calls** delivers prefixes of the streams. -/
lemma readFrames_spec (hcfg : Accepted cfg) (fs : List (Frame cfg)) {s : PullPushMode}
    (hs : s.isDisabled = false)
    (hindex : s.posBuf.index.toNat < cfg.size) (hwhole : cfg.Whole s.posBuf.index.toNat) :
    ∃ r, readFrames cfg fs s = some r ∧
      Delivers ⟨cfg, s, hcfg, hs, hindex, hwhole⟩ (totalBytes fs) r := by
  induction fs generalizing s with
  | nil =>
    refine ⟨_, rfl, (Nat.mod_eq_of_lt hindex).symm, fun j _ => ?_, .of_eq rfl⟩
    rw [totalBytes, map_nil, sum_nil, Nat.zero_div]
    rfl
  | cons f fs ih =>
    obtain ⟨one, hone, hcall⟩ := pullModeReadInput_spec (f.ready hcfg hwhole) hs hindex
      f.output f.timestamp
    rw [f.toNat_totalCopySize] at hcall
    have hnext : cfg.Whole one.state.posBuf.index.toNat := by
      rw [hcall.index]
      exact whole_mod hcfg fun hd => Nat.dvd_add (hwhole hd) (f.bytes_whole hd)
    obtain ⟨rest, hrest, hdel⟩ := ih (hcall.isDisabled.trans hs)
      (hcall.index ▸ Nat.mod_lt _ hcfg.size_pos) hnext
    have htotal : totalBytes (f :: fs) = f.bytes + totalBytes fs := sum_cons
    have hrun : readFrames cfg (f :: fs) s = some ⟨rest.index,
        fun j => (range one.actualDataLen.toNat).map (one.output j) ++ rest.delivered j,
        one.events ++ rest.events⟩ := by
      rw [readFrames, hone, Option.bind_some, if_pos hcall.result, hrest]
      rfl
    refine ⟨_, hrun, ?_, fun j hj => ?_, ?_⟩
    · have hidx := hdel.index
      simp only [Reading.start] at hidx ⊢
      rw [hidx, hcall.index, Nat.mod_add_mod, htotal, Nat.add_assoc]
    · have hrest := hdel.delivered j hj
      simp only [Reading.start] at hrest ⊢
      rw [hrest, hcall.index, range_map_append hj f.bytes_whole hcall.filled, htotal]
    · have hevents := hdel.events
      simp only [Reading.start] at hevents ⊢
      rw [htotal, crossedRound_add, ← crossedRound_mod (_ + _), ← hcall.index]
      exact hcall.events.append hevents

end Run

/-! ## The theorem -/

/-- **Pull mode does not depend on how reads are cut.** -/
theorem pull_cutFree (m : Reading) : CutFree m := by
  have hdelivers : ∀ fs : List (Frame m.cfg),
      ∃ r, readFrames m.cfg fs m.state = some r ∧ Delivers m (totalBytes fs) r :=
    fun fs => readFrames_spec m.accepted fs m.enabled m.index_lt m.index_whole
  refine ⟨hdelivers, fun fs fs' htotal => ?_⟩
  obtain ⟨r, hr, hdel⟩ := hdelivers fs
  obtain ⟨r', hr', hdel'⟩ := hdelivers fs'
  rw [← htotal] at hdel'
  have hevents := hdel.events.trans hdel'.events.symm
  refine ⟨r, r', hr, hr', ?_, fun j hj => ?_, hevents.perm, fun hs => hevents.eq hs⟩
  · exact UInt32.toNat_inj.mp (hdel.index.trans hdel'.index.symm)
  · rw [hdel.delivered j hj, hdel'.delivered j hj]

/-! ## Unordered levels and broken frames -/

/-- Two levels, the higher one first. -/
def unorderedLevels : PullCfg where
  circBuf := UInt8.ofNat
  sharedCircBufSize := 8
  dataInterleaving := .interleaved
  numChannels := 1
  bitsPerSample := 16
  waterMarkLevels := [8, 4]

lemma unorderedLevels_accepted : Accepted unorderedLevels where
  numChannels_pos := by decide
  bitsPerSample_eq := .inl rfl
  size_pos := by decide
  size_whole := by decide
  size_lt h := Interleaving.noConfusion h

/-- A call with buffers of some size. -/
def interleavedFrame (maxDataLen : UInt32) : Frame unorderedLevels where
  maxDataLen := maxDataLen
  output := fun _ _ => 0
  timestamp := 0
  whole h := Interleaving.noConfusion h
  fits h := Interleaving.noConfusion h

/-- Two deinterleaved channels. -/
def twoChannels : PullCfg where
  circBuf := UInt8.ofNat
  sharedCircBufSize := 16
  dataInterleaving := .deinterleaved
  numChannels := 2
  bitsPerSample := 16
  waterMarkLevels := []

lemma twoChannels_accepted : Accepted twoChannels where
  numChannels_pos := by decide
  bitsPerSample_eq := .inl rfl
  size_pos := by decide
  size_whole := by decide
  size_lt _ h := absurd h (by decide)

/-- A call for one sample of each channel. -/
def oneSample : Frame twoChannels := ⟨2, fun _ _ => 0, 0, by decide, by decide⟩

/-- A call for two samples of each channel. -/
def twoSamples : Frame twoChannels := ⟨4, fun _ _ => 0, 0, by decide, by decide⟩

/-- The two channels are read from their second sample on. -/
def fromSecondSample : Reading where
  cfg := twoChannels
  state := ⟨false, 0, 4, 0⟩
  accepted := twoChannels_accepted
  enabled := rfl
  index_lt := by decide
  index_whole _ := by decide

theorem pull_cutFree_fromSecondSample : CutFree fromSecondSample :=
  pull_cutFree fromSecondSample

/-- **Unordered levels** are reached in another order if the read is cut between them, and a frame
of deinterleaved data that is **broken** at the end of the circular buffer is skipped or not,
depending on the cut. -/
theorem pull_depends_on_cut :
    (¬ ∀ (cfg : PullCfg) (s : PullPushMode), Accepted cfg → s.isDisabled = false →
      s.posBuf.index.toNat < cfg.size → ∀ fs fs' : List (Frame cfg),
        totalBytes fs = totalBytes fs' → ∀ r r', readFrames cfg fs s = some r →
          readFrames cfg fs' s = some r' → r.events = r'.events) ∧
    (¬ ∀ (cfg : PullCfg) (s : PullPushMode), Accepted cfg → s.isDisabled = false →
      s.posBuf.index.toNat < cfg.size → ∀ fs fs' : List (Frame cfg),
        totalBytes fs = totalBytes fs' → ∀ r r', readFrames cfg fs s = some r →
          readFrames cfg fs' s = some r' → ∀ j < cfg.numBufs, r.delivered j = r'.delivered j) := by
  constructor
  · intro h
    have hsame := h unorderedLevels ⟨false, 0, 0, 0⟩ unorderedLevels_accepted rfl (by decide)
      [interleavedFrame 8] [interleavedFrame 4, interleavedFrame 4] rfl _ _ rfl rfl
    exact absurd hsame (by decide)
  · intro h
    have hsame := h twoChannels ⟨false, 0, 14, 0⟩ twoChannels_accepted rfl (by decide)
      [twoSamples] [oneSample, oneSample] rfl _ _ rfl rfl 0 (by decide)
    exact absurd hsame (by decide)

end AudioReach.PullMode
