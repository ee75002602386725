import AudioReach.PullMode.Stream

/-!
# The copy loop

After some bytes were copied, every output buffer holds a prefix of the stream of its channel, the
read index is that many bytes further on, and the watermark levels on the way were passed.  A
piece keeps this, whether it is deinterleaved or not, as long as it is one of whole frames; as the
circular buffer holds whole frames, so are all pieces.
-/

namespace AudioReach.PullMode

open Function (update)
open Interleaver Library

/-! ## The invariant -/

/-- The output buffers hold what `k` bytes of the stream give. -/
structure Filled (cfg : PullCfg) (start : ℕ) (old : ℕ → Bytes) (k : ℕ) (output : ℕ → Bytes)
    (actualDataLen : UInt32) : Prop where
  data : ∀ j < cfg.numBufs, output j = overlay (k / cfg.numBufs) (cfg.chStream start j) (old j)
  len : actualDataLen.toNat = k / cfg.numBufs

/-- `k` bytes were copied. -/
structure Copied (cfg : PullCfg) (start : ℕ) (old : ℕ → Bytes) (k : ℕ) (s : Copy) : Prop where
  filled : Filled cfg start old k s.output s.actualDataLen
  numBytesCopied : s.numBytesCopied.toNat = k
  readIndex : s.readIndex.toNat = (start + k) % cfg.size
  events : SamePassed UInt32.toNat cfg.waterMarkLevels s.events
    (crossedRound UInt32.toNat cfg.waterMarkLevels cfg.size start k)

/-- What is copied next: a piece that ends with the circular buffer at the latest. -/
structure Piece (cfg : PullCfg) (start k : ℕ) (n : UInt32) : Prop where
  whole : cfg.Whole k
  piece_whole : cfg.Whole n.toNat
  inside : (start + k) % cfg.size + n.toNat ≤ cfg.size
  fits : k + n.toNat < 2 ^ 32

variable {cfg : PullCfg} {start k : ℕ} {old : ℕ → Bytes} {n : UInt32} {s : Copy}

/-- A piece inside the buffer reads the stream. -/
lemma Piece.stream (hp : Piece cfg start k n) {x : ℕ} (hx : x < n.toNat) :
    cfg.circBuf ((start + k) % cfg.size + x) = cfg.stream (start + k) x := by
  have hinside := hp.inside
  rw [PullCfg.stream_eq (by omega), PullCfg.stream, PullCfg.stream, Nat.mod_add_mod]

/-- A piece appended to what is filled fills so much more. -/
lemma Filled.append {output output' : ℕ → Bytes} {len len' : UInt32}
    (hp : Piece cfg start k n) (h : Filled cfg start old k output len)
    (hdata : ∀ j < cfg.numBufs, output' j = placeAt len.toNat (output j)
      (overlay (n.toNat / cfg.numBufs) (cfg.chStream (start + k) j)
        (dropFirst len.toNat (output j))))
    (hlen : len'.toNat = len.toNat + n.toNat / cfg.numBufs) :
    Filled cfg start old (k + n.toNat) output' len' := by
  constructor
  · intro j hj
    rw [hdata j hj, hp.whole.chStream_add hj, h.len, h.data j hj, placeAt_overlay, hp.whole.add_div]
  · rw [hlen, h.len, hp.whole.add_div]

/-! ## Deinterleaved data -/

lemma numBufs_deinterleaved (hd : cfg.dataInterleaving = .deinterleaved) :
    cfg.numBufs = cfg.numChannels.toNat := by
  rw [PullCfg.numBufs, hd]

section Deinterleaved

variable (hcfg : Accepted cfg) (hd : cfg.dataInterleaving = .deinterleaved)
include hcfg hd

/-- A whole piece is a number of frames that the deinterleaver accepts. -/
lemma Piece.frames (hp : Piece cfg start k n) :
    ∃ q : UInt32, n / ((cfg.numChannels.toUInt32 * cfg.bitsPerSample) >>> 3) = q ∧
      q.toNat * cfg.numBufs * cfg.width.bytes = n.toNat ∧
      Fits cfg.width q cfg.numChannels.toUInt32 := by
  have hmul : (n / ((cfg.numChannels.toUInt32 * cfg.bitsPerSample) >>> 3)).toNat *
      cfg.numChannels.toNat * cfg.width.bytes = n.toNat := by
    rw [UInt32.toNat_div, hcfg.frameBytes, Nat.mul_assoc]
    exact Nat.div_mul_cancel (hp.piece_whole hd)
  refine ⟨_, rfl, by rw [numBufs_deinterleaved hd, hmul], ⟨?_, fun hw => ?_⟩⟩
  · rw [UInt16.toNat_toUInt32, hmul]
    exact UInt32.toNat_lt n
  · have hsize : cfg.size < 2 ^ 31 := hcfg.size_lt hd (hcfg.eq_of_three hw)
    have hinside := hp.inside
    rw [UInt16.toNat_toUInt32, show (3 : ℕ) = cfg.width.bytes by rw [hw]; rfl, hmul]
    omega

omit hcfg hd in
/-- Deinterleaving a piece gives the samples of the channel's stream. -/
lemma Piece.samples (hp : Piece cfg start k n) {q : ℕ}
    (hq : q * cfg.numBufs * cfg.width.bytes = n.toNat) {j : ℕ} (hj : j < cfg.numBufs) :
    ∀ e < q, deinterleave cfg.numBufs
        (load cfg.width.bytes (dropFirst ((start + k) % cfg.size) cfg.circBuf)) j e =
      load cfg.width.bytes (cfg.chStream (start + k) j) e := by
  intro e he
  rw [PullCfg.load_chStream]
  funext b
  have hlt := (mul_add_lt_iff b).mpr (frame_lt hj he)
  rw [Nat.mul_comm cfg.width.bytes (q * _), hq] at hlt
  exact hp.stream hlt

/-- A piece is deinterleaved. -/
lemma copyDeinterleaved_spec (hp : Piece cfg start k n) (h : Copied cfg start old k s) :
    ∃ output actualDataLen, copyDeinterleaved cfg (dropFirst s.readIndex.toNat cfg.circBuf) n s =
        some (.eok, { s with output := output, actualDataLen := actualDataLen }) ∧
      Filled cfg start old (k + n.toNat) output actualDataLen := by
  have hB := numBufs_deinterleaved hd
  have hpos : 0 < cfg.numBufs := hB ▸ hcfg.numChannels_pos
  have hC : cfg.numChannels.toUInt32.toNat = cfg.numBufs := by rw [UInt16.toNat_toUInt32, hB]
  obtain ⟨q, hq, hmul, hfits⟩ := hp.frames hcfg hd
  have hn : n.toNat / cfg.numBufs = q.toNat * cfg.width.bytes := by
    rw [← hmul, Nat.mul_right_comm, Nat.mul_div_cancel _ hpos]
  obtain ⟨piece, hrun, hpiece⟩ := spfIntlvToDeintlvV3_spec (UInt32.le_refl _) hfits
    (dropFirst s.readIndex.toNat cfg.circBuf)
    (fun i => ⟨dropFirst s.actualDataLen.toNat (s.output i), 0⟩)
  have hdata : ∀ j < cfg.numBufs, (piece j).data = overlay (n.toNat / cfg.numBufs)
      (cfg.chStream (start + k) j) (dropFirst s.actualDataLen.toNat (s.output j)) := by
    intro j hj
    apply load_injective (w := cfg.width.bytes)
    rw [hn, Nat.mul_comm, ← memscpy_eq_overlay, load_memscpy, hpiece.samples j (hC ▸ hj), hC,
      h.readIndex]
    exact overlay_congr (hp.samples hmul hj)
  have hlen : (piece 0).actualDataLen.toNat = n.toNat / cfg.numBufs := by
    rw [hpiece.len 0 (hC ▸ hpos), hfits.toNat_channel (hC ▸ hpos), hn]
  have hcopy : copyDeinterleaved cfg (dropFirst s.readIndex.toNat cfg.circBuf) n s =
      some (.eok, { s with
        output := fun i => if i < cfg.numChannels.toNat then
          placeAt s.actualDataLen.toNat (s.output i) (piece i).data else s.output i
        actualDataLen := s.actualDataLen + (piece 0).actualDataLen }) := by
    rw [copyDeinterleaved, spfIntlvToDeintlv, hq, hcfg.bytesPerSamp]
    exact congrArg (Option.map _) hrun
  refine ⟨_, _, hcopy, h.filled.append hp ?_ ?_⟩
  · intro j hj
    rw [if_pos (hB ▸ hj), hdata j hj]
  · have hle := Nat.div_le_self n.toNat cfg.numBufs
    have hle' := Nat.div_le_self k cfg.numBufs
    have hfit := hp.fits
    rw [UInt32.toNat_add, hlen, h.filled.len, Nat.mod_eq_of_lt (by omega)]

end Deinterleaved

/-! ## Interleaved data -/

section Interleaved

variable (hi : cfg.dataInterleaving = .interleaved)
include hi

lemma numBufs_interleaved : cfg.numBufs = 1 := by
  rw [PullCfg.numBufs, hi]

/-- A piece is copied, if there is room for it. -/
lemma copyInterleaved_spec (maxDataLen : UInt32) (hp : Piece cfg start k n)
    (h : Copied cfg start old k s) (hroom : k + n.toNat ≤ maxDataLen.toNat) :
    ∃ output actualDataLen,
      copyInterleaved maxDataLen (dropFirst s.readIndex.toNat cfg.circBuf) n s =
        { s with output := output, actualDataLen := actualDataLen } ∧
      Filled cfg start old (k + n.toNat) output actualDataLen := by
  have hB := numBufs_interleaved hi
  have hlen : s.actualDataLen.toNat = k := by rw [h.filled.len, hB, Nat.div_one]
  have hfit := hp.fits
  have hmin : min (maxDataLen - s.actualDataLen) n = n := by
    rw [← UInt32.toNat_inj, toNat_min, UInt32.toNat_sub_of_le _ _ (by
      rw [UInt32.le_iff_toNat_le]
      omega), hlen]
    omega
  refine ⟨_, _, rfl, h.filled.append hp ?_ ?_⟩
  · intro j hj
    obtain rfl : j = 0 := by omega
    rw [hmin, Function.update_self, memscpy_eq_overlay, hB, Nat.div_one,
      PullCfg.chStream_interleaved hB, h.readIndex]
    exact congrArg _ (overlay_congr fun x hx => hp.stream hx)
  · rw [hmin, UInt32.toNat_add, hlen, hB, Nat.div_one, Nat.mod_eq_of_lt hfit]

end Interleaved

/-! ## The loop -/

/-- The events and the read index after a piece. -/
lemma Copied.finish {output : ℕ → Bytes} {actualDataLen : UInt32} (hp : Piece cfg start k n)
    (h : Copied cfg start old k s)
    (hfilled : Filled cfg start old (k + n.toNat) output actualDataLen) :
    Copied cfg start old (k + n.toNat)
      (finishPiece cfg n { s with output := output, actualDataLen := actualDataLen }) := by
  have hinside := hp.inside
  have hsize : cfg.size < 2 ^ 32 := UInt32.toNat_lt _
  have hnext : (s.readIndex + n).toNat = (start + k) % cfg.size + n.toNat := by
    rw [UInt32.toNat_add, h.readIndex, Nat.mod_eq_of_lt (by omega)]
  refine ⟨hfilled, ?_, ?_, ?_⟩
  · exact (UInt32.toNat_add _ _).trans (by rw [h.numBytesCopied, Nat.mod_eq_of_lt hp.fits])
  · have hwrap := wrapIndex_eq hinside
    rw [wrapIndex, Nat.add_assoc] at hwrap
    rw [← hwrap]
    change (if s.readIndex + n = cfg.sharedCircBufSize then 0 else s.readIndex + n).toNat = _
    by_cases hend : s.readIndex + n = cfg.sharedCircBufSize
    · have hsum : (start + k) % cfg.size + n.toNat = cfg.size :=
        hnext.symm.trans (congrArg UInt32.toNat hend)
      rw [if_pos hend, if_pos hsum.ge]
      rfl
    · have hsum : ¬ cfg.size ≤ (start + k) % cfg.size + n.toNat := fun hge =>
        hend (UInt32.toNat_inj.mp (hnext.trans (Nat.le_antisymm hinside hge)))
      rw [if_neg hend, if_neg hsum, hnext]
  · have hpassed : checkSendWatermarkEvent cfg s.readIndex (s.readIndex + n) =
        crossed UInt32.toNat cfg.waterMarkLevels ((start + k) % cfg.size)
          ((start + k) % cfg.size + n.toNat) := by
      rw [← hnext, ← h.readIndex]
      rfl
    rw [crossedRound_add, ← crossedRound_mod (start + k)]
    exact h.events.append (.trans (.of_eq hpassed) (crossed_round hinside))

/-- The bytes of the next piece. -/
def pieceLen (cfg : PullCfg) (start k total : ℕ) : ℕ :=
  min (total - k) (cfg.size - (start + k) % cfg.size)

/-- A call that is to copy `total` bytes from the position `start` on. -/
structure Ready (cfg : PullCfg) (start : ℕ) (maxDataLen totalCopySize : UInt32) : Prop where
  accepted : Accepted cfg
  start_whole : cfg.Whole start
  total_whole : cfg.Whole totalCopySize.toNat
  room : cfg.dataInterleaving = .interleaved → totalCopySize = maxDataLen

variable {maxDataLen totalCopySize : UInt32}

section

variable (hr : Ready cfg start maxDataLen totalCopySize) (hk : cfg.Whole k)
  (hle : k ≤ totalCopySize.toNat)
include hr hk hle

/-- A frame meets what its piece needs. -/
lemma Ready.piece (hn : n.toNat = pieceLen cfg start k totalCopySize.toNat) :
    Piece cfg start k n := by
  have hsize : 0 < cfg.size := hr.accepted.size_pos
  have hmod := Nat.mod_lt (start + k) hsize
  have htotal := UInt32.toNat_lt totalCopySize
  rw [pieceLen] at hn
  refine ⟨hk, fun hd => ?_, by omega, by omega⟩
  have hdvd : cfg.numChannels.toNat * cfg.width.bytes ∣ cfg.size := by
    have := hr.accepted.size_whole
    rwa [hr.accepted.bytesPerSamp, Width.toNat_bytesPerSamp] at this
  have hrest := (Nat.dvd_mod_iff hdvd).mpr (Nat.dvd_add (hr.start_whole hd) (hk hd))
  rw [hn]
  rcases min_choice (totalCopySize.toNat - k) (cfg.size - (start + k) % cfg.size) with hmin | hmin
  · rw [hmin]
    exact Nat.dvd_sub (hr.total_whole hd) (hk hd)
  · rw [hmin]
    exact Nat.dvd_sub hdvd hrest

/-- **A piece** is copied. -/
lemma copyPiece_spec (h : Copied cfg start old k s) :
    ∃ s', copyPiece cfg maxDataLen totalCopySize s = some (.eok, s') ∧
      Copied cfg start old (k + pieceLen cfg start k totalCopySize.toNat) s' ∧
      cfg.Whole (k + pieceLen cfg start k totalCopySize.toNat) := by
  have hsize : 0 < cfg.size := hr.accepted.size_pos
  have hmod := Nat.mod_lt (start + k) hsize
  obtain ⟨n, hn⟩ : ∃ n, n = min (totalCopySize - s.numBytesCopied)
      (cfg.sharedCircBufSize - s.readIndex) := ⟨_, rfl⟩
  have hlen : n.toNat = pieceLen cfg start k totalCopySize.toNat := by
    rw [hn, toNat_min, UInt32.toNat_sub_of_le _ _ (by rwa [UInt32.le_iff_toNat_le,
      h.numBytesCopied]), UInt32.toNat_sub_of_le _ _ (by
        rw [UInt32.le_iff_toNat_le, h.readIndex]
        exact hmod.le), h.numBytesCopied, h.readIndex]
    rfl
  have hp := hr.piece hk hle hlen
  have hwhole : cfg.Whole (k + n.toNat) := fun hd => Nat.dvd_add (hk hd) (hp.piece_whole hd)
  rw [← hlen]
  unfold copyPiece
  dsimp only
  rw [← hn]
  cases hi : cfg.dataInterleaving with
  | interleaved =>
    obtain ⟨output, len, hcopy, hfilled⟩ := copyInterleaved_spec hi maxDataLen hp h
      (by rw [← hr.room hi, hlen, pieceLen]; omega)
    exact ⟨_, by rw [hcopy]; rfl, h.finish hp hfilled, hwhole⟩
  | deinterleaved =>
    obtain ⟨output, len, hcopy, hfilled⟩ := copyDeinterleaved_spec hr.accepted hi hp h
    exact ⟨_, by dsimp only; rw [hcopy]; rfl, h.finish hp hfilled, hwhole⟩

/-- **The loop** copies all bytes, and ends: every piece before the last is not empty. -/
lemma copyLoop_spec {fuel : ℕ} (hfuel : totalCopySize.toNat - k < fuel)
    (h : Copied cfg start old k s) :
    ∃ s', copyLoop cfg maxDataLen totalCopySize fuel s = some (.eok, s') ∧
      Copied cfg start old totalCopySize.toNat s' := by
  induction fuel generalizing k s with
  | zero => omega
  | succ fuel ih =>
    obtain ⟨s₁, hrun, hcopied, hwhole⟩ := copyPiece_spec hr hk hle h
    have hmod := Nat.mod_lt (start + k) (show 0 < cfg.size from hr.accepted.size_pos)
    rw [copyLoop, hrun, Option.bind_some]
    by_cases hend : s₁.numBytesCopied = totalCopySize
    · refine ⟨s₁, if_neg fun hne => hne.2 hend, ?_⟩
      rw [← hend, hcopied.numBytesCopied]
      exact hcopied
    · have hne : k + pieceLen cfg start k totalCopySize.toNat ≠ totalCopySize.toNat := by
        rw [← hcopied.numBytesCopied]
        exact fun heq => hend (UInt32.toNat_inj.mp heq)
      rw [pieceLen] at hne hcopied hwhole
      rw [if_pos ⟨rfl, hend⟩]
      exact ih hwhole (by omega) (by omega) hcopied

end

end AudioReach.PullMode
