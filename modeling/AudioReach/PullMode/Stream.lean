import AudioReach.Interleaver.Calls
import AudioReach.Library.Crossing
import AudioReach.PullMode.Model

/-!
# The stream that a client gives

Read from some position on, the circular buffer is an endless stream, and every channel has its
stream of bytes in it.  The copy loop takes a prefix of these streams: that is its invariant,
together with the watermark levels that are passed on the way.
-/

namespace AudioReach.PullMode

open Function (update)
open Interleaver Library

/-! ## Configurations -/

/-- A configuration that the module accepts. -/
structure Accepted (cfg : PullCfg) : Prop where
  numChannels_pos : 0 < cfg.numChannels.toNat
  bitsPerSample_eq : cfg.bitsPerSample = 16 ∨ cfg.bitsPerSample = 24 ∨ cfg.bitsPerSample = 32
  size_pos : 0 < cfg.sharedCircBufSize.toNat
  /-- `pull_push_mode_check_buf_size`: it holds whole frames. -/
  size_whole : cfg.numChannels.toNat * (cfg.bitsPerSample >>> 3).toNat ∣ cfg.sharedCircBufSize.toNat
  /-- The byte indices of deinterleaving fit an `int`. -/
  size_lt : cfg.dataInterleaving = .deinterleaved → cfg.bitsPerSample = 24 →
    cfg.sharedCircBufSize.toNat < 2 ^ 31

namespace PullCfg

variable (cfg : PullCfg)

/-- The size of the circular buffer. -/
def size : ℕ := cfg.sharedCircBufSize.toNat

/-- The width of a sample. -/
def width : Width :=
  if cfg.bitsPerSample = 16 then .two else if cfg.bitsPerSample = 24 then .three else .four

/-- The number of output buffers. -/
def numBufs : ℕ :=
  match cfg.dataInterleaving with
  | .interleaved => 1
  | .deinterleaved => cfg.numChannels.toNat

/-- A number of bytes is whole if it is one of frames, where the data is deinterleaved. -/
def Whole (k : ℕ) : Prop :=
  cfg.dataInterleaving = .deinterleaved → cfg.numChannels.toNat * cfg.width.bytes ∣ k

/-- The circular buffer, read from a position on. -/
def stream (start : ℕ) : Bytes := fun x => cfg.circBuf ((start + x) % cfg.size)

/-- The bytes of channel `j` in it, or of all channels if the data is interleaved. -/
def chStream (start j : ℕ) : Bytes := fun x =>
  cfg.stream start (cfg.width.bytes * (x / cfg.width.bytes * cfg.numBufs + j) + x % cfg.width.bytes)

end PullCfg

variable {cfg : PullCfg}

section Widths

section

variable (h : Accepted cfg)
include h

/-- The shift by three gives the bytes of the width. -/
lemma Accepted.bytesPerSamp : cfg.bitsPerSample >>> 3 = cfg.width.bytesPerSamp := by
  rcases h.bitsPerSample_eq with h | h | h <;> rw [PullCfg.width, h] <;> rfl

lemma Accepted.bits : cfg.bitsPerSample.toNat = 8 * cfg.width.bytes := by
  rcases h.bitsPerSample_eq with h | h | h <;> rw [PullCfg.width, h] <;> rfl

lemma Accepted.width_le : cfg.width.bytes ≤ 4 := by
  rcases h.bitsPerSample_eq with h | h | h <;> rw [PullCfg.width, h] <;> decide

lemma Accepted.eq_of_three (hw : cfg.width = .three) : cfg.bitsPerSample = 24 := by
  rcases h.bitsPerSample_eq with hbits | hbits | hbits
  · rw [PullCfg.width, hbits] at hw
    exact absurd hw (by decide)
  · exact hbits
  · rw [PullCfg.width, hbits] at hw
    exact absurd hw (by decide)

/-- The bytes of a frame of all channels. -/
lemma Accepted.frameBytes : ((cfg.numChannels.toUInt32 * cfg.bitsPerSample) >>> 3).toNat =
      cfg.numChannels.toNat * cfg.width.bytes := by
  have hC := UInt16.toNat_lt cfg.numChannels
  have hle : cfg.numChannels.toNat * (8 * cfg.width.bytes) ≤ 2 ^ 16 * (8 * 4) :=
    Nat.mul_le_mul hC.le (Nat.mul_le_mul_left 8 h.width_le)
  rw [UInt32.toNat_shiftRight, UInt32.toNat_mul, UInt16.toNat_toUInt32, h.bits,
    Nat.mod_eq_of_lt (by omega), show (3 : UInt32).toNat % 32 = 3 from rfl, Nat.shiftRight_eq_div_pow,
    Nat.mul_left_comm, Nat.mul_div_cancel_left _ (by decide)]

end

end Widths

/-! ## Pieces of the stream -/

/-- The stream from a later place is the rest of the stream. -/
lemma PullCfg.stream_add (start k : ℕ) :
    cfg.stream (start + k) = dropFirst k (cfg.stream start) := by
  funext x
  rw [dropFirst, PullCfg.stream, PullCfg.stream, Nat.add_assoc]

/-- Before the wrap the stream is the buffer. -/
lemma PullCfg.stream_eq {r x : ℕ} (h : r + x < cfg.size) :
    cfg.circBuf (r + x) = cfg.stream r x := by
  rw [PullCfg.stream, Nat.mod_eq_of_lt h]

/-- The stream of a channel holds its samples. -/
lemma PullCfg.load_chStream (start j : ℕ) : load cfg.width.bytes (cfg.chStream start j) =
      deinterleave cfg.numBufs (load cfg.width.bytes (cfg.stream start)) j := by
  funext e b
  have hdiv : (cfg.width.bytes * e + b) / cfg.width.bytes = e := by
    rw [Nat.mul_add_div (Nat.pos_of_neZero _), Nat.div_eq_of_lt b.isLt, Nat.add_zero]
  have hmod : (cfg.width.bytes * e + b) % cfg.width.bytes = b := by
    rw [Nat.mul_add_mod, Nat.mod_eq_of_lt b.isLt]
  rw [load, PullCfg.chStream, hdiv, hmod, deinterleave, load]

/-- One buffer for all channels delivers the stream itself. -/
lemma PullCfg.chStream_interleaved (h : cfg.numBufs = 1) (start : ℕ) :
    cfg.chStream start 0 = cfg.stream start := by
  funext x
  rw [PullCfg.chStream, h, Nat.mul_one, Nat.add_zero, Nat.div_add_mod]

lemma PullCfg.Whole.add_div {k : ℕ} (hk : cfg.Whole k) (n : ℕ) :
    (k + n) / cfg.numBufs = k / cfg.numBufs + n / cfg.numBufs := by
  apply Nat.add_div_of_dvd_right
  cases hi : cfg.dataInterleaving with
  | interleaved => simp [PullCfg.numBufs, hi]
  | deinterleaved =>
    rw [PullCfg.numBufs, hi]
    exact Nat.dvd_trans (Nat.dvd_mul_right _ _) (hk hi)

/-- The stream of a channel from a later whole place. -/
lemma PullCfg.Whole.chStream_add {start k j : ℕ} (hk : cfg.Whole k) (hj : j < cfg.numBufs) :
    cfg.chStream (start + k) j = dropFirst (k / cfg.numBufs) (cfg.chStream start j) := by
  cases hi : cfg.dataInterleaving with
  | interleaved =>
    have hone : cfg.numBufs = 1 := by rw [PullCfg.numBufs, hi]
    obtain rfl : j = 0 := by omega
    rw [PullCfg.chStream_interleaved hone, PullCfg.chStream_interleaved hone, PullCfg.stream_add,
      hone, Nat.div_one]
  | deinterleaved =>
    have hB : cfg.numBufs = cfg.numChannels.toNat := by rw [PullCfg.numBufs, hi]
    obtain ⟨n, hn⟩ := hk hi
    obtain rfl : k = cfg.numBufs * cfg.width.bytes * n := hB ▸ hn
    apply load_injective (w := cfg.width.bytes)
    rw [Nat.mul_assoc, Nat.mul_div_cancel_left _ (Nat.zero_lt_of_lt hj), load_dropFirst,
      PullCfg.load_chStream, PullCfg.load_chStream, PullCfg.stream_add, ← deinterleave_dropFirst,
      ← load_dropFirst, Nat.mul_left_comm, Nat.mul_comm cfg.numBufs n]

/-- The stream of a channel depends on the place modulo the size. -/
lemma PullCfg.chStream_mod (start j : ℕ) :
    cfg.chStream (start % cfg.size) j = cfg.chStream start j := by
  funext x
  simp only [PullCfg.chStream, PullCfg.stream, Nat.mod_add_mod]

end AudioReach.PullMode
