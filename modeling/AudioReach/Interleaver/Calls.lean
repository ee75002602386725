import AudioReach.Interleaver.Frames

/-!
# What the interleaver computes

Seen as samples, the two functions of the interleaver are the two directions of interleaving, for
every width of a sample and every number of channels: the shortcut for a single channel is no
different.  All that is needed is that the number of bytes fits 32 bits, and 31 bits where the
indices are those of bytes.
-/

namespace AudioReach.Interleaver

open Library

/-! ## The calls that fit -/

/-- The widths of a sample. -/
inductive Width where
  | two
  | three
  | four
  | eight
  deriving DecidableEq

namespace Width

/-- The number of bytes of a sample. -/
def bytes : Width → ℕ
  | two => 2
  | three => 3
  | four => 4
  | eight => 8

/-- The argument `bytes_per_samp`. -/
def bytesPerSamp (w : Width) : UInt32 := UInt32.ofNat w.bytes

instance (w : Width) : NeZero w.bytes := ⟨by cases w <;> decide⟩

@[simp] lemma toNat_bytesPerSamp (w : Width) : w.bytesPerSamp.toNat = w.bytes := by
  cases w <;> rfl

end Width

/-- The numbers of a call, with products that fit 31 bits. -/
structure Shape where
  width : Width
  numChannels : UInt32
  numSampPerCh : UInt32
  fits : numSampPerCh.toNat * numChannels.toNat * width.bytes < 2 ^ 31

/-- The numbers of a call do not overflow: neither the number of bytes, nor the indices, which are
those of bytes for samples of three bytes. -/
structure Fits (w : Width) (n C : UInt32) : Prop where
  bytes : n.toNat * C.toNat * w.bytes < 2 ^ 32
  index : w = .three → n.toNat * C.toNat * 3 < 2 ^ 31

section Bounds

variable {w : Width} {n C : UInt32}

lemma Fits.of_lt (h : n.toNat * C.toNat * w.bytes < 2 ^ 31) : Fits w n C where
  bytes := by omega
  index := by
    rintro rfl
    exact h

lemma Fits.samples (h : Fits w n C) : (0 + n.toNat) * C.toNat < 2 ^ 31 := by
  have htwo : 2 ≤ w.bytes := by cases w <;> decide
  have hle : n.toNat * C.toNat * 2 ≤ n.toNat * C.toNat * w.bytes := Nat.mul_le_mul_left _ htwo
  have hbytes := h.bytes
  rw [Nat.zero_add]
  omega

lemma Fits.toNat_frames (h : Fits w n C) :
    (n * C * w.bytesPerSamp).toNat = n.toNat * C.toNat * w.bytes := by
  have hsamples := h.samples
  rw [Nat.zero_add] at hsamples
  rw [UInt32.toNat_mul, UInt32.toNat_mul, Width.toNat_bytesPerSamp,
    Nat.mod_eq_of_lt (show n.toNat * C.toNat < 2 ^ 32 by omega), Nat.mod_eq_of_lt h.bytes]

lemma Fits.toNat_channel (h : Fits w n C) (hC : 0 < C.toNat) :
    (n * w.bytesPerSamp).toNat = n.toNat * w.bytes := by
  have hle : n.toNat * w.bytes ≤ n.toNat * C.toNat * w.bytes :=
    Nat.mul_le_mul_right _ (Nat.le_mul_of_pos_right _ hC)
  rw [UInt32.toNat_mul, Width.toNat_bytesPerSamp, Nat.mod_eq_of_lt (lt_of_le_of_lt hle h.bytes)]

lemma toNat_ofNat_channel {j : ℕ} (hj : j < C.toNat) : (UInt32.ofNat j).toNat = j := by
  have hC := UInt32.toNat_lt C
  have hsize : UInt32.size = 2 ^ 32 := rfl
  exact UInt32.toNat_ofNat_of_lt' (by omega)

end Bounds

/-! ## From channels to frames -/

section Interleaving

variable {w : Width} {n C : UInt32}

lemma intlv_spec (hfit : Fits w n C) (input : ℕ → Bytes) (dst : Bytes) : ∃ dst', intlvChannels
        (fun j => intlvSamples w.bytes C (input j) n.toNat 0 (UInt32.ofNat j)) C dst = some dst' ∧
      load w.bytes dst' = overlay (n.toNat * C.toNat)
        (interleave C.toNat fun j => load w.bytes (input j)) (load w.bytes dst) := by
  refine intlvChannels_spec (fun j hj dst => ?_) dst
  obtain ⟨dst', hrun, hload⟩ := intlvSamples_spec (w := w.bytes) hj (input j)
    (by rw [toNat_ofNat_channel hj, Nat.zero_mul, Nat.zero_add])
    hfit.samples dst
  exact ⟨dst', hrun, by rw [hload, Nat.zero_add]⟩

lemma intlv3_spec (hfit : n.toNat * C.toNat * 3 < 2 ^ 31) (input : ℕ → Bytes) (dst : Bytes) :
    ∃ dst', intlvChannels (fun j => intlvSamples3 3 C (input j) j n.toNat 0 0) C dst = some dst' ∧
      load 3 dst' = overlay (n.toNat * C.toNat)
        (interleave C.toNat fun j => load 3 (input j)) (load 3 dst) := by
  refine intlvChannels_spec (fun j hj dst => ?_) dst
  have hstart : (0 : UInt32).toNat = 3 * 0 := rfl
  have hall : 3 * ((0 + n.toNat) * C.toNat) < 2 ^ 31 := by
    rw [Nat.zero_add]
    omega
  obtain ⟨dst', hrun, hload⟩ := intlvSamples3_spec hj (input j) hstart hall dst
  exact ⟨dst', hrun, by rw [hload, Nat.zero_add]⟩

/-- **Interleaving.** The frames are written to the output buffer, and its length is theirs. -/
theorem spfDeintlvToIntlvV2_spec (hfit : Fits w n C) (input : ℕ → Bytes) (output : CapiBuf) :
    ∃ data, spfDeintlvToIntlvV2 input output C w.bytesPerSamp n =
        some (.eok, ⟨data, n * C * w.bytesPerSamp⟩) ∧
      load w.bytes data = overlay (n.toNat * C.toNat)
        (interleave C.toNat fun j => load w.bytes (input j)) (load w.bytes output.data) := by
  unfold spfDeintlvToIntlvV2
  by_cases hone : C = 1
  · subst hone
    refine ⟨_, rfl, ?_⟩
    have hlen := hfit.toNat_channel (by decide)
    rw [hlen, Nat.mul_comm n.toNat w.bytes, load_memscpy, show (1 : UInt32).toNat = 1 from rfl,
      interleave_one, Nat.mul_one]
  · rw [if_neg hone]
    cases w with
    | two =>
      obtain ⟨data, hrun, hload⟩ := intlv_spec hfit input output.data
      refine ⟨data, ?_, hload⟩
      exact congrArg (Option.map _) hrun
    | three =>
      obtain ⟨data, hrun, hload⟩ := intlv3_spec (hfit.index rfl) input output.data
      refine ⟨data, ?_, hload⟩
      exact congrArg (Option.map _) hrun
    | four =>
      obtain ⟨data, hrun, hload⟩ := intlv_spec hfit input output.data
      refine ⟨data, ?_, hload⟩
      exact congrArg (Option.map _) hrun
    | eight =>
      obtain ⟨data, hrun, hload⟩ := intlv_spec hfit input output.data
      refine ⟨data, ?_, hload⟩
      exact congrArg (Option.map _) hrun

end Interleaving

/-! ## From frames to channels -/

section Deinterleaving

variable {w : Width} {n C D : UInt32}

lemma deintlv_spec (hDC : D ≤ C) (hfit : Fits w n C) (input : Bytes) (output : ℕ → CapiBuf) :
    ∃ output', deintlvChannels
        (fun j => deintlvSamples w.bytes C input n.toNat 0 (UInt32.ofNat j)) D output =
          some output' ∧
      (∀ j < D.toNat, load w.bytes (output' j).data = overlay n.toNat
        (deinterleave C.toNat (load w.bytes input) j) (load w.bytes (output j).data)) ∧
      (∀ j, D.toNat ≤ j → output' j = output j) := by
  refine deintlvChannels_spec (fun j hj dst => ?_) output
  have hj : j < C.toNat := Nat.lt_of_lt_of_le hj hDC
  obtain ⟨dst', hrun, hload⟩ := deintlvSamples_spec (w := w.bytes) hj input
    (by rw [toNat_ofNat_channel hj, Nat.zero_mul, Nat.zero_add])
    hfit.samples dst
  exact ⟨dst', hrun, by rw [hload, Nat.zero_add, stripe_one]⟩

lemma deintlv3_spec (hDC : D ≤ C) (hfit : n.toNat * C.toNat * 3 < 2 ^ 31) (input : Bytes)
    (output : ℕ → CapiBuf) :
    ∃ output', deintlvChannels
        (fun j => deintlvSamples3 3 C input n.toNat 0 (3 * UInt32.ofNat j)) D output =
          some output' ∧
      (∀ j < D.toNat, load 3 (output' j).data = overlay n.toNat
        (deinterleave C.toNat (load 3 input) j) (load 3 (output j).data)) ∧
      (∀ j, D.toNat ≤ j → output' j = output j) := by
  refine deintlvChannels_spec (fun j hj dst => ?_) output
  have hj : j < C.toNat := Nat.lt_of_lt_of_le hj hDC
  have hstart : n.toNat ≠ 0 → (3 * UInt32.ofNat j).toNat = 3 * (0 * C.toNat + j) := by
    intro hn
    have hle : C.toNat ≤ n.toNat * C.toNat := Nat.le_mul_of_pos_left _ (Nat.pos_of_ne_zero hn)
    rw [UInt32.toNat_mul, toNat_ofNat_channel hj, show (3 : UInt32).toNat = 3 from rfl,
      Nat.mod_eq_of_lt (by omega), Nat.zero_mul, Nat.zero_add]
  obtain ⟨dst', hrun, hload⟩ := deintlvSamples3_spec hj input hstart
    (by rw [Nat.zero_add]; omega) dst
  exact ⟨dst', hrun, by rw [hload, Nat.zero_add, stripe_one]⟩

/-- What deinterleaving does to the output buffers: the samples of the first channels are written
to theirs. -/
structure Deinterleaved (w : Width) (n C D : UInt32) (input : Bytes)
    (output output' : ℕ → CapiBuf) : Prop where
  samples : ∀ j < D.toNat, load w.bytes (output' j).data = overlay n.toNat
    (deinterleave C.toNat (load w.bytes input) j) (load w.bytes (output j).data)
  len : ∀ j < D.toNat, (output' j).actualDataLen = n * w.bytesPerSamp

lemma Deinterleaved.of_loops {input : Bytes} {output output' : ℕ → CapiBuf}
    (h : ∀ j < D.toNat, load w.bytes (output' j).data = overlay n.toNat
      (deinterleave C.toNat (load w.bytes input) j) (load w.bytes (output j).data)) :
    Deinterleaved w n C D input output (setLens D (n * w.bytesPerSamp) output') where
  samples j hj := by
    rw [setLens, if_pos hj]
    exact h j hj
  len j hj := by
    rw [setLens, if_pos hj]

/-- **Deinterleaving.** The first channels are written, and their lengths. -/
theorem spfIntlvToDeintlvV3_spec (hDC : D ≤ C) (hfit : Fits w n C)
    (input : Bytes) (output : ℕ → CapiBuf) :
    ∃ output', spfIntlvToDeintlvV3 input output C D w.bytesPerSamp n = some (.eok, output') ∧
      Deinterleaved w n C D input output output' := by
  unfold spfIntlvToDeintlvV3 spfIntlvToDeintlvUtil
  rw [if_neg (UInt32.not_lt.mpr hDC)]
  by_cases hone : C = 1
  · subst hone
    refine ⟨_, rfl, Deinterleaved.of_loops fun j hj => ?_⟩
    have hlen := hfit.toNat_channel (by decide)
    have hD : D.toNat ≤ 1 := hDC
    obtain rfl : j = 0 := by omega
    rw [Function.update_self]
    rw [hlen, Nat.mul_comm n.toNat w.bytes, load_memscpy, show (1 : UInt32).toNat = 1 from rfl,
      deinterleave_one]
  · rw [if_neg hone]
    cases w with
    | two =>
      obtain ⟨output', hrun, hload, -⟩ := deintlv_spec hDC hfit input output
      refine ⟨_, ?_, .of_loops hload⟩
      exact congrArg (Option.map _) hrun
    | three =>
      obtain ⟨output', hrun, hload, -⟩ := deintlv3_spec hDC (hfit.index rfl) input output
      refine ⟨_, ?_, .of_loops hload⟩
      exact congrArg (Option.map _) hrun
    | four =>
      obtain ⟨output', hrun, hload, -⟩ := deintlv_spec hDC hfit input output
      refine ⟨_, ?_, .of_loops hload⟩
      exact congrArg (Option.map _) hrun
    | eight =>
      obtain ⟨output', hrun, hload, -⟩ := deintlv_spec hDC hfit input output
      refine ⟨_, ?_, .of_loops hload⟩
      exact congrArg (Option.map _) hrun

end Deinterleaving

end AudioReach.Interleaver
