import AudioReach.Interleaver.Calls

/-!
# Interleaving and deinterleaving are inverse

The samples of the channels come back from the frames, and the frames from the channels.  As both
directions are those of sequences, a stream can also be converted in pieces: each piece is read
where the one before ended and appended to what is in the output buffers.
-/

namespace AudioReach.Interleaver

open Library

/-! ## Pieces -/

/-- A piece is appended to what is in a buffer. -/
def CapiBuf.append (buf : CapiBuf) (piece : CapiBuf) : CapiBuf where
  data := placeAt buf.actualDataLen.toNat buf.data piece.data
  actualDataLen := buf.actualDataLen + piece.actualDataLen

/-- What is behind the data of a buffer. -/
def CapiBuf.rest (buf : CapiBuf) : CapiBuf := ⟨dropFirst buf.actualDataLen.toNat buf.data, 0⟩

/-- The channels are interleaved in pieces of some numbers of samples, after the first `done`. -/
def intlvPieces (input : ℕ → Bytes) (numChannels bytesPerSamp : UInt32) :
    List UInt32 → ℕ → CapiBuf → Option CapiBuf
  | [], _, output => some output
  | n :: pieces, done, output =>
    match spfDeintlvToIntlvV2 (fun j => dropFirst (bytesPerSamp.toNat * done) (input j))
        output.rest numChannels bytesPerSamp n with
    | some (.eok, piece) =>
      intlvPieces input numChannels bytesPerSamp pieces (done + n.toNat) (output.append piece)
    | _ => none

/-- The frames are deinterleaved in pieces of some numbers of samples, after the first `done`. -/
def deintlvPieces (input : Bytes) (numSrcChannels numDstChannels bytesPerSamp : UInt32) :
    List UInt32 → ℕ → (ℕ → CapiBuf) → Option (ℕ → CapiBuf)
  | [], _, output => some output
  | n :: pieces, done, output =>
    match spfIntlvToDeintlvV3 (dropFirst (bytesPerSamp.toNat * (done * numSrcChannels.toNat)) input)
        (fun j => (output j).rest) numSrcChannels numDstChannels bytesPerSamp n with
    | some (.eok, piece) =>
      deintlvPieces input numSrcChannels numDstChannels bytesPerSamp pieces (done + n.toNat)
        fun j => (output j).append (piece j)
    | _ => none

/-! ## The property -/

/-- What holds of the calls with some numbers. -/
structure RoundTrip (s : Shape) : Prop where
  /-- **From channels to frames and back.** The first channels are restored, with their length. -/
  restores : ∀ (input : ℕ → Bytes) (inter : CapiBuf) (output : ℕ → CapiBuf) (D : UInt32),
    D ≤ s.numChannels → ∃ inter' output',
      spfDeintlvToIntlvV2 input inter s.numChannels s.width.bytesPerSamp s.numSampPerCh =
        some (.eok, inter') ∧
      spfIntlvToDeintlvV3 inter'.data output s.numChannels D s.width.bytesPerSamp
        s.numSampPerCh = some (.eok, output') ∧
      ∀ j < D.toNat, (output' j).actualDataLen.toNat = s.numSampPerCh.toNat * s.width.bytes ∧
        ∀ x < s.numSampPerCh.toNat * s.width.bytes, (output' j).data x = input j x
  /-- **From frames to channels and back.** The frames are restored, with their length. -/
  identity : ∀ (frames : Bytes) (output : ℕ → CapiBuf) (inter : CapiBuf), ∃ output' inter',
      spfIntlvToDeintlvV3 frames output s.numChannels s.numChannels s.width.bytesPerSamp
        s.numSampPerCh = some (.eok, output') ∧
      spfDeintlvToIntlvV2 (fun j => (output' j).data) inter s.numChannels s.width.bytesPerSamp
        s.numSampPerCh = some (.eok, inter') ∧
      inter'.actualDataLen.toNat = s.numSampPerCh.toNat * s.numChannels.toNat * s.width.bytes ∧
      ∀ x < s.numSampPerCh.toNat * s.numChannels.toNat * s.width.bytes, inter'.data x = frames x
  /-- **Interleaving in pieces** gives what interleaving at once gives. -/
  intlvPiecewise : ∀ (input : ℕ → Bytes) (output : Bytes) (pieces : List UInt32),
    (pieces.map UInt32.toNat).sum = s.numSampPerCh.toNat → ∃ whole,
      spfDeintlvToIntlvV2 input ⟨output, 0⟩ s.numChannels s.width.bytesPerSamp s.numSampPerCh =
        some (.eok, whole) ∧
      intlvPieces input s.numChannels s.width.bytesPerSamp pieces 0 ⟨output, 0⟩ = some whole
  /-- **Deinterleaving in pieces** gives what deinterleaving at once gives. -/
  deintlvPiecewise : ∀ (input : Bytes) (output : ℕ → Bytes) (D : UInt32) (pieces : List UInt32),
    D ≤ s.numChannels → (pieces.map UInt32.toNat).sum = s.numSampPerCh.toNat →
    ∃ whole output',
      spfIntlvToDeintlvV3 input (fun j => ⟨output j, 0⟩) s.numChannels D s.width.bytesPerSamp
        s.numSampPerCh = some (.eok, whole) ∧
      deintlvPieces input s.numChannels D s.width.bytesPerSamp pieces 0
        (fun j => ⟨output j, 0⟩) = some output' ∧
      ∀ j < D.toNat, output' j = whole j

/-! ## The samples of a buffer -/

section Samples

variable {w : ℕ} [NeZero w]

lemma eq_of_load_eq {n : ℕ} {m m' : Bytes} (h : ∀ e < n, load w m e = load w m' e) {x : ℕ}
    (hx : x < n * w) : m x = m' x := by
  have hw := Nat.pos_of_neZero w
  have hdiv : x / w < n := (Nat.div_lt_iff_lt_mul hw).mpr hx
  have hx := congrFun (h (x / w) hdiv) ⟨x % w, Nat.mod_lt x hw⟩
  simp only [load, Nat.div_add_mod] at hx
  exact hx

end Samples

/-! ## There and back -/

section ThereAndBack

variable (s : Shape)

/-- The channels are restored. -/
lemma restores (input : ℕ → Bytes) (inter : CapiBuf) (output : ℕ → CapiBuf) {D : UInt32}
    (hD : D ≤ s.numChannels) : ∃ inter' output',
      spfDeintlvToIntlvV2 input inter s.numChannels s.width.bytesPerSamp s.numSampPerCh =
        some (.eok, inter') ∧
      spfIntlvToDeintlvV3 inter'.data output s.numChannels D s.width.bytesPerSamp
        s.numSampPerCh = some (.eok, output') ∧
      ∀ j < D.toNat, (output' j).actualDataLen.toNat = s.numSampPerCh.toNat * s.width.bytes ∧
        ∀ x < s.numSampPerCh.toNat * s.width.bytes, (output' j).data x = input j x := by
  obtain ⟨data, hintlv, hframes⟩ := spfDeintlvToIntlvV2_spec (.of_lt s.fits) input inter
  obtain ⟨output', hdeintlv, hout⟩ := spfIntlvToDeintlvV3_spec hD (.of_lt s.fits) data output
  refine ⟨_, output', hintlv, hdeintlv, fun j hj => ⟨?_, fun x => eq_of_load_eq fun e he => ?_⟩⟩
  · have hC : 0 < s.numChannels.toNat := Nat.lt_of_lt_of_le (Nat.zero_lt_of_lt hj) hD
    rw [hout.len j hj, (Fits.of_lt s.fits).toNat_channel hC]
  · have hjC : j < s.numChannels.toNat := Nat.lt_of_lt_of_le hj hD
    calc load s.width.bytes (output' j).data e
        = load s.width.bytes data (e * s.numChannels.toNat + j) := by
          rw [hout.samples j hj, overlay, if_pos he, deinterleave]
      _ = deinterleave s.numChannels.toNat
            (interleave s.numChannels.toNat fun j => load s.width.bytes (input j)) j e := by
          rw [hframes, overlay, if_pos (frame_lt hjC he), deinterleave]
      _ = load s.width.bytes (input j) e := by rw [deinterleave_interleave hjC]

/-- The frames are restored. -/
lemma frames_restored (frames : Bytes) (output : ℕ → CapiBuf) (inter : CapiBuf) : ∃ output' inter',
      spfIntlvToDeintlvV3 frames output s.numChannels s.numChannels s.width.bytesPerSamp
        s.numSampPerCh = some (.eok, output') ∧
      spfDeintlvToIntlvV2 (fun j => (output' j).data) inter s.numChannels s.width.bytesPerSamp
        s.numSampPerCh = some (.eok, inter') ∧
      inter'.actualDataLen.toNat = s.numSampPerCh.toNat * s.numChannels.toNat * s.width.bytes ∧
      ∀ x < s.numSampPerCh.toNat * s.numChannels.toNat * s.width.bytes,
        inter'.data x = frames x := by
  obtain ⟨output', hdeintlv, hout⟩ := spfIntlvToDeintlvV3_spec (UInt32.le_refl _)
    (.of_lt s.fits) frames output
  obtain ⟨data, hintlv, hframes⟩ := spfDeintlvToIntlvV2_spec (.of_lt s.fits) (fun j => (output' j).data)
    inter
  refine ⟨output', _, hdeintlv, hintlv, (Fits.of_lt s.fits).toNat_frames,
    fun x => eq_of_load_eq fun e he => ?_⟩
  have hC : 0 < s.numChannels.toNat := Nat.pos_of_ne_zero fun h => by simp [h] at he
  have hmod := Nat.mod_lt e hC
  have hdiv : e / s.numChannels.toNat < s.numSampPerCh.toNat :=
    (Nat.div_lt_iff_lt_mul hC).mpr he
  calc load s.width.bytes data e
      = load s.width.bytes (output' (e % s.numChannels.toNat)).data (e / s.numChannels.toNat) := by
        rw [hframes, overlay, if_pos he, interleave]
    _ = interleave s.numChannels.toNat
          (deinterleave s.numChannels.toNat (load s.width.bytes frames)) e := by
        rw [hout.samples _ hmod, overlay, if_pos hdiv, interleave]
    _ = load s.width.bytes frames e := by rw [interleave_deinterleave]

end ThereAndBack

/-! ## In pieces -/

section Pieces

variable {w : Width} {C D : UInt32}

/-- What a buffer holds after `k` elements of a sequence were appended. -/
structure Appended (w : Width) (k : ℕ) (new : ℕ → Fin w.bytes → UInt8) (old : Bytes)
    (buf : CapiBuf) : Prop where
  samples : load w.bytes buf.data = overlay k new (load w.bytes old)
  len : buf.actualDataLen.toNat = w.bytes * k

lemma Appended.zero (new : ℕ → Fin w.bytes → UInt8) (old : Bytes) :
    Appended w 0 new old ⟨old, 0⟩ where
  samples := (overlay_zero _ _).symm
  len := rfl

lemma Appended.unique {k : ℕ} {new : ℕ → Fin w.bytes → UInt8} {old : Bytes} {buf buf' : CapiBuf}
    (h : Appended w k new old buf) (h' : Appended w k new old buf') : buf = buf' := by
  obtain ⟨data, len⟩ := buf
  obtain ⟨data', len'⟩ := buf'
  obtain rfl : data = data' := load_injective (h.samples.trans h'.samples.symm)
  obtain rfl : len = len' := UInt32.toNat_inj.mp (h.len.trans h'.len.symm)
  rfl

/-- **A piece** is appended: the next elements of the sequence. -/
lemma Appended.append {k n : ℕ} {new : ℕ → Fin w.bytes → UInt8} {old : Bytes}
    {buf : CapiBuf} (piece : CapiBuf) (h : Appended w k new old buf)
    (hpiece : load w.bytes piece.data = overlay n (dropFirst k new) (load w.bytes buf.rest.data))
    (hlen : piece.actualDataLen.toNat = w.bytes * n) (hfit : w.bytes * (k + n) < 2 ^ 31) :
    Appended w (k + n) new old (buf.append piece) where
  samples := by
    rw [CapiBuf.append, h.len, load_placeAt, hpiece, CapiBuf.rest, h.len, load_dropFirst,
      h.samples, placeAt_overlay]
  len := by
    rw [Nat.mul_add] at hfit ⊢
    rw [CapiBuf.append, UInt32.toNat_add, h.len, hlen, Nat.mod_eq_of_lt (by omega)]

/-- The frames from frame `k` on are the rest of all frames. -/
lemma overlay_interleave_rest (C k n : ℕ) (ch : ℕ → ℕ → Fin w.bytes → UInt8)
    (m : ℕ → Fin w.bytes → UInt8) :
    overlay (n * C) (interleave C fun j => dropFirst k (ch j)) m =
      overlay (n * C) (dropFirst (k * C) (interleave C ch)) m := by
  rcases Nat.eq_zero_or_pos C with rfl | hC
  · rw [Nat.mul_zero, overlay_zero, overlay_zero]
  · rw [interleave_dropFirst hC]

variable {pieces : List UInt32}

lemma piece_fits {k : ℕ} {n : UInt32}
    (hfit : w.bytes * ((k + n.toNat + (pieces.map UInt32.toNat).sum) * C.toNat) < 2 ^ 31) :
    w.bytes * (k * C.toNat + n.toNat * C.toNat) < 2 ^ 31 ∧ Fits w n C := by
  have hle : w.bytes * ((k + n.toNat) * C.toNat) ≤
      w.bytes * ((k + n.toNat + (pieces.map UInt32.toNat).sum) * C.toNat) :=
    Nat.mul_le_mul_left _ (Nat.mul_le_mul_right _ (Nat.le_add_right _ _))
  have hboth : w.bytes * (k * C.toNat + n.toNat * C.toNat) < 2 ^ 31 := by
    rw [← Nat.add_mul]
    omega
  refine ⟨hboth, .of_lt ?_⟩
  rw [Nat.mul_add] at hboth
  rw [Nat.mul_comm]
  omega

/-- Interleaving in pieces goes on after the first `k` samples. -/
lemma intlvPieces_spec (input : ℕ → Bytes) (old : Bytes) (k : ℕ) (output : CapiBuf)
    (hfit : w.bytes * ((k + (pieces.map UInt32.toNat).sum) * C.toNat) < 2 ^ 31)
    (h : Appended w (k * C.toNat) (interleave C.toNat fun j => load w.bytes (input j)) old output) :
    ∃ output', intlvPieces input C w.bytesPerSamp pieces k output = some output' ∧
      Appended w ((k + (pieces.map UInt32.toNat).sum) * C.toNat)
        (interleave C.toNat fun j => load w.bytes (input j)) old output' := by
  induction pieces generalizing k output with
  | nil => exact ⟨output, rfl, h⟩
  | cons n pieces ih =>
    rw [List.map_cons, List.sum_cons, ← Nat.add_assoc] at hfit ⊢
    obtain ⟨hboth, hn⟩ := piece_fits hfit
    obtain ⟨data, hrun, hload⟩ := spfDeintlvToIntlvV2_spec hn
      (fun j => dropFirst (w.bytes * k) (input j)) output.rest
    simp only [load_dropFirst] at hload
    rw [overlay_interleave_rest] at hload
    have happ := Appended.append ⟨data, _⟩ h hload
      ((hn.toNat_frames).trans (Nat.mul_comm _ _)) hboth
    rw [← Nat.add_mul] at happ
    obtain ⟨output', hrest, happ'⟩ := ih _ _ hfit happ
    refine ⟨output', ?_, happ'⟩
    rw [intlvPieces, Width.toNat_bytesPerSamp, hrun]
    exact hrest

/-- Deinterleaving in pieces goes on after the first `k` samples. -/
lemma deintlvPieces_spec (hDC : D ≤ C) (input : Bytes) (old : ℕ → Bytes)
    {k : ℕ} (output : ℕ → CapiBuf)
    (hfit : w.bytes * ((k + (pieces.map UInt32.toNat).sum) * C.toNat) < 2 ^ 31) (h : ∀ j < D.toNat,
      Appended w k (deinterleave C.toNat (load w.bytes input) j) (old j) (output j)) :
    ∃ output', deintlvPieces input C D w.bytesPerSamp pieces k output = some output' ∧
      ∀ j < D.toNat, Appended w (k + (pieces.map UInt32.toNat).sum)
        (deinterleave C.toNat (load w.bytes input) j) (old j) (output' j) := by
  induction pieces generalizing k output with
  | nil => exact ⟨output, rfl, h⟩
  | cons n pieces ih =>
    rw [List.map_cons, List.sum_cons, ← Nat.add_assoc] at hfit ⊢
    obtain ⟨hboth, hn⟩ := piece_fits hfit
    obtain ⟨piece, hrun, hpiece⟩ := spfIntlvToDeintlvV3_spec hDC hn
      (dropFirst (w.bytes * (k * C.toNat)) input) (fun j => (output j).rest)
    have happ : ∀ j < D.toNat, Appended w (k + n.toNat)
        (deinterleave C.toNat (load w.bytes input) j) (old j) ((output j).append (piece j)) := by
      intro j hj
      have hC : 0 < C.toNat := Nat.lt_of_lt_of_le (Nat.zero_lt_of_lt hj) hDC
      have hone : w.bytes * (k + n.toNat) ≤ w.bytes * (k * C.toNat + n.toNat * C.toNat) := by
        rw [← Nat.add_mul]
        exact Nat.mul_le_mul_left _ (Nat.le_mul_of_pos_right _ hC)
      have hload := hpiece.samples j hj
      rw [load_dropFirst, deinterleave_dropFirst] at hload
      refine Appended.append (piece j) (h j hj) hload ?_ (Nat.lt_of_le_of_lt hone hboth)
      rw [hpiece.len j hj, hn.toNat_channel hC, Nat.mul_comm]
    obtain ⟨output', hrest, happ'⟩ := ih _ hfit happ
    refine ⟨output', ?_, happ'⟩
    rw [deintlvPieces, Width.toNat_bytesPerSamp, hrun]
    exact hrest

end Pieces

section AtOnce

variable (s : Shape)
variable {pieces : List UInt32}

lemma pieces_fit (hsum : (pieces.map UInt32.toNat).sum = s.numSampPerCh.toNat) :
    s.width.bytes * ((0 + (pieces.map UInt32.toNat).sum) * s.numChannels.toNat) < 2 ^ 31 := by
  rw [Nat.zero_add, hsum, Nat.mul_comm]
  exact s.fits

lemma intlvPiecewise (input : ℕ → Bytes) (output : Bytes)
    (hsum : (pieces.map UInt32.toNat).sum = s.numSampPerCh.toNat) : ∃ whole,
      spfDeintlvToIntlvV2 input ⟨output, 0⟩ s.numChannels s.width.bytesPerSamp s.numSampPerCh =
        some (.eok, whole) ∧
      intlvPieces input s.numChannels s.width.bytesPerSamp pieces 0 ⟨output, 0⟩ = some whole := by
  obtain ⟨data, hwhole, hload⟩ := spfDeintlvToIntlvV2_spec (.of_lt s.fits) input ⟨output, 0⟩
  obtain ⟨output', hpieces, happ⟩ := intlvPieces_spec input output 0 ⟨output, 0⟩
    (pieces_fit s hsum) (by rw [Nat.zero_mul]; exact .zero _ _)
  rw [Nat.zero_add, hsum] at happ
  have hall : Appended s.width (s.numSampPerCh.toNat * s.numChannels.toNat)
      (interleave s.numChannels.toNat fun j => load s.width.bytes (input j)) output
      ⟨data, s.numSampPerCh * s.numChannels * s.width.bytesPerSamp⟩ :=
    ⟨hload, ((Fits.of_lt s.fits).toNat_frames).trans (Nat.mul_comm _ _)⟩
  exact ⟨_, hwhole, by rw [hpieces, happ.unique hall]⟩

lemma deintlvPiecewise (input : Bytes) (output : ℕ → Bytes) {D : UInt32}
    (hD : D ≤ s.numChannels) (hsum : (pieces.map UInt32.toNat).sum = s.numSampPerCh.toNat) :
    ∃ whole output',
      spfIntlvToDeintlvV3 input (fun j => ⟨output j, 0⟩) s.numChannels D s.width.bytesPerSamp
        s.numSampPerCh = some (.eok, whole) ∧
      deintlvPieces input s.numChannels D s.width.bytesPerSamp pieces 0
        (fun j => ⟨output j, 0⟩) = some output' ∧
      ∀ j < D.toNat, output' j = whole j := by
  obtain ⟨whole, hwhole, hdone⟩ := spfIntlvToDeintlvV3_spec hD (.of_lt s.fits) input
    fun j => ⟨output j, 0⟩
  obtain ⟨output', hpieces, happ⟩ := deintlvPieces_spec hD input output
    (fun j => ⟨output j, 0⟩) (pieces_fit s hsum) fun j _ => .zero _ _
  refine ⟨whole, output', hwhole, hpieces, fun j hj => ?_⟩
  have hC : 0 < s.numChannels.toNat := Nat.lt_of_lt_of_le (Nat.zero_lt_of_lt hj) hD
  have happ := happ j hj
  rw [Nat.zero_add, hsum] at happ
  refine happ.unique ⟨hdone.samples j hj, ?_⟩
  rw [hdone.len j hj, (Fits.of_lt s.fits).toNat_channel hC, Nat.mul_comm]

end AtOnce

/-! ## The theorem -/

/-- **Interleaving and deinterleaving are inverse**, and both can be done in pieces, for every
width of a sample and all numbers of channels and samples that fit. -/
theorem interleaving_roundTrip (s : Shape) : RoundTrip s where
  restores := fun input inter output _ hD => restores s input inter output hD
  identity := frames_restored s
  intlvPiecewise := fun input output _ hsum => intlvPiecewise s input output hsum
  deintlvPiecewise := fun input output _ _ hD hsum => deintlvPiecewise s input output hD hsum

/-- Two channels of two samples, three bytes each. -/
def twoByTwo : Shape := ⟨.three, 2, 2, by decide⟩

theorem interleaving_roundTrip_twoByTwo : RoundTrip twoByTwo := interleaving_roundTrip twoByTwo

/-- Two channels of two samples, three bytes each, are restored. -/
example : ∃ inter output, spfDeintlvToIntlvV2 (fun j x => UInt8.ofNat (16 * j + x))
      ⟨fun _ => 0, 0⟩ 2 3 2 = some (.eok, inter) ∧
    spfIntlvToDeintlvV3 inter.data (fun _ => ⟨fun _ => 0, 0⟩) 2 2 3 2 = some (.eok, output) ∧
    (output 1).actualDataLen = 6 ∧ ∀ x < 6, (output 1).data x = UInt8.ofNat (16 + x) :=
  ⟨_, _, rfl, rfl, rfl, by decide⟩

end AudioReach.Interleaver
