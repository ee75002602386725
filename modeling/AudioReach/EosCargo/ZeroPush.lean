import AudioReach.CapiCmn.DivNum
import AudioReach.Library.Interleave
import AudioReach.Library.Words

/-!
# Zeros at the end of a stream

A flushing end-of-stream marker waits until the delay of its module is flushed out with zeros:
`gen_topo_set_pending_zeros` notes how many bytes are due for each channel, at a port of packetized
or PCM data, and `gen_topo_push_zeros_at_eos_util_` appends to an input buffer as many of them as
fit.
-/

namespace AudioReach.ZeroPush

open Function (update update_of_ne update_self)
open Library List

/-- `TOPO_INTERLEAVED`, `TOPO_DEINTERLEAVED_PACKED` and the two unpacked kinds. -/
inductive Interleaving
  | interleaved
  | deinterleavedPacked
  | deinterleavedUnpacked
  deriving DecidableEq

/-- `gen_topo_input_port_t` without the contents of its buffers. -/
structure ZeroPort where
  /-- The build is one for linux. -/
  linux : Bool
  interleaving : Interleaving
  numChannels : UInt32
  bytesPerSample : ℕ
  isPcmUnpacked : Bool
  bufsNum : ℕ
  actualDataLen : ℕ → UInt32
  maxDataLen : ℕ → UInt32
  numChannels_pos : 0 < numChannels.toNat
  bytesPerSample_pos : 0 < bytesPerSample
  fits : actualDataLen 0 ≤ maxDataLen 0
  bufsNum_eq : bufsNum = if interleaving = .deinterleavedUnpacked then numChannels.toNat else 1
  sameMax : ∀ b, maxDataLen b = maxDataLen 0
  unpacked : isPcmUnpacked → interleaving = .deinterleavedUnpacked
  /-- The length of unpacked PCM data is only kept for the first buffer, that of other data for all
  buffers. -/
  sameLen : isPcmUnpacked = false → ∀ b < bufsNum, actualDataLen b = actualDataLen 0
  /-- Channels in one buffer have whole samples, and equally many of them. -/
  whole : interleaving ≠ .deinterleavedUnpacked →
    numChannels.toNat * bytesPerSample ∣ (actualDataLen 0).toNat

/-- The contents of the buffers. -/
abbrev Data := ℕ → ℕ → UInt8

/-- `memset` with zero. -/
def memsetZero (m : ℕ → UInt8) (off n : ℕ) : ℕ → UInt8 :=
  fun x => if off ≤ x ∧ x < off + n then 0 else m x

/-- `memsmov` of `n` bytes. -/
def memsmov (m : ℕ → UInt8) (dst src n : ℕ) : ℕ → UInt8 :=
  fun x => if dst ≤ x ∧ x < dst + n then m (src + (x - dst)) else m x

/-- What a call leaves: `pending_zeros_at_eos`, the contents of the buffers and their lengths. -/
structure Pushed where
  pending : UInt32
  data : Data
  actualDataLen : ℕ → UInt32

namespace ZeroPort

variable (p : ZeroPort)

/-- `gen_topo_convert_len_per_ch_to_len_per_buf`. -/
def lenPerChToLenPerBuf (lenPerCh : UInt32) : UInt32 :=
  if p.interleaving = .deinterleavedUnpacked then lenPerCh else lenPerCh * p.numChannels

/-- `gen_topo_convert_len_per_buf_to_len_per_ch`, with `topo_div_num`. -/
def lenPerBufToLenPerCh (lenPerBuf : UInt32) : UInt32 :=
  if p.interleaving = .deinterleavedUnpacked then lenPerBuf
  else capiCmnDivNum p.linux lenPerBuf p.numChannels

/-- The branch for deinterleaved packed data. -/
def pushPacked (data : Data) (pending : UInt32) : Pushed :=
  let ch := p.numChannels
  let chOffset := p.actualDataLen 0 / ch
  let maxEmptySpacePerCh := p.maxDataLen 0 / ch - chOffset
  let amount := min pending maxEmptySpacePerCh
  let currChSpacing := p.actualDataLen 0 / ch
  -- every turn moves the same bytes, as the counter is not used
  let moved := (range ch.toNat).foldl (fun m _ => memsmov m
    ((ch - 1) * (currChSpacing + amount)).toNat ((ch - 1) * currChSpacing).toNat amount.toNat)
      (data 0)
  let zeroed := (range ch.toNat).foldl (fun m c => memsetZero m
    (chOffset + UInt32.ofNat c * currChSpacing).toNat amount.toNat) moved
  { pending := pending - amount
    data := update data 0 zeroed
    actualDataLen := update p.actualDataLen 0 (p.actualDataLen 0 + amount * ch) }

/-- The branch for other data. -/
def pushBufs (data : Data) (pending : UInt32) : Pushed :=
  let perBuf := min (p.lenPerChToLenPerBuf pending) (p.maxDataLen 0 - p.actualDataLen 0)
  let pending := pending - p.lenPerBufToLenPerCh perBuf
  if p.isPcmUnpacked then
    { pending
      data := fun b => if b < p.bufsNum then
        memsetZero (data b) (p.actualDataLen 0).toNat perBuf.toNat else data b
      actualDataLen := update p.actualDataLen 0 (p.actualDataLen 0 + perBuf) }
  else
    { pending
      data := fun b => if b < p.bufsNum then
        memsetZero (data b) (p.actualDataLen b).toNat perBuf.toNat else data b
      actualDataLen := fun b => if b < p.bufsNum then p.actualDataLen b + perBuf
        else p.actualDataLen b }

/-- `gen_topo_push_zeros_at_eos_util_`. -/
def pushZerosAtEosUtil (data : Data) (pending : UInt32) : Pushed :=
  if p.interleaving = .deinterleavedPacked then p.pushPacked data pending
  else p.pushBufs data pending

/-! ## Silence -/

/-- The bytes of channel `c` in buffers of these lengths. -/
def channel (len : ℕ → UInt32) (data : Data) (c : ℕ) : List UInt8 :=
  match p.interleaving with
  | .interleaved =>
    ((range (len 0).toNat).filter fun k => k / p.bytesPerSample % p.numChannels.toNat = c).map
      (data 0)
  | .deinterleavedPacked =>
    let spacing := (len 0).toNat / p.numChannels.toNat
    getAt (data 0) (c * spacing) spacing
  | .deinterleavedUnpacked => getAt (data c) 0 (len (if p.isPcmUnpacked then 0 else c)).toNat

/-- How many bytes still fit for each channel. -/
def roomPerCh : ℕ :=
  match p.interleaving with
  | .interleaved => ((p.maxDataLen 0).toNat - (p.actualDataLen 0).toNat) / p.numChannels.toNat
  | .deinterleavedPacked =>
    (p.maxDataLen 0).toNat / p.numChannels.toNat - (p.actualDataLen 0).toNat / p.numChannels.toNat
  | .deinterleavedUnpacked => (p.maxDataLen 0).toNat - (p.actualDataLen 0).toNat

/-- The zeros for each channel: as many of those that are due as fit. -/
def silence (pending : UInt32) : ℕ := min pending.toNat p.roomPerCh

/-- Every channel is followed by the zeros, nothing else is written to the buffers, and so many
zeros less are due. -/
structure OnlySilence (pending : UInt32) (data : Data) (r : Pushed) : Prop where
  channels : ∀ c < p.numChannels.toNat, p.channel r.actualDataLen r.data c =
    p.channel p.actualDataLen data c ++ replicate (p.silence pending) 0
  inside : ∀ b x, (p.maxDataLen b).toNat ≤ x ∨ p.bufsNum ≤ b → r.data b x = data b x
  due : r.pending.toNat = pending.toNat - p.silence pending

/-- Packed data has one channel, or no zeros fit.  The bytes that are pushed behind interleaved data
are the zeros for all channels and, with several channels, whole samples; and their number is
divided by the number of channels as it should be. -/
def Appends (pending : UInt32) : Prop :=
  match p.interleaving with
  | .interleaved =>
    min (pending.toNat * p.numChannels.toNat % 2 ^ 32)
        ((p.maxDataLen 0).toNat - (p.actualDataLen 0).toNat) =
      p.numChannels.toNat * p.silence pending ∧
        (p.numChannels.toNat = 1 ∨ p.bytesPerSample ∣ p.silence pending) ∧
        DividesRight p.linux p.numChannels.toNat (p.silence pending)
  | .deinterleavedPacked => p.numChannels.toNat = 1 ∨ p.silence pending = 0
  | .deinterleavedUnpacked => True

variable {p : ZeroPort} {pending : UInt32} {data : Data}

/-! ## Other layouts than packed data -/

lemma memsetZero_of_outside {m : ℕ → UInt8} {off n x : ℕ} (h : x < off ∨ off + n ≤ x) :
    memsetZero m off n x = m x := if_neg (by omega)

lemma getAt_memsetZero (m : ℕ → UInt8) (off n : ℕ) :
    getAt (memsetZero m off n) 0 (off + n) = getAt m 0 off ++ replicate n 0 := by
  rw [getAt_add, Nat.zero_add]
  congr 1
  · refine map_congr_left fun k hk => memsetZero_of_outside ?_
    rw [mem_range] at hk
    omega
  · refine eq_replicate_iff.mpr ⟨length_getAt _ _ _, fun x hx => ?_⟩
    obtain ⟨k, hk, rfl⟩ := mem_map.mp hx
    rw [mem_range] at hk
    exact if_pos (by omega)

/-- The samples of a channel before and after the zeros. -/
lemma channel_memsetZero {C s a n : ℕ} (hs : 0 < s) (ha : C * s ∣ a) (m : ℕ → UInt8) (c : ℕ) :
    ((range (a + n)).filter fun k => k / s % C = c).map (memsetZero m a n) =
      ((range a).filter fun k => k / s % C = c).map m ++ replicate (share C s c n) 0 := by
  rw [range_add, filter_append, map_append]
  congr 1
  · refine map_congr_left fun k hk => memsetZero_of_outside (Or.inl ?_)
    exact mem_range.mp (mem_filter.mp hk).1
  · refine eq_replicate_iff.mpr ⟨?_, fun x hx => ?_⟩
    · obtain ⟨q, rfl⟩ := ha
      rw [length_map, ← countP_eq_length_filter, countP_map, share, Nat.count]
      refine countP_congr fun k _ => ?_
      simp only [Function.comp_apply, signal_add hs]
    · obtain ⟨k, hk, rfl⟩ := mem_map.mp hx
      obtain ⟨j, hj, rfl⟩ := mem_map.mp (mem_filter.mp hk).1
      rw [mem_range] at hj
      exact if_pos (by omega)

lemma toNat_perBuf (p : ZeroPort) (pending : UInt32) :
    (min (p.lenPerChToLenPerBuf pending) (p.maxDataLen 0 - p.actualDataLen 0)).toNat =
      min (p.lenPerChToLenPerBuf pending).toNat
        ((p.maxDataLen 0).toNat - (p.actualDataLen 0).toNat) := by
  rw [toNat_min, UInt32.toNat_sub_of_le _ _ p.fits]

/-- The branch that keeps the length of the first buffer and the one that keeps all do the same to
buffers of one length. -/
lemma pushBufs_spec (p : ZeroPort) (data : Data) (pending : UInt32) {n : ℕ}
    (hn : min (p.lenPerChToLenPerBuf pending).toNat
      ((p.maxDataLen 0).toNat - (p.actualDataLen 0).toNat) = n) :
    let r := p.pushBufs data pending
    (∀ b < p.bufsNum, r.data b = memsetZero (data b) (p.actualDataLen 0).toNat n) ∧
      (∀ b, p.bufsNum ≤ b → r.data b = data b) ∧
      (∀ b < p.bufsNum, (r.actualDataLen (if p.isPcmUnpacked then 0 else b)).toNat =
        (p.actualDataLen 0).toNat + n) ∧
      r.pending = pending - p.lenPerBufToLenPerCh (UInt32.ofNat n) := by
  have hlen := (toNat_perBuf p pending).trans hn
  have hmax := (p.maxDataLen 0).toNat_lt
  have hfits := UInt32.le_iff_toNat_le.mp p.fits
  unfold pushBufs
  generalize min (p.lenPerChToLenPerBuf pending) (p.maxDataLen 0 - p.actualDataLen 0) = perBuf
    at hlen ⊢
  have hsum : (p.actualDataLen 0 + perBuf).toNat = (p.actualDataLen 0).toNat + n := by
    rw [UInt32.toNat_add, hlen, Nat.mod_eq_of_lt (by omega)]
  have hof : UInt32.ofNat n = perBuf := by rw [← hlen, UInt32.ofNat_toNat]
  rw [hof]
  cases hflag : p.isPcmUnpacked with
  | true => exact ⟨fun b hb => by simp [hb, hlen], fun b hb => by simp [Nat.not_lt.mpr hb],
      fun b hb => by simpa using hsum, rfl⟩
  | false => exact ⟨fun b hb => by simp [hb, hlen, p.sameLen hflag b hb],
      fun b hb => by simp [Nat.not_lt.mpr hb],
      fun b hb => by simpa [hb, p.sameLen hflag b hb] using hsum, rfl⟩

/-- Nothing outside the buffers is written. -/
lemma pushBufs_inside (p : ZeroPort) (data : Data) (pending : UInt32) (b x : ℕ)
    (h : (p.maxDataLen b).toNat ≤ x ∨ p.bufsNum ≤ b) :
    (p.pushBufs data pending).data b x = data b x := by
  obtain ⟨hdata, hrest, -, -⟩ := pushBufs_spec p data pending rfl
  rcases Nat.lt_or_ge b p.bufsNum with hb | hb
  · rw [hdata b hb]
    rw [p.sameMax b] at h
    exact memsetZero_of_outside (by omega)
  · rw [hrest b hb]

/-- **Unpacked data** is always followed by silence. -/
lemma onlySilence_unpacked (hp : p.interleaving = .deinterleavedUnpacked) (data : Data) :
    p.OnlySilence pending data (p.pushBufs data pending) := by
  have hn : min (p.lenPerChToLenPerBuf pending).toNat
      ((p.maxDataLen 0).toNat - (p.actualDataLen 0).toNat) = p.silence pending := by
    rw [lenPerChToLenPerBuf, if_pos hp, silence, roomPerCh, hp]
  obtain ⟨hdata, -, hlen, hpending⟩ := pushBufs_spec p data pending hn
  have hle : p.silence pending ≤ pending.toNat := Nat.min_le_left _ _
  refine ⟨fun c hc => ?_, pushBufs_inside p data pending, ?_⟩
  · have hb : c < p.bufsNum := by rwa [p.bufsNum_eq, if_pos hp]
    have hold : p.actualDataLen (if p.isPcmUnpacked then 0 else c) = p.actualDataLen 0 := by
      cases hflag : p.isPcmUnpacked with
      | true => rfl
      | false => exact p.sameLen hflag c hb
    simp only [channel, hp]
    rw [hdata c hb, hlen c hb, hold, getAt_memsetZero]
  · have hlt := pending.toNat_lt
    rw [hpending, lenPerBufToLenPerCh, if_pos hp, UInt32.toNat_sub_of_le, UInt32.toNat_ofNat',
      Nat.mod_eq_of_lt (by omega)]
    rw [UInt32.le_iff_toNat_le, UInt32.toNat_ofNat', Nat.mod_eq_of_lt (by omega)]
    exact hle

/-- **Interleaved data** is followed by silence exactly if the zeros are the same for all
channels and are counted right. -/
lemma onlySilence_interleaved_iff (hp : p.interleaving = .interleaved) (data : Data) :
    p.OnlySilence pending data (p.pushBufs data pending) ↔ p.Appends pending := by
  have hC := p.numChannels_pos
  let n := min (pending.toNat * p.numChannels.toNat % 2 ^ 32)
    ((p.maxDataLen 0).toNat - (p.actualDataLen 0).toNat)
  have hn : min (p.lenPerChToLenPerBuf pending).toNat
      ((p.maxDataLen 0).toNat - (p.actualDataLen 0).toNat) = n := by
    rw [lenPerChToLenPerBuf, if_neg (by rw [hp]; decide), UInt32.toNat_mul]
  obtain ⟨hdata, -, hlen, hpending⟩ := pushBufs_spec p data pending hn
  have hflag : p.isPcmUnpacked = false := by
    by_contra h
    have := p.unpacked (by simpa using h)
    rw [hp] at this
    cases this
  have hb : 0 < p.bufsNum := by
    rw [p.bufsNum_eq, if_neg (by rw [hp]; decide)]
    decide
  have hlen0 := hlen 0 hb
  rw [hflag, if_neg Bool.false_ne_true] at hlen0
  have hchannel : ∀ c, p.channel (p.pushBufs data pending).actualDataLen
      (p.pushBufs data pending).data c = p.channel p.actualDataLen data c ++
        replicate (share p.numChannels.toNat p.bytesPerSample c n) 0 := by
    intro c
    simp only [channel, hp]
    rw [hdata 0 hb, hlen0]
    exact channel_memsetZero p.bytesPerSample_pos (p.whole (by rw [hp]; decide)) (data 0) c
  have hshare : (∀ c < p.numChannels.toNat,
        share p.numChannels.toNat p.bytesPerSample c n = p.silence pending) ↔
      n = p.numChannels.toNat * p.silence pending ∧
        (p.numChannels.toNat = 1 ∨ p.bytesPerSample ∣ p.silence pending) :=
    share_eq_iff p.bytesPerSample_pos hC
  have hle : UInt32.ofNat (p.silence pending) ≤ pending := by
    rw [UInt32.le_iff_toNat_le, UInt32.toNat_ofNat']
    exact (Nat.mod_le _ _).trans (Nat.min_le_left _ _)
  have hz : (UInt32.ofNat (p.silence pending)).toNat = p.silence pending := by
    rw [UInt32.toNat_ofNat', Nat.mod_eq_of_lt]
    exact Nat.lt_of_le_of_lt (Nat.min_le_left _ _) pending.toNat_lt
  -- what is taken off is the quotient, and a difference tells what was taken off
  have hdue : n = p.numChannels.toNat * p.silence pending →
      ((p.pushBufs data pending).pending.toNat = pending.toNat - p.silence pending ↔
        DividesRight p.linux p.numChannels.toNat (p.silence pending)) := by
    intro hnz
    have hnlt : n < 2 ^ 32 :=
      Nat.lt_of_le_of_lt (Nat.min_le_left _ _) (Nat.mod_lt _ (by decide))
    have hnum : (UInt32.ofNat n).toNat = p.numChannels.toNat * p.silence pending := by
      rw [UInt32.toNat_ofNat', Nat.mod_eq_of_lt hnlt, hnz]
    have hsub : pending.toNat - p.silence pending =
        (pending - UInt32.ofNat (p.silence pending)).toNat := by
      rw [UInt32.toNat_sub_of_le _ _ hle, hz]
    rw [← toNat_capiCmnDivNum_iff p.linux hC hnum, hpending, lenPerBufToLenPerCh,
      if_neg (by rw [hp]; decide), hsub, UInt32.toNat_inj, UInt32.sub_right_inj,
      ← UInt32.toNat_inj, hz]
  constructor
  · intro h
    have hzeros := hshare.mp fun c hc => by
      have htail := append_cancel_left ((hchannel c).symm.trans (h.channels c hc))
      simpa using congrArg List.length htail
    simp only [Appends, hp]
    exact ⟨hzeros.1, hzeros.2, (hdue hzeros.1).mp h.due⟩
  · intro h
    simp only [Appends, hp] at h
    have hsame := hshare.mpr ⟨h.1, h.2.1⟩
    exact ⟨fun c hc => by rw [hchannel, hsame c hc], pushBufs_inside p data pending,
      (hdue h.1).mpr h.2.2⟩

/-! ## Packed data -/

/-- The zeros for packed data and the new length of the buffer, in which the channels are further
apart. -/
lemma packed_sizes (hp : p.interleaving = .deinterleavedPacked) :
    let amount := min pending (p.maxDataLen 0 / p.numChannels - p.actualDataLen 0 / p.numChannels)
    let spacing := (p.actualDataLen 0).toNat / p.numChannels.toNat
    amount.toNat = p.silence pending ∧ (p.actualDataLen 0).toNat = p.numChannels.toNat * spacing ∧
      p.numChannels.toNat * (spacing + p.silence pending) ≤ (p.maxDataLen 0).toNat ∧
      (p.actualDataLen 0 + amount * p.numChannels).toNat =
        p.numChannels.toNat * (spacing + p.silence pending) := by
  intro amount spacing
  have hmax := (p.maxDataLen 0).toNat_lt
  have hdiv : spacing ≤ (p.maxDataLen 0).toNat / p.numChannels.toNat :=
    Nat.div_le_div_right (UInt32.le_iff_toNat_le.mp p.fits)
  have hamount : amount.toNat = p.silence pending := by
    rw [toNat_min, UInt32.toNat_sub_of_le, UInt32.toNat_div, UInt32.toNat_div, silence, roomPerCh, hp]
    exact hdiv
  have hact : (p.actualDataLen 0).toNat = p.numChannels.toNat * spacing :=
    (Nat.mul_div_cancel' ((Nat.dvd_mul_right _ _).trans (p.whole (by rw [hp]; decide)))).symm
  have hroom : spacing + p.silence pending ≤ (p.maxDataLen 0).toNat / p.numChannels.toNat := by
    have hle : p.silence pending ≤ p.roomPerCh := Nat.min_le_right _ _
    rw [roomPerCh, hp] at hle
    dsimp only at hle
    omega
  have hle : p.numChannels.toNat * (spacing + p.silence pending) ≤ (p.maxDataLen 0).toNat :=
    (Nat.mul_le_mul_left _ hroom).trans (Nat.mul_div_le _ _)
  refine ⟨hamount, hact, hle, ?_⟩
  have hprod := Nat.mul_add p.numChannels.toNat spacing (p.silence pending)
  rw [UInt32.toNat_add, UInt32.toNat_mul, hamount, hact, Nat.mul_comm (p.silence pending),
    Nat.mod_eq_of_lt (show p.numChannels.toNat * p.silence pending < 2 ^ 32 by omega),
    Nat.mod_eq_of_lt (by omega), hprod]

section

variable (m : ℕ → UInt8)

lemma memsmov_zero (dst src : ℕ) : memsmov m dst src 0 = m :=
  funext fun _ => if_neg (by omega)

lemma memsmov_same (off n : ℕ) : memsmov m off off n = m := by
  funext x
  rw [memsmov]
  split
  · congr 1
    omega
  · rfl

lemma memsetZero_zero (off : ℕ) : memsetZero m off 0 = m :=
  funext fun _ => if_neg (by omega)

lemma foldl_memsetZero_of_behind {off : ℕ → ℕ} {n x : ℕ} {l : List ℕ} (h : ∀ c ∈ l, off c + n ≤ x) :
    l.foldl (fun m c => memsetZero m (off c) n) m x = m x := by
  induction l generalizing m with
  | nil => rfl
  | cons c l ih =>
    rw [foldl_cons, ih _ fun c hc => h c (mem_cons_of_mem _ hc)]
    exact memsetZero_of_outside (Or.inr (h c mem_cons_self))

end

lemma foldl_memsmov_const (v : UInt8) (dst src n : ℕ) (l : List ℕ) :
    l.foldl (fun m _ => memsmov m dst src n) (fun _ => v) = fun _ => v :=
  foldl_fixed' (fun _ => funext fun x => by rw [memsmov, ite_self]) l

/-- **Packed data** is followed by silence if there is one channel or nothing to push. -/
lemma onlySilence_packed (hp : p.interleaving = .deinterleavedPacked) (h : p.Appends pending)
    (data : Data) : p.OnlySilence pending data (p.pushPacked data pending) := by
  obtain ⟨hamount, hact, hfit, hlen⟩ := @packed_sizes p pending hp
  have hb : p.bufsNum = 1 := by rw [p.bufsNum_eq, if_neg (by rw [hp]; decide)]
  have hle : p.silence pending ≤ pending.toNat := Nat.min_le_left _ _
  have hstored : (p.pushPacked data pending).data =
      update data 0 (memsetZero (data 0) (p.actualDataLen 0).toNat (p.silence pending)) := by
    unfold pushPacked
    dsimp only
    congr 1
    simp only [Appends, hp] at h
    rcases h with hone | hzero
    · have hch : p.numChannels = 1 := UInt32.toNat_inj.mp hone
      rw [hone, hamount, show range 1 = [0] from rfl, hch]
      simp only [foldl_cons, foldl_nil, UInt32.sub_self, UInt32.zero_mul, memsmov_same,
        show UInt32.ofNat 0 = 0 from rfl, UInt32.add_zero, UInt32.div_one]
    · rw [hamount, hzero, memsetZero_zero, foldl_fixed' fun _ => memsetZero_zero _ _,
        foldl_fixed' fun _ => memsmov_zero _ _ _]
  refine ⟨fun c hc => ?_, fun b x hbx => ?_, ?_⟩
  · simp only [channel, hp]
    rw [hstored, update_self]
    simp only [pushPacked, update_self]
    rw [hlen, Nat.mul_div_cancel_left _ p.numChannels_pos]
    simp only [Appends, hp] at h
    rcases h with hone | hzero
    · obtain rfl : c = 0 := by omega
      rw [hone, Nat.div_one, Nat.zero_mul, Nat.zero_mul]
      exact getAt_memsetZero _ _ _
    · rw [hzero, memsetZero_zero, Nat.add_zero, replicate_zero, append_nil]
  · rw [hstored]
    rcases Nat.eq_zero_or_pos b with rfl | hpos
    · refine memsetZero_of_outside (Or.inr ?_)
      have hprod : p.silence pending ≤ p.numChannels.toNat * p.silence pending :=
        Nat.le_mul_of_pos_left _ p.numChannels_pos
      rw [Nat.mul_add] at hfit
      omega
    · rw [update_of_ne hpos.ne']
  · rw [show (p.pushPacked data pending).pending = pending - min pending
      (p.maxDataLen 0 / p.numChannels - p.actualDataLen 0 / p.numChannels) from rfl,
      UInt32.toNat_sub_of_le, hamount]
    rw [UInt32.le_iff_toNat_le, hamount]
    exact hle

/-- **Several packed channels** are not followed by silence: the last byte of the last channel is not
zeroed. -/
lemma not_onlySilence_packed (hp : p.interleaving = .deinterleavedPacked)
    (h : ¬ p.Appends pending) :
    ¬ p.OnlySilence pending (fun _ _ => 1) (p.pushPacked (fun _ _ => 1) pending) := by
  intro hsilence
  obtain ⟨hamount, hact, hfit, hlen⟩ := @packed_sizes p pending hp
  have hC := p.numChannels_pos
  simp only [Appends, hp, not_or] at h
  have hlast := hsilence.channels (p.numChannels.toNat - 1) (by omega)
  simp only [channel, hp] at hlast
  simp only [pushPacked, update_self] at hlast
  rw [hlen, Nat.mul_div_cancel_left _ hC, getAt_add, foldl_memsmov_const]
    at hlast
  have hzeros := (append_inj hlast (by rw [length_getAt, length_getAt])).2
  have hbyte := congrArg (·[p.silence pending - 1]?) hzeros
  simp only [getAt, getElem?_map,
    getElem?_range (show p.silence pending - 1 < p.silence pending by omega),
    getElem?_replicate_of_lt (show p.silence pending - 1 < p.silence pending by omega),
    Option.map_some, Option.some.injEq] at hbyte
  rw [foldl_memsetZero_of_behind] at hbyte
  · exact absurd hbyte (by decide)
  · intro c hc
    rw [mem_range] at hc
    have hoff : (p.actualDataLen 0 / p.numChannels +
        UInt32.ofNat c * (p.actualDataLen 0 / p.numChannels)).toNat ≤
          (p.actualDataLen 0).toNat / p.numChannels.toNat +
            c * ((p.actualDataLen 0).toNat / p.numChannels.toNat) := by
      refine (Nat.mod_le _ _).trans (Nat.add_le_add_left ((Nat.mod_le _ _).trans ?_) _)
      exact Nat.mul_le_mul_right _ (Nat.mod_le _ _)
    refine (Nat.add_le_add_right hoff _).trans ?_
    generalize (p.actualDataLen 0).toNat / p.numChannels.toNat = spacing
    have hchannel : c * spacing ≤ (p.numChannels.toNat - 1) * spacing :=
      Nat.mul_le_mul_right _ (by omega)
    have hmany : p.silence pending ≤ (p.numChannels.toNat - 1) * p.silence pending :=
      Nat.le_mul_of_pos_left _ (by omega)
    rw [Nat.mul_add]
    omega

/-! ## The theorem -/

/-- **Zeros are appended** to whatever is in the buffers exactly if the condition holds. -/
lemma onlySilence_iff (p : ZeroPort) (pending : UInt32) :
    (∀ data, p.OnlySilence pending data (p.pushZerosAtEosUtil data pending)) ↔
      p.Appends pending := by
  unfold pushZerosAtEosUtil
  cases hp : p.interleaving with
  | interleaved =>
    simp only [reduceCtorEq, if_false, onlySilence_interleaved_iff hp]
    exact ⟨fun h => h fun _ _ => 0, fun h _ => h⟩
  | deinterleavedPacked =>
    refine ⟨fun h => ?_, fun h data => onlySilence_packed hp h data⟩
    by_contra hnot
    exact not_onlySilence_packed hp hnot (h _)
  | deinterleavedUnpacked =>
    refine iff_of_true (onlySilence_unpacked hp) ?_
    simp only [Appends, hp]

end ZeroPort

/-- Zeros are pushed to one buffer after another; the module takes the data between the calls. -/
def pushAll : List (ZeroPort × Data) → UInt32 → UInt32
  | [], pending => pending
  | (p, data) :: rest, pending => pushAll rest (p.pushZerosAtEosUtil data pending).pending

/-- Every buffer has room, and the condition holds for the zeros that are due in each call. -/
def AllAppend : List (ZeroPort × Data) → UInt32 → Prop
  | [], _ => True
  | (p, data) :: rest, pending => 0 < p.roomPerCh ∧ p.Appends pending ∧
      AllAppend rest (p.pushZerosAtEosUtil data pending).pending

/-- Enough calls with room push all zeros. -/
lemma pushAll_eq_zero {calls : List (ZeroPort × Data)} {pending : UInt32}
    (h : AllAppend calls pending) (hlen : pending.toNat ≤ calls.length) :
    pushAll calls pending = 0 := by
  induction calls generalizing pending with
  | nil => exact UInt32.toNat_inj.mp (Nat.le_zero.mp hlen)
  | cons call rest ih =>
    obtain ⟨p, data⟩ := call
    obtain ⟨hroom, happends, hrest⟩ := h
    refine ih hrest ?_
    rw [((p.onlySilence_iff pending).mpr happends data).due, ZeroPort.silence]
    rw [length_cons] at hlen
    omega

/-- **Zero pushing appends silence only** if and only if packed data has one channel or nothing is
pushed, and what is pushed behind interleaved data is the same for all channels and is divided
right.  Then repeated calls with room for it push all that is due. -/
theorem pushZerosAtEosUtil_right_iff (p : ZeroPort) (pending : UInt32) :
    ((∀ data, p.OnlySilence pending data (p.pushZerosAtEosUtil data pending)) ↔ p.Appends pending) ∧
    ∀ calls : List (ZeroPort × Data), AllAppend calls pending →
      pending.toNat ≤ calls.length → pushAll calls pending = 0 :=
  ⟨p.onlySilence_iff pending, fun _ => pushAll_eq_zero⟩

/-- Two packed channels with a sample of two bytes each, in a buffer of eight bytes. -/
def twoPacked : ZeroPort where
  linux := false
  interleaving := .deinterleavedPacked
  numChannels := 2
  bytesPerSample := 2
  isPcmUnpacked := false
  bufsNum := 1
  actualDataLen := fun _ => 4
  maxDataLen := fun _ => 8
  numChannels_pos := by decide
  bytesPerSample_pos := by decide
  fits := by decide
  bufsNum_eq := by decide
  sameMax := fun _ => rfl
  unpacked := nofun
  sameLen := fun _ _ _ => rfl
  whole := fun _ => by decide

/-- **The second channel** is zeroed where it was and where it was moved to, and what lay behind it
takes the place of its zeros. -/
theorem packed_not_silent : ¬ ∀ (p : ZeroPort) (pending : UInt32) (data : Data),
      p.OnlySilence pending data (p.pushZerosAtEosUtil data pending) := fun h =>
  absurd ((h twoPacked 2 fun _ x => UInt8.ofNat (x + 1)).channels 1 (by decide)) (by decide)

end AudioReach.ZeroPush
