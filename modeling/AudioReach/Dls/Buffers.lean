import AudioReach.Dls.Model

/-!
# The packets of the configured memory

The memory of the service is cut into `numPkts` packets, as many as fit, and the state of a packet
is a word in its header.  What a call does is told by the packet it works on: the bytes of all the
other packets, and those outside the memory, stay as they are.

The loops go from packet to packet with a 32-bit offset.  As long as the offset behind the last
packet does not wrap around, they visit the packets in order and stop.
-/

namespace AudioReach

open Library List

lemma countP_range_succ_of_eq_except {p q : ℕ → Bool} {n k : ℕ} (hk : k < n) (hp : p k = false)
    (hq : q k = true) (hrest : ∀ j < n, j ≠ k → p j = q j) :
    (range n).countP q = (range n).countP p + 1 := by
  have hmem : k ∈ range n := mem_range.mpr hk
  have hperm := perm_cons_erase hmem
  have hsame : ((range n).erase k).countP q = ((range n).erase k).countP p := by
    apply countP_congr
    intro j hj
    have hj' := (nodup_range.mem_erase_iff).mp hj
    rw [hrest j (mem_range.mp hj'.2) hj'.1]
  rw [hperm.countP_eq q, hperm.countP_eq p, countP_cons_of_pos hq,
    countP_cons_of_neg (by simp [hp]), hsame]

namespace Dls

variable {s s' : Dls}

/-- The two halves of an address that the configuration keeps. -/
lemma address_of_halves (a : UInt64) :
    (((a &&& 0xFFFFFFFF00000000) >>> 32).toUInt32.toUInt64 <<< 32) |||
      (a &&& 0xFFFFFFFF).toUInt32.toUInt64 = a := by
  apply UInt64.toNat_inj.mp
  have hlt := a.toNat_lt
  have hlow : (a &&& 0xFFFFFFFF).toNat = a.toNat % 2 ^ 32 := by
    rw [UInt64.toNat_and, show (0xFFFFFFFF : UInt64).toNat = 2 ^ 32 - 1 from rfl,
      Nat.and_two_pow_sub_one_eq_mod]
  have hhigh : ((a &&& 0xFFFFFFFF00000000) >>> 32).toNat = a.toNat / 2 ^ 32 := by
    rw [UInt64.toNat_shiftRight, UInt64.toNat_and,
      show (0xFFFFFFFF00000000 : UInt64).toNat = (2 ^ 32 - 1) * 2 ^ 32 from rfl,
      show (32 : UInt64).toNat % 64 = 32 from rfl, Nat.shiftRight_and_distrib]
    simp only [Nat.shiftRight_eq_div_pow]
    rw [Nat.mul_div_cancel _ (by omega), Nat.and_two_pow_sub_one_eq_mod]
    omega
  have hshift : (a.toNat / 2 ^ 32) <<< 32 % 2 ^ 64 = (a.toNat / 2 ^ 32) <<< 32 := by
    rw [Nat.shiftLeft_eq]
    omega
  rw [UInt64.toNat_or, UInt64.toNat_shiftLeft, UInt32.toNat_toUInt64, UInt64.toNat_toUInt32,
    hhigh, UInt32.toNat_toUInt64, UInt64.toNat_toUInt32, hlow,
    show (32 : UInt64).toNat % 64 = 32 from rfl,
    Nat.mod_eq_of_lt (show a.toNat / 2 ^ 32 < 2 ^ 32 by omega), Nat.mod_mod, hshift,
    ← Nat.shiftLeft_add_eq_or_of_lt (Nat.mod_lt _ (by omega)), Nat.shiftLeft_eq]
  omega

/-! ## Packets -/

/-- `max_log_pkt_size`. -/
def pktSize (s : Dls) : ℕ := s.configBufferInfo.maxLogPktSize.toNat

/-- `total_buf_size`. -/
def memSize (s : Dls) : ℕ := s.configBufferInfo.totalBufSize.toNat

/-- The whole packets that fit in the configured memory. -/
def numPkts (s : Dls) : ℕ := s.memSize / s.pktSize

/-- The start of the configured memory. -/
def memStart (s : Dls) : ℕ := s.bufStartAddr.toNat

/-- The start of packet `k`. -/
def pktStart (s : Dls) (k : ℕ) : ℕ := s.memStart + k * s.pktSize

/-- The address of packet `k`. -/
def pktAddr (s : Dls) (k : ℕ) : UInt64 := s.bufStartAddr + UInt64.ofNat (k * s.pktSize)

/-- The address is that of a packet. -/
def IsPacket (s : Dls) (a : UInt64) : Prop := ∃ k < s.numPkts, a = s.pktAddr k

/-- The state of packet `k`. -/
def pktState (s : Dls) (k : ℕ) : UInt32 := wordAt s.mem (s.pktStart k + 4)

/-- Packet `k` is available. -/
def available (s : Dls) (k : ℕ) : Bool := s.pktState k == dlsBufAvailable

/-- The packets, if there are any, have room for a header, end before the address space does, and
end before the 32-bit offsets wrap around. -/
structure Laid (s : Dls) : Prop where
  header : 0 < s.numPkts → 8 ≤ s.pktSize
  addresses : 0 < s.numPkts → s.memStart + s.memSize ≤ 2 ^ 64
  /-- The offset behind the last packet does not wrap around. -/
  offsets : 0 < s.numPkts → (s.numPkts + 1) * s.pktSize < 2 ^ 32

lemma laid_of_none (h : s.numPkts = 0) : s.Laid :=
  ⟨fun hpos => absurd hpos (by omega), fun hpos => absurd hpos (by omega),
    fun hpos => absurd hpos (by omega)⟩

variable {k j fuel : ℕ}

lemma mul_le_memSize (hk : k < s.numPkts) : (k + 1) * s.pktSize ≤ s.memSize := by
  calc (k + 1) * s.pktSize ≤ s.numPkts * s.pktSize := Nat.mul_le_mul_right _ hk
    _ ≤ s.memSize := Nat.div_mul_le_self _ _

lemma pktStart_le (h : j < k) : s.pktStart j + s.pktSize ≤ s.pktStart k := by
  have hle : (j + 1) * s.pktSize ≤ k * s.pktSize := Nat.mul_le_mul_right _ h
  rw [Nat.succ_mul] at hle
  rw [pktStart, pktStart]
  omega

lemma pktStart_add_le (hk : k < s.numPkts) : s.pktStart k + s.pktSize ≤ s.memStart + s.memSize := by
  have := mul_le_memSize hk
  rw [Nat.succ_mul] at this
  rw [pktStart]
  omega

lemma Laid.toNat_pktAddr (h : s.Laid) (hk : k < s.numPkts) :
    (s.pktAddr k).toNat = s.pktStart k := by
  have hpos : 0 < s.numPkts := by omega
  have hend := pktStart_add_le hk
  have hroom := h.addresses hpos
  have hheader := h.header hpos
  rw [pktStart] at hend ⊢
  have hmul : k * s.pktSize < 2 ^ 64 := by omega
  rw [pktAddr, UInt64.toNat_add, UInt64.toNat_ofNat', Nat.mod_eq_of_lt hmul,
    Nat.mod_eq_of_lt (by rw [memStart] at hend hroom; omega), memStart]

lemma Laid.bufState_pktAddr (h : s.Laid) (hk : k < s.numPkts) :
    s.bufState (s.pktAddr k) = s.pktState k := by
  rw [bufState, h.toNat_pktAddr hk, pktState]

lemma Laid.pktAddr_inj (h : s.Laid) (hj : j < s.numPkts) (hk : k < s.numPkts)
    (heq : s.pktAddr j = s.pktAddr k) : j = k := by
  have hstart : s.pktStart j = s.pktStart k := by
    rw [← h.toNat_pktAddr hj, heq, h.toNat_pktAddr hk]
  have hheader := h.header (by omega)
  rcases lt_trichotomy j k with hlt | rfl | hlt
  · have := pktStart_le (s := s) hlt
    omega
  · rfl
  · have := pktStart_le (s := s) hlt
    omega

/-! ## What a call changes -/

/-- The two states have their packets at the same places. -/
structure SameLayout (s s' : Dls) : Prop where
  start : s'.bufStartAddr = s.bufStartAddr
  size : s'.configBufferInfo.maxLogPktSize = s.configBufferInfo.maxLogPktSize
  total : s'.configBufferInfo.totalBufSize = s.configBufferInfo.totalBufSize

instance (s s' : Dls) : Decidable (SameLayout s s') :=
  decidable_of_iff (s'.bufStartAddr = s.bufStartAddr ∧
      s'.configBufferInfo.maxLogPktSize = s.configBufferInfo.maxLogPktSize ∧
      s'.configBufferInfo.totalBufSize = s.configBufferInfo.totalBufSize)
    ⟨fun h => ⟨h.1, h.2.1, h.2.2⟩, fun h => ⟨h.start, h.size, h.total⟩⟩

lemma SameLayout.of_config (h : s'.configBufferInfo = s.configBufferInfo) : SameLayout s s' :=
  ⟨by rw [bufStartAddr, h, bufStartAddr], by rw [h], by rw [h]⟩

section

variable (h : SameLayout s s')
include h

lemma SameLayout.trans {s'' : Dls} (h' : SameLayout s' s'') : SameLayout s s'' :=
  ⟨h'.start.trans h.start, h'.size.trans h.size, h'.total.trans h.total⟩

lemma SameLayout.pktSize : s'.pktSize = s.pktSize := by
  rw [Dls.pktSize, h.size, Dls.pktSize]

lemma SameLayout.memSize : s'.memSize = s.memSize := by
  rw [Dls.memSize, h.total, Dls.memSize]

lemma SameLayout.numPkts : s'.numPkts = s.numPkts := by
  rw [Dls.numPkts, h.pktSize, h.memSize, Dls.numPkts]

lemma SameLayout.memStart : s'.memStart = s.memStart := by
  rw [Dls.memStart, h.start, Dls.memStart]

lemma SameLayout.pktStart (k : ℕ) : s'.pktStart k = s.pktStart k := by
  rw [Dls.pktStart, h.memStart, h.pktSize, Dls.pktStart]

lemma SameLayout.pktAddr (k : ℕ) : s'.pktAddr k = s.pktAddr k := by
  rw [Dls.pktAddr, h.start, h.pktSize, Dls.pktAddr]

lemma SameLayout.isPacket {a : UInt64} : s'.IsPacket a ↔ s.IsPacket a := by
  simp only [IsPacket, h.numPkts, h.pktAddr]

lemma SameLayout.laid (hlaid : s.Laid) : s'.Laid := by
  refine ⟨?_, ?_, ?_⟩
  · rw [h.numPkts, h.pktSize]
    exact hlaid.header
  · rw [h.numPkts, h.memStart, h.memSize]
    exact hlaid.addresses
  · rw [h.numPkts, h.pktSize]
    exact hlaid.offsets

lemma SameLayout.pktState (hmem : s'.mem = s.mem) (k : ℕ) : s'.pktState k = s.pktState k := by
  rw [Dls.pktState, Dls.pktState, h.pktStart, hmem]

end

/-- Only bytes of packet `k` differ. -/
structure Rewrites (k : ℕ) (s s' : Dls) : Prop extends SameLayout s s' where
  mem : ∀ a, a < s.pktStart k ∨ s.pktStart k + s.pktSize ≤ a → s'.mem a = s.mem a

/-- Bytes put into packet `k`. -/
lemma Rewrites.of_putAt {off : ℕ} {xs : List UInt8}
    (hconfig : s'.configBufferInfo = s.configBufferInfo)
    (hmem : s'.mem = putAt s.mem (s.pktStart k + off) xs) (hfits : off + xs.length ≤ s.pktSize) :
    Rewrites k s s' := by
  refine ⟨.of_config hconfig, ?_⟩
  intro a ha
  rw [hmem]
  exact putAt_of_outside (by omega)

lemma Rewrites.trans {s'' : Dls} (h : Rewrites k s s') (h' : Rewrites k s' s'') :
    Rewrites k s s'' := by
  refine ⟨h.toSameLayout.trans h'.toSameLayout, ?_⟩
  intro a ha
  rw [h'.mem a (by rwa [h.pktStart, h.pktSize]), h.mem a ha]

lemma Rewrites.pktState (h : Rewrites k s s') (hheader : 8 ≤ s.pktSize)
    (hj : j ≠ k) : s'.pktState j = s.pktState j := by
  have hout : ∀ i < 4, s'.mem (s.pktStart j + 4 + i) = s.mem (s.pktStart j + 4 + i) := by
    intro i hi
    apply h.mem
    rcases Nat.lt_or_gt_of_ne hj with hlt | hlt
    · have := pktStart_le (s := s) hlt
      omega
    · have := pktStart_le (s := s) hlt
      omega
  rw [Dls.pktState, Dls.pktState, h.pktStart, wordAt, wordAt, ← Nat.add_zero (s.pktStart j + 4)]
  simp only [hout 0 (by omega), Nat.add_zero]
  rw [hout 1 (by omega), hout 2 (by omega), hout 3 (by omega)]

lemma Rewrites.outside (h : Rewrites k s s') (hk : k < s.numPkts) {a : ℕ}
    (ha : a < s.memStart ∨ s.memStart + s.memSize ≤ a) : s'.mem a = s.mem a := by
  apply h.mem
  have hend := pktStart_add_le hk
  have hle : s.memStart ≤ s.pktStart k := Nat.le_add_right _ _
  omega

section

variable (h : s.Laid) (hk : k < s.numPkts)
include h hk

lemma Laid.pktState_storeField (v : UInt32) : (s.storeField (s.pktAddr k) 4 v).pktState k = v := by
  have hlayout : SameLayout s (s.storeField (s.pktAddr k) 4 v) := .of_config rfl
  rw [pktState, hlayout.pktStart, ← h.toNat_pktAddr hk]
  exact wordAt_putAt _ _ _

/-- A field of the header of packet `k` is stored. -/
lemma Laid.rewrites_storeField {off : ℕ} (hfits : off + 4 ≤ s.pktSize) (v : UInt32) :
    Rewrites k s (s.storeField (s.pktAddr k) off v) := by
  have hmem : (s.storeField (s.pktAddr k) off v).mem =
      putAt s.mem (s.pktStart k + off) (wordBytes v) := by
    rw [storeField, h.toNat_pktAddr hk]
  exact .of_putAt rfl hmem hfits

lemma Laid.rewrites_clearBuf :
    Rewrites k s (s.clearBuf (s.pktAddr k)) ∧
      (s.clearBuf (s.pktAddr k)).pktState k = dlsBufAvailable := by
  have hheader := h.header (by omega)
  have hzeros : Rewrites k s { s with
      mem := putAt s.mem (s.pktAddr k).toNat
        (replicate s.configBufferInfo.maxLogPktSize.toNat 0) } := by
    rw [h.toNat_pktAddr hk, ← Nat.add_zero (s.pktStart k)]
    refine .of_putAt rfl rfl ?_
    rw [length_replicate, Nat.zero_add]
    exact le_refl _
  have hlaid := hzeros.laid h
  have hk' := hk
  rw [← hzeros.numPkts] at hk'
  have hstore := hlaid.rewrites_storeField hk' (show 4 + 4 ≤ _ by rw [hzeros.pktSize]; omega)
    dlsBufAvailable
  have hstate := hlaid.pktState_storeField hk' dlsBufAvailable
  rw [hzeros.pktAddr] at hstore hstate
  exact ⟨hzeros.trans hstore, hstate⟩

end

/-! ## The loops -/

lemma Laid.loop_iff (h : s.Laid) (hpos : 0 < s.pktSize) (hk : k ≤ s.numPkts) :
    UInt32.ofNat (k * s.pktSize) + s.configBufferInfo.maxLogPktSize ≤
      s.configBufferInfo.totalBufSize ↔ k < s.numPkts := by
  have hmul : (k + 1) * s.pktSize < 2 ^ 32 := by
    rcases Nat.eq_zero_or_pos s.numPkts with hnone | hsome
    · rw [show k = 0 by omega, Nat.zero_add, Nat.one_mul]
      exact s.configBufferInfo.maxLogPktSize.toNat_lt
    · exact lt_of_le_of_lt (Nat.mul_le_mul_right _ (by omega)) (h.offsets hsome)
  rw [Nat.succ_mul] at hmul
  rw [UInt32.le_iff_toNat_le, UInt32.toNat_add, UInt32.toNat_ofNat',
    Nat.mod_eq_of_lt (a := k * s.pktSize) (by omega)]
  change (k * s.pktSize + s.pktSize) % 2 ^ 32 ≤ s.memSize ↔ _
  rw [Nat.mod_eq_of_lt hmul, ← Nat.succ_mul, numPkts, Nat.lt_iff_add_one_le,
    Nat.le_div_iff_mul_le hpos]

lemma ofNat_mul_add (s : Dls) (k : ℕ) :
    UInt32.ofNat (k * s.pktSize) + s.configBufferInfo.maxLogPktSize =
      UInt32.ofNat ((k + 1) * s.pktSize) := by
  rw [Nat.succ_mul, UInt32.ofNat_add, pktSize, UInt32.ofNat_toNat]

lemma Laid.add_ofNat_mul (h : s.Laid) (hk : k < s.numPkts) :
    s.bufStartAddr + (UInt32.ofNat (k * s.pktSize)).toUInt64 = s.pktAddr k := by
  have hmul : k * s.pktSize ≤ (s.numPkts + 1) * s.pktSize := Nat.mul_le_mul_right _ (by omega)
  have hoffsets := h.offsets (by omega)
  congr 1
  apply UInt64.toNat_inj.mp
  rw [UInt32.toNat_toUInt64, UInt32.toNat_ofNat', UInt64.toNat_ofNat',
    Nat.mod_eq_of_lt (by omega), Nat.mod_eq_of_lt (by omega)]

/-- What is left of the search for an available packet: the first one from packet `k` on. -/
lemma Laid.findBuf_from (h : s.Laid) (hpos : 0 < s.pktSize) :
    ∀ {fuel k : ℕ}, k ≤ s.numPkts → s.numPkts - k < fuel → (∃ j < s.numPkts, s.available j = true ∧
          s.findBuf fuel (UInt32.ofNat (k * s.pktSize)) = some (some (s.pktAddr j))) ∨
        (∀ j < s.numPkts, k ≤ j → s.available j = false) ∧
          s.findBuf fuel (UInt32.ofNat (k * s.pktSize)) = some none := by
  intro fuel
  induction fuel with
  | zero =>
    intro k _ hfuel
    omega
  | succ fuel ih =>
    intro k hk hfuel
    rw [findBuf]
    by_cases hlt : k < s.numPkts
    · rw [if_pos ((h.loop_iff hpos hk).mpr hlt)]
      simp only [h.add_ofNat_mul hlt, h.bufState_pktAddr hlt]
      by_cases hav : s.pktState k = dlsBufAvailable
      · rw [if_pos hav]
        exact .inl ⟨k, hlt, beq_iff_eq.mpr hav, rfl⟩
      · rw [if_neg hav, ofNat_mul_add]
        rcases ih hlt (by omega) with hfound | ⟨hnone, hfind⟩
        · exact .inl hfound
        · refine .inr ⟨?_, hfind⟩
          intro j hj hkj
          rcases Nat.eq_or_lt_of_le hkj with rfl | hkj
          · exact beq_eq_false_iff_ne.mpr hav
          · exact hnone j hj hkj
    · rw [if_neg (mt (h.loop_iff hpos hk).mp hlt)]
      refine .inr ⟨?_, rfl⟩
      intro j hj hkj
      omega

lemma Laid.findBuf_eq (h : s.Laid) (hpos : 0 < s.pktSize) (hfuel : s.numPkts < fuel) :
    (∃ k < s.numPkts, s.available k = true ∧ s.findBuf fuel 0 = some (some (s.pktAddr k))) ∨
      (∀ k < s.numPkts, s.available k = false) ∧ s.findBuf fuel 0 = some none := by
  have hfrom := h.findBuf_from hpos (Nat.zero_le _) (show s.numPkts - 0 < fuel from hfuel)
  rw [Nat.zero_mul] at hfrom
  rcases hfrom with hfound | ⟨hnone, hfind⟩
  · exact .inl hfound
  · exact .inr ⟨fun k hk => hnone k hk (Nat.zero_le _), hfind⟩

/-- What marking the packets from `k` on leaves. -/
structure Marked (k : ℕ) (s t : Dls) : Prop where
  config : t.configBufferInfo = s.configBufferInfo
  count : t.totalBufCount = s.totalBufCount + UInt32.ofNat (s.numPkts - k)
  codes : t.logCode = s.logCode
  states : ∀ j < s.numPkts, t.pktState j = if k ≤ j then dlsBufAvailable else s.pktState j
  outside : ∀ a, a < s.memStart ∨ s.memStart + s.memSize ≤ a → t.mem a = s.mem a

/-- The loop of the configuration marks and counts the packets. -/
lemma Laid.markBufs_from : ∀ {fuel k : ℕ} {s : Dls}, s.Laid → 0 < s.pktSize → k ≤ s.numPkts →
    s.numPkts - k < fuel →
      ∃ t, s.markBufs s.bufStartAddr fuel (UInt32.ofNat (k * s.pktSize)) = some t ∧
        Marked k s t := by
  intro fuel
  induction fuel with
  | zero =>
    intro k s _ _ _ hfuel
    omega
  | succ fuel ih =>
    intro k s h hpos hk hfuel
    rw [markBufs]
    by_cases hlt : k < s.numPkts
    · rw [if_pos ((h.loop_iff hpos hk).mpr hlt)]
      have hheader := h.header (by omega)
      have hstore := h.rewrites_storeField hlt (show 4 + 4 ≤ _ by omega) dlsBufAvailable
      simp only [h.add_ofNat_mul hlt, ofNat_mul_add]
      set t := s.storeField (s.pktAddr k) 4 dlsBufAvailable with ht
      have hlayout : SameLayout s { t with totalBufCount := t.totalBufCount + 1 } :=
        .of_config rfl
      obtain ⟨t', hmarks, hmarked⟩ := ih (k := k + 1) (hlayout.laid h)
        (by rwa [hlayout.pktSize]) (by rw [hlayout.numPkts]; omega)
        (by rw [hlayout.numPkts]; omega)
      refine ⟨t', hmarks, hmarked.config, ?_, hmarked.codes, ?_, ?_⟩
      · rw [hmarked.count, hlayout.numPkts,
          show s.numPkts - k = 1 + (s.numPkts - (k + 1)) by omega, UInt32.ofNat_add,
          ← UInt32.add_assoc]
        rfl
      · intro j hj
        rw [hmarked.states j (by rwa [hlayout.numPkts])]
        change (if k + 1 ≤ j then dlsBufAvailable else t.pktState j) = _
        rcases Nat.lt_trichotomy j k with hjk | rfl | hjk
        · rw [if_neg (by omega), if_neg (by omega), hstore.pktState hheader (by omega)]
        · rw [if_neg (by omega), if_pos (le_refl _), ht, h.pktState_storeField hlt]
        · rw [if_pos (by omega), if_pos (by omega)]
      · intro a ha
        rw [hmarked.outside a (by rwa [hlayout.memStart, hlayout.memSize])]
        exact hstore.outside hlt ha
    · rw [if_neg (mt (h.loop_iff hpos hk).mp hlt)]
      refine ⟨s, rfl, rfl, ?_, rfl, ?_, fun _ _ => rfl⟩
      · rw [show s.numPkts - k = 0 by omega]
        exact (UInt32.add_zero _).symm
      · intro j hj
        rw [if_neg (by omega)]

lemma Laid.markBufs_eq (h : s.Laid) (hpos : 0 < s.pktSize) (hfuel : s.numPkts < fuel) :
    ∃ t, s.markBufs s.bufStartAddr fuel 0 = some t ∧ Marked 0 s t := by
  have hfrom := h.markBufs_from hpos (Nat.zero_le _) (show s.numPkts - 0 < fuel from hfuel)
  rwa [Nat.zero_mul] at hfrom

/-! ## A packet is handed out -/

lemma Laid.toNat_pktAddr_add (h : s.Laid) (hk : k < s.numPkts) (hsize : 12 < s.pktSize) :
    (s.pktAddr k + UInt64.ofNat dlsBufHdrSize).toNat = s.pktStart k + 12 := by
  have hend := pktStart_add_le hk
  have hroom := h.addresses (by omega)
  rw [UInt64.toNat_add, h.toNat_pktAddr hk,
    show (UInt64.ofNat dlsBufHdrSize).toNat = 12 from rfl, Nat.mod_eq_of_lt (by omega)]

/-- What the call that hands out packet `k` leaves. -/
structure HandsOut (k : ℕ) (s t : Dls) : Prop extends Rewrites k s t where
  count : t.totalBufCount = s.totalBufCount
  current : t.currentBufCount = s.currentBufCount - 1
  codes : t.logCode = s.logCode
  state : t.pktState k = dlsBufAcquired

/-- A call for an enabled code and a packet that is not too long gives the address behind the
header of an available packet, or none if there is none. -/
lemma Laid.acquireBuffer_cases (h : s.Laid) (hsize : 24 ≤ s.pktSize)
    {percent : UInt32 → UInt32 → UInt32} {timestamp : UInt64} {logCode : UInt16}
    {logPacketSize : UInt32} (hfuel : s.numPkts < fuel)
    (hcode : (s.isLogCodeExists logCode.toUInt32).isNone = false)
    (hfits : ¬s.configBufferInfo.maxLogPktSize < logPacketSize + UInt32.ofNat dlsBufHdrSize) :
    (∃ k < s.numPkts, s.available k = true ∧ ∃ t,
        s.acquireBuffer fuel percent timestamp logCode logPacketSize =
          some (s.pktAddr k + UInt64.ofNat dlsBufHdrSize, t) ∧ HandsOut k s t) ∨
      s.acquireBuffer fuel percent timestamp logCode logPacketSize = some (0, s) := by
  simp only [acquireBuffer, hcode, if_neg hfits]
  rcases h.findBuf_eq (by omega) hfuel with ⟨k, hk, hav, hfind⟩ | ⟨-, hfind⟩
  · refine .inl ⟨k, hk, hav, _, by rw [hfind]; rfl, ?_⟩
    have hlen := h.rewrites_storeField hk (show 0 + 4 ≤ _ by omega)
      (logPacketSize + UInt32.ofNat dlsBufHdrSize)
    set s₁ := s.storeField (s.pktAddr k) 0 (logPacketSize + UInt32.ofNat dlsBufHdrSize) with hs₁
    have hk₁ : k < s₁.numPkts := by rwa [hlen.numPkts]
    have hstate := (hlen.laid h).rewrites_storeField hk₁
      (show 4 + 4 ≤ _ by rw [hlen.pktSize]; omega) dlsBufAcquired
    have hacquired := (hlen.laid h).pktState_storeField hk₁ dlsBufAcquired
    rw [hlen.pktAddr] at hstate hacquired
    set s₂ := s₁.storeField (s.pktAddr k) 4 dlsBufAcquired with hs₂
    have hlen₂ := hlen.trans hstate
    have hk₂ : k < s₂.numPkts := by rwa [hlen₂.numPkts]
    have huse := (hlen₂.laid h).rewrites_storeField hk₂
      (show 8 + 4 ≤ _ by rw [hlen₂.pktSize]; omega)
      (percent (s.currentBufCount - 1) s.totalBufCount)
    rw [hlen₂.pktAddr] at huse
    set s₃ := s₂.storeField (s.pktAddr k) 8 (percent (s.currentBufCount - 1) s.totalBufCount)
      with hs₃
    have hlen₃ := hlen₂.trans huse
    have haddr := h.toNat_pktAddr_add hk (by omega)
    -- neither the share nor the log header touches the state
    have hmem : wordAt (putAt s₃.mem (s.pktStart k + 12) (logHdrBytes logCode
        (logPacketSize + UInt32.ofNat dlsBufHdrSize - UInt32.ofNat dlsBufHdrSize) timestamp))
          (s.pktStart k + 4) = dlsBufAcquired := by
      rw [wordAt_putAt_of_outside (by omega), hs₃, storeField, h.toNat_pktAddr hk,
        wordAt_putAt_of_outside (by omega), ← hlen₂.pktStart]
      exact hacquired
    rw [haddr]
    have hfinal : Rewrites k s₃ { s₃ with
        currentBufCount := s.currentBufCount - 1
        mem := putAt s₃.mem (s.pktStart k + 12) (logHdrBytes logCode
          (logPacketSize + UInt32.ofNat dlsBufHdrSize - UInt32.ofNat dlsBufHdrSize) timestamp) } := by
      rw [← hlen₃.pktStart]
      refine .of_putAt rfl rfl ?_
      rw [hlen₃.pktSize]
      change 12 + 12 ≤ _
      exact hsize
    refine ⟨hlen₃.trans hfinal, rfl, rfl, rfl, ?_⟩
    rw [pktState, (hlen₃.trans hfinal).pktStart]
    exact hmem
  · refine .inr ?_
    rw [hfind]
    rfl

end Dls

end AudioReach
