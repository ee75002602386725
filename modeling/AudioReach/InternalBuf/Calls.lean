import AudioReach.InternalBuf.Model
import AudioReach.Library.Loops

/-!
# What the calls on an internal buffer do

A buffer is consistent if its pointers cut the one allocation into equal pieces, the offset, the
fill level and the capacity are in order, and the frame size in one unit is that in the other
unit rounded down.  `unread ch` are the bytes that channel `ch` still has to deliver.  Each call
gets a lemma that says, for a consistent buffer and under a condition on its arguments, that no
access leaves the memory, and what it does to the unread bytes.
-/

namespace AudioReach

open Library List Option

namespace InternalBuf

variable {abi : Abi} {s s' : InternalBuf}

/-! ## The invariant -/

/-- The frame size in the unit that was not set is that in the other unit, rounded down. -/
def SameDuration (s : InternalBuf) : Prop :=
  s.isMediaFmtReceived = true → s.frameSizeReceived = true →
    if s.frameSizeInTime then
      s.frameSizeSamplesPerCh.toNat = s.frameSizeUs.toNat * s.mediaFmt.samplingRate.toNat / 10 ^ 6
    else
      s.frameSizeUs.toNat = s.frameSizeSamplesPerCh.toNat * 10 ^ 6 / s.mediaFmt.samplingRate.toNat

/-- The pointers cut the allocation into one piece for each channel. -/
structure Shaped (s : InternalBuf) : Prop where
  length : ∀ ptrs, s.dataPtrs = some ptrs → ptrs.length = s.numCh
  ptrAt : ∀ ptrs, s.dataPtrs = some ptrs → ∀ ch < s.numCh,
    ptrs[ch]? = some (some (ch * s.maxDataLenPerCh.toNat))
  dataSize : s.bufferExists = true → s.dataSize = s.numCh * s.maxDataLenPerCh.toNat
  numCh_pos : s.bufferExists = true → 0 < s.numCh
  /-- `data_offset` is at most `actual_data_len`. -/
  offset_le : s.dataOffsetBytesPerCh.toNat ≤ s.actualDataLenPerCh.toNat
  /-- `actual_data_len` is at most `max_data_len`. -/
  actual_le : s.actualDataLenPerCh.toNat ≤ s.maxDataLenPerCh.toNat

/-- The internal buffer is consistent. -/
structure Consistent (s : InternalBuf) : Prop extends Shaped s where
  sameDuration : s.SameDuration

/-- The bytes of a channel that were not read. -/
def unread (s : InternalBuf) (ch : ℕ) : List UInt8 :=
  if s.bufferExists then
    getAt s.data (ch * s.maxDataLenPerCh.toNat + s.dataOffsetBytesPerCh.toNat)
      (s.actualDataLenPerCh.toNat - s.dataOffsetBytesPerCh.toNat)
  else []

/-- The settings, which only the setters change. -/
structure SameSettings (s s' : InternalBuf) : Prop where
  mediaFmt : s'.mediaFmt = s.mediaFmt
  frameSizeUs : s'.frameSizeUs = s.frameSizeUs
  frameSizeSamplesPerCh : s'.frameSizeSamplesPerCh = s.frameSizeSamplesPerCh
  isMediaFmtReceived : s'.isMediaFmtReceived = s.isMediaFmtReceived
  frameSizeReceived : s'.frameSizeReceived = s.frameSizeReceived
  frameSizeInTime : s'.frameSizeInTime = s.frameSizeInTime

lemma SameDuration.congr (h : s.SameDuration) (hset : SameSettings s s') : s'.SameDuration := by
  obtain ⟨h₁, h₂, h₃, h₄, h₅, h₆⟩ := hset
  simpa only [SameDuration, h₁, h₂, h₃, h₄, h₅, h₆] using h

lemma ptrAt_eq (h : s.Shaped) (hexists : s.bufferExists = true) {ch : ℕ} (hch : ch < s.numCh) :
    s.ptrAt ch = some (ch * s.maxDataLenPerCh.toNat) := by
  obtain ⟨ptrs, hptrs⟩ := isSome_iff_exists.mp hexists
  rw [InternalBuf.ptrAt, hptrs, bind_some, h.ptrAt ptrs hptrs ch hch, join_some]

lemma piece_le (max : ℕ) {ch i : ℕ} (h : ch < i) : ch * max + max ≤ i * max := by
  rw [← Nat.succ_mul]
  exact Nat.mul_le_mul_right max h

lemma piece_le_dataSize (h : s.Shaped) (hexists : s.bufferExists = true) {ch : ℕ}
    (hch : ch < s.numCh) :
    ch * s.maxDataLenPerCh.toNat + s.maxDataLenPerCh.toNat ≤ s.dataSize := by
  rw [h.dataSize hexists]
  exact piece_le _ hch

lemma unread_of_empty (h : s.bufferExists = true → s.actualDataLenPerCh = 0) (ch : ℕ) :
    s.unread ch = [] := by
  rw [unread]
  split
  · rename_i hexists
    simp [h hexists, getAt]
  · rfl

/-! ## Units -/

/-- The conversion of the frame size loses no bits. -/
def Converts (s : InternalBuf) : Prop :=
  s.isMediaFmtReceived = true → s.frameSizeReceived = true →
    if s.frameSizeInTime then s.frameSizeUs.toNat * s.mediaFmt.samplingRate.toNat < 2 ^ 32
    else s.mediaFmt.samplingRate ≠ 0 ∧ s.frameSizeSamplesPerCh.toNat * 10 ^ 6 < 2 ^ 32

instance (s : InternalBuf) : Decidable s.Converts :=
  inferInstanceAs (Decidable (_ → _ → _))

/-- The frame size in both units. -/
def converted (s : InternalBuf) : InternalBuf :=
  if s.isMediaFmtReceived && s.frameSizeReceived then
    if s.frameSizeInTime then
      { s with frameSizeSamplesPerCh :=
          UInt32.ofNat (s.frameSizeUs.toNat * s.mediaFmt.samplingRate.toNat / 10 ^ 6) }
    else
      { s with frameSizeUs :=
          UInt32.ofNat (s.frameSizeSamplesPerCh.toNat * 10 ^ 6 / s.mediaFmt.samplingRate.toNat) }
  else s

lemma toNat_mul_of_lt {a b : UInt32} (h : a.toNat * b.toNat < 2 ^ 32) :
    (a * b).toNat = a.toNat * b.toNat := by
  rw [UInt32.toNat_mul, Nat.mod_eq_of_lt h]

/-- **Conversion.** -/
lemma checkUpdateFrameSizeUnits_eq (h : s.Converts) :
    s.checkUpdateFrameSizeUnits = some s.converted := by
  rw [checkUpdateFrameSizeUnits, converted]
  by_cases hboth : s.isMediaFmtReceived = true ∧ s.frameSizeReceived = true
  · have hconv := h hboth.1 hboth.2
    have hready : (s.isMediaFmtReceived && s.frameSizeReceived) = true := by simp [hboth]
    rw [if_neg (by simp [hboth]), if_pos hready]
    by_cases htime : s.frameSizeInTime = true
    · rw [if_pos htime] at hconv
      rw [if_pos htime, if_pos htime]
      have hval : ((s.frameSizeUs * s.mediaFmt.samplingRate).toUInt64 / 1000000).toUInt32
          = UInt32.ofNat (s.frameSizeUs.toNat * s.mediaFmt.samplingRate.toNat / 10 ^ 6) := by
        apply UInt32.toNat_inj.mp
        rw [UInt64.toNat_toUInt32, UInt64.toNat_div, UInt32.toNat_toUInt64, toNat_mul_of_lt hconv,
          UInt32.toNat_ofNat']
        rfl
      simp only [hval]
    · rw [if_neg htime] at hconv
      rw [if_neg htime, if_neg htime, if_neg hconv.1]
      have hprod : (s.frameSizeSamplesPerCh * 1000 * 1000).toNat
          = s.frameSizeSamplesPerCh.toNat * 10 ^ 6 := by
        rw [UInt32.toNat_mul, UInt32.toNat_mul, show (1000 : UInt32).toNat = 1000 from rfl]
        omega
      have hval : ((s.frameSizeSamplesPerCh * 1000 * 1000).toUInt64
            / s.mediaFmt.samplingRate.toUInt64).toUInt32
          = UInt32.ofNat (s.frameSizeSamplesPerCh.toNat * 10 ^ 6
            / s.mediaFmt.samplingRate.toNat) := by
        apply UInt32.toNat_inj.mp
        rw [UInt64.toNat_toUInt32, UInt64.toNat_div, UInt32.toNat_toUInt64, UInt32.toNat_toUInt64,
          hprod, UInt32.toNat_ofNat']
      simp only [hval]
  · have hunready : ¬ (s.isMediaFmtReceived && s.frameSizeReceived) = true := by
      rwa [Bool.and_eq_true]
    have hreturn : (!s.isMediaFmtReceived || !s.frameSizeReceived) = true := by
      rw [← Bool.not_and, Bool.not_eq_true', ← Bool.not_eq_true]
      exact hunready
    rw [if_pos hreturn, if_neg hunready]

lemma sameDuration_converted (h : s.Converts) : s.converted.SameDuration := by
  rw [converted]
  split
  · rename_i hboth
    rw [Bool.and_eq_true] at hboth
    have hconv := h hboth.1 hboth.2
    split
    · rename_i htime
      rw [if_pos htime] at hconv
      intro _ _
      rw [if_pos htime, UInt32.toNat_ofNat']
      exact Nat.mod_eq_of_lt (lt_of_le_of_lt (Nat.div_le_self _ _) hconv)
    · rename_i htime
      rw [if_neg htime] at hconv
      intro _ _
      rw [if_neg htime, UInt32.toNat_ofNat']
      exact Nat.mod_eq_of_lt (lt_of_le_of_lt (Nat.div_le_self _ _) hconv.2)
  · rename_i hboth
    intro hmf hfs
    exact absurd (by rw [hmf, hfs]; rfl) hboth

lemma converted_eq (s : InternalBuf) : ∃ us samples, s.converted =
    { s with frameSizeUs := us, frameSizeSamplesPerCh := samples } := by
  rw [converted]
  split
  · split
    · exact ⟨s.frameSizeUs, _, rfl⟩
    · exact ⟨_, s.frameSizeSamplesPerCh, rfl⟩
  · exact ⟨s.frameSizeUs, s.frameSizeSamplesPerCh, rfl⟩

/-! ## Creation -/

/-- If the array of a new buffer is allocated, so is the data, and the sizes fit in 32 bits. -/
def CreateFits (abi : Abi) (s : InternalBuf) (env : InternalBufEnv) : Prop :=
  s.totalSize ≠ 0 → env.ptrs = true → env.data.isSome = true ∧
    abi.ptrSize * s.numCh < 2 ^ 32 ∧ s.bytesPerCh.toNat * s.numCh < 2 ^ 32

instance (abi : Abi) (s : InternalBuf) (env : InternalBufEnv) : Decidable (CreateFits abi s env) :=
  inferInstanceAs (Decidable (_ → _ → _))

/-- The state `s'` has a new buffer, or none, for the settings of `s`. -/
structure Renewed (s s' : InternalBuf) : Prop extends Shaped s' where
  settings : SameSettings s s'
  unread : ∀ ch, s'.unread ch = []

lemma Renewed.of_settings {t : InternalBuf} (h : Renewed t s') (hset : SameSettings s t) :
    Renewed s s' := by
  obtain ⟨h₁, h₂, h₃, h₄, h₅, h₆⟩ := hset
  exact ⟨h.toShaped, ⟨h.settings.1.trans h₁, h.settings.2.trans h₂, h.settings.3.trans h₃,
    h.settings.4.trans h₄, h.settings.5.trans h₅, h.settings.6.trans h₆⟩, h.unread⟩

lemma numCh_pos_of_totalSize (h : s.totalSize ≠ 0) : 0 < s.numCh := by
  rw [Nat.pos_iff_ne_zero]
  intro hzero
  have hnum : s.mediaFmt.numChannels = 0 := UInt32.toNat_inj.mp hzero
  exact h (by rw [totalSize, hnum, UInt32.mul_zero])

lemma length_newPtrs (h : abi.ptrSize * s.numCh < 2 ^ 32) : (s.newPtrs abi).length = s.numCh := by
  have hsize : (UInt32.ofNat abi.ptrSize).toNat = abi.ptrSize := by cases abi <;> rfl
  rw [newPtrs, length_replicate, toNat_mul_of_lt (by rw [hsize]; exact h), hsize,
    Nat.mul_div_cancel_left _ abi.ptrSize_pos, numCh]

lemma storePtr_eq {ptrs : List (Option ℕ)} {i : ℕ} (h : i < ptrs.length) (p : Option ℕ) :
    storePtr ptrs i p = some (ptrs.set i p) :=
  if_pos h

/-- The loop over the channels sets their pointers. -/
lemma setPtrs_eq (ptrs : List (Option ℕ)) (hlen : ptrs.length = s.numCh) (hpos : 0 < s.numCh)
    (hfirst : ptrs[0]? = some (some 0)) :
    ∃ r, s.setPtrs ptrs = some r ∧ r.1.length = s.numCh ∧
      ∀ ch < s.numCh, r.1[ch]? = some (some (ch * s.bytesPerCh.toNat)) := by
  have hrule := exists_foldlM_range
    (f := fun r i => (storePtr r.1 (i + 1) (some (r.2 + s.bytesPerCh.toNat))).map
      (·, r.2 + s.bytesPerCh.toNat))
    (fun i r => r.2 = i * s.bytesPerCh.toNat ∧ r.1.length = s.numCh ∧
      ∀ ch ≤ i, r.1[ch]? = some (some (ch * s.bytesPerCh.toNat)))
    (n := s.numCh - 1) (a := (ptrs, 0)) ⟨by simp, hlen, fun ch hch => by
      obtain rfl : ch = 0 := by omega
      simpa using hfirst⟩ ?_
  · obtain ⟨r, hloop, -, hlength, hset⟩ := hrule
    exact ⟨r, hloop, hlength, fun ch hch => hset ch (by omega)⟩
  · rintro i ⟨ps, off⟩ hi ⟨rfl, hlength, hset⟩
    simp only at hlength hset
    have hroom : i + 1 < ps.length := by omega
    refine ⟨_, by rw [storePtr_eq hroom, map_some], ?_, ?_, ?_⟩
    · exact (Nat.succ_mul _ _).symm
    · rw [length_set, hlength]
    · intro ch hch
      rcases Nat.lt_or_ge i ch with hlt | hle
      · obtain rfl : ch = i + 1 := by omega
        rw [getElem?_set_self hroom, Nat.succ_mul]
      · rw [getElem?_set_ne (by omega)]
        exact hset ch hle

variable (abi) in
/-- The allocations, for a state without a buffer. -/
lemma allocate_eq (env : InternalBufEnv) (hsize : s.totalSize ≠ 0) (hfits : CreateFits abi s env)
    (hoffset : s.dataOffsetBytesPerCh.toNat ≤ s.actualDataLenPerCh.toNat)
    (hactual : s.actualDataLenPerCh.toNat ≤ s.maxDataLenPerCh.toNat) :
    ∃ e s', s.allocate abi env = some (e, s') ∧ e ≠ .efailed ∧ Renewed s s' := by
  have hpos := numCh_pos_of_totalSize hsize
  cases hptrs : env.ptrs with
  | false =>
    refine ⟨.enomemory, { s with dataPtrs := none }, by simp [allocate, hptrs], by simp, ?_⟩
    refine ⟨⟨?_, ?_, ?_, ?_, hoffset, hactual⟩, ⟨rfl, rfl, rfl, rfl, rfl, rfl⟩, fun ch => ?_⟩
    · intro ptrs hnone
      contradiction
    · intro ptrs hnone
      contradiction
    · intro hexists
      contradiction
    · intro hexists
      contradiction
    · exact unread_of_empty (fun hexists => by contradiction) ch
  | true =>
    obtain ⟨hdata, hroom, htotal⟩ := hfits hsize hptrs
    obtain ⟨m, hm⟩ := isSome_iff_exists.mp hdata
    have hlen := length_newPtrs hroom
    obtain ⟨r, hloop, hlength, hset⟩ := setPtrs_eq
      ((s.newPtrs abi).set 0 (some 0)) (by rw [length_set, hlen]) hpos
      (getElem?_set_self (by omega))
    refine ⟨.eok, { s with
        dataPtrs := some r.1
        dataSize := s.totalSize.toNat
        data := m
        actualDataLenPerCh := 0
        maxDataLenPerCh := s.bytesPerCh
        dataOffsetBytesPerCh := 0 }, ?_, by simp, ?_⟩
    · rw [allocate, if_pos hptrs, hm]
      simp only [storePtr_eq (show 0 < (s.newPtrs abi).length by omega), bind_some, hloop, map_some]
    · refine ⟨⟨?_, ?_, ?_, fun _ => hpos, Nat.le_refl _, Nat.zero_le _⟩,
        ⟨rfl, rfl, rfl, rfl, rfl, rfl⟩, unread_of_empty fun _ => rfl⟩
      · rintro ptrs ⟨⟩
        exact hlength
      · rintro ptrs ⟨⟩
        exact hset
      · intro _
        exact (toNat_mul_of_lt htotal).trans (Nat.mul_comm _ _)

lemma destroy_eq (h : ∀ ptrs, s.dataPtrs = some ptrs → 0 < ptrs.length ∧ s.numCh ≤ ptrs.length) :
    ∃ n, s.destroy = some { s with dataPtrs := none, dataSize := n } := by
  cases hptrs : s.dataPtrs with
  | none =>
    refine ⟨s.dataSize, ?_⟩
    have hsame : s = { s with dataPtrs := none } := by rw [← hptrs]
    rw [destroy, hptrs, ← hsame]
  | some ptrs =>
    obtain ⟨hpos, hnum⟩ := h ptrs hptrs
    obtain ⟨ptrs', hloop, -⟩ := exists_foldlM_range (f := fun ptrs ch => storePtr ptrs ch none)
      (fun _ ps => ps.length = ptrs.length) (n := s.numCh) rfl fun i ps hi hlength =>
        ⟨ps.set i none, storePtr_eq (by omega) none, by rw [length_set, hlength]⟩
    refine ⟨0, ?_⟩
    rw [destroy, hptrs]
    simp only [getElem?_eq_getElem hpos, bind_some, hloop]
    split <;> rfl

/-- **Creation.** -/
lemma create_eq {env : InternalBufEnv} (hfits : CreateFits abi s env)
    (hptrs : s.totalSize ≠ 0 → ∀ ptrs, s.dataPtrs = some ptrs →
      0 < ptrs.length ∧ s.numCh ≤ ptrs.length)
    (hoffset : s.dataOffsetBytesPerCh.toNat ≤ s.actualDataLenPerCh.toNat)
    (hactual : s.actualDataLenPerCh.toNat ≤ s.maxDataLenPerCh.toNat) (heapId : UInt32) :
    (s.totalSize = 0 ∧ s.create abi heapId env = some (.efailed, { s with heapId := heapId })) ∨
      ∃ e s', s.create abi heapId env = some (e, s') ∧ e ≠ .efailed ∧ Renewed s s' := by
  by_cases hsize : s.totalSize = 0
  · exact Or.inl ⟨hsize, if_pos hsize⟩
  · refine Or.inr ?_
    cases hexists : s.bufferExists with
    | false =>
      obtain ⟨e, s', halloc, he, hrenewed⟩ := allocate_eq (s := { s with heapId := heapId })
        abi env hsize hfits hoffset hactual
      refine ⟨e, s', ?_, he, hrenewed.of_settings ⟨rfl, rfl, rfl, rfl, rfl, rfl⟩⟩
      have hnot : ({ s with heapId := heapId } : InternalBuf).bufferExists = false := hexists
      rw [create, if_neg (by exact hsize)]
      simp only [hnot]
      exact halloc
    | true =>
      obtain ⟨n, hdestroy⟩ := destroy_eq (s := ({ s with heapId := heapId } : InternalBuf).flush)
        (hptrs hsize)
      obtain ⟨e, s', halloc, he, hrenewed⟩ := allocate_eq (s := { s with
          heapId := heapId, dataPtrs := none, dataSize := n, actualDataLenPerCh := 0,
          dataOffsetBytesPerCh := 0 })
        abi env hsize hfits (Nat.le_refl _) (Nat.zero_le _)
      refine ⟨e, s', ?_, he, hrenewed.of_settings ⟨rfl, rfl, rfl, rfl, rfl, rfl⟩⟩
      have hdo : ({ s with heapId := heapId } : InternalBuf).bufferExists = true := hexists
      rw [create, if_neg (by exact hsize)]
      simp only [hdo, if_true, hdestroy, bind_some]
      exact halloc

/-! ## Writing -/

/-- The memory of the buffer of a channel. -/
def memoryOf (bufs : List CapiBuf) (ch : ℕ) : List UInt8 :=
  (bufs[ch]?.map CapiBuf.data).getD []

/-- Every channel of the source has the bytes that are copied, and no channel gets fewer bytes
than the last one. -/
def WriteFits (s : InternalBuf) (src : List CapiBuf) (srcOffset : UInt32) : Prop :=
  s.numCh = 0 ∨ s.bufferExists = true ∧ ∀ ch < s.numCh, ∃ b ∈ src[ch]?,
    srcOffset.toNat + s.bytesToWrite b srcOffset ≤ b.data.length ∧
      ∀ last ∈ src[s.numCh - 1]?, s.bytesToWrite last srcOffset ≤ s.bytesToWrite b srcOffset

section

variable {src : List CapiBuf} {srcOffset : UInt32} (h : s.Shaped)
include h

/-- The loop over the channels stores the bytes of each behind what it has. -/
lemma writeLoop_eq (hexists : s.bufferExists = true) {b : ℕ → CapiBuf}
    (hsrc : ∀ ch < s.numCh, src[ch]? = some (b ch))
    (hfits : ∀ ch < s.numCh, srcOffset.toNat + s.bytesToWrite (b ch) srcOffset ≤ (b ch).data.length)
    :
    ∃ m, (range s.numCh).foldlM (s.writeCh src srcOffset) (s.data, 0)
        = some (m, s.bytesToWrite (b (s.numCh - 1)) srcOffset) ∧
      (∀ ch < s.numCh, getAt m (ch * s.maxDataLenPerCh.toNat + s.dataOffsetBytesPerCh.toNat)
          (s.actualDataLenPerCh.toNat - s.dataOffsetBytesPerCh.toNat) = s.unread ch) ∧
      ∀ ch < s.numCh, getAt m (ch * s.maxDataLenPerCh.toNat + s.actualDataLenPerCh.toNat)
          (s.bytesToWrite (b ch) srcOffset)
        = ((b ch).data.drop srcOffset.toNat).take (s.bytesToWrite (b ch) srcOffset) := by
  have hroom : ∀ ch, s.bytesToWrite (b ch) srcOffset
      ≤ s.maxDataLenPerCh.toNat - s.actualDataLenPerCh.toNat := by
    intro ch
    rw [← UInt32.toNat_sub_of_le _ _ (UInt32.le_iff_toNat_le.mpr h.actual_le)]
    exact Nat.min_le_left _ _
  have hoffset := h.offset_le
  have hactual := h.actual_le
  have hrule := exists_foldlM_range (f := s.writeCh src srcOffset) (n := s.numCh)
    (a := (s.data, 0)) (fun i r =>
      (0 < i → r.2 = s.bytesToWrite (b (i - 1)) srcOffset) ∧
      (∀ ch < s.numCh, getAt r.1 (ch * s.maxDataLenPerCh.toNat + s.dataOffsetBytesPerCh.toNat)
        (s.actualDataLenPerCh.toNat - s.dataOffsetBytesPerCh.toNat) = s.unread ch) ∧
      ∀ ch < i, getAt r.1 (ch * s.maxDataLenPerCh.toNat + s.actualDataLenPerCh.toNat)
          (s.bytesToWrite (b ch) srcOffset)
        = ((b ch).data.drop srcOffset.toNat).take (s.bytesToWrite (b ch) srcOffset))
    ⟨fun hlt => absurd hlt (lt_irrefl 0), fun ch _ => by rw [unread, if_pos hexists],
      fun ch hch => absurd hch (Nat.not_lt_zero ch)⟩ ?_
  · obtain ⟨⟨m, k⟩, hloop, hlast, hold, hnew⟩ := hrule
    obtain rfl := hlast (h.numCh_pos hexists)
    exact ⟨m, hloop, hold, hnew⟩
  · rintro i ⟨m, k⟩ hi ⟨-, hold, hnew⟩
    have hbytes : (((b i).data.drop srcOffset.toNat).take
        (s.bytesToWrite (b i) srcOffset)).length = s.bytesToWrite (b i) srcOffset := by
      have := hfits i hi
      rw [length_take, length_drop]
      omega
    have hpiece := piece_le_dataSize h hexists hi
    have hspace := hroom i
    have hround : s.writeCh src srcOffset (m, k) i
        = some (putAt m (i * s.maxDataLenPerCh.toNat + s.actualDataLenPerCh.toNat)
          (((b i).data.drop srcOffset.toNat).take (s.bytesToWrite (b i) srcOffset)),
          s.bytesToWrite (b i) srcOffset) := by
      rw [writeCh, ptrAt_eq h hexists hi, bind_some, hsrc i hi, bind_some, loadBuf,
        if_pos (hfits i hi), bind_some, storeIn_eq_some (by rw [hbytes]; omega),
        map_some]
    refine ⟨_, hround, fun _ => rfl, ?_, ?_⟩
    · -- the bytes that were there are in front of the stretch that is written
      intro ch hch
      rw [getAt_putAt_of_outside]
      · exact hold ch hch
      · rcases lt_trichotomy ch i with hlt | rfl | hlt
        · have := piece_le s.maxDataLenPerCh.toNat hlt
          omega
        · omega
        · have := piece_le s.maxDataLenPerCh.toNat hlt
          omega
    · intro ch hch
      rcases Nat.lt_succ_iff_lt_or_eq.mp hch with hlt | rfl
      · have := piece_le s.maxDataLenPerCh.toNat hlt
        have := hroom ch
        rw [getAt_putAt_of_outside (by omega)]
        exact hnew ch hlt
      · have hget := getAt_putAt m (ch * s.maxDataLenPerCh.toNat + s.actualDataLenPerCh.toNat)
          (((b ch).data.drop srcOffset.toNat).take (s.bytesToWrite (b ch) srcOffset))
        rwa [hbytes] at hget

/-- The last channel decides how many bytes count as written. -/
lemma write_eq (hfits : WriteFits s src srcOffset) :
    ∃ n s', s.write src srcOffset = some (n, s') ∧ s'.Shaped ∧ SameSettings s s' ∧
      s'.bufferExists = s.bufferExists ∧ ∀ ch, (s.bufferExists = true → ch < s.numCh) →
        s'.unread ch = s.unread ch ++ ((memoryOf src ch).drop srcOffset.toNat).take n := by
  rcases hfits with hzero | ⟨hexists, hchannels⟩
  · have hnone : s.bufferExists ≠ true := fun hexists => by
      have := h.numCh_pos hexists
      omega
    refine ⟨0, { s with actualDataLenPerCh := s.actualDataLenPerCh + UInt32.ofNat 0 }, ?_, ?_,
      ⟨rfl, rfl, rfl, rfl, rfl, rfl⟩, rfl, fun ch _ => ?_⟩
    · rw [write, hzero]
      rfl
    · rw [show UInt32.ofNat 0 = 0 from rfl, UInt32.add_zero]
      exact h
    · rw [unread, unread, if_neg hnone, if_neg (by exact hnone), take_zero, append_nil]
  · have hpick : ∀ ch, ∃ b, ch < s.numCh → src[ch]? = some b ∧
        srcOffset.toNat + s.bytesToWrite b srcOffset ≤ b.data.length ∧
        ∀ last ∈ src[s.numCh - 1]?, s.bytesToWrite last srcOffset ≤ s.bytesToWrite b srcOffset := by
      intro ch
      by_cases hch : ch < s.numCh
      · obtain ⟨b, hb, hrest⟩ := hchannels ch hch
        exact ⟨b, fun _ => ⟨hb, hrest⟩⟩
      · exact ⟨⟨[], 0, 0⟩, fun hlt => absurd hlt hch⟩
    choose b hb using hpick
    generalize hn : s.bytesToWrite (b (s.numCh - 1)) srcOffset = n
    obtain ⟨m, hloop, hold, hnew⟩ := writeLoop_eq h hexists (fun ch hch => (hb ch hch).1)
      fun ch hch => (hb ch hch).2.1
    have hle : ∀ ch < s.numCh, n ≤ s.bytesToWrite (b ch) srcOffset := by
      intro ch hch
      rw [← hn]
      exact (hb ch hch).2.2 _ (hb (s.numCh - 1) (by omega)).1
    have hoffset := h.offset_le
    have hactual := h.actual_le
    have hspace : n ≤ s.maxDataLenPerCh.toNat - s.actualDataLenPerCh.toNat := by
      rw [← hn, ← UInt32.toNat_sub_of_le _ _ (UInt32.le_iff_toNat_le.mpr hactual)]
      exact Nat.min_le_left _ _
    have hmax := s.maxDataLenPerCh.toNat_lt
    have hfill : (s.actualDataLenPerCh + UInt32.ofNat n).toNat
        = s.actualDataLenPerCh.toNat + n := by
      rw [UInt32.toNat_add, UInt32.toNat_ofNat']
      omega
    refine ⟨n, { s with
      data := m, actualDataLenPerCh := s.actualDataLenPerCh + UInt32.ofNat n }, ?_,
      ⟨h.length, h.ptrAt, h.dataSize, h.numCh_pos, ?_, ?_⟩, ⟨rfl, rfl, rfl, rfl, rfl, rfl⟩, rfl,
      fun ch hch => ?_⟩
    · rw [write, hloop, hn]
      rfl
    · simp only [hfill]
      omega
    · simp only [hfill]
      omega
    · have hlt := hch hexists
      have hsum : s.actualDataLenPerCh.toNat + n - s.dataOffsetBytesPerCh.toNat
          = s.actualDataLenPerCh.toNat - s.dataOffsetBytesPerCh.toNat + n := by omega
      have hplace : ch * s.maxDataLenPerCh.toNat + s.dataOffsetBytesPerCh.toNat
            + (s.actualDataLenPerCh.toNat - s.dataOffsetBytesPerCh.toNat)
          = ch * s.maxDataLenPerCh.toNat + s.actualDataLenPerCh.toNat := by omega
      have hmem : memoryOf src ch = (b ch).data := by
        rw [memoryOf, (hb ch hlt).1]
        rfl
      have hnext : s.actualDataLenPerCh.toNat + n
          = (s.actualDataLenPerCh + UInt32.ofNat n).toNat := hfill.symm
      calc unread _ ch = getAt m (ch * s.maxDataLenPerCh.toNat + s.dataOffsetBytesPerCh.toNat)
            (s.actualDataLenPerCh.toNat + n - s.dataOffsetBytesPerCh.toNat) := by
            rw [hnext]
            exact if_pos hexists
        _ = s.unread ch ++ getAt m
              (ch * s.maxDataLenPerCh.toNat + s.actualDataLenPerCh.toNat) n := by
            rw [hsum, getAt_add, hold ch hlt, hplace]
        _ = s.unread ch ++ ((memoryOf src ch).drop srcOffset.toNat).take n := by
            rw [← take_getAt _ _ (hle ch hlt), hnew ch hlt, take_take,
              Nat.min_eq_left (hle ch hlt), hmem]

end

/-! ## Zero filling -/

/-- An empty buffer is filled with zeros. -/
lemma zeroFill_eq (h : s.Shaped) (zeroBytesPerCh : UInt32) :
    ∃ n s', s.zeroFill zeroBytesPerCh = some (n, s') ∧ s'.Shaped ∧ SameSettings s s' ∧
      s'.bufferExists = s.bufferExists ∧ ∀ ch, (s.bufferExists = true → ch < s.numCh) →
        s'.unread ch = s.unread ch ++ replicate n 0 := by
  rw [zeroFill]
  split
  · exact ⟨0, s, rfl, h, ⟨rfl, rfl, rfl, rfl, rfl, rfl⟩, rfl, by simp⟩
  · rename_i hfill
    simp only [ne_eq, decide_not, Bool.or_eq_true, Bool.not_eq_eq_eq_not, Bool.not_true,
      decide_eq_false_iff_not, not_or, Bool.not_eq_false, Decidable.not_not] at hfill
    obtain ⟨hexists, hempty⟩ := hfill
    generalize hn : min s.maxDataLenPerCh.toNat zeroBytesPerCh.toNat = n
    have hmax := s.maxDataLenPerCh.toNat_lt
    have hoffset : s.dataOffsetBytesPerCh.toNat = 0 := by
      have := h.offset_le
      rw [hempty] at this
      simpa using this
    have hrule := exists_foldlM_range (f := fun m ch => (s.ptrAt ch).bind fun base =>
        storeIn s.dataSize m base (replicate n 0)) (n := s.numCh) (a := s.data)
      (fun i m => ∀ ch < i, getAt m (ch * s.maxDataLenPerCh.toNat) n = replicate n 0)
      (fun ch hch => absurd hch (Nat.not_lt_zero ch)) ?_
    · obtain ⟨m, hloop, hzeros⟩ := hrule
      refine ⟨n, { s with data := m, actualDataLenPerCh := UInt32.ofNat n },
        by simp only [hloop, map_some],
        ⟨h.length, h.ptrAt, h.dataSize, h.numCh_pos, ?_, ?_⟩, ⟨rfl, rfl, rfl, rfl, rfl, rfl⟩, rfl,
        fun ch hch => ?_⟩
      · exact hoffset.trans_le (Nat.zero_le _)
      · simp only [UInt32.toNat_ofNat']
        omega
      · rw [unread_of_empty (fun _ => hempty), nil_append, unread, if_pos (by exact hexists)]
        simp only [hoffset, UInt32.toNat_ofNat', Nat.mod_eq_of_lt (show n < 2 ^ 32 by omega)]
        exact hzeros ch (hch hexists)
    · intro i m hi hzeros
      have hpiece := piece_le_dataSize h hexists hi
      refine ⟨putAt m (i * s.maxDataLenPerCh.toNat) (replicate n 0), ?_, fun ch hch => ?_⟩
      · rw [ptrAt_eq h hexists hi, bind_some, storeIn_eq_some (by rw [length_replicate]; omega)]
      · rcases Nat.lt_succ_iff_lt_or_eq.mp hch with hlt | rfl
        · have := piece_le s.maxDataLenPerCh.toNat hlt
          rw [getAt_putAt_of_outside (by omega)]
          exact hzeros ch hlt
        · have hget := getAt_putAt m (ch * s.maxDataLenPerCh.toNat) (replicate n (0 : UInt8))
          rwa [length_replicate] at hget

/-! ## Reading -/

/-- Where the next bytes of a channel go in a destination. -/
def fillOf (bufs : List CapiBuf) (ch : ℕ) : ℕ :=
  (bufs[ch]?.map fun b => b.actualDataLen.toNat).getD 0

/-- Every channel of the destination has the room that its first buffer has. -/
def ReadFits (s : InternalBuf) (dst : List CapiBuf) : Prop :=
  ∃ first ∈ dst[0]?, s.numCh = 0 ∨ s.bufferExists = true ∧ ∀ ch < s.numCh, ∃ b ∈ dst[ch]?,
    b.actualDataLen.toNat + s.bytesToRead first ≤ b.data.length

/-- The loop over the channels appends `n` bytes of each to the destination. -/
lemma readLoop_eq (h : s.Shaped) (hexists : s.bufferExists = true) {dst : List CapiBuf} {n : ℕ}
    (hn : s.dataOffsetBytesPerCh.toNat + n ≤ s.actualDataLenPerCh.toNat)
    (hdst : ∀ ch < s.numCh, ∃ b ∈ dst[ch]?, b.actualDataLen.toNat + n ≤ b.data.length) :
    ∃ d, (range s.numCh).foldlM (s.readCh n) dst = some d ∧
      ∀ ch < s.numCh, ((memoryOf d ch).drop (fillOf dst ch)).take n
        = getAt s.data (ch * s.maxDataLenPerCh.toNat + s.dataOffsetBytesPerCh.toNat) n := by
  have hrule := exists_foldlM_range (f := s.readCh n) (n := s.numCh) (fun i d =>
      (∀ ch, i ≤ ch → d[ch]? = dst[ch]?) ∧
      ∀ ch < i, ((memoryOf d ch).drop (fillOf dst ch)).take n
        = getAt s.data (ch * s.maxDataLenPerCh.toNat + s.dataOffsetBytesPerCh.toNat) n)
    ⟨fun _ _ => rfl, fun ch hch => absurd hch (Nat.not_lt_zero ch)⟩ ?_
  · obtain ⟨d, hloop, -, hread⟩ := hrule
    exact ⟨d, hloop, hread⟩
  · rintro i d hi ⟨hrest, hread⟩
    obtain ⟨b, hb, hroom⟩ := hdst i hi
    have hdi : d[i]? = some b := (hrest i (Nat.le_refl i)).trans hb
    have hpiece := piece_le_dataSize h hexists hi
    have hactual := h.actual_le
    generalize hbytes : getAt s.data (i * s.maxDataLenPerCh.toNat + s.dataOffsetBytesPerCh.toNat) n
      = bytes
    have hlen : bytes.length = n := by rw [← hbytes, length_getAt]
    have hround : s.readCh n d i = some (d.set i { b with
        data := overwrite b.data b.actualDataLen.toNat bytes
        actualDataLen := b.actualDataLen + UInt32.ofNat bytes.length }) := by
      rw [readCh, ptrAt_eq h hexists hi, bind_some, hdi, bind_some, loadData,
        if_pos (by omega), bind_some, hbytes, appendBuf, if_pos (by rw [hlen]; exact hroom),
        map_some]
    refine ⟨_, hround, fun ch hch => ?_, fun ch hch => ?_⟩
    · rw [getElem?_set_ne (by omega)]
      exact hrest ch (by omega)
    · rcases Nat.lt_succ_iff_lt_or_eq.mp hch with hlt | rfl
      · rw [memoryOf, getElem?_set_ne (by omega)]
        exact hread ch hlt
      · have hlt : ch < d.length := (List.getElem?_eq_some_iff.mp hdi).1
        have hfill : fillOf dst ch = b.actualDataLen.toNat := by
          rw [fillOf, show dst[ch]? = some b from hb]
          rfl
        rw [memoryOf, getElem?_set_self hlt, hfill, hbytes]
        have htake := take_drop_overwrite bytes
          (show b.actualDataLen.toNat ≤ b.data.length by omega)
        rwa [hlen] at htake

/-- What is left after `n` bytes were read. -/
lemma consume_eq (h : s.Shaped) {n : ℕ}
    (hn : s.dataOffsetBytesPerCh.toNat + n ≤ s.actualDataLenPerCh.toNat) :
    (s.consume n).Shaped ∧ ∀ ch, s.bufferExists = true →
      s.unread ch = getAt s.data (ch * s.maxDataLenPerCh.toNat + s.dataOffsetBytesPerCh.toNat) n
        ++ (s.consume n).unread ch := by
  have hmax := s.actualDataLenPerCh.toNat_lt
  have hnext : (s.dataOffsetBytesPerCh + UInt32.ofNat n).toNat
      = s.dataOffsetBytesPerCh.toNat + n := by
    rw [UInt32.toNat_add, UInt32.toNat_ofNat']
    omega
  simp only [consume]
  split
  · rename_i hend
    have hall : s.actualDataLenPerCh.toNat - s.dataOffsetBytesPerCh.toNat = n := by
      rw [hend, hnext]
      omega
    refine ⟨⟨h.length, h.ptrAt, h.dataSize, h.numCh_pos, Nat.le_refl _, Nat.zero_le _⟩,
      fun ch hexists => ?_⟩
    rw [unread_of_empty (s := s.flush) (fun _ => rfl), append_nil, unread, if_pos hexists, hall]
  · refine ⟨⟨h.length, h.ptrAt, h.dataSize, h.numCh_pos, ?_, h.actual_le⟩, fun ch hexists => ?_⟩
    · simp only [hnext]
      exact hn
    · have hsplit : s.actualDataLenPerCh.toNat - s.dataOffsetBytesPerCh.toNat
          = n + (s.actualDataLenPerCh.toNat - (s.dataOffsetBytesPerCh.toNat + n)) := by omega
      rw [unread, if_pos hexists, hsplit, getAt_add, unread, if_pos (by exact hexists)]
      simp only [hnext, Nat.add_assoc]

lemma sameSettings_consume (s : InternalBuf) (n : ℕ) : SameSettings s (s.consume n) := by
  simp only [consume]
  split <;> exact ⟨rfl, rfl, rfl, rfl, rfl, rfl⟩

lemma bufferExists_consume (s : InternalBuf) (n : ℕ) :
    (s.consume n).bufferExists = s.bufferExists := by
  simp only [consume]
  split <;> rfl

/-- The bytes that are read are those that were to be read first. -/
lemma read_eq (h : s.Shaped) {dst : List CapiBuf} (hfits : ReadFits s dst) :
    ∃ n d s', s.read dst = some (n, d, s') ∧ s'.Shaped ∧ SameSettings s s' ∧
      s'.bufferExists = s.bufferExists ∧ ∀ ch, (s.bufferExists = true → ch < s.numCh) →
        s.unread ch = ((memoryOf d ch).drop (fillOf dst ch)).take n ++ s'.unread ch := by
  obtain ⟨first, hfirst, hrest⟩ := hfits
  have hfirst' : dst[0]? = some first := hfirst
  rcases hrest with hzero | ⟨hexists, hroom⟩
  · have hnone : s.bufferExists ≠ true := fun hexists => by
      have := h.numCh_pos hexists
      omega
    have hcall : s.read dst = some (0, dst, s.consume 0) := by
      rw [read, hfirst', bind_some]
      simp only [hzero, if_true, range_zero, foldlM_nil]
      rfl
    refine ⟨0, dst, s.consume 0, hcall, (consume_eq h h.offset_le).1, sameSettings_consume s 0,
      bufferExists_consume s 0, fun ch _ => ?_⟩
    rw [unread, unread, if_neg hnone, if_neg (by rwa [bufferExists_consume]), take_zero, append_nil]
  · have hpos := h.numCh_pos hexists
    have hbound : s.bytesToRead first
        ≤ s.actualDataLenPerCh.toNat - s.dataOffsetBytesPerCh.toNat := by
      rw [← UInt32.toNat_sub_of_le _ _ (UInt32.le_iff_toNat_le.mpr h.offset_le)]
      exact Nat.min_le_right _ _
    have hoffset := h.offset_le
    have hn : s.dataOffsetBytesPerCh.toNat + s.bytesToRead first
        ≤ s.actualDataLenPerCh.toNat := by omega
    obtain ⟨d, hloop, hread⟩ := readLoop_eq h hexists hn hroom
    obtain ⟨hshaped, hunread⟩ := consume_eq h hn
    have hcall : s.read dst = some (s.bytesToRead first, d, s.consume (s.bytesToRead first)) := by
      rw [read, hfirst', bind_some]
      simp only [if_neg (show s.numCh ≠ 0 by omega), hloop, map_some]
    refine ⟨_, d, _, hcall, hshaped, sameSettings_consume s _, bufferExists_consume s _,
      fun ch hch => ?_⟩
    rw [hread ch (hch hexists)]
    exact hunread ch hexists

end InternalBuf

end AudioReach
