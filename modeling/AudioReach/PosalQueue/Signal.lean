import Mathlib.Data.Nat.Bitwise
import AudioReach.PosalQueue.Model

/-!
# The bit of a queue on its channel

A channel has 32 bits.  A queue on it owns one of them: `OnChannel` says that the mask of the
queue is that of a single position which the channel has marked as used.  The signal of the
queue is then the one bit at this position, and the operations of the queue change no other.

When the queue moves to another channel or bit, its signal has to move along.  The source polls
the old bit into a `bool_t`, which is an `unsigned char`: of the 32 positions only the low eight
survive the conversion.
-/

namespace AudioReach

open Function (update_of_ne update_self)

variable {E : Type}

/-! ## Words with a single one -/

/-- The conversion to `bool_t` keeps the low eight positions only. -/
lemma toBoolT_twoPow {i : ℕ} (hi : i < 32) : toBoolT (BitVec.twoPow 32 i) = decide (i < 8) := by
  have hall : ∀ j : Fin 32, toBoolT (BitVec.twoPow 32 j) = decide (j.val < 8) := by decide
  exact hall ⟨i, hi⟩

lemma toNat_twoPow_lt_iff {i : ℕ} (hi : i < 32) : (BitVec.twoPow 32 i).toNat < 256 ↔ i < 8 := by
  have hall : ∀ j : Fin 32, (BitVec.twoPow 32 j).toNat < 256 ↔ j.val < 8 := by decide
  exact hall ⟨i, hi⟩

lemma twoPow_and_eq (x : BitVec 32) (i : ℕ) :
    BitVec.twoPow 32 i &&& x = if x.getLsbD i then BitVec.twoPow 32 i else 0#32 := by
  rw [BitVec.and_comm, BitVec.and_twoPow]

lemma twoPow_ne_zero {i : ℕ} (hi : i < 32) : BitVec.twoPow 32 i ≠ 0#32 := by
  have hall : ∀ j : Fin 32, BitVec.twoPow 32 j ≠ 0#32 := by decide
  exact hall ⟨i, hi⟩

/-- The test `x & (x - 1)` is passed by the words with a single one. -/
lemma eq_twoPow_of_and_sub_one {x : BitVec 32} (hx : x ≠ 0) (h : x &&& (x - 1) = 0) :
    ∃ i < 32, x = BitVec.twoPow 32 i := by
  have hpos : x.toNat ≠ 0 := fun hzero => hx (BitVec.eq_of_toNat_eq hzero)
  have hsub : (x - 1).toNat = x.toNat - 1 := by
    rw [BitVec.toNat_sub]
    simp only [BitVec.ofNat_eq_ofNat, BitVec.toNat_ofNat]
    omega
  have hand : x.toNat &&& (x.toNat - 1) = 0 := by
    rw [← hsub, ← BitVec.toNat_and, h]
    rfl
  obtain ⟨k, hk⟩ := (Nat.and_sub_one_eq_zero_iff_isPowerOfTwo hpos).mp hand
  have hlt : k < 32 := by
    by_contra hge
    have hle : 2 ^ 32 ≤ 2 ^ k := Nat.pow_le_pow_right (by omega) (by omega)
    omega
  refine ⟨k, hlt, BitVec.eq_of_toNat_eq ?_⟩
  rw [hk, BitVec.toNat_twoPow_of_lt hlt]

/-! ## The bit that a queue may take -/

namespace PosalChannel

/-- The count of leading ones stops at a zero, or has seen all 32 positions. -/
lemma cl1_stops (x : BitVec 32) (rounds cnt : ℕ) (htotal : rounds + cnt = 32)
    (hones : ∀ j < 32, 31 - j < cnt → x.getLsbD j = true) :
    x.getLsbD (31 - cl1 x rounds cnt) = false ∨ x = BitVec.allOnes 32 := by
  induction rounds generalizing cnt with
  | zero =>
    right
    apply BitVec.eq_of_getLsbD_eq
    intro j hj
    rw [hones j hj (by omega), BitVec.getLsbD_allOnes, decide_eq_true hj]
  | succ rounds ih =>
    unfold cl1
    split
    · rename_i hone
      apply ih (cnt + 1) (by omega)
      intro j hj hlt
      by_cases hnew : 31 - j < cnt
      · exact hones j hj hnew
      · have hpos : j = 31 - cnt := by omega
        rw [hpos]
        exact hone
    · rename_i hzero
      left
      simpa using hzero

lemma checkBitMask_error {ch : PosalChannel} {unBitMask : BitVec 32} {result : ArResult}
    (h : ch.checkBitMask unBitMask = .error result) : result ≠ .eok := by
  unfold checkBitMask at h
  split_ifs at h <;> cases h <;> decide

/-- What the check lets through is a single bit that is not in use. -/
lemma checkBitMask_ok {ch : PosalChannel} {unBitMask mask : BitVec 32}
    (h : ch.checkBitMask unBitMask = .ok mask) :
    ∃ i < 32, mask = BitVec.twoPow 32 i ∧ ch.unBitsUsedMask.getLsbD i = false := by
  unfold checkBitMask at h
  split at h
  · cases h
  · rename_i hall
    split at h
    · cases h
    · rename_i hbad
      split at h
      · cases h
        refine ⟨31 - cl1 ch.unBitsUsedMask 32 0, by omega, rfl, ?_⟩
        exact (cl1_stops ch.unBitsUsedMask 32 0 rfl (by omega)).resolve_right hall
      · rename_i hmask
        cases h
        have hgood : unBitMask &&& (unBitMask - 1) = 0 ∧ unBitMask &&& ch.unBitsUsedMask = 0 := by
          by_contra hnot
          exact hbad ⟨hmask, not_and_or.mp hnot⟩
        obtain ⟨i, hi, rfl⟩ := eq_twoPow_of_and_sub_one hmask hgood.1
        refine ⟨i, hi, rfl, ?_⟩
        have hfree := hgood.2
        rw [twoPow_and_eq] at hfree
        by_contra hused
        rw [if_pos (by simpa using hused)] at hfree
        exact twoPow_ne_zero hi hfree

lemma getLsbD_signalSet (ch : PosalChannel) {i : ℕ} (hi : i < 32) (j : ℕ) :
    (ch.signalSet (BitVec.twoPow 32 i)).anysig.getLsbD j = (ch.anysig.getLsbD j || decide (i = j)) := by
  simp only [signalSet, BitVec.getLsbD_or, BitVec.getLsbD_twoPow, hi, decide_true, Bool.true_and]

lemma getLsbD_signalClear (ch : PosalChannel) {i : ℕ} (hi : i < 32) {j : ℕ} (hj : j < 32) :
    (ch.signalClear (BitVec.twoPow 32 i)).anysig.getLsbD j =
      (ch.anysig.getLsbD j && !decide (i = j)) := by
  simp only [signalClear, BitVec.getLsbD_and, BitVec.getLsbD_not, BitVec.getLsbD_twoPow, hi, hj,
    decide_true, Bool.true_and]

end PosalChannel

/-! ## The bit that the queue has -/

/-- The queue owns position `i` of channel `c`. -/
structure OnChannel (w : QueueWorld E) (c i : ℕ) : Prop where
  lt : i < 32
  channelPtr : w.queue.channelPtr = some c
  channelBit : w.queue.channelBit = BitVec.twoPow 32 i
  used : (w.channels c).unBitsUsedMask.getLsbD i = true

namespace OnChannel

variable {w w' : QueueWorld E} {c i : ℕ}

lemma poll_congr (hptr : w'.queue.channelPtr = w.queue.channelPtr)
    (hbit : w'.queue.channelBit = w.queue.channelBit) (hch : w'.channels = w.channels) :
    w'.poll = w.poll := by
  unfold QueueWorld.poll
  rw [hptr, hbit, hch]

section

variable (h : OnChannel w c i)
include h

lemma poll_ne_zero_iff : w.poll ≠ 0 ↔ (w.channels c).anysig.getLsbD i = true := by
  unfold QueueWorld.poll
  rw [h.channelPtr]
  simp only [PosalChannel.poll, h.channelBit, twoPow_and_eq]
  split
  · rename_i hset
    simp [hset, twoPow_ne_zero h.lt]
  · rename_i hclear
    simp [hclear]

lemma congr (hptr : w'.queue.channelPtr = w.queue.channelPtr)
    (hbit : w'.queue.channelBit = w.queue.channelBit) (hch : w'.channels = w.channels) :
    OnChannel w' c i :=
  ⟨h.lt, hptr.trans h.channelPtr, hbit.trans h.channelBit, by rw [hch, h.used]⟩

lemma updateChannel {f : PosalChannel → PosalChannel}
    (hf : ∀ ch, (f ch).unBitsUsedMask = ch.unBitsUsedMask) :
    OnChannel (w.updateChannel c f) c i := by
  refine ⟨h.lt, h.channelPtr, h.channelBit, ?_⟩
  simp only [QueueWorld.updateChannel, update_self, hf, h.used]

lemma signalSet :
    OnChannel (w.updateChannel c (·.signalSet w.queue.channelBit)) c i ∧
      (w.updateChannel c (·.signalSet w.queue.channelBit)).poll ≠ 0 := by
  have hnew := h.updateChannel (f := (·.signalSet w.queue.channelBit)) (fun _ => rfl)
  refine ⟨hnew, hnew.poll_ne_zero_iff.mpr ?_⟩
  simp only [QueueWorld.updateChannel, update_self, h.channelBit,
    PosalChannel.getLsbD_signalSet _ h.lt, decide_true, Bool.or_true]

lemma signalClear :
    OnChannel (w.updateChannel c (·.signalClear w.queue.channelBit)) c i ∧
      (w.updateChannel c (·.signalClear w.queue.channelBit)).poll = 0 := by
  have hnew := h.updateChannel (f := (·.signalClear w.queue.channelBit)) (fun _ => rfl)
  refine ⟨hnew, not_ne_iff.mp fun hset => ?_⟩
  have hbit := hnew.poll_ne_zero_iff.mp hset
  simp [QueueWorld.updateChannel, h.channelBit,
    PosalChannel.getLsbD_signalClear _ h.lt h.lt] at hbit

end

end OnChannel

/-! ## Moving to another bit -/

namespace QueueWorld

variable {w : QueueWorld E} {c : ℕ} {unBitMask : BitVec 32}

/-- `posal_channel_addq` changes the channel and the bit of the queue, and nothing else of it. -/
lemma addq_queue (w : QueueWorld E) (c : ℕ) (unBitMask : BitVec 32) :
    (w.addq c unBitMask).2.nodes = w.nodes ∧
      (w.addq c unBitMask).2.queue = { w.queue with
        channelPtr := (w.addq c unBitMask).2.queue.channelPtr
        channelBit := (w.addq c unBitMask).2.queue.channelBit } := by
  unfold addq leaveChannel
  cases (w.channels c).checkBitMask unBitMask with
  | error result => exact ⟨rfl, rfl⟩
  | ok mask =>
    cases hptr : w.queue.channelPtr with
    | none =>
      simp only [updateChannel, hptr]
      exact ⟨rfl, rfl⟩
    | some old =>
      simp only [updateChannel, hptr]
      split <;> exact ⟨rfl, rfl⟩

lemma joinChannel_onChannel (w : QueueWorld E) {i : ℕ} (hi : i < 32) :
    OnChannel (w.joinChannel c (BitVec.twoPow 32 i)) c i := by
  refine ⟨hi, rfl, rfl, ?_⟩
  simp [joinChannel, updateChannel, hi]

lemma joinChannel_signal {i : ℕ} (hi : i < 32)
    (hclear : (w.channels c).anysig.getLsbD i = false) (set : Bool) :
    let w₁ := w.joinChannel c (BitVec.twoPow 32 i)
    let w₂ := if set then w₁.updateChannel c (·.signalSet (BitVec.twoPow 32 i)) else w₁
    OnChannel w₂ c i ∧ (w₂.poll ≠ 0 ↔ set = true) := by
  have hjoin := w.joinChannel_onChannel (c := c) hi
  cases set with
  | false =>
    refine ⟨hjoin, ?_⟩
    simp only [Bool.false_eq_true, if_false, iff_false]
    rw [hjoin.poll_ne_zero_iff]
    simp [joinChannel, updateChannel, hclear]
  | true =>
    obtain ⟨hon, hset⟩ := hjoin.signalSet
    exact ⟨hon, iff_of_true hset rfl⟩

lemma leaveChannel_clear {i : ℕ} (hi : i < 32) (w : QueueWorld E) (c : ℕ) :
    ((w.updateChannel c (·.signalClear (BitVec.twoPow 32 i))).leaveChannel.2.channels c).anysig.getLsbD
      i = false := by
  have hclear : ((w.channels c).signalClear (BitVec.twoPow 32 i)).anysig.getLsbD i = false := by
    simp [PosalChannel.getLsbD_signalClear _ hi hi]
  unfold leaveChannel
  cases hptr : w.queue.channelPtr with
  | none => simp only [updateChannel, hptr, update_self, hclear]
  | some old =>
    simp only [updateChannel, hptr]
    by_cases hold : old = c
    · subst hold
      simp only [update_self]
      rw [PosalChannel.signalClear, BitVec.getLsbD_and, hclear, Bool.false_and]
    · simp only [update_of_ne (Ne.symm hold), update_self, hclear]

lemma addq_first (hptr : w.queue.channelPtr = none) (h : (w.addq c unBitMask).1 = .eok) :
    ∃ i, OnChannel (w.addq c unBitMask).2 c i ∧ (w.addq c unBitMask).2.poll = 0 := by
  unfold addq at h ⊢
  cases hcheck : (w.channels c).checkBitMask unBitMask with
  | error result =>
    rw [hcheck] at h
    exact absurd h (PosalChannel.checkBitMask_error hcheck)
  | ok mask =>
    obtain ⟨i, hi, rfl, _⟩ := PosalChannel.checkBitMask_ok hcheck
    have hleave : (w.updateChannel c (·.signalClear (BitVec.twoPow 32 i))).leaveChannel.1 = false := by
      unfold leaveChannel
      simp only [updateChannel, hptr]
    obtain ⟨hon, hpoll⟩ := joinChannel_signal hi (leaveChannel_clear hi w c) false
    refine ⟨i, ?_⟩
    simp only [hleave]
    exact ⟨hon, by simpa using hpoll⟩

/-- **Moving the signal.** A queue that moves has its new bit, and it is raised there exactly
when it was raised before and the old position is one of the low eight. -/
lemma addq_moves {c₀ i₀ : ℕ} {mask : BitVec 32} (h : OnChannel w c₀ i₀)
    (hcheck : (w.channels c).checkBitMask unBitMask = .ok mask) :
    ∃ i, OnChannel (w.addq c unBitMask).2 c i ∧
      ((w.addq c unBitMask).2.poll ≠ 0 ↔ w.poll ≠ 0 ∧ i₀ < 8) := by
  obtain ⟨i, hi, rfl, hfree⟩ := PosalChannel.checkBitMask_ok hcheck
  -- the residual signal that is cleared first is not that of the queue
  have hkept : ((w.updateChannel c (·.signalClear (BitVec.twoPow 32 i))).channels c₀).anysig.getLsbD
      i₀ = (w.channels c₀).anysig.getLsbD i₀ := by
    by_cases hc : c₀ = c
    · subst hc
      have hne : i ≠ i₀ := by
        rintro rfl
        rw [h.used] at hfree
        cases hfree
      simp [updateChannel, PosalChannel.getLsbD_signalClear _ hi h.lt, hne]
    · simp only [updateChannel, update_of_ne hc]
  have hleave : (w.updateChannel c (·.signalClear (BitVec.twoPow 32 i))).leaveChannel.1 = true ↔
      w.poll ≠ 0 ∧ i₀ < 8 := by
    rw [h.poll_ne_zero_iff, ← hkept]
    unfold leaveChannel
    have hptr : (w.updateChannel c (·.signalClear (BitVec.twoPow 32 i))).queue.channelPtr =
        some c₀ := h.channelPtr
    have hbit : (w.updateChannel c (·.signalClear (BitVec.twoPow 32 i))).queue.channelBit =
        BitVec.twoPow 32 i₀ := h.channelBit
    rw [hptr, hbit]
    simp only [PosalChannel.poll, twoPow_and_eq]
    split
    · rename_i hset
      simp [hset, toBoolT_twoPow h.lt]
    · rename_i hclear
      simp [hclear, toBoolT]
  obtain ⟨hon, hpoll⟩ := joinChannel_signal hi (leaveChannel_clear hi w c)
    (w.updateChannel c (·.signalClear (BitVec.twoPow 32 i))).leaveChannel.1
  refine ⟨i, ?_⟩
  unfold addq
  rw [hcheck]
  exact ⟨hon, hpoll.trans hleave⟩

end QueueWorld

end AudioReach
