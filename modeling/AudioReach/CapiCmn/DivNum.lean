import AudioReach.MediaFmt.BytesToUs

/-!
# Division by a number of channels

`capi_cmn_div_num`, under its other name `topo_div_num`, divides by a power of two with
`s32_shr_s32_sat`.  That shift is arithmetic: a dividend from `2 ^ 31` on is taken for a negative
number.  The linux build saturates when the sign changes, but it looks for the sign at bit 27.
-/

namespace AudioReach

open BytesToUs

/-- `s32_shr_s32_sat`, for a shift of less than 32. -/
def s32ShrS32Sat (linux : Bool) (x : BitVec 32) (shift : ℕ) : BitVec 32 :=
  let y := x.sshiftRight shift
  if linux && (x.msb && !y.getLsbD 27) then BitVec.intMin 32
  else if linux && (!x.msb && x != 0 && y.getLsbD 27) then BitVec.intMax 32
  else y

/-- `capi_cmn_div_num`. -/
def capiCmnDivNum (linux : Bool) (num den : UInt32) : UInt32 :=
  if isPowOf2 den then ⟨s32ShrS32Sat linux num.toBitVec (s32GetLsbS32 den).toNat⟩ else num / den

/-- The quotient of `den * q` by `den` comes out as `q`: there is no shift, or its operand is not
negative, or nothing is shifted out of a negative one, and on linux bit 27 looks like the sign. -/
def DividesRight (linux : Bool) (den q : ℕ) : Prop :=
  ¬den.isPowerOfTwo ∨
    den * q < 2 ^ 31 ∧ (linux = true → q.testBit 27 = false ∨ q = 2 ^ 31 - 1) ∨
    den = 1 ∧ 2 ^ 31 ≤ q ∧ (linux = true → q.testBit 27 = true ∨ q = 2 ^ 31)

/-- The bit test recognizes the powers of two. -/
lemma isPowOf2_iff {den : UInt32} (h : 0 < den.toNat) :
    isPowOf2 den = true ↔ den.toNat.isPowerOfTwo := by
  have hone : (1 : UInt32) ≤ den := UInt32.le_iff_toNat_le.mpr h
  rw [isPowOf2, decide_eq_true_iff, ← UInt32.toNat_inj, UInt32.toNat_and,
    UInt32.toNat_sub_of_le _ _ hone]
  exact Nat.and_sub_one_eq_zero_iff_isPowerOfTwo h.ne'

/-- The shift of a power of two is its exponent. -/
lemma toNat_s32GetLsbS32 {den : UInt32} {k : ℕ} (h : den.toNat = 2 ^ k) :
    k < 32 ∧ (s32GetLsbS32 den).toNat = k := by
  have hall : ∀ k < 32, (s32GetLsbS32 (UInt32.ofNat (2 ^ k))).toNat = k := by decide
  have hk : k < 32 := (Nat.pow_lt_pow_iff_right (by decide)).mp (h ▸ den.toNat_lt)
  exact ⟨hk, by rw [← hall k hk, ← h, UInt32.ofNat_toNat]⟩

/-- A shift of a dividend below `2 ^ 31`. -/
lemma s32ShrS32Sat_of_nonneg (linux : Bool) {x : BitVec 32} {k q : ℕ} (h : x.toNat = 2 ^ k * q)
    (hx : x.toNat < 2 ^ 31) : (s32ShrS32Sat linux x k).toNat = q ↔
      (linux = true → q.testBit 27 = false ∨ q = 2 ^ 31 - 1) := by
  have hmsb : x.msb = false := by simpa [BitVec.msb_eq_decide] using hx
  have hy : (x.sshiftRight k).toNat = q := by
    rw [BitVec.toNat_sshiftRight_of_msb_false hmsb, h, Nat.shiftRight_eq_div_pow,
      Nat.mul_div_cancel_left _ (Nat.two_pow_pos k)]
  have hbit : (x.sshiftRight k).getLsbD 27 = q.testBit 27 := by rw [BitVec.getLsbD, hy]
  have hzero : q.testBit 27 = true → x ≠ 0 := by
    rintro hq rfl
    obtain rfl : q = 0 := (Nat.mul_eq_zero.mp h.symm).resolve_left (Nat.two_pow_pos k).ne'
    simp at hq
  unfold s32ShrS32Sat
  simp only [hmsb, hbit, Bool.false_and, Bool.and_false, Bool.not_false, Bool.true_and,
    Bool.false_eq_true, if_false, Bool.and_eq_true, bne_iff_ne, ne_eq]
  split
  next hsat =>
    obtain ⟨hlinux, -, hq⟩ := hsat
    simpa [hlinux, hq] using eq_comm
  next hsat =>
    refine iff_of_true hy fun hlinux => .inl ?_
    by_contra hq
    rw [Bool.not_eq_false] at hq
    exact hsat ⟨hlinux, hzero hq, hq⟩

/-- A shift of a dividend that is taken for a negative number. -/
lemma s32ShrS32Sat_of_neg (linux : Bool) {x : BitVec 32} {k q : ℕ} (h : x.toNat = 2 ^ k * q)
    (hx : 2 ^ 31 ≤ x.toNat) : (s32ShrS32Sat linux x k).toNat = q ↔
      2 ^ k = 1 ∧ (linux = true → q.testBit 27 = true ∨ q = 2 ^ 31) := by
  have hlt := x.isLt
  have hmsb : x.msb = true := by simpa [BitVec.msb_eq_decide] using hx
  have hy := BitVec.toNat_sshiftRight_of_msb_true (n := k) hmsb
  unfold s32ShrS32Sat
  simp only [hmsb, Bool.true_and, Bool.not_true, Bool.false_and, Bool.and_false,
    Bool.false_eq_true, if_false, Bool.and_eq_true, Bool.not_eq_true']
  cases k with
  | zero =>
    obtain rfl : x.toNat = q := by rw [h, Nat.pow_zero, Nat.one_mul]
    rw [BitVec.sshiftRight_zero, BitVec.getLsbD, Nat.pow_zero, and_iff_right rfl]
    split
    next hsat =>
      simpa [hsat.1, hsat.2] using eq_comm
    next hsat =>
      refine iff_of_true rfl fun hlinux => .inl ?_
      by_contra hbit
      exact hsat ⟨hlinux, by simpa using hbit⟩
  | succ k =>
    -- the result keeps the sign, and the quotient has none
    have hq : q < 2 ^ 31 := by
      have hpow := Nat.mul_le_mul_right q
        (Nat.pow_le_pow_right Nat.zero_lt_two (Nat.le_add_left 1 k))
      omega
    have hbig : 2 ^ 31 ≤ (x.sshiftRight (k + 1)).toNat := by
      have hdiv : (2 ^ 32 - 1 - x.toNat) >>> (k + 1) ≤ 2 ^ 32 - 1 - x.toNat := by
        rw [Nat.shiftRight_eq_div_pow]
        exact Nat.div_le_self _ _
      omega
    refine iff_of_false ?_ fun hone => ?_
    · split
      · exact fun heq => absurd (heq ▸ hq) (by decide)
      · omega
    · have := Nat.one_lt_two_pow (Nat.succ_ne_zero k)
      omega

/-- A shift by `k` of a multiple of `2 ^ k`. -/
lemma toNat_s32ShrS32Sat_iff (linux : Bool) {x : BitVec 32} {k q : ℕ} (h : x.toNat = 2 ^ k * q) :
    (s32ShrS32Sat linux x k).toNat = q ↔
      2 ^ k * q < 2 ^ 31 ∧ (linux = true → q.testBit 27 = false ∨ q = 2 ^ 31 - 1) ∨
      2 ^ k = 1 ∧ 2 ^ 31 ≤ q ∧ (linux = true → q.testBit 27 = true ∨ q = 2 ^ 31) := by
  rcases Nat.lt_or_ge x.toNat (2 ^ 31) with hx | hx
  · have hno : ¬(2 ^ k = 1 ∧ 2 ^ 31 ≤ q ∧ (linux = true → q.testBit 27 = true ∨ q = 2 ^ 31)) := by
      rintro ⟨hone, hq, -⟩
      rw [h, hone] at hx
      omega
    exact (s32ShrS32Sat_of_nonneg linux h hx).trans
      ((and_iff_right (h ▸ hx)).symm.trans (or_iff_left hno).symm)
  · refine (s32ShrS32Sat_of_neg linux h hx).trans
      (Iff.trans ?_ (or_iff_right fun hlt => absurd hlt.1 (h ▸ hx.not_gt)).symm)
    refine and_congr_right fun hone => (and_iff_right ?_).symm
    rw [h, hone] at hx
    omega

/-- **When the division is right**, for a dividend that is a multiple of the divisor. -/
lemma toNat_capiCmnDivNum_iff (linux : Bool) {num den : UInt32} {q : ℕ} (hden : 0 < den.toNat)
    (h : num.toNat = den.toNat * q) :
    (capiCmnDivNum linux num den).toNat = q ↔ DividesRight linux den.toNat q := by
  unfold capiCmnDivNum DividesRight
  split
  next hpow =>
    rw [isPowOf2_iff hden] at hpow
    rw [or_iff_right (not_not.mpr hpow)]
    obtain ⟨k, hk⟩ := hpow
    rw [hk] at h ⊢
    rw [(toNat_s32GetLsbS32 hk).2]
    exact toNat_s32ShrS32Sat_iff linux h
  next hpow =>
    rw [isPowOf2_iff hden] at hpow
    rw [UInt32.toNat_div, h, Nat.mul_div_cancel_left _ hden]
    exact iff_of_true rfl (.inl hpow)

end AudioReach
