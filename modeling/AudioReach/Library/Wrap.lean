import Mathlib.Data.UInt
import Mathlib.Tactic.Ring

/-!
# Steps and alignment in machine words

A loop that adds a step to a machine word and stops when the word is above a limit may never stop:
the word wraps around.  The words that it meets are the multiples of the greatest common divisor of
the step and of the modulus, so it stops exactly if the largest of them is above the limit.
-/

namespace AudioReach.Library

lemma step_mod_add_gcd_le (step : ℕ) {M : ℕ} (hM : 0 < M) (k : ℕ) :
    k * step % M + Nat.gcd step M ≤ M := by
  have hstep : Nat.gcd step M ∣ k * step := Dvd.dvd.mul_left (Nat.gcd_dvd_left step M) k
  have hmod : Nat.gcd step M ∣ k * step % M :=
    (Nat.dvd_mod_iff (Nat.gcd_dvd_right step M)).mpr hstep
  obtain ⟨a, ha⟩ := hmod
  obtain ⟨b, hb⟩ := Nat.gcd_dvd_right step M
  have hlt : Nat.gcd step M * a < Nat.gcd step M * b := by
    rw [← ha, ← hb]
    exact Nat.mod_lt _ hM
  have hab : a + 1 ≤ b := Nat.lt_of_mul_lt_mul_left hlt
  calc k * step % M + Nat.gcd step M = Nat.gcd step M * (a + 1) := by rw [ha]; ring
    _ ≤ Nat.gcd step M * b := Nat.mul_le_mul_left _ hab
    _ = M := hb.symm

/-- The largest multiple is met. -/
lemma exists_step_mod_add_gcd {step M : ℕ} (h : Nat.gcd step M < M) :
    ∃ k < M, (k + 1) * step % M + Nat.gcd step M = M := by
  have hpos : 0 < M := by omega
  obtain ⟨m, -, hm⟩ := Nat.exists_mul_mod_eq_gcd h
  have hgcd : 0 < Nat.gcd step M := Nat.gcd_pos_of_pos_right step hpos
  -- the multiple `- m` of the step gives the divisor below the modulus
  have hvalue : ((M - 1) * m) * step % M = M - Nat.gcd step M := by
    have hsum : (((M - 1) * m) * step + step * m) % M = 0 := by
      obtain ⟨n, rfl⟩ : ∃ n, M = n + 1 := ⟨M - 1, by omega⟩
      have : (n + 1 - 1) * m * step + step * m = (n + 1) * (m * step) := by
        rw [Nat.add_sub_cancel]
        ring
      rw [this, Nat.mul_mod_right]
    rw [Nat.add_mod, hm] at hsum
    have hlt := Nat.mod_lt ((M - 1) * m * step) hpos
    obtain ⟨c, hc⟩ := Nat.dvd_of_mod_eq_zero hsum
    have hone : c = 1 := by
      have hzero : c ≠ 0 := by
        rintro rfl
        omega
      by_contra hne
      have htwo : 2 ≤ c := by omega
      have hmul : M * 2 ≤ M * c := Nat.mul_le_mul_left M htwo
      omega
    rw [hone, Nat.mul_one] at hc
    omega
  refine ⟨((M - 1) * m + (M - 1)) % M, Nat.mod_lt _ hpos, ?_⟩
  have hshift : (((M - 1) * m + (M - 1)) % M + 1) * step % M = ((M - 1) * m) * step % M := by
    have hmod : (((M - 1) * m + (M - 1)) % M + 1) % M = ((M - 1) * m) % M := by
      rw [Nat.mod_add_mod, Nat.add_assoc, Nat.sub_add_cancel hpos, Nat.add_mod_right]
    rw [Nat.mul_mod, hmod, ← Nat.mul_mod]
  omega

/-- **When a scan stops.** -/
theorem exists_step_mod_gt_iff {step limit M : ℕ} (hM : 0 < M) :
    (∃ k < M, limit < (k + 1) * step % M) ↔ limit + Nat.gcd step M < M := by
  constructor
  · rintro ⟨k, -, hk⟩
    have := step_mod_add_gcd_le step hM (k + 1)
    omega
  · intro h
    obtain ⟨k, hk, hsum⟩ := exists_step_mod_add_gcd (show Nat.gcd step M < M by omega)
    exact ⟨k, hk, by omega⟩

/-- A scan that stops at all stops in the first round of words. -/
theorem exists_step_mod_gt_of_any {step limit M : ℕ} (hM : 0 < M)
    (h : ∃ k, limit < (k + 1) * step % M) : limit + Nat.gcd step M < M := by
  obtain ⟨k, hk⟩ := h
  have := step_mod_add_gcd_le step hM (k + 1)
  omega

/-- The low `k` bits cleared. -/
lemma toNat_and_highMask (x mask : UInt32) {k : ℕ} (hk : k ≤ 32)
    (hmask : mask.toNat = (2 ^ (32 - k) - 1) * 2 ^ k) :
    (x &&& mask).toNat = x.toNat / 2 ^ k * 2 ^ k := by
  rw [UInt32.toNat_and, hmask]
  apply Nat.eq_of_testBit_eq
  intro i
  rw [Nat.testBit_and, Nat.testBit_mul_two_pow, Nat.testBit_mul_two_pow, Nat.testBit_div_two_pow,
    Nat.testBit_two_pow_sub_one]
  by_cases hi : k ≤ i
  · rw [Nat.sub_add_cancel hi]
    by_cases hlt : i - k < 32 - k
    · simp [hi, hlt]
    · have hbit : x.toNat.testBit i = false := by
        apply Nat.testBit_lt_two_pow
        calc x.toNat < 2 ^ 32 := x.toNat_lt
          _ ≤ 2 ^ i := Nat.pow_le_pow_right (by omega) (by omega)
      simp [hbit]
  · simp [hi]

lemma toNat_and_mask8 (x : UInt32) : (x &&& 0xFFFFFFF8).toNat = x.toNat / 8 * 8 :=
  toNat_and_highMask x _ (k := 3) (by decide) rfl

end AudioReach.Library
