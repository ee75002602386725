import Mathlib.Data.Nat.Bitwise
import Mathlib.Data.List.Basic

/-!
# Masks as sets of small numbers

A word used as a mask stands for the set of the positions of its ones.  This file has what
the usual idioms mean for that set: setting and clearing a bit, comparing with the mask of
the first `n` positions, taking the first position that is not set, and the test
`x & (x - 1)` for a second element.
-/

namespace AudioReach.Library

/-- The mask of the positions below `n`. -/
def lowMask (n : ℕ) : ℕ := 2 ^ n - 1

@[simp] lemma testBit_lowMask (n i : ℕ) : (lowMask n).testBit i = decide (i < n) :=
  Nat.testBit_two_pow_sub_one n i

lemma testBit_setBit (x i j : ℕ) : (x ||| 2 ^ i).testBit j = true ↔ x.testBit j = true ∨ j = i := by
  rw [Nat.testBit_or, Nat.testBit_two_pow, Bool.or_eq_true, decide_eq_true_eq, @eq_comm _ i]

lemma testBit_clrBit (x i j : ℕ) :
    (Nat.ldiff x (2 ^ i)).testBit j = true ↔ x.testBit j = true ∧ j ≠ i := by
  rw [Nat.testBit_ldiff, Nat.testBit_two_pow, Bool.and_eq_true, Bool.not_eq_true',
    decide_eq_false_iff_not, @eq_comm _ i]

lemma testBit_toggle (x i j : ℕ) : (x ^^^ 2 ^ i).testBit j = (x.testBit j ^^ decide (i = j)) := by
  rw [Nat.testBit_xor, Nat.testBit_two_pow]

variable {x rounds i : ℕ}

/-- A mask whose ones are all below `n` is full exactly when each of them is there. -/
lemma eq_lowMask_iff {n : ℕ} (hx : ∀ i, x.testBit i = true → i < n) :
    x = lowMask n ↔ ∀ i < n, x.testBit i = true := by
  constructor
  · rintro rfl i hi
    simpa using hi
  · intro h
    apply Nat.eq_of_testBit_eq
    intro i
    by_cases hi : i < n
    · simp [h i hi, hi]
    · cases hbit : x.testBit i with
      | false => simp [hi]
      | true => exact absurd (hx i hbit) hi

/-! ## The first position that is free -/

/-- The number of trailing ones of a word, counted in at most `rounds` rounds. -/
def trailingOnes : ℕ → ℕ → ℕ
  | 0, _ => 0
  | rounds + 1, x => if x % 2 = 0 then 0 else 1 + trailingOnes rounds (x / 2)

lemma testBit_of_lt_trailingOnes (h : i < trailingOnes rounds x) : x.testBit i = true := by
  induction rounds generalizing x i with
  | zero => exact absurd h (Nat.not_lt_zero i)
  | succ rounds ih =>
    unfold trailingOnes at h
    split at h
    · exact absurd h (Nat.not_lt_zero i)
    · rename_i hodd
      cases i with
      | zero =>
        rw [Nat.testBit_zero, decide_eq_true_eq]
        omega
      | succ i =>
        rw [Nat.testBit_succ]
        exact ih (by omega)

lemma testBit_trailingOnes (h : trailingOnes rounds x < rounds) :
    x.testBit (trailingOnes rounds x) = false := by
  induction rounds generalizing x with
  | zero => exact absurd h (Nat.not_lt_zero _)
  | succ rounds ih =>
    unfold trailingOnes at h ⊢
    split at h
    · rename_i heven
      rw [if_pos heven, Nat.testBit_zero, decide_eq_false_iff_not]
      omega
    · rename_i hodd
      rw [if_neg hodd, Nat.add_comm, Nat.testBit_succ]
      exact ih (by omega)

lemma trailingOnes_le_of_testBit (h : x.testBit i = false) : trailingOnes rounds x ≤ i := by
  by_contra hlt
  rw [testBit_of_lt_trailingOnes (Nat.lt_of_not_le hlt)] at h
  cases h

/-- A mask of `rounds` positions that is not full has its first free position among them. -/
lemma trailingOnes_lt (hlt : x < 2 ^ rounds) (hne : x ≠ lowMask rounds) :
    trailingOnes rounds x < rounds := by
  have hrange : ∀ i, x.testBit i = true → i < rounds := by
    intro i hi
    by_contra hge
    rw [Nat.testBit_lt_two_pow (lt_of_lt_of_le hlt (Nat.pow_le_pow_right (by omega)
      (Nat.le_of_not_lt hge)))] at hi
    cases hi
  by_contra hge
  refine hne ((eq_lowMask_iff hrange).mpr fun i hi => ?_)
  exact testBit_of_lt_trailingOnes (lt_of_lt_of_le hi (Nat.le_of_not_lt hge))

lemma compl_and_self (hlt : x < 2 ^ rounds) : (lowMask rounds - x) &&& x = 0 := by
  apply Nat.eq_of_testBit_eq
  intro i
  have hcompl : lowMask rounds - x = 2 ^ rounds - (x + 1) := by
    unfold lowMask
    omega
  rw [Nat.testBit_and, hcompl, Nat.testBit_two_pow_sub_succ hlt]
  cases x.testBit i <;> simp

/-- `~x & (x + 1)` in `rounds` bits is the mask of the first free position. -/
lemma compl_and_succ (hlt : x < 2 ^ rounds) (hne : x ≠ lowMask rounds) :
    (lowMask rounds - x) &&& (x + 1) = 2 ^ trailingOnes rounds x := by
  induction rounds generalizing x with
  | zero =>
    have hx : x = 0 := by simpa using hlt
    exact absurd hx hne
  | succ rounds ih =>
    have hfull : lowMask (rounds + 1) = 2 * lowMask rounds + 1 := by
      unfold lowMask
      omega
    rw [Nat.pow_succ] at hlt
    have hcompl : (lowMask (rounds + 1) - x) / 2 = lowMask rounds - x / 2 := by
      omega
    have hhalf := Nat.and_div_two (a := lowMask (rounds + 1) - x) (b := x + 1)
    have hlow := Nat.and_mod_two_eq_one (a := lowMask (rounds + 1) - x) (b := x + 1)
    have hle : x ≤ 2 * lowMask rounds + 1 := by
      unfold lowMask
      omega
    rw [hcompl] at hhalf
    unfold trailingOnes
    split
    · rename_i heven
      rw [show (x + 1) / 2 = x / 2 by omega, compl_and_self (by omega)] at hhalf
      omega
    · rename_i hodd
      rw [show (x + 1) / 2 = x / 2 + 1 by omega, ih (by omega) (by omega)] at hhalf
      rw [Nat.add_comm 1, Nat.pow_succ, ← hhalf]
      omega

/-! ## More than one element -/

/-- `x & (x - 1)` is zero only for a mask with at most one element. -/
lemma eq_of_testBit_of_and_sub_one {j : ℕ} (h : x &&& (x - 1) = 0)
    (hi : x.testBit i = true) (hj : x.testBit j = true) : i = j := by
  have hx : x ≠ 0 := by
    rintro rfl
    simp at hi
  obtain ⟨k, rfl⟩ := (Nat.and_sub_one_eq_zero_iff_isPowerOfTwo hx).mp h
  rw [Nat.testBit_two_pow, decide_eq_true_eq] at hi hj
  exact hi.symm.trans hj

lemma eq_of_testBit_of_le_one {j : ℕ} (h : x ≤ 1) (hi : x.testBit i = true)
    (hj : x.testBit j = true) : i = j := by
  have hx : x = 0 ∨ x = 1 := by omega
  rcases hx with rfl | rfl
  · exact eq_of_testBit_of_and_sub_one rfl hi hj
  · exact eq_of_testBit_of_and_sub_one rfl hi hj

end AudioReach.Library
