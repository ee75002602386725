import Mathlib.Algebra.Order.Field.Basic
import Mathlib.Tactic.FieldSimp
import Mathlib.Tactic.Linarith
import Mathlib.Tactic.Ring

/-!
# Rounded quotients and what is carried over

A quotient that is computed with a rounded factor is the quotient rounded down, or the number
after it, as long as the factor is not too small (`Near`).  Values are given out in units of `m`,
and what is left of each is carried over to the next (`carry`): nothing is lost, so the error of a
run is at most the sum of the errors of its values.
-/

namespace AudioReach.Library

open List

/-! ## One quotient -/

/-- `v` is `x / d` rounded down, or the number after it. -/
def Near (x d v : ℕ) : Prop := v = x / d ∨ v = x / d + 1

lemma near_mul_right {x d v m : ℕ} (hm : 0 < m) : Near (x * m) (d * m) v ↔ Near x d v := by
  rw [Near, Near, Nat.mul_div_mul_right x d hm]

lemma near_add {x y d : ℕ} (hy : y < d) : Near x d ((x + y) / d) := by
  have hlow : x / d ≤ (x + y) / d := Nat.div_le_div_right (Nat.le_add_right x y)
  have hhigh : (x + y) / d < x / d + 2 := by
    rw [Nat.div_lt_iff_lt_mul (by omega)]
    have := Nat.div_add_mod x d
    have := Nat.mod_lt x (show 0 < d by omega)
    rw [Nat.add_mul, Nat.mul_comm (x / d)]
    omega
  rw [Near]
  omega

lemma near_sub_iff {x y d : ℕ} (hd : 0 < d) (hy : y ≤ x) : Near x d ((x - y) / d) ↔ y ≤ x % d := by
  have hdiv := Nat.div_add_mod x d
  have hle : (x - y) / d ≤ x / d := Nat.div_le_div_right (Nat.sub_le x y)
  have hiff : x / d ≤ (x - y) / d ↔ x / d * d ≤ x - y := Nat.le_div_iff_mul_le hd
  rw [Nat.mul_comm] at hiff
  rw [Near]
  omega

lemma Near.abs_sub_le {x d v : ℕ} (hd : 0 < d) (h : Near x d v) :
    |(v : ℚ) - (x : ℚ) / d| ≤ 1 := by
  have hpos : (0 : ℚ) < d := Nat.cast_pos.mpr hd
  have hdiv : (d : ℚ) * (x / d : ℕ) + (x % d : ℕ) = x := by
    rw [← Nat.cast_mul, ← Nat.cast_add, Nat.div_add_mod]
  have hmod : ((x % d : ℕ) : ℚ) < d := Nat.cast_lt.mpr (Nat.mod_lt x hd)
  have hmod' : (0 : ℚ) ≤ (x % d : ℕ) := Nat.cast_nonneg _
  have hx : (x : ℚ) / d = (x / d : ℕ) + (x % d : ℕ) / d := by
    field_simp
    linarith
  have hfrac : ((x % d : ℕ) : ℚ) / d < 1 := (div_lt_one hpos).mpr hmod
  have hfrac' : (0 : ℚ) ≤ (x % d : ℕ) / d := div_nonneg hmod' hpos.le
  rw [hx, abs_le]
  rcases h with rfl | rfl
  · constructor <;> linarith
  · push_cast
    constructor <;> linarith

/-! ## A run with a carry -/

/-- The values are given out in units of `m`, and what is left is carried over: what is given out
for each value, and what is carried over then. -/
def carry (m : ℕ) : List ℕ → ℕ → List (ℕ × ℕ)
  | [], _ => []
  | v :: vs, c => ((v + c) / m, (v + c) % m) :: carry m vs ((v + c) % m)

/-- What is carried over in the end. -/
def lastCarry (c : ℕ) (l : List (ℕ × ℕ)) : ℕ := (l.getLast?.map Prod.snd).getD c

@[simp] lemma lastCarry_nil (c : ℕ) : lastCarry c [] = c := rfl

@[simp] lemma lastCarry_cons (c : ℕ) (p : ℕ × ℕ) (l : List (ℕ × ℕ)) :
    lastCarry c (p :: l) = lastCarry p.2 l := by
  cases h : l.getLast? with
  | none => simp [lastCarry, getLast?_cons, h]
  | some q => simp [lastCarry, getLast?_cons, h]

/-- **Nothing is lost.** What was given out and what is carried over add up to the values. -/
theorem carry_sum (m : ℕ) (vs : List ℕ) (c : ℕ) :
    m * ((carry m vs c).map Prod.fst).sum + lastCarry c (carry m vs c) = vs.sum + c := by
  induction vs generalizing c with
  | nil => simp [carry]
  | cons v vs ih =>
    have hrest := ih ((v + c) % m)
    have hdiv := Nat.div_add_mod (v + c) m
    rw [carry, map_cons, sum_cons, lastCarry_cons, sum_cons, Nat.mul_add]
    dsimp only
    omega

lemma carry_lt {m : ℕ} (hm : 0 < m) (vs : List ℕ) (c : ℕ) : ∀ p ∈ carry m vs c, p.2 < m := by
  induction vs generalizing c with
  | nil => simp [carry]
  | cons v vs ih =>
    intro p hp
    rcases mem_cons.mp hp with rfl | hp
    · exact Nat.mod_lt _ hm
    · exact ih _ p hp

lemma abs_sum_sub_le {α : Type*} (l : List α) (v : α → ℕ) (e : α → ℚ)
    (h : ∀ a ∈ l, |(v a : ℚ) - e a| ≤ 1) :
    |(((l.map v).sum : ℕ) : ℚ) - (l.map e).sum| ≤ l.length := by
  induction l with
  | nil => simp
  | cons a l ih =>
    rw [forall_mem_cons] at h
    have hrest := ih h.2
    rw [map_cons, sum_cons, map_cons, sum_cons, length_cons]
    have hsplit : ((v a + (l.map v).sum : ℕ) : ℚ) - (e a + (l.map e).sum)
        = ((v a : ℚ) - e a) + (((l.map v).sum : ℕ) - (l.map e).sum) := by
      rw [Nat.cast_add]
      ring
    rw [hsplit, Nat.cast_add, Nat.cast_one, add_comm (l.length : ℚ)]
    exact (abs_add_le _ _).trans (add_le_add h.1 hrest)

end AudioReach.Library
