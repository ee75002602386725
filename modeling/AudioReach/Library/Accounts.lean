import Mathlib.Data.List.Count
import Mathlib.Data.List.Nodup

/-!
# Accounts

Things are named by the number of those there were before them, so that the first `n` of them are
`0, …, n - 1`.  An account lists things; it is complete when each of the first `n` things is listed
exactly once and no other thing is.  The lists of a component (what is waiting, what is done, what is
in hand) form a complete account together when nothing was lost and nothing was dealt with twice.
-/

namespace AudioReach.Library

/-- Each of the first `n` things is listed once, and nothing else is listed. -/
def Accounted (n : ℕ) (xs : List ℕ) : Prop :=
  ∀ x, xs.count x = if x < n then 1 else 0

variable {n : ℕ} {xs ys : List ℕ} {x : ℕ}

lemma accounted_nil : Accounted 0 [] :=
  fun _ => rfl

section

variable (h : Accounted n xs)
include h

lemma Accounted.perm (hperm : xs.Perm ys) : Accounted n ys :=
  fun y => (hperm.count_eq y).symm.trans (h y)

lemma Accounted.cons : Accounted (n + 1) (n :: xs) := by
  intro y
  rw [List.count_cons, h y]
  by_cases hy : y = n
  · subst hy
    simp
  · have hne : ¬ (n == y) = true := fun heq => hy (beq_iff_eq.mp heq).symm
    have hlt : y < n ↔ y < n + 1 := by omega
    rw [if_neg hne, Nat.add_zero, if_congr hlt rfl rfl]

lemma Accounted.nodup : xs.Nodup := by
  refine List.nodup_iff_count_le_one.mpr fun y => ?_
  rw [h y]
  split <;> omega

lemma Accounted.lt (hx : x ∈ xs) : x < n := by
  by_contra hlt
  have hcount := h x
  rw [if_neg hlt] at hcount
  exact absurd hcount (Nat.pos_iff_ne_zero.mp (List.count_pos_iff.mpr hx))

end

lemma Accounted.split (h : Accounted n (xs ++ ys)) (hx : x < n) : xs.count x + ys.count x = 1 := by
  rw [← List.count_append, h x, if_pos hx]

end AudioReach.Library
