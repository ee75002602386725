import Mathlib.Data.List.Induction

/-!
# Loops that can fail

`(range n).foldlM f a` in `Option` is the loop that runs `f` for the indices `0, …, n - 1`
and stops with `none` at the first round that fails.  The two rules show that no round fails: in
the first the state after each round is given as a function of the index, in the second a
property of it is.  A loop over a list may gather its entries or remember a flag.

A loop over a list that ends at the first entry some test fails for, a test that may look at the
entries before, splits the list there.
-/

namespace AudioReach.Library

open List

variable {σ : Type*} {f : σ → ℕ → Option σ}

/-- A loop whose state after `i` rounds is `I i`. -/
lemma foldlM_range (I : ℕ → σ) {n : ℕ} (h : ∀ i < n, f (I i) i = some (I (i + 1))) :
    (range n).foldlM f (I 0) = some (I n) := by
  induction n with
  | zero => rfl
  | succ n ih =>
    rw [range_succ, foldlM_append, ih fun i hi => h i (Nat.lt_succ_of_lt hi)]
    simp [h n (Nat.lt_succ_self n)]

/-- **Loop rule.** A property `P i` of the state after `i` rounds, which no round fails. -/
theorem exists_foldlM_range (P : ℕ → σ → Prop) {n : ℕ} {a : σ} (hinit : P 0 a)
    (hstep : ∀ i a, i < n → P i a → ∃ b, f a i = some b ∧ P (i + 1) b) :
    ∃ b, (range n).foldlM f a = some b ∧ P n b := by
  induction n with
  | zero => exact ⟨a, rfl, hinit⟩
  | succ n ih =>
    obtain ⟨b, hloop, hb⟩ := ih fun i a hi => hstep i a (Nat.lt_succ_of_lt hi)
    obtain ⟨c, hlast, hc⟩ := hstep n b (Nat.lt_succ_self n) hb
    refine ⟨c, ?_, hc⟩
    rw [range_succ, foldlM_append, hloop]
    simp [hlast]

variable {α : Type*} {Q : List α → α → Prop}

/-- **The first failure.**  If not every entry passes the test after the ones before it, the list
splits at the first entry that does not. -/
theorem exists_first_split (l : List α)
    (h : ¬ ∀ passed x rest, l = passed ++ x :: rest → Q passed x) :
    ∃ passed x rest, l = passed ++ x :: rest ∧
      (∀ before y after, passed = before ++ y :: after → Q before y) ∧ ¬ Q passed x := by
  induction l using reverseRecOn with
  | nil => exact absurd (fun passed x rest hsplit => by simp at hsplit) h
  | append_singleton l last ih =>
    by_cases hall : ∀ passed x rest, l = passed ++ x :: rest → Q passed x
    · refine ⟨l, last, [], rfl, hall, fun hlast => h ?_⟩
      intro passed x rest hsplit
      rcases eq_nil_or_concat rest with rfl | ⟨rest', e, rfl⟩
      · obtain ⟨rfl, hx⟩ := append_inj' hsplit rfl
        obtain rfl := singleton_inj.mp hx
        exact hlast
      · rw [concat_eq_append, ← cons_append, ← append_assoc] at hsplit
        exact hall passed x rest' (append_inj' hsplit rfl).1
    · obtain ⟨passed, x, rest, rfl, hpassed, hnot⟩ := ih hall
      refine ⟨passed, x, rest ++ [last], ?_, hpassed, hnot⟩
      rw [append_assoc, cons_append]

/-- A loop that gathers an entry a round gathers them all. -/
lemma foldl_perm {κ : Type*} (step : σ → α → σ) (p : σ → List κ) (k : α → κ)
    (h : ∀ s a, (p (step s a)).Perm (k a :: p s)) (l : List α) (s : σ) :
    (p (l.foldl step s)).Perm (l.map k ++ p s) := by
  induction l generalizing s with
  | nil => simp
  | cons a l ih => exact (ih _).trans (((h s a).append_left _).trans perm_middle)

/-- A flag that is set along a list. -/
lemma foldl_or (step : σ → α → σ) (p : σ → Bool) (f : α → Bool)
    (h : ∀ s a, p (step s a) = (p s || f a)) (l : List α) (s : σ) :
    p (l.foldl step s) = (p s || l.any f) := by
  induction l generalizing s with
  | nil => simp
  | cons a l ih => rw [foldl_cons, ih, h, any_cons, Bool.or_assoc]

end AudioReach.Library
