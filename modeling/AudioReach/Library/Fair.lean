import Mathlib.Data.Nat.Basic

/-!
# Infinite runs and fairness

An infinite run of a step function is given by its calls `choice : ℕ → α`.  Some of the calls are
steps of a thread, and a thread can or cannot go on.  A run is *fair* when each thread that can go
on from some time on is run at some later time.

The rule at the end is the usual way to prove that something does not last for ever: while it
lasts, a measure does not grow, and there is always a thread that can go on and makes the measure
smaller when it does.
-/

namespace AudioReach.Library

variable {σ α θ : Type*} {step : σ → α → σ}

/-- The state after the first `i` calls of an infinite run. -/
def stateAt (step : σ → α → σ) (s : σ) (choice : ℕ → α) : ℕ → σ
  | 0 => s
  | i + 1 => step (stateAt step s choice i) (choice i)

/-- An invariant kept by the calls that meet `C` holds at all times of a run that meets it. -/
theorem stateAt_induction {I : σ → Prop} {C : σ → α → Prop} {s : σ} {choice : ℕ → α}
    (hstep : ∀ s a, I s → C s a → I (step s a)) (hs : I s)
    (hmeets : ∀ i, C (stateAt step s choice i) (choice i)) (i : ℕ) :
    I (stateAt step s choice i) := by
  induction i with
  | zero => exact hs
  | succ i ih => exact hstep _ _ ih (hmeets i)

/-- A thread that can go on from some time on is run at some later time. -/
def Fair (step : σ → α → σ) (can : σ → θ → Prop) (runs : α → θ → Prop) (s : σ) (choice : ℕ → α) :
    Prop :=
  ∀ t i, (∀ j, i ≤ j → can (stateAt step s choice j) t) → ∃ j, i ≤ j ∧ runs (choice j) t

/-- A number that never grows from some time on stays the same from some later time on. -/
lemma exists_stable {f : ℕ → ℕ} : ∀ {i : ℕ}, (∀ j, i ≤ j → f (j + 1) ≤ f j) →
    ∃ m, i ≤ m ∧ ∀ j, m ≤ j → f j = f m := by
  intro i
  induction hv : f i using Nat.strong_induction_on generalizing i with
  | _ v ih =>
    intro hle
    by_cases hdrop : ∃ j, i ≤ j ∧ f j < f i
    · obtain ⟨j, hij, hlt⟩ := hdrop
      obtain ⟨m, hjm, hstable⟩ :=
        ih (f j) (hv ▸ hlt) rfl fun k hk => hle k (le_trans hij hk)
      exact ⟨m, le_trans hij hjm, hstable⟩
    · refine ⟨i, le_refl _, ?_⟩
      have hanti : ∀ d, f (i + d) ≤ f i := by
        intro d
        induction d with
        | zero => exact le_refl _
        | succ d ihd => exact le_trans (hle (i + d) (Nat.le_add_right i d)) ihd
      intro j hij
      apply le_antisymm
      · have := hanti (j - i)
        rwa [Nat.add_sub_cancel' hij] at this
      · by_contra hlt
        exact hdrop ⟨j, hij, not_le.mp hlt⟩

/-- **Nothing lasts for ever** that a fair run works off: the measure does not grow, and the helper
can go on, stays the same as long as the measure does, and makes the measure smaller. -/
theorem Fair.not_forever {can : σ → θ → Prop} {runs : α → θ → Prop} {s : σ} {choice : ℕ → α}
    (hfair : Fair step can runs s choice) {I : σ → Prop} (measure : σ → ℕ) (helper : σ → θ)
    (hmono : ∀ s a, I s → I (step s a) → measure (step s a) ≤ measure s)
    (hkeep : ∀ s a, I s → I (step s a) → measure (step s a) = measure s →
      helper (step s a) = helper s)
    (hcan : ∀ s, I s → can s (helper s))
    (hless : ∀ s a, I s → I (step s a) → runs a (helper s) → measure (step s a) < measure s)
    (i : ℕ) : ¬ ∀ j, i ≤ j → I (stateAt step s choice j) := by
  intro hforever
  obtain ⟨m, him, hstable⟩ := exists_stable (f := fun j => measure (stateAt step s choice j))
    fun j hj => hmono _ _ (hforever j hj) (hforever (j + 1) (le_trans hj (Nat.le_succ j)))
  have hsame : ∀ d, helper (stateAt step s choice (m + d)) = helper (stateAt step s choice m) := by
    intro d
    induction d with
    | zero => rfl
    | succ d ih =>
      rw [← ih]
      have hfrom : i ≤ m + d := by omega
      have hnext := hstable (m + d + 1) (by omega)
      rw [← hstable (m + d) (by omega)] at hnext
      exact hkeep _ (choice (m + d)) (hforever _ hfrom)
        (hforever (m + d + 1) (le_trans hfrom (Nat.le_succ _))) hnext
  have hhelper : ∀ j, m ≤ j → helper (stateAt step s choice j) =
      helper (stateAt step s choice m) := by
    intro j hj
    rw [← Nat.add_sub_cancel' hj]
    exact hsame _
  obtain ⟨j, hmj, hruns⟩ := hfair (helper (stateAt step s choice m)) m fun j hj =>
    hhelper j hj ▸ hcan _ (hforever j (le_trans him hj))
  have hlt := hless _ (choice j) (hforever j (le_trans him hmj))
    (hforever (j + 1) (by omega)) (by rwa [hhelper j hmj])
  have hafter := hstable (j + 1) (by omega)
  have hbefore := hstable j hmj
  simp only [stateAt] at hafter hbefore
  omega

end AudioReach.Library
