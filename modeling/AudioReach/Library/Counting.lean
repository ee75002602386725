import Mathlib.Algebra.BigOperators.Group.Finset.Basic

/-!
# Counting

Two facts about counting what is spread over many places: a sum over all places follows a change
of one of them, and what is counted once at most is the same wherever it is found.
-/

namespace AudioReach.Library

lemma sum_range_except {f g : ℕ → ℕ} {n t : ℕ} (ht : t < n) (h : ∀ u < n, u ≠ t → g u = f u) :
    ∑ u ∈ Finset.range n, g u + f t = ∑ u ∈ Finset.range n, f u + g t := by
  have hmem : t ∈ Finset.range n := Finset.mem_range.mpr ht
  rw [← Finset.add_sum_erase _ f hmem, ← Finset.add_sum_erase _ g hmem]
  have hrest : ∑ u ∈ (Finset.range n).erase t, g u = ∑ u ∈ (Finset.range n).erase t, f u := by
    apply Finset.sum_congr rfl
    intro u hu
    rw [Finset.mem_erase, Finset.mem_range] at hu
    exact h u hu.2 hu.1
  omega

lemma eq_of_countP_le_one {α : Type*} {q : α → Bool} {l : List α} (h : l.countP q ≤ 1) {a b : α}
    (ha : a ∈ l) (hb : b ∈ l) (hqa : q a = true) (hqb : q b = true) : a = b := by
  induction l with
  | nil => cases ha
  | cons x l ih =>
    have hpos : ∀ {c}, c ∈ l → q c = true → 0 < l.countP q := fun hc hqc =>
      List.countP_pos_iff.mpr ⟨_, hc, hqc⟩
    rw [List.countP_cons] at h
    rcases List.mem_cons.mp ha with rfl | ha'
    · rcases List.mem_cons.mp hb with rfl | hb'
      · rfl
      · have := hpos hb' hqb
        rw [if_pos hqa] at h
        omega
    · rcases List.mem_cons.mp hb with rfl | hb'
      · have := hpos ha' hqa
        rw [if_pos hqb] at h
        omega
      · exact ih (by omega) ha' hb'

end AudioReach.Library
