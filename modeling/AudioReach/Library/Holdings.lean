import Mathlib.Algebra.BigOperators.Group.List.Basic
import Mathlib.Algebra.Order.Ring.Nat

/-!
# Holdings

A list of holders says who refers to an object and in which state; a state is worth a number of
references.  `held w xs a` is the number of references to `a` that the holders of `xs` have
together, which is what a reference count of `a` has to be.

A holder goes on when it is taken out of the list and its next states are put in: the count of its
own object changes by the difference of what the states are worth, all others stay.
-/

namespace AudioReach.Library

open List

variable {α β : Type*} [DecidableEq α]

/-- The references to `a` of the holders, where a state `h` is worth `w h`. -/
def held (w : β → ℕ) (xs : List (α × β)) (a : α) : ℕ :=
  (xs.map fun x => if x.1 = a then w x.2 else 0).sum

variable (w : β → ℕ) (xs ys : List (α × β)) (a b : α)

@[simp] lemma held_cons (x : α × β) :
    held w (x :: xs) a = (if x.1 = a then w x.2 else 0) + held w xs a := by
  simp [held]

lemma held_append : held w (xs ++ ys) a = held w xs a + held w ys a := by
  simp [held]

lemma held_map_of_ne (hs : List β) (hne : a ≠ b) : held w (hs.map (b, ·)) a = 0 := by
  induction hs with
  | nil => rfl
  | cons h hs ih =>
    rw [map_cons, held_cons, ih, if_neg (Ne.symm hne)]

lemma held_map_self (hs : List β) : held w (hs.map (a, ·)) a = (hs.map w).sum := by
  induction hs with
  | nil => rfl
  | cons h hs ih =>
    rw [map_cons, held_cons, ih, if_pos rfl, map_cons, sum_cons]

variable {w xs ys a b}

lemma le_held_of_mem {h : β} (hmem : (a, h) ∈ xs) : w h ≤ held w xs a := by
  induction xs with
  | nil => cases hmem
  | cons x xs ih =>
    rw [held_cons]
    rcases mem_cons.mp hmem with heq | hmem
    · rw [← heq, if_pos rfl]
      exact Nat.le_add_right _ _
    · exact Nat.le_trans (ih hmem) (Nat.le_add_left _ _)

lemma exists_of_held_pos (hpos : 0 < held w xs a) : ∃ h, (a, h) ∈ xs ∧ 0 < w h := by
  induction xs with
  | nil => exact absurd hpos (Nat.lt_irrefl 0)
  | cons x xs ih =>
    rw [held_cons] at hpos
    by_cases hx : x.1 = a ∧ 0 < w x.2
    · obtain ⟨rfl, hw⟩ := hx
      exact ⟨x.2, mem_cons_self .., hw⟩
    · have hzero : (if x.1 = a then w x.2 else 0) = 0 := by
        split
        · rename_i heq
          have : ¬ 0 < w x.2 := fun hw => hx ⟨heq, hw⟩
          omega
        · rfl
      rw [hzero, Nat.zero_add] at hpos
      obtain ⟨h, hmem, hw⟩ := ih hpos
      exact ⟨h, mem_cons_of_mem _ hmem, hw⟩

variable [DecidableEq β]

section

variable {h : β} (hmem : (a, h) ∈ xs)
include hmem

lemma held_erase (b : α) :
    (if a = b then w h else 0) + held w (xs.erase (a, h)) b = held w xs b := by
  have hperm := (perm_cons_erase hmem).map fun x => if x.1 = b then w x.2 else 0
  exact (held_cons w _ b (a, h)).symm.trans hperm.sum_eq.symm

/-- **A holder goes on**: the count of its object changes by what the states are worth. -/
theorem held_move_self (tos : List β) :
    held w (tos.map (a, ·) ++ xs.erase (a, h)) a + w h = held w xs a + (tos.map w).sum := by
  have herase := held_erase (w := w) hmem a
  rw [if_pos rfl] at herase
  rw [held_append, held_map_self, ← herase]
  omega

/-- The counts of the other objects stay. -/
theorem held_move_of_ne (tos : List β) (hne : b ≠ a) :
    held w (tos.map (a, ·) ++ xs.erase (a, h)) b = held w xs b := by
  have herase := held_erase (w := w) hmem b
  rw [if_neg (Ne.symm hne), Nat.zero_add] at herase
  rw [held_append, held_map_of_ne w b a tos hne, herase, Nat.zero_add]

end

end AudioReach.Library
