import Mathlib.Data.List.DropRight
import Mathlib.Data.List.Rotate

/-!
# A window on the end of a growing list

A ring buffer keeps the last elements of everything that was put into it.  Seen from the
place of the next write, its content is a list of fixed length, the *window*: writing drops
as many elements at the front as it adds at the end.  This file relates the window to the
list of all elements: they agree on as many last elements as were written and fit.

A reader that has `u` elements to read sees the window rotated, with these `u` first.
-/

namespace AudioReach.Library

open List

variable {α : Type*} {xs ys : List α} {m n u : ℕ}

lemma rtake_append_of_le (h : u ≤ ys.length) : (xs ++ ys).rtake u = ys.rtake u := by
  have hdrop : xs.length + ys.length - u = xs.length + (ys.length - u) := by omega
  simp [rtake, hdrop, drop_append]

lemma rtake_append_of_length_le (h : ys.length ≤ u) :
    (xs ++ ys).rtake u = xs.rtake (u - ys.length) ++ ys := by
  have hdrop : xs.length + ys.length - u = xs.length - (u - ys.length) := by omega
  rw [rtake, rtake, length_append, hdrop, drop_append_of_le_length (Nat.sub_le _ _)]

lemma rtake_drop (h : n + u ≤ xs.length) : (xs.drop n).rtake u = xs.rtake u := by
  rw [rtake, rtake, length_drop, drop_drop]
  congr 1
  omega

/-- A reader with `u` elements to read has them first. -/
lemma take_rotate_sub (h : u ≤ xs.length) : (xs.rotate (xs.length - u)).take u = xs.rtake u := by
  have hlen : (xs.drop (xs.length - u)).length = u := by
    rw [length_drop]
    omega
  rw [rotate_eq_drop_append_take (Nat.sub_le _ _), take_left' hlen, rtake]

/-- The two lists agree on their last `m` elements, and on fewer. -/
def SameEnd (m : ℕ) (xs ys : List α) : Prop :=
  ∀ u ≤ m, xs.rtake u = ys.rtake u

lemma sameEnd_zero (xs ys : List α) : SameEnd 0 xs ys := by
  intro u hu
  rw [Nat.le_zero.mp hu, rtake_zero, rtake_zero]

lemma SameEnd.push (h : SameEnd m xs ys) (zs : List α) :
    SameEnd (min (m + zs.length) xs.length) (xs.drop zs.length ++ zs) (ys ++ zs) := by
  intro u hu
  by_cases hle : u ≤ zs.length
  · rw [rtake_append_of_le hle, rtake_append_of_le hle]
  · have hge : zs.length ≤ u := Nat.le_of_not_le hle
    rw [rtake_append_of_length_le hge, rtake_append_of_length_le hge,
      rtake_drop (by omega), h _ (by omega)]

end AudioReach.Library
