import Mathlib.Data.List.Perm.Lattice
import Mathlib.Data.List.Flatten
import Mathlib.Data.List.Range

/-!
# Marks on a ring

A position moves round a ring and passes marks.  The marks that are passed in one step from `a` to
`b` are those in the half-open interval `(a, b]`, in the order in which they are listed.  If the
step is cut in two the same marks are passed; they are passed in the same order if they are listed
in ascending order.
-/

namespace AudioReach.Library

open List

variable {α : Type*}

/-! ## Splitting a list -/

lemma filter_append_filter_not {p : α → Bool} {l : List α}
    (h : l.Pairwise fun x y => p y → p x) : l.filter p ++ l.filter (fun x => !p x) = l := by
  induction h with
  | nil => rfl
  | @cons x l hx _ ih =>
    cases hp : p x with
    | true => simp [hp, ih]
    | false =>
      have hnone : ∀ y ∈ l, p y = false := by
        intro y hy
        by_contra hpy
        have := hx y hy (by simpa using hpy)
        simp [hp] at this
      have hleft : l.filter p = [] := filter_eq_nil_iff.mpr fun y hy => by simp [hnone y hy]
      have hright : l.filter (fun y => !p y) = l :=
        filter_eq_self.mpr fun y hy => by simp [hnone y hy]
      simp [hp, hleft, hright]

/-! ## Marks -/

section Marks

variable (pos : α → ℕ) (marks : List α)

/-- The marks that are passed from `a` to `b`. -/
def crossed (a b : ℕ) : List α := marks.filter fun x => a < pos x ∧ pos x ≤ b

/-- The marks that are passed from `start` on in `n` steps of one round a ring. -/
def crossedRound (size start n : ℕ) : List α :=
  (range n).flatMap fun i =>
    crossed pos marks ((start + i) % size) ((start + i) % size + 1)

/-- The same marks were passed, and in the same order if the marks are listed in ascending
order. -/
structure SamePassed (l l' : List α) : Prop where
  perm : l.Perm l'
  eq : marks.Pairwise (fun x y => pos x ≤ pos y) → l = l'

end Marks

namespace SamePassed

variable {pos : α → ℕ} {marks l l' l'' m m' : List α}

lemma of_eq (h : l = l') : SamePassed pos marks l l' := ⟨h ▸ List.Perm.refl l, fun _ => h⟩

section

variable (h : SamePassed pos marks l l')
include h

lemma symm : SamePassed pos marks l' l where
  perm := h.perm.symm
  eq hs := (h.eq hs).symm

lemma trans (h' : SamePassed pos marks l' l'') :
    SamePassed pos marks l l'' where
  perm := h.perm.trans h'.perm
  eq hs := (h.eq hs).trans (h'.eq hs)

lemma append (h' : SamePassed pos marks m m') :
    SamePassed pos marks (l ++ m) (l' ++ m') where
  perm := h.perm.append h'.perm
  eq hs := by rw [h.eq hs, h'.eq hs]

end

end SamePassed

section Cuts

variable {pos : α → ℕ} {marks : List α} {size : ℕ}

lemma crossed_self (a : ℕ) : crossed pos marks a a = [] :=
  filter_eq_nil_iff.mpr fun x _ => by simp

/-- **A step is cut in two.** -/
lemma crossed_trans {a b c : ℕ} (hab : a ≤ b) (hbc : b ≤ c) :
    SamePassed pos marks (crossed pos marks a b ++ crossed pos marks b c)
      (crossed pos marks a c) := by
  have hleft : (crossed pos marks a c).filter (fun x => pos x ≤ b) = crossed pos marks a b := by
    rw [crossed, filter_filter, crossed]
    refine filter_congr fun x _ => ?_
    rw [← Bool.decide_and]
    exact decide_eq_decide.mpr (by omega)
  have hright : (crossed pos marks a c).filter (fun x => !decide (pos x ≤ b)) =
      crossed pos marks b c := by
    rw [crossed, filter_filter, crossed]
    refine filter_congr fun x _ => ?_
    rw [← decide_not, ← Bool.decide_and]
    exact decide_eq_decide.mpr (by omega)
  constructor
  · rw [← hleft, ← hright]
    exact filter_append_perm _ _
  · intro hs
    rw [← hleft, ← hright]
    refine filter_append_filter_not ((hs.filter _).imp fun hxy => ?_)
    intro hy
    simp only [decide_eq_true_eq] at hy ⊢
    omega

lemma crossedRound_add (start k n : ℕ) : crossedRound pos marks size start (k + n) =
      crossedRound pos marks size start k ++ crossedRound pos marks size (start + k) n := by
  rw [crossedRound, range_add, flatMap_append, flatMap_map]
  simp only [crossedRound, Nat.add_assoc]

lemma crossedRound_mod (start n : ℕ) :
    crossedRound pos marks size (start % size) n = crossedRound pos marks size start n := by
  simp only [crossedRound, Nat.mod_add_mod]

/-- **No round.** A step that ends before or at the end of the ring passes what single steps
pass. -/
lemma crossed_round {r n : ℕ} (h : r + n ≤ size) :
    SamePassed pos marks (crossed pos marks r (r + n)) (crossedRound pos marks size r n) := by
  induction n with
  | zero => exact .of_eq (crossed_self r)
  | succ n ih =>
    have hlast : crossedRound pos marks size (r + n) 1 =
        crossed pos marks (r + n) (r + (n + 1)) := by
      simp [crossedRound, Nat.mod_eq_of_lt (show r + n < size by omega), Nat.add_assoc]
    rw [crossedRound_add, hlast]
    exact (crossed_trans (Nat.le_add_right r n) (by omega)).symm.trans
      ((ih (by omega)).append (.of_eq rfl))

end Cuts

end AudioReach.Library
