import Mathlib.Data.List.Count
import Mathlib.Data.List.Nodup
import Mathlib.Data.List.Perm.Basic

/-!
# Counting owners

A shared object is kept as long as somebody refers to it.  Each of finitely many holders
refers to at most one object; `owners` is the number of holders of an object, which is what a
reference count has to be.  One holder changes at a time: it starts to refer to an object, or
it lets go, and the number of owners of that object goes up or down by one while all other
numbers stay.
-/

namespace AudioReach.Library

open Function (update)
open List

variable {α β : Type*} [DecidableEq α] [DecidableEq β]

omit [DecidableEq α] in
/-- How many of the holders refer to `b`. -/
def owners (holders : List α) (refers : α → Option β) (b : β) : ℕ :=
  holders.countP fun x => refers x = some b

variable {holders : List α} {refers : α → Option β} {x : α} {b c : β}

omit [DecidableEq α] in
lemma owners_le_length (holders : List α) (refers : α → Option β) (b : β) :
    owners holders refers b ≤ holders.length :=
  countP_le_length

omit [DecidableEq α] in
lemma owners_eq_zero_iff : owners holders refers b = 0 ↔ ∀ x ∈ holders, refers x ≠ some b := by
  unfold owners
  rw [countP_eq_zero]
  refine forall₂_congr fun x _ => not_congr ?_
  exact decide_eq_true_iff

omit [DecidableEq α] in
lemma owners_pos_of_mem (hx : x ∈ holders) (href : refers x = some b) :
    owners holders refers b ≠ 0 :=
  fun hzero => owners_eq_zero_iff.mp hzero x hx href

omit [DecidableEq α] in
lemma owners_congr {refers' : α → Option β} (h : ∀ x ∈ holders, refers' x = refers x) (b : β) :
    owners holders refers' b = owners holders refers b := by
  refine countP_congr fun x hx => ?_
  rw [h x hx]

section

variable (hnodup : holders.Nodup) (hx : x ∈ holders)
include hnodup hx

/-- One holder changes what it refers to. -/
theorem owners_update (refers : α → Option β) (r : Option β) (b : β) :
    owners holders (update refers x r) b + (if refers x = some b then 1 else 0) =
      owners holders refers b + (if r = some b then 1 else 0) := by
  have hperm := perm_cons_erase hx
  have hrest : owners (holders.erase x) (update refers x r) b =
      owners (holders.erase x) refers b := by
    refine owners_congr (fun y hy => ?_) b
    have hne : y ≠ x := fun heq => hnodup.not_mem_erase (heq ▸ hy)
    rw [Function.update_of_ne hne]
  have hsplit : ∀ f : α → Option β, owners holders f b =
      owners (holders.erase x) f b + if f x = some b then 1 else 0 := by
    intro f
    unfold owners
    rw [hperm.countP_eq, countP_cons]
    simp
  rw [hsplit (update refers x r), hsplit refers, hrest, Function.update_self]
  omega

/-- A holder that referred to nothing refers to `b`. -/
lemma owners_gain (hnone : refers x = none) (b c : β) :
    owners holders (update refers x (some b)) c =
      owners holders refers c + if c = b then 1 else 0 := by
  have hcount := owners_update hnodup hx refers (some b) c
  rw [hnone, if_neg (by simp)] at hcount
  simp only [Option.some.injEq] at hcount
  rw [Nat.add_zero] at hcount
  rw [hcount]
  simp only [eq_comm]

lemma owners_gain_self (hnone : refers x = none) (b : β) :
    owners holders (update refers x (some b)) b = owners holders refers b + 1 := by
  rw [owners_gain hnodup hx hnone, if_pos rfl]

lemma owners_gain_of_ne (hnone : refers x = none) (hc : c ≠ b) :
    owners holders (update refers x (some b)) c = owners holders refers c := by
  rw [owners_gain hnodup hx hnone, if_neg hc, Nat.add_zero]

section

variable (hsome : refers x = some b)
include hsome

/-- A holder that referred to `b` lets it go. -/
lemma owners_drop (c : β) :
    owners holders (update refers x none) c + (if c = b then 1 else 0) =
      owners holders refers c := by
  have hcount := owners_update hnodup hx refers none c
  rw [hsome, if_neg (show ¬ none = some c by simp)] at hcount
  simp only [Option.some.injEq] at hcount
  rw [Nat.add_zero] at hcount
  rw [← hcount]
  simp only [eq_comm]

lemma owners_drop_self : owners holders (update refers x none) b + 1 = owners holders refers b := by
  rw [← owners_drop hnodup hx hsome, if_pos rfl]

/-- The only owner. -/
lemma eq_of_owners_eq_one (hone : owners holders refers b = 1) {y : α} (hy : y ∈ holders)
    (hyb : refers y = some b) : y = x := by
  by_contra hyx
  have hdrop := owners_drop_self hnodup hx hsome
  exact owners_pos_of_mem hy ((Function.update_of_ne hyx none refers).trans hyb) (by omega)

lemma owners_drop_of_ne (hc : c ≠ b) :
    owners holders (update refers x none) c = owners holders refers c := by
  rw [← owners_drop hnodup hx hsome, if_neg hc, Nat.add_zero]

end

end

/-! ## Things in several lists -/

omit [DecidableEq β] in
lemma flatMap_erase_perm {xs : List α} {a : α} (f : α → List β) (ha : a ∈ xs) :
    (xs.flatMap f).Perm (f a ++ (xs.erase a).flatMap f) := by
  have hperm := (perm_cons_erase ha).flatMap_right f
  rwa [flatMap_cons] at hperm

omit [DecidableEq β] in
lemma flatMap_update_perm {xs : List α} {a : α} (hnodup : xs.Nodup) (f : α → List β)
    (ha : a ∈ xs) (ys : List β) :
    (xs.flatMap (update f a ys)).Perm (ys ++ (xs.erase a).flatMap f) := by
  have hrest : (xs.erase a).flatMap (update f a ys) = (xs.erase a).flatMap f := by
    refine flatMap_congr fun b hb => ?_
    exact Function.update_of_ne (hnodup.mem_erase_iff.mp hb).1 ..
  have hperm := flatMap_erase_perm (update f a ys) ha
  rwa [hrest, Function.update_self] at hperm

lemma countP_flatMap_update {γ : Type*} {xs : List α} {a : α} (hnodup : xs.Nodup)
    (f : α → List γ) (ha : a ∈ xs) (ys : List γ) (p : γ → Bool) :
    (xs.flatMap (update f a ys)).countP p + (f a).countP p =
      (xs.flatMap f).countP p + ys.countP p := by
  rw [(flatMap_update_perm hnodup f ha ys).countP_eq, (flatMap_erase_perm f ha).countP_eq,
    countP_append, countP_append]
  omega

end AudioReach.Library
