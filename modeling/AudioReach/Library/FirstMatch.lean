import Mathlib.Data.List.Basic

/-!
# Changing the first match of a list

A linked list that is searched for the first node with some property, which is then
changed in place, is a list with one element replaced.  `updateFirst` is that change;
`find?` is the search and `List.eraseP` the removal of the same node.
-/

namespace AudioReach.Library

open List

variable {α : Type*}

/-- The list with its first element satisfying `p` changed by `f`. -/
def updateFirst (p : α → Bool) (f : α → α) : List α → List α
  | [] => []
  | x :: xs => if p x then f x :: xs else x :: updateFirst p f xs

/-- At most one element of the list satisfies `p`. -/
def AtMostOne (p : α → Bool) (l : List α) : Prop :=
  l.Pairwise fun a b => ¬ (p a ∧ p b)

variable {p : α → Bool} {f : α → α} {l : List α} {x : α}
variable {xs : List α} {q : α → Bool}

lemma updateFirst_cons_of_pos (hx : p x) : updateFirst p f (x :: xs) = f x :: xs := by
  rw [updateFirst, if_pos hx]

lemma updateFirst_cons_of_neg (hx : ¬ p x) :
    updateFirst p f (x :: xs) = x :: updateFirst p f xs := by
  rw [updateFirst, if_neg hx]

lemma updateFirst_of_find?_eq_none (h : l.find? p = none) : updateFirst p f l = l := by
  induction l with
  | nil => rfl
  | cons y ys ih =>
    rw [find?_cons] at h
    by_cases hy : p y
    · simp [hy] at h
    · simp only [hy] at h
      simp [updateFirst, hy, ih h]

lemma mem_updateFirst (h : x ∈ updateFirst p f l) : x ∈ l ∨ ∃ y, l.find? p = some y ∧ x = f y := by
  induction l with
  | nil => simp [updateFirst] at h
  | cons y ys ih =>
    by_cases hy : p y
    · rw [updateFirst_cons_of_pos hy, mem_cons] at h
      rcases h with rfl | h
      · exact .inr ⟨y, by simp [hy], rfl⟩
      · exact .inl (mem_cons_of_mem _ h)
    · rw [updateFirst_cons_of_neg hy, mem_cons] at h
      rcases h with rfl | h
      · exact .inl mem_cons_self
      · rcases ih h with h | ⟨z, hz, rfl⟩
        · exact .inl (mem_cons_of_mem _ h)
        · exact .inr ⟨z, by simp [hy, hz], rfl⟩

lemma AtMostOne.find?_tail (h : AtMostOne p (x :: xs)) (hx : p x) : xs.find? p = none := by
  rw [find?_eq_none]
  intro y hy hpy
  exact (pairwise_cons.mp h).1 y hy ⟨hx, hpy⟩

lemma AtMostOne.tail (h : AtMostOne p (x :: xs)) : AtMostOne p xs :=
  (pairwise_cons.mp h).2

lemma AtMostOne.mem_updateFirst (h : AtMostOne p l) (hx : x ∈ updateFirst p f l) :
    (x ∈ l ∧ ¬ p x) ∨ ∃ y, l.find? p = some y ∧ x = f y := by
  induction l with
  | nil => simp [updateFirst] at hx
  | cons y ys ih =>
    by_cases hy : p y
    · rw [updateFirst_cons_of_pos hy, mem_cons] at hx
      rcases hx with rfl | hx
      · exact .inr ⟨y, by simp [hy], rfl⟩
      · have hnone := find?_eq_none.mp (h.find?_tail hy)
        exact .inl ⟨mem_cons_of_mem _ hx, hnone x hx⟩
    · rw [updateFirst_cons_of_neg hy, mem_cons] at hx
      rcases hx with rfl | hx
      · exact .inl ⟨mem_cons_self, hy⟩
      · rcases ih h.tail hx with ⟨hx, hpx⟩ | ⟨z, hz, rfl⟩
        · exact .inl ⟨mem_cons_of_mem _ hx, hpx⟩
        · exact .inr ⟨z, by simp [hy, hz], rfl⟩

lemma mem_updateFirst_of_not (hx : x ∈ l) (hpx : ¬ p x) : x ∈ updateFirst p f l := by
  induction l with
  | nil => exact hx
  | cons y ys ih =>
    by_cases hy : p y
    · rcases mem_cons.mp hx with rfl | hx
      · exact absurd hy hpx
      · simp [updateFirst, hy, hx]
    · rcases mem_cons.mp hx with rfl | hx
      · simp [updateFirst, hy]
      · simp [updateFirst, hy, ih hx]

lemma mem_updateFirst_of_ne {y : α} (hy : l.find? p = some y) (hx : x ∈ l) (hne : x ≠ y) :
    x ∈ updateFirst p f l := by
  induction l with
  | nil => exact hx
  | cons z zs ih =>
    by_cases hz : p z
    · rw [find?_cons_of_pos hz] at hy
      obtain rfl := Option.some.inj hy
      rw [updateFirst_cons_of_pos hz]
      exact mem_cons_of_mem _ ((mem_cons.mp hx).resolve_left hne)
    · rw [find?_cons_of_neg hz] at hy
      rw [updateFirst_cons_of_neg hz]
      rcases mem_cons.mp hx with rfl | hx
      · exact mem_cons_self
      · exact mem_cons_of_mem _ (ih hy hx)

lemma find?_updateFirst (hp : ∀ x, p x → p (f x)) :
    (updateFirst p f l).find? p = (l.find? p).map f := by
  induction l with
  | nil => rfl
  | cons y ys ih =>
    by_cases hy : p y
    · rw [updateFirst_cons_of_pos hy, find?_cons_of_pos (hp y hy),
        find?_cons_of_pos hy, Option.map_some]
    · rw [updateFirst_cons_of_neg hy, find?_cons_of_neg hy, find?_cons_of_neg hy, ih]

lemma find?_updateFirst_of_not (hq : ∀ x, p x → ¬ q x ∧ ¬ q (f x)) :
    (updateFirst p f l).find? q = l.find? q := by
  induction l with
  | nil => rfl
  | cons y ys ih =>
    by_cases hy : p y
    · rw [updateFirst_cons_of_pos hy, find?_cons_of_neg (hq y hy).2, find?_cons_of_neg (hq y hy).1]
    · rw [updateFirst_cons_of_neg hy]
      by_cases hqy : q y
      · rw [find?_cons_of_pos hqy, find?_cons_of_pos hqy]
      · rw [find?_cons_of_neg hqy, find?_cons_of_neg hqy, ih]

lemma updateFirst_updateFirst {g : α → α} (hp : ∀ x, p (f x) = p x) :
    updateFirst p g (updateFirst p f l) = updateFirst p (g ∘ f) l := by
  induction l with
  | nil => rfl
  | cons y ys ih =>
    by_cases hy : p y
    · rw [updateFirst_cons_of_pos hy, updateFirst_cons_of_pos hy,
        updateFirst_cons_of_pos (by rw [hp, hy]), Function.comp_apply]
    · rw [updateFirst_cons_of_neg hy, updateFirst_cons_of_neg hy, updateFirst_cons_of_neg hy, ih]

lemma updateFirst_eq_self_iff {y : α} (hy : l.find? p = some y) :
    updateFirst p f l = l ↔ f y = y := by
  induction l with
  | nil => cases hy
  | cons z zs ih =>
    by_cases hz : p z
    · rw [find?_cons_of_pos hz] at hy
      obtain rfl := Option.some.inj hy
      rw [updateFirst_cons_of_pos hz, List.cons.injEq]
      exact and_iff_left rfl
    · rw [find?_cons_of_neg hz] at hy
      rw [updateFirst_cons_of_neg hz, List.cons.injEq, ih hy]
      exact and_iff_right rfl

lemma AtMostOne.find?_eraseP (h : AtMostOne p l) : (l.eraseP p).find? p = none := by
  induction l with
  | nil => rfl
  | cons y ys ih =>
    by_cases hy : p y
    · rw [eraseP_cons_of_pos hy]
      exact h.find?_tail hy
    · rw [eraseP_cons_of_neg hy, find?_cons_of_neg hy]
      exact ih h.tail

lemma find?_eraseP_of_not (hq : ∀ x, p x → ¬ q x) : (l.eraseP p).find? q = l.find? q := by
  induction l with
  | nil => rfl
  | cons y ys ih =>
    by_cases hy : p y
    · rw [eraseP_cons_of_pos hy, find?_cons_of_neg (hq y hy)]
    · rw [eraseP_cons_of_neg hy]
      by_cases hqy : q y
      · rw [find?_cons_of_pos hqy, find?_cons_of_pos hqy]
      · rw [find?_cons_of_neg hqy, find?_cons_of_neg hqy, ih]

/-- A change that does not touch `g` leaves the list of `g`-values. -/
lemma map_updateFirst {β : Type*} {g : α → β} (h : ∀ x, g (f x) = g x) :
    (updateFirst p f l).map g = l.map g := by
  induction l with
  | nil => rfl
  | cons y ys ih =>
    by_cases hy : p y
    · simp [updateFirst, hy, h]
    · simp [updateFirst, hy, ih]

lemma length_updateFirst : (updateFirst p f l).length = l.length := by
  have hmap := congrArg List.length (map_updateFirst (p := p) (f := f) (l := l)
    (g := fun _ => ()) fun _ => rfl)
  simpa using hmap

/-- A change that does not touch `q` leaves at most one match of `q`. -/
lemma AtMostOne.updateFirst (h : AtMostOne q l) (hq : ∀ x, q (f x) = q x) :
    AtMostOne q (updateFirst p f l) := by
  have hmap : (l.map q).Pairwise fun a b : Bool => ¬ (a = true ∧ b = true) := by
    rw [pairwise_map]
    exact h
  rw [← map_updateFirst hq, pairwise_map] at hmap
  exact hmap

lemma AtMostOne.updateFirst_eq_map (h : AtMostOne p l) :
    Library.updateFirst p f l = l.map fun x => if p x then f x else x := by
  induction l with
  | nil => rfl
  | cons y ys ih =>
    by_cases hy : p y
    · have hnone := find?_eq_none.mp (h.find?_tail hy)
      rw [updateFirst_cons_of_pos hy, map_cons, if_pos hy, List.cons.injEq]
      refine ⟨rfl, (map_id' ys).symm.trans (map_congr_left fun x hx => ?_)⟩
      rw [if_neg (hnone x hx)]
    · rw [updateFirst_cons_of_neg hy, map_cons, if_neg hy, ih h.tail]

lemma AtMostOne.eraseP (h : AtMostOne q l) : AtMostOne q (l.eraseP p) :=
  List.Pairwise.sublist eraseP_sublist h

lemma exists_first_or_forall {α : Type*} (p : α → Prop) (xs : List α) :
    (∀ x ∈ xs, p x) ∨ ∃ pre x post, xs = pre ++ x :: post ∧ (∀ y ∈ pre, p y) ∧ ¬ p x := by
  induction xs with
  | nil => exact Or.inl fun _ h => absurd h not_mem_nil
  | cons x xs ih =>
    by_cases hx : p x
    · rcases ih with hall | ⟨pre, y, post, rfl, hpre, hy⟩
      · exact Or.inl (forall_mem_cons.mpr ⟨hx, hall⟩)
      · exact Or.inr ⟨x :: pre, y, post, rfl, forall_mem_cons.mpr ⟨hx, hpre⟩, hy⟩
    · exact Or.inr ⟨[], x, xs, rfl, fun _ h => absurd h not_mem_nil, hx⟩

lemma perm_cons_eraseP (h : l.find? p = some x) : l.Perm (x :: l.eraseP p) := by
  induction l with
  | nil => cases h
  | cons y ys ih =>
    by_cases hy : p y
    · rw [find?_cons_of_pos hy, Option.some.injEq] at h
      rw [eraseP_cons_of_pos hy, h]
    · rw [find?_cons_of_neg hy] at h
      rw [eraseP_cons_of_neg hy]
      exact ((ih h).cons y).trans (List.Perm.swap x y _)

lemma updateFirst_perm (f : α → α) (h : l.find? p = some x) :
    (updateFirst p f l).Perm (f x :: l.eraseP p) := by
  induction l with
  | nil => cases h
  | cons y ys ih =>
    by_cases hy : p y
    · rw [find?_cons_of_pos hy, Option.some.injEq] at h
      rw [updateFirst_cons_of_pos hy, eraseP_cons_of_pos hy, h]
    · rw [find?_cons_of_neg hy] at h
      rw [updateFirst_cons_of_neg hy, eraseP_cons_of_neg hy]
      exact ((ih h).cons y).trans (List.Perm.swap (f x) y _)

end AudioReach.Library
