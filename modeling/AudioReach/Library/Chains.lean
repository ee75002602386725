import Mathlib.Data.Finset.Card

/-!
# Tables of chains

A chained hash table is an array of lists.  Here the array is a function
`b : ℕ → List α` read below a size `n`, and `chains b n` is the list of
everything linked in it, bucket after bucket.

Operations on such a table change one chain at a time, so all that is needed
about `chains` is how it splits at one bucket: up to the order of the entries it
is that bucket's chain followed by the table without it (`chains_perm`).
-/

namespace AudioReach.Library

open Function (update update_idem update_of_ne update_self)
open List

variable {α : Type*}

/-- Everything linked in the buckets below `n`, bucket after bucket. -/
def chains (b : ℕ → List α) (n : ℕ) : List α :=
  (range n).flatMap b

lemma chains_succ (b : ℕ → List α) (n : ℕ) : chains b (n + 1) = chains b n ++ b n := by
  simp [chains, range_succ]

variable {n i : ℕ} {b : ℕ → List α}

@[simp] lemma mem_chains {x : α} : x ∈ chains b n ↔ ∃ i < n, x ∈ b i := by
  simp [chains]

lemma chains_congr {c : ℕ → List α} (h : ∀ i < n, b i = c i) : chains b n = chains c n := by
  induction n with
  | zero => rfl
  | succ n ih =>
    rw [chains_succ, chains_succ, h n (Nat.lt_succ_self n),
      ih fun i hi => h i (Nat.lt_succ_of_lt hi)]

/-- The entries of a table are those of one bucket and those of the table
without that bucket. -/
theorem chains_perm (b : ℕ → List α) (hi : i < n) :
    (chains b n).Perm (b i ++ chains (update b i []) n) := by
  induction n with
  | zero => omega
  | succ n ih =>
    rw [chains_succ, chains_succ]
    rcases Nat.lt_succ_iff_lt_or_eq.mp hi with hlt | rfl
    · rw [update_of_ne (Nat.ne_of_gt hlt), ← append_assoc]
      exact (ih hlt).append_right _
    · have hbelow : chains (update b i []) i = chains b i :=
        chains_congr fun j hj => update_of_ne (Nat.ne_of_lt hj) _ _
      rw [update_self, append_nil, hbelow]
      exact perm_append_comm

/-- Replacing one chain replaces exactly its entries. -/
theorem chains_update_perm (b : ℕ → List α) (hi : i < n) (c : List α) :
    (chains (update b i c) n).Perm (c ++ chains (update b i []) n) := by
  have h := chains_perm (update b i c) hi
  rwa [update_self, update_idem] at h

/-- If a chain gains the entry `x`, so does the table. -/
theorem chains_update_perm_cons (hi : i < n) {c : List α} {x : α}
    (hc : c.Perm (x :: b i)) : (chains (update b i c) n).Perm (x :: chains b n) :=
  calc (chains (update b i c) n).Perm (c ++ chains (update b i []) n) :=
        chains_update_perm b hi c
    List.Perm _ ((x :: b i) ++ chains (update b i []) n) := hc.append_right _
    List.Perm _ (x :: chains b n) := ((chains_perm b hi).symm.cons x)

/-- If a chain loses the entry `x`, so does the table. -/
theorem chains_perm_cons_update (hi : i < n) {c : List α} {x : α}
    (hc : (b i).Perm (x :: c)) : (chains b n).Perm (x :: chains (update b i c) n) :=
  calc (chains b n).Perm (b i ++ chains (update b i []) n) := chains_perm b hi
    List.Perm _ ((x :: c) ++ chains (update b i []) n) := hc.append_right _
    List.Perm _ (x :: chains (update b i c) n) :=
        (chains_update_perm b hi c).symm.cons x

/-- A filter that only entries of bucket `i` pass is that filter of the bucket. -/
theorem filter_chains (hi : i < n) {p : α → Bool} (h : ∀ j < n, ∀ x ∈ b j, p x = true → j = i) :
    (chains b n).filter p = (b i).filter p := by
  induction n with
  | zero => omega
  | succ n ih =>
    rw [chains_succ, filter_append]
    rcases Nat.lt_succ_iff_lt_or_eq.mp hi with hlt | rfl
    · have hlast : (b n).filter p = [] := by
        rw [filter_eq_nil_iff]
        intro x hx hp
        have := h n (Nat.lt_succ_self n) x hx hp
        omega
      rw [hlast, append_nil]
      exact ih hlt fun j hj => h j (Nat.lt_succ_of_lt hj)
    · have hbelow : (chains b i).filter p = [] := by
        rw [filter_eq_nil_iff]
        intro x hx hp
        obtain ⟨j, hj, hxj⟩ := mem_chains.mp hx
        have := h j (Nat.lt_succ_of_lt hj) x hxj hp
        omega
      rw [hbelow, nil_append]

/-! ## Where a scan stops -/

/-- `span` either runs through the whole list or stops at its first element that
fails the test. -/
theorem span_cases (p : α → Bool) (xs : List α) : (xs.span p = (xs, []) ∧ ∀ x ∈ xs, p x = true) ∨
    (∃ before x after, xs.span p = (before, x :: after) ∧ xs = before ++ x :: after ∧
      (∀ y ∈ before, p y = true) ∧ p x = false) := by
  rw [span_eq_takeWhile_dropWhile]
  induction xs with
  | nil => left; simp
  | cons x xs ih =>
    cases hx : p x with
    | false =>
      right
      exact ⟨[], x, xs, by simp [hx], rfl, by simp, hx⟩
    | true =>
      rcases ih with ⟨hsplit, hall⟩ | ⟨before, y, after, hsplit, hxs, hbefore, hy⟩
      · left
        simp only [Prod.mk.injEq] at hsplit
        refine ⟨by simp [hx, hsplit.1, hsplit.2], ?_⟩
        simpa [hx] using hall
      · right
        simp only [Prod.mk.injEq] at hsplit
        refine ⟨x :: before, y, after, by simp [hx, hsplit.1, hsplit.2], by simp [hxs], ?_, hy⟩
        simpa [hx] using hbefore

lemma span_of_forall {p : α → Bool} {xs : List α} (h : ∀ x ∈ xs, p x = true) :
    xs.span p = (xs, []) := by
  rcases span_cases p xs with ⟨hsplit, -⟩ | ⟨before, x, after, -, hxs, -, hx⟩
  · exact hsplit
  · have := h x (by simp [hxs])
    simp [hx] at this

lemma span_concat {p : α → Bool} {xs : List α} {x : α} (h : ∀ y ∈ xs, p y = true)
    (hx : p x = false) : (xs ++ [x]).span p = (xs, [x]) := by
  rw [span_eq_takeWhile_dropWhile, takeWhile_append_of_pos h, dropWhile_append_of_pos h]
  simp [hx]

/-! ## Taking one entry out -/

section Erase

variable {β : Type*} [DecidableEq β] {f : α → β}

/-- Where `f` takes no value twice, dropping the entries with the value of `x` takes out
`x` alone. -/
lemma filter_ne_append_cons {before after : List α} {x : α}
    (h : ((before ++ x :: after).map f).Nodup) :
    (before ++ x :: after).filter (fun y => f y ≠ f x) = before ++ after := by
  have hperm : ((before ++ x :: after).map f).Perm (f x :: (before ++ after).map f) := by
    have hmiddle : (before ++ x :: after).Perm (x :: (before ++ after)) := perm_middle
    have hmap := hmiddle.map f
    rwa [map_cons] at hmap
  have hfresh := (nodup_cons.mp (hperm.nodup_iff.mp h)).1
  have hne : ∀ y ∈ before ++ after, f y ≠ f x := by
    intro y hy heq
    exact hfresh (mem_map.mpr ⟨y, hy, heq⟩)
  rw [filter_append, filter_cons]
  have hbefore : before.filter (fun y => f y ≠ f x) = before :=
    filter_eq_self.mpr fun y hy => decide_eq_true (hne y (mem_append_left _ hy))
  have hafter : after.filter (fun y => f y ≠ f x) = after :=
    filter_eq_self.mpr fun y hy => decide_eq_true (hne y (mem_append_right _ hy))
  rw [hbefore, hafter]
  simp

/-- The same for any order: if `xs` is `x` and `xs'`, dropping the value of `x` from a
rearrangement of `xs` leaves `xs'`. -/
lemma perm_filter_ne {xs xs' ys : List α} {x : α} (hx : xs.Perm (x :: xs')) (hys : xs.Perm ys)
    (h : (xs.map f).Nodup) : xs'.Perm (ys.filter (fun y => f y ≠ f x)) := by
  have hcons : ((x :: xs').filter fun y => f y ≠ f x) = xs' :=
    @filter_ne_append_cons _ _ _ f [] xs' x ((hx.map f).nodup_iff.mp h)
  have hperm := (hx.symm.trans hys).filter (fun y => decide (f y ≠ f x))
  rwa [hcons] at hperm

/-- Where `f` takes no value twice, a list is any of its entries and the entries with
other values. -/
lemma perm_cons_filter_ne {xs : List α} {x : α} (hx : x ∈ xs) (h : (xs.map f).Nodup) :
    xs.Perm (x :: xs.filter (fun y => f y ≠ f x)) := by
  obtain ⟨before, after, rfl⟩ := append_of_mem hx
  rw [filter_ne_append_cons h]
  exact perm_middle

/-- Where `f` takes no value twice, the entry with a given value does not depend on the
order of the list. -/
theorem find?_perm {xs ys : List α} (h : xs.Perm ys) (hnodup : (xs.map f).Nodup) (b : β) :
    xs.find? (fun x => f x = b) = ys.find? (fun x => f x = b) := by
  induction h with
  | nil => rfl
  | cons x _ ih =>
    rw [map_cons, nodup_cons] at hnodup
    rw [find?_cons, find?_cons, ih hnodup.2]
  | swap x y zs =>
    rw [map_cons, map_cons, nodup_cons] at hnodup
    simp only [find?_cons]
    by_cases hx : f x = b
    · -- only one of the two can have the value
      have hy : f y ≠ b := by
        intro hy
        exact hnodup.1 (by rw [hy, ← hx]; exact mem_cons_self)
      simp [hx, hy]
    · simp [hx]
  | trans hxy _ ih₁ ih₂ =>
    rw [ih₁ hnodup, ih₂ ((hxy.map f).nodup_iff.mp hnodup)]

end Erase

/-! ## Number of distinct images -/

section Distinct

variable {β : Type*} [DecidableEq β] (f : α → β)

/-- How many different values `f` takes on a list. -/
def distinct (xs : List α) : ℕ :=
  (xs.map f).toFinset.card

variable {f}

lemma distinct_perm {xs ys : List α} (h : xs.Perm ys) : distinct f xs = distinct f ys := by
  unfold distinct
  rw [toFinset_eq_of_perm _ _ (h.map f)]

lemma distinct_cons (x : α) (xs : List α) :
    distinct f (x :: xs) = distinct f xs + (if ∃ y ∈ xs, f y = f x then 0 else 1) := by
  unfold distinct
  rw [map_cons, toFinset_cons]
  split
  · next h => rw [Finset.insert_eq_of_mem (by simpa using h), Nat.add_zero]
  · next h => rw [Finset.card_insert_of_notMem (by simpa using h)]

lemma distinct_le_length (xs : List α) : distinct f xs ≤ xs.length := by
  calc (xs.map f).toFinset.card ≤ (xs.map f).length := toFinset_card_le _
    _ = xs.length := length_map f

end Distinct

end AudioReach.Library
