import Mathlib.Data.List.Rotate

/-!
# Circular doubly linked rings

Two functions `next` and `prev` on addresses form a ring when some list of distinct addresses
can be walked around with `next`, from its last element back to its first, and backwards with
`prev`.  The list is read from any of its elements: a rotation of a ring is the same ring.

Mapping `next` over the list rotates it by one, and this is how the ring is stated here.  The
two facts a program needs follow: what `next` and `prev` give at two adjacent elements, and
that a node linked in between the last element and the first is added to the ring.
-/

namespace AudioReach.Library

open List

variable {α : Type*} {next prev next' prev' : α → α}

/-- `next` walks around `ring` and `prev` walks back. -/
structure IsRing (next prev : α → α) (ring : List α) : Prop where
  nodup : ring.Nodup
  /-- Each element leads to the one after it, the last to the first. -/
  next_eq : ring.map next = ring.rotate 1
  /-- Each element leads back to the one before it, the first to the last. -/
  prev_eq : (ring.rotate 1).map prev = ring

namespace IsRing

lemma nil : IsRing next prev [] :=
  ⟨nodup_nil, rfl, rfl⟩

lemma singleton {n : α} (hnext : next n = n) (hprev : prev n = n) : IsRing next prev [n] :=
  ⟨nodup_singleton n, by simp [hnext], by simp [hprev]⟩

lemma rotate {ring : List α} (h : IsRing next prev ring) (k : ℕ) :
    IsRing next prev (ring.rotate k) := by
  refine ⟨nodup_rotate.mpr h.nodup, ?_, ?_⟩
  · rw [map_rotate, h.next_eq, rotate_rotate, rotate_rotate, Nat.add_comm]
  · rw [rotate_rotate, Nat.add_comm, ← rotate_rotate, map_rotate, h.prev_eq]

variable {t s : List α}

lemma shift {a : α} (h : IsRing next prev (a :: t)) : IsRing next prev (t ++ [a]) := by
  simpa using h.rotate 1

lemma unshift {z : α} (h : IsRing next prev (s ++ [z])) : IsRing next prev (z :: s) := by
  simpa using h.rotate s.length

lemma adjacent {u : List α} {x y : α} (h : IsRing next prev (s ++ x :: y :: u)) :
    next x = y ∧ prev y = x := by
  have hfirst : IsRing next prev (x :: y :: u ++ s) := by
    simpa using h.rotate s.length
  constructor
  · have hnext := hfirst.next_eq
    simpa using congrArg head? hnext
  · have hprev := hfirst.prev_eq
    simpa using congrArg head? hprev

section

variable {a z : α} (h : IsRing next prev (a :: t)) (hends : a :: t = s ++ [z])
include h hends

lemma links : (s.map next = t ∧ next z = a) ∧ t.map prev = s ∧ prev a = z := by
  have hrotate : (a :: t).rotate 1 = t ++ [a] := by
    rw [rotate_cons_succ, rotate_zero]
  constructor
  · have hnext : s.map next ++ [next z] = t ++ [a] := by
      rw [← hrotate, ← h.next_eq, hends, map_append, map_singleton]
    obtain ⟨hinit, hlast⟩ := append_inj' hnext rfl
    exact ⟨hinit, singleton_inj.mp hlast⟩
  · have hprev : t.map prev ++ [prev a] = s ++ [z] := by
      rw [← hends, ← h.prev_eq, hrotate, map_append, map_singleton]
    obtain ⟨hinit, hlast⟩ := append_inj' hprev rfl
    exact ⟨hinit, singleton_inj.mp hlast⟩

lemma ends : next z = a ∧ prev a = z :=
  ⟨(h.links hends).1.2, (h.links hends).2.2⟩

end

/-- **Growth.** A new node that is linked in after the last element and before the first, with
every other link left alone, is added to the ring. -/
lemma insert {s t : List α} {a z n : α} (h : IsRing next prev (a :: t))
    (hends : a :: t = s ++ [z]) (hn : n ∉ a :: t)
    (hnn : next' n = a) (hpn : prev' n = z) (hnz : next' z = n) (hpa : prev' a = n)
    (hnext : ∀ x ∈ a :: t, x ≠ z → next' x = next x)
    (hprev : ∀ x ∈ a :: t, x ≠ a → prev' x = prev x) :
    IsRing next' prev' (a :: t ++ [n]) := by
  have hz : z ∉ s := by
    have hnodup := h.nodup
    rw [hends] at hnodup
    exact fun hz => (nodup_append.mp hnodup).2.2 z hz z (mem_singleton_self z) rfl
  have ha : a ∉ t := (nodup_cons.mp h.nodup).1
  -- the links before the last element and after the first one are as they were
  have hs : s.map next' = t := by
    rw [← (h.links hends).1.1]
    apply map_congr_left
    intro x hx
    exact hnext x (hends ▸ mem_append_left _ hx) (fun hxz => hz (hxz ▸ hx))
  have ht : t.map prev' = s := by
    rw [← (h.links hends).2.1]
    apply map_congr_left
    intro x hx
    exact hprev x (mem_cons_of_mem a hx) (fun hxa => ha (hxa ▸ hx))
  refine ⟨?_, ?_, ?_⟩
  · rw [nodup_append]
    refine ⟨h.nodup, nodup_singleton n, ?_⟩
    intro x hx y hy hxy
    exact hn (mem_singleton.mp hy ▸ hxy ▸ hx)
  · calc (a :: t ++ [n]).map next' = s.map next' ++ [next' z, next' n] := by
          rw [hends]
          simp
      _ = (a :: t ++ [n]).rotate 1 := by
          rw [hs, hnz, hnn]
          simp
  · simp only [cons_append, rotate_cons_succ, rotate_zero, map_append,
      map_cons, map_nil, ht, hpn, hpa]
    rw [← cons_append, hends]

/-- **Removal.** A node whose two neighbours are linked to each other, with every other link left
alone, is taken out of the ring. -/
lemma remove {a z n : α} (h : IsRing next prev (n :: a :: t))
    (hends : a :: t = s ++ [z]) (hnz : next' z = a) (hpa : prev' a = z)
    (hnext : ∀ x ∈ a :: t, x ≠ z → next' x = next x)
    (hprev : ∀ x ∈ a :: t, x ≠ a → prev' x = prev x) :
    IsRing next' prev' (a :: t) := by
  have hnodup := (nodup_cons.mp h.nodup).2
  have ha : a ∉ t := (nodup_cons.mp hnodup).1
  have hz : z ∉ s := by
    rw [hends] at hnodup
    exact fun hz => (nodup_append.mp hnodup).2.2 z hz z (mem_singleton_self z) rfl
  obtain ⟨⟨hnexts, -⟩, hprevs, -⟩ := h.links (s := n :: s) (by rw [hends]; rfl)
  have hs : s.map next' = t := by
    rw [← (List.cons.inj hnexts).2]
    apply map_congr_left
    intro x hx
    exact hnext x (hends ▸ mem_append_left _ hx) (fun hxz => hz (hxz ▸ hx))
  have ht : t.map prev' = s := by
    rw [← (List.cons.inj hprevs).2]
    apply map_congr_left
    intro x hx
    exact hprev x (mem_cons_of_mem a hx) (fun hxa => ha (hxa ▸ hx))
  refine ⟨hnodup, ?_, ?_⟩
  · calc (a :: t).map next' = s.map next' ++ [next' z] := by rw [hends, map_append]; rfl
      _ = (a :: t).rotate 1 := by
          rw [hs, hnz, rotate_cons_succ, rotate_zero]
  · rw [rotate_cons_succ, rotate_zero, map_append, ht, map_singleton, hpa, hends]

end IsRing

end AudioReach.Library
