import Mathlib.Data.List.Nodup

/-!
# Doubly linked lists

Two functions `next` and `prev` from nodes to optional nodes link a list of nodes when each
node leads to the one after it and back to the one before it.  `Linked` says so for a
stretch of nodes, with what stands before and after the stretch, so that a list may be cut
anywhere.  `IsLinkedList` is a whole list with pointers to its ends.

A program changes such a list in two ways only: it takes a node out and joins its neighbours,
or it puts a node in between two neighbours.  Writes to a missing neighbour are left out,
which `relink` states; with it one rule each for `remove` and `insert` covers the head, the
middle and the tail.
-/

namespace AudioReach.Library

open Function (update update_comm update_of_ne update_self)
open List Option

variable {α : Type*} [DecidableEq α]

/-- The function with a new value at a node, if there is one. -/
def relink (f : α → Option α) (at? : Option α) (value : Option α) : α → Option α :=
  match at? with
  | none => f
  | some x => update f x value

lemma relink_of_ne {f : α → Option α} {at? value : Option α} {x : α} (h : at? ≠ some x) :
    relink f at? value x = f x := by
  cases at? with
  | none => rfl
  | some y =>
    have hne : x ≠ y := fun heq => h (congrArg some heq.symm)
    exact update_of_ne hne value f

@[simp] lemma relink_some (f : α → Option α) (x : α) (value : Option α) :
    relink f (some x) value x = value := by
  exact update_self x value f

lemma relink_update_comm {f : α → Option α} {at? value value' : Option α} {x : α}
    (h : at? ≠ some x) :
    relink (update f x value') at? value = update (relink f at? value) x value' := by
  cases at? with
  | none => rfl
  | some y => exact update_comm (fun heq => h (congrArg some heq.symm)) _ _ f

omit [DecidableEq α] in
/-- The stretch `l` is linked in order, between `before` and `after`. -/
def Linked (next prev : α → Option α) : Option α → List α → Option α → Prop
  | _, [], _ => True
  | before, x :: l, after =>
      prev x = before ∧ next x = l.head?.or after ∧ Linked next prev (some x) l after

namespace Linked

variable {next prev next' prev' : α → Option α} {before after : Option α} {l s t : List α}

omit [DecidableEq α] in
lemma congr (h : Linked next prev before l after) (hnext : ∀ x ∈ l, next' x = next x)
    (hprev : ∀ x ∈ l, prev' x = prev x) : Linked next' prev' before l after := by
  induction l generalizing before with
  | nil => trivial
  | cons x l ih =>
    obtain ⟨hp, hn, hrest⟩ := h
    refine ⟨(hprev x mem_cons_self).trans hp, (hnext x mem_cons_self).trans hn, ?_⟩
    exact ih hrest (fun y hy => hnext y (mem_cons_of_mem _ hy))
      fun y hy => hprev y (mem_cons_of_mem _ hy)

omit [DecidableEq α] in
lemma append_iff : Linked next prev before (s ++ t) after ↔
    Linked next prev before s (t.head?.or after) ∧
      Linked next prev (s.getLast?.or before) t after := by
  induction s generalizing before with
  | nil => simp [Linked]
  | cons x s ih =>
    have hhead : (s ++ t).head?.or after = s.head?.or (t.head?.or after) := by
      cases s <;> simp
    have hlast : (x :: s).getLast?.or before = s.getLast?.or (some x) := by
      cases s <;> simp [getLast?_cons]
    simp only [cons_append, Linked, hhead, hlast, ih, and_assoc]

lemma relink_next (h : Linked next prev before l after) (hnodup : l.Nodup) (after' : Option α) :
    Linked (relink next l.getLast? after') prev before l after' := by
  rcases l.eq_nil_or_concat with rfl | ⟨l, x, rfl⟩
  · trivial
  · rw [concat_eq_append] at *
    rw [getLast?_concat]
    obtain ⟨hl, hx⟩ := append_iff.mp h
    have hnot : x ∉ l := fun hmem =>
      (nodup_append.mp hnodup).2.2 x hmem x (mem_singleton_self x) rfl
    refine append_iff.mpr ⟨?_, hx.1, relink_some _ _ _, trivial⟩
    refine hl.congr (fun y hy => relink_of_ne ?_) fun _ _ => rfl
    rintro ⟨⟩
    exact hnot hy

lemma relink_prev (h : Linked next prev before l after) (hnodup : l.Nodup) (before' : Option α) :
    Linked next (relink prev l.head? before') before' l after := by
  cases l with
  | nil => trivial
  | cons x l =>
    obtain ⟨-, hn, hrest⟩ := h
    refine ⟨relink_some _ _ _, hn, hrest.congr (fun _ _ => rfl) fun y hy => relink_of_ne ?_⟩
    rintro ⟨⟩
    exact (nodup_cons.mp hnodup).1 hy

end Linked

/-- The list `l` is linked from `head` to `last`. -/
structure IsLinkedList (next prev : α → Option α) (head last : Option α) (l : List α) : Prop where
  /-- The nodes are linked in order, and nothing is before or after them. -/
  linked : Linked next prev none l none
  nodup : l.Nodup
  head_eq : head = l.head?
  last_eq : last = l.getLast?

namespace IsLinkedList

variable {next prev next' prev' : α → Option α} {head last head' last' : Option α}
variable {l s t : List α} {x : α}

omit [DecidableEq α] in
lemma nil : IsLinkedList next prev none none ([] : List α) :=
  ⟨trivial, nodup_nil, rfl, rfl⟩

omit [DecidableEq α] in
lemma links (h : IsLinkedList next prev head last (s ++ x :: t)) :
    prev x = s.getLast? ∧ next x = t.head? := by
  obtain ⟨hp, hn, -⟩ := (Linked.append_iff.mp h.linked).2
  exact ⟨hp.trans (or_none), hn.trans (or_none)⟩

omit [DecidableEq α] in
lemma congr (h : IsLinkedList next prev head last l) (hnext : ∀ x ∈ l, next' x = next x)
    (hprev : ∀ x ∈ l, prev' x = prev x) : IsLinkedList next' prev' head last l :=
  ⟨h.linked.congr hnext hprev, h.nodup, h.head_eq, h.last_eq⟩

/-- **Taking a node out.** Its neighbours are joined. -/
theorem remove (h : IsLinkedList next prev head last (s ++ x :: t))
    (hhead : head' = (s ++ t).head?) (hlast : last' = (s ++ t).getLast?) :
    IsLinkedList (relink next s.getLast? t.head?) (relink prev t.head? s.getLast?) head' last'
      (s ++ t) := by
  have hnodup : (s ++ t).Nodup := h.nodup.sublist (by simp)
  obtain ⟨hs, -, -, ht⟩ := Linked.append_iff.mp h.linked
  obtain ⟨hsn, htn, hdisj⟩ := nodup_append.mp hnodup
  refine ⟨Linked.append_iff.mpr ⟨?_, ?_⟩, hnodup, hhead, hlast⟩
  · rw [or_none]
    refine (hs.relink_next hsn t.head?).congr (fun _ _ => rfl) fun y hy => relink_of_ne ?_
    intro heq
    exact hdisj y hy y (mem_of_mem_head? heq) rfl
  · rw [or_none]
    refine (ht.relink_prev htn s.getLast?).congr (fun y hy => relink_of_ne ?_) fun _ _ => rfl
    intro heq
    exact hdisj y (mem_of_getLast? heq) y hy rfl

/-- **Putting a node in.** It is led to its neighbours and they are led to it. -/
theorem insert (h : IsLinkedList next prev head last (s ++ t)) (hx : x ∉ s ++ t)
    (hhead : head' = (s ++ x :: t).head?) (hlast : last' = (s ++ x :: t).getLast?) :
    IsLinkedList (relink (update next x t.head?) s.getLast? (some x))
      (relink (update prev x s.getLast?) t.head? (some x)) head' last' (s ++ x :: t) := by
  obtain ⟨hs, ht⟩ := Linked.append_iff.mp h.linked
  obtain ⟨hsn, htn, hdisj⟩ := nodup_append.mp h.nodup
  have hxs : x ∉ s := fun hmem => hx (mem_append_left t hmem)
  have hxt : x ∉ t := fun hmem => hx (mem_append_right s hmem)
  have hnodup : (s ++ x :: t).Nodup :=
    nodup_middle.mpr (nodup_cons.mpr ⟨hx, h.nodup⟩)
  refine ⟨Linked.append_iff.mpr ⟨?_, ?_, ?_, ?_⟩, hnodup, hhead, hlast⟩
  · -- the part before the node
    have hframe : Linked (update next x t.head?) prev none s (t.head?.or none) :=
      hs.congr (fun y hy => update_of_ne (ne_of_mem_of_not_mem hy hxs) _ _) fun _ _ => rfl
    refine (hframe.relink_next hsn (some x)).congr (fun _ _ => rfl) fun y hy => ?_
    rw [relink_of_ne, update_of_ne (ne_of_mem_of_not_mem hy hxs)]
    intro heq
    exact hdisj y hy y (mem_of_mem_head? heq) rfl
  · -- the node itself
    rw [relink_of_ne, update_self, or_none]
    intro heq
    exact hxt (mem_of_mem_head? heq)
  · rw [relink_of_ne, update_self, or_none]
    intro heq
    exact hxs (mem_of_getLast? heq)
  · -- the part after it
    have hframe : Linked next (update prev x s.getLast?) (s.getLast?.or none) t none :=
      ht.congr (fun _ _ => rfl) fun y hy => update_of_ne (ne_of_mem_of_not_mem hy hxt) _ _
    refine (hframe.relink_prev htn (some x)).congr (fun y hy => ?_) fun _ _ => rfl
    rw [relink_of_ne, update_of_ne (ne_of_mem_of_not_mem hy hxt)]
    intro heq
    exact hdisj y (mem_of_getLast? heq) y hy rfl

end IsLinkedList

end AudioReach.Library
