import Mathlib.Data.List.Basic

/-!
# Loops that may end early

A loop over a list whose body says after each element whether to go on.  The elements that count
can be or-ed (the loop ends at the first good one), and-ed (it ends at the first bad one), or only
noticed.  What such a loop finds does not depend on the order of the list.
-/

namespace AudioReach.Library

variable {α β : Type*}

/-- A loop over a list: the body gives whether to break, and the state after it. -/
def loopBreak (body : α → β → Bool × β) : List α → β → β
  | [], b => b
  | a :: as, b => if (body a b).1 then (body a b).2 else loopBreak body as (body a b).2

/-- The view of the state is set by a good element, at which the loop ends. -/
structure Ors (as : List α) (body : α → β → Bool × β) (view : β → Bool) (good : α → Prop) :
    Prop where
  hit : ∀ a ∈ as, ∀ b, good a → (body a b).1 = true ∧ view (body a b).2 = true
  miss : ∀ a ∈ as, ∀ b, ¬ good a → (body a b).1 = false ∧ view (body a b).2 = view b

/-- The view of the state is cleared by an element that counts and is bad, at which the loop ends,
and set by one that counts and is good. -/
structure Ands (as : List α) (body : α → β → Bool × β) (view : β → Bool)
    (counts good : α → Prop) : Prop where
  skip : ∀ a ∈ as, ∀ b, ¬ counts a → (body a b).1 = false ∧ view (body a b).2 = view b
  hit : ∀ a ∈ as, ∀ b, counts a → good a → (body a b).1 = false ∧ view (body a b).2 = true
  fail : ∀ a ∈ as, ∀ b, counts a → ¬ good a → (body a b).1 = true ∧ view (body a b).2 = false

/-- The view of the state is set by every element that counts. -/
structure Notices (body : α → β → Bool × β) (view : β → Bool) (counts : α → Prop) : Prop where
  skip : ∀ a b, ¬ counts a → (body a b).1 = false ∧ view (body a b).2 = view b
  mark : ∀ a b, counts a → view (body a b).2 = true

variable {body : α → β → Bool × β} {view : β → Bool} {counts good : α → Prop}

@[simp] lemma loopBreak_nil (b : β) : loopBreak body [] b = b := rfl

lemma loopBreak_of_break {a : α} {as : List α} {b : β} (h : (body a b).1 = true) :
    loopBreak body (a :: as) b = (body a b).2 := by
  rw [loopBreak, if_pos h]

lemma loopBreak_of_continue {a : α} {as : List α} {b : β} (h : (body a b).1 = false) :
    loopBreak body (a :: as) b = loopBreak body as (body a b).2 := by
  rw [loopBreak, h, if_neg Bool.false_ne_true]

/-- **Or.** The view is set if and only if some element is good. -/
lemma Ors.loop {as : List α} (h : Ors as body view good) (b : β) :
    view (loopBreak body as b) = true ↔ view b = true ∨ ∃ a ∈ as, good a := by
  induction as generalizing b with
  | nil => simp
  | cons a as ih =>
    obtain ⟨hhit, htail⟩ := List.forall_mem_cons.mp h.hit
    obtain ⟨hmiss, htail'⟩ := List.forall_mem_cons.mp h.miss
    have ih := ih ⟨htail, htail'⟩
    by_cases ha : good a
    · obtain ⟨hbreak, hview⟩ := hhit b ha
      rw [loopBreak_of_break hbreak]
      exact iff_of_true hview (Or.inr ⟨a, List.mem_cons_self, ha⟩)
    · obtain ⟨hgo, hview⟩ := hmiss b ha
      rw [loopBreak_of_continue hgo, ih, hview, List.exists_mem_cons_iff, or_iff_right ha]

/-- **And.** The view is set if and only if every element that counts is good, and there is one
or it was set before. -/
lemma Ands.loop {as : List α} (h : Ands as body view counts good) (b : β) :
    view (loopBreak body as b) = true ↔
      (view b = true ∨ ∃ a ∈ as, counts a) ∧ ∀ a ∈ as, counts a → good a := by
  induction as generalizing b with
  | nil => simp
  | cons a as ih =>
    obtain ⟨hskip, htail⟩ := List.forall_mem_cons.mp h.skip
    obtain ⟨hhit, htail'⟩ := List.forall_mem_cons.mp h.hit
    obtain ⟨hfail, htail''⟩ := List.forall_mem_cons.mp h.fail
    have ih := ih ⟨htail, htail', htail''⟩
    rw [List.exists_mem_cons_iff, List.forall_mem_cons]
    by_cases hcounts : counts a
    · by_cases hgood : good a
      · obtain ⟨hgo, hview⟩ := hhit b hcounts hgood
        rw [loopBreak_of_continue hgo, ih, hview]
        simp [hcounts, hgood]
      · obtain ⟨hbreak, hview⟩ := hfail b hcounts hgood
        rw [loopBreak_of_break hbreak, hview]
        exact iff_of_false Bool.false_ne_true fun hall => hgood (hall.2.1 hcounts)
    · obtain ⟨hgo, hview⟩ := hskip b hcounts
      rw [loopBreak_of_continue hgo, ih, hview, or_iff_right hcounts]
      simp [hcounts]

/-- **Notice.** The view is set if and only if some element counts, whatever ends the loop. -/
lemma Notices.loop (h : Notices body view counts) (as : List α) (b : β) :
    view (loopBreak body as b) = true ↔ view b = true ∨ ∃ a ∈ as, counts a := by
  induction as generalizing b with
  | nil => simp
  | cons a as ih =>
    rw [List.exists_mem_cons_iff]
    by_cases hcounts : counts a
    · have hview := h.mark a b hcounts
      refine iff_of_true ?_ (Or.inr (Or.inl hcounts))
      cases hbreak : (body a b).1 with
      | true => rwa [loopBreak_of_break hbreak]
      | false =>
        rw [loopBreak_of_continue hbreak]
        exact (ih _).mpr (Or.inl hview)
    · obtain ⟨hgo, hview⟩ := h.skip a b hcounts
      rw [loopBreak_of_continue hgo, ih, hview, or_iff_right hcounts]

end AudioReach.Library
