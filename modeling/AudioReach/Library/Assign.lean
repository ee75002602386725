import Mathlib.Logic.Function.Basic

/-!
# Assignments

A property of all values of a function survives an assignment of a value that has it.  Two places
with different values differ.
-/

namespace AudioReach.Library

open Function (forall_update_iff update update_of_ne update_self)

variable {α β γ : Type*} {f : α → β} {a : α}

theorem ne_of_apply_eq {x y : α} {b c : β} (hx : f x = b) (hy : f y = c) (hbc : b ≠ c) : x ≠ y := by
  rintro rfl
  exact hbc (hx.symm.trans hy)

variable [DecidableEq α] {g : α → γ} {b : β} {c : γ}

theorem forall_update {p : α → β → Prop} (h : ∀ x, p x (f x)) (hb : p a b) :
    ∀ x, p x (update f a b x) :=
  (forall_update_iff f p).mpr ⟨hb, fun x _ => h x⟩

/-- An assignment leaves what the new value has in common with the old one. -/
theorem apply_update_eq (p : β → γ) (h : p b = p (f a)) (x : α) : p (update f a b x) = p (f x) :=
  (forall_update_iff f fun x y => p y = p (f x)).mpr ⟨h, fun _ _ => rfl⟩ x

/-- Only the place of the assignment changes. -/
theorem eq_of_update_ne {x : α} (h : update f a b x ≠ f x) : x = a :=
  by_contra fun hx => h (update_of_ne hx b f)

theorem ne_of_update_eq {x : α} {y : β} (h : update f a b x = y) (hby : b ≠ y) : x ≠ a := by
  rintro rfl
  exact hby ((update_self ..).symm.trans h)

section

variable {p : α → β → Prop} {f : α → Option β} (h : ∀ x y, f x = some y → p x y)
include h

/-- An assignment to a place that had a value or has one now. -/
theorem forall_update_some (hb : p a b) : ∀ x y, update f a (some b) x = some y → p x y :=
  forall_update (p := fun x o => ∀ y, o = some y → p x y) h fun _ hy => Option.some.inj hy ▸ hb

/-- A value is taken away. -/
theorem forall_update_none : ∀ x y, update f a none x = some y → p x y :=
  forall_update (p := fun x o => ∀ y, o = some y → p x y) h nofun

end

/-- Two assignments at one place. -/
theorem forall_update₂ {p : α → β → γ → Prop} (h : ∀ x, p x (f x) (g x)) (hbc : p a b c) :
    ∀ x, p x (update f a b x) (update g a c x) := by
  intro x
  by_cases hx : x = a
  · subst hx
    rw [update_self, update_self]
    exact hbc
  · rw [update_of_ne hx, update_of_ne hx]
    exact h x

end AudioReach.Library
