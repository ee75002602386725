import AudioReach.Library.Assign

/-!
# Cross pointers

Two kinds of objects may point at each other: `f a` is the partner of `a` and `g b` the
partner of `b`.  `Paired A B f g` says that among the objects in use, `A` on one side and
`B` on the other, the pointers agree: whoever points at a partner points at an object in
use that points back.  It is `PEquiv` restricted to the objects in use; outside of them
the pointers may hold anything.

The rules say which assignments keep pointers in agreement: linking two free objects,
unlinking a pair, taking an object in or out of use, and the rearrangements in which an
object changes its place in a chain of links.
-/

namespace AudioReach.Library

open Function (update update_comm update_idem update_of_ne update_self)

variable {α β : Type*} {A A' : α → Prop} {B B' : β → Prop} {f : α → Option β} {g : β → Option α}

/-- Among the objects in use, pointers and back pointers agree. -/
structure Paired (A : α → Prop) (B : β → Prop) (f : α → Option β) (g : β → Option α) : Prop where
  right : ∀ a b, A a → f a = some b → B b ∧ g b = some a
  left : ∀ b a, B b → g b = some a → A a ∧ f a = some b

namespace Paired

theorem symm (h : Paired A B f g) : Paired B A g f :=
  ⟨h.left, h.right⟩

variable {b d : β}

/-- Nobody shares a partner. -/
theorem injective (h : Paired A B f g) {a a' : α} (ha : A a) (ha' : A a')
    (hb : f a = some b) (hb' : f a' = some b) : a = a' := by
  have hback := (h.right a b ha hb).2
  have hback' := (h.right a' b ha' hb').2
  rw [hback] at hback'
  exact Option.some.inj hback'

/-- Only the pointers of objects in use matter. -/
theorem congr (h : Paired A B f g) {f' : α → Option β} {g' : β → Option α}
    (hf : ∀ a, A a → f' a = f a) (hg : ∀ b, B b → g' b = g b) : Paired A B f' g' := by
  refine ⟨?_, ?_⟩
  · intro a b ha hab
    rw [hf a ha] at hab
    obtain ⟨hb, hback⟩ := h.right a b ha hab
    exact ⟨hb, (hg b hb).trans hback⟩
  · intro b a hb hba
    rw [hg b hb] at hba
    obtain ⟨ha, hback⟩ := h.left b a hb hba
    exact ⟨ha, (hf a ha).trans hback⟩

variable [DecidableEq α] [DecidableEq β]

omit [DecidableEq β] in
/-- A new object comes into use without a partner. -/
theorem extend (h : Paired A B f g) {a : α} (hA : ∀ x, A' x ↔ x = a ∨ A x) (hnew : ¬ A a) :
    Paired A' B (update f a none) g := by
  refine ⟨?_, ?_⟩
  · intro x b hx hxb
    rcases (hA x).mp hx with rfl | hx
    · rw [update_self] at hxb
      cases hxb
    · have hne : x ≠ a := by
        rintro rfl
        exact hnew hx
      rw [update_of_ne hne] at hxb
      exact h.right x b hx hxb
  · intro b x hb hbx
    obtain ⟨hx, hxb⟩ := h.left b x hb hbx
    have hne : x ≠ a := by
      rintro rfl
      exact hnew hx
    exact ⟨(hA x).mpr (Or.inr hx), (update_of_ne hne _ _).trans hxb⟩

section

variable {a c : α} (h : Paired A B f g) (ha : A a)
include h ha

/-- Two free objects are linked. -/
theorem link (hb : B b) (hfa : f a = none) (hgb : g b = none) :
    Paired A B (update f a (some b)) (update g b (some a)) := by
  refine ⟨?_, ?_⟩
  · intro x y hx hxy
    by_cases hxa : x = a
    · subst hxa
      rw [update_self] at hxy
      obtain rfl := Option.some.inj hxy
      exact ⟨hb, update_self _ _ _⟩
    · rw [update_of_ne hxa] at hxy
      obtain ⟨hy, hback⟩ := h.right x y hx hxy
      have hyb : y ≠ b := ne_of_apply_eq hback hgb nofun
      exact ⟨hy, (update_of_ne hyb _ _).trans hback⟩
  · intro y x hy hyx
    by_cases hyb : y = b
    · subst hyb
      rw [update_self] at hyx
      obtain rfl := Option.some.inj hyx
      exact ⟨ha, update_self _ _ _⟩
    · rw [update_of_ne hyb] at hyx
      obtain ⟨hx, hback⟩ := h.left y x hy hyx
      have hxa : x ≠ a := ne_of_apply_eq hback hfa nofun
      exact ⟨hx, (update_of_ne hxa _ _).trans hback⟩

/-- A new object comes into use and is linked to a free one. -/
theorem extendLink (hB : ∀ y, B' y ↔ y = b ∨ B y) (hnew : ¬ B b) (hfa : f a = none) :
    Paired A B' (update f a (some b)) (update g b (some a)) := by
  have hext := (h.symm.extend hB hnew).symm
  have hlink := hext.link ha ((hB b).mpr (Or.inl rfl)) hfa (update_self _ _ _)
  rwa [update_idem] at hlink

/-- A pair is unlinked. -/
theorem unlink (hab : f a = some b) : Paired A B (update f a none) (update g b none) := by
  refine ⟨?_, ?_⟩
  · intro x y hx hxy
    have hxa : x ≠ a := ne_of_update_eq hxy nofun
    rw [update_of_ne hxa] at hxy
    obtain ⟨hy, hback⟩ := h.right x y hx hxy
    have hyb : y ≠ b := by
      rintro rfl
      exact hxa (h.injective hx ha hxy hab)
    exact ⟨hy, (update_of_ne hyb _ _).trans hback⟩
  · intro y x hy hyx
    have hyb : y ≠ b := ne_of_update_eq hyx nofun
    rw [update_of_ne hyb] at hyx
    obtain ⟨hx, hback⟩ := h.left y x hy hyx
    have hxa : x ≠ a := by
      rintro rfl
      rw [hab] at hback
      exact hyb (Option.some.inj hback).symm
    exact ⟨hx, (update_of_ne hxa _ _).trans hback⟩

/-- Two links `a — b` and `c — d` become the one link `a — d`; `b` and `c` are free. -/
theorem bypass (hc : A c) (hac : a ≠ c) (hab : f a = some b) (hcd : f c = some d) :
    Paired A B (update (update f c none) a (some d)) (update (update g b none) d (some a)) := by
  have hd := (h.right c d hc hcd).1
  -- unlink both pairs, then link the outer ends
  have h₁ := h.unlink ha hab
  have hcd' : update f a none c = some d := (update_of_ne hac.symm _ _).trans hcd
  have h₂ := h₁.unlink hc hcd'
  have hfa : update (update f a none) c none a = none :=
    (update_of_ne hac _ _).trans (update_self _ _ _)
  have h₃ := h₂.link ha hd hfa (update_self _ _ _)
  refine h₃.congr ?_ ?_
  · intro x _
    rw [update_comm hac none none f, update_idem]
  · intro y _
    rw [update_idem]

/-- The one link `a — d` becomes the two links `a — b` and `c — d`. -/
theorem splice (hc : A c) (hb : B b) (had : f a = some d) (hfc : f c = none) (hgb : g b = none) :
    Paired A B (update (update f a (some b)) c (some d))
      (update (update g b (some a)) d (some c)) := by
  obtain ⟨hd, hda⟩ := h.right a d ha had
  have hac : a ≠ c := ne_of_apply_eq had hfc nofun
  have hbd : b ≠ d := ne_of_apply_eq hgb hda nofun
  -- unlink the outer ends, then link each to its new neighbour
  have h₁ := h.unlink ha had
  have hgb' : update g d none b = none := (update_of_ne hbd _ _).trans hgb
  have h₂ := h₁.link ha hb (update_self _ _ _) hgb'
  have hfc' : update (update f a none) a (some b) c = none :=
    (update_of_ne hac.symm _ _).trans ((update_of_ne hac.symm _ _).trans hfc)
  have hgd' : update (update g d none) b (some a) d = none :=
    (update_of_ne hbd.symm _ _).trans (update_self _ _ _)
  have h₃ := h₂.link hc hd hfc' hgd'
  refine h₃.congr ?_ ?_
  · intro x _
    rw [update_idem]
  · intro y _
    rw [update_comm hbd.symm none (some a) g, update_idem]

/-- The partner of `c` becomes the partner of `a`. -/
theorem move (hc : A c) (hfa : f a = none) (hcd : f c = some d) :
    Paired A B (update (update f c none) a (some d)) (update g d (some a)) := by
  have hac : a ≠ c := ne_of_apply_eq hfa hcd nofun
  have hd := (h.right c d hc hcd).1
  have h₁ := h.unlink hc hcd
  have hfa' : update f c none a = none := (update_of_ne hac _ _).trans hfa
  have h₂ := h₁.link ha hd hfa' (update_self _ _ _)
  refine h₂.congr (fun _ _ => rfl) ?_
  intro y _
  rw [update_idem]

end

end Paired

/-! ### Objects with partners of two kinds -/

section TwoKinds

variable {γ : Type*} {k : α → Option γ} [DecidableEq α] {a : α} {p : Option β} {q : Option γ}

theorem update_none {x : α} (hx : f x = none) (a : α) : update f a none x = none := by
  by_cases hxa : x = a
  · subst hxa
    exact update_self _ _ _
  · exact (update_of_ne hxa _ _).trans hx

/-- An object may get a partner if it has none of the other kind. -/
theorem exclusive_update (h : ∀ x, A x → f x = none ∨ k x = none) (ha : p = none ∨ k a = none) :
    ∀ x, A x → update f a p x = none ∨ k x = none := by
  intro x hx
  by_cases hxa : x = a
  · subst hxa
    rw [update_self]
    exact ha
  · rw [update_of_ne hxa]
    exact h x hx

theorem exclusive_update' (h : ∀ x, A x → f x = none ∨ k x = none) (ha : q = none ∨ f a = none) :
    ∀ x, A x → f x = none ∨ update k a q x = none :=
  fun x hx => (exclusive_update (fun x hx => (h x hx).symm) ha x hx).symm

/-- An object may lose its partner if it has one of the other kind. -/
theorem covered_update (h : ∀ x, A x → f x ≠ none ∨ k x ≠ none)
    (ha : A a → p ≠ none ∨ k a ≠ none) : ∀ x, A x → update f a p x ≠ none ∨ k x ≠ none := by
  intro x hx
  by_cases hxa : x = a
  · subst hxa
    rw [update_self]
    exact ha hx
  · rw [update_of_ne hxa]
    exact h x hx

theorem covered_update' (h : ∀ x, A x → f x ≠ none ∨ k x ≠ none)
    (ha : A a → q ≠ none ∨ f a ≠ none) : ∀ x, A x → f x ≠ none ∨ update k a q x ≠ none :=
  fun x hx => (covered_update (fun x hx => (h x hx).symm) ha x hx).symm

end TwoKinds

end AudioReach.Library
