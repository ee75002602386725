import Mathlib.Data.Set.Basic

/-!
# Connected points

`Joined edges x y` says that a list of edges connects `x` and `y`.  A map `cls` into names of
classes represents the edges when the points of an edge have names and two points have the same
name exactly when they are connected.  `Represents.join` is the step of every algorithm that
merges classes edge by edge: where the new map gives one name to all points connected to either
end of the edge, and leaves the other points as they are, it represents the edges with the new
one.
-/

namespace AudioReach.Library

open List

variable {α β : Type*} {edges edges' : List (α × α)} {x y z a b : α}

/-- The edges connect the two points. -/
def Joined (edges : List (α × α)) : α → α → Prop :=
  Relation.EqvGen fun a b => (a, b) ∈ edges

/-- The point is on no edge. -/
def Alone (edges : List (α × α)) (x : α) : Prop :=
  ∀ e ∈ edges, x ≠ e.1 ∧ x ≠ e.2

namespace Joined

lemma refl (edges : List (α × α)) (x : α) : Joined edges x x := Relation.EqvGen.refl x

lemma symm (h : Joined edges x y) : Joined edges y x := Relation.EqvGen.symm _ _ h

lemma trans (h : Joined edges x y) (h' : Joined edges y z) : Joined edges x z :=
  Relation.EqvGen.trans _ _ _ h h'

lemma edge (h : (x, y) ∈ edges) : Joined edges x y := .rel x y h

lemma mono (hsub : edges ⊆ edges') (h : Joined edges x y) : Joined edges' x y :=
  Relation.EqvGen.mono (fun _ _ he => hsub he) _ _ h

lemma eq_of_alone (h : Joined edges x y) : Alone edges x ∨ Alone edges y → x = y := by
  induction h with
  | rel x y he =>
    rintro (hx | hy)
    · exact absurd rfl (hx _ he).1
    · exact absurd rfl (hy _ he).2
  | refl x => exact fun _ => rfl
  | symm x y _ ih => exact fun h => (ih h.symm).symm
  | trans x y z _ _ ihxy ihyz =>
    rintro (hx | hz)
    · obtain rfl := ihxy (Or.inl hx)
      exact ihyz (Or.inl hx)
    · obtain rfl := ihyz (Or.inr hz)
      exact ihxy (Or.inr hz)

end Joined

lemma joined_congr (h : ∀ e, e ∈ edges ↔ e ∈ edges') : Joined edges x y ↔ Joined edges' x y :=
  ⟨Joined.mono fun e he => (h e).mp he, Joined.mono fun e he => (h e).mpr he⟩

/-- One more edge connects what it bridges. -/
lemma joined_concat : Joined (edges ++ [(a, b)]) x y ↔
    Joined edges x y ∨ (Joined edges x a ∧ Joined edges b y) ∨
      (Joined edges x b ∧ Joined edges a y) := by
  have hsub : edges ⊆ edges ++ [(a, b)] := fun _ he => mem_append_left _ he
  have hedge : Joined (edges ++ [(a, b)]) a b :=
    .edge (mem_append_right _ (mem_singleton_self _))
  constructor
  · intro h
    induction h with
    | rel x y he =>
      rcases mem_append.mp he with he | he
      · exact Or.inl (.edge he)
      · obtain ⟨rfl, rfl⟩ := Prod.mk.inj (mem_singleton.mp he)
        exact Or.inr (Or.inl ⟨.refl _ _, .refl _ _⟩)
    | refl x => exact Or.inl (.refl _ _)
    | symm x y _ ih =>
      rcases ih with h | ⟨hx, hy⟩ | ⟨hx, hy⟩
      · exact Or.inl h.symm
      · exact Or.inr (Or.inr ⟨hy.symm, hx.symm⟩)
      · exact Or.inr (Or.inl ⟨hy.symm, hx.symm⟩)
    | trans x y z _ _ ihxy ihyz =>
      rcases ihxy with h | ⟨hx, hy⟩ | ⟨hx, hy⟩
      · rcases ihyz with h' | ⟨hy', hz⟩ | ⟨hy', hz⟩
        · exact Or.inl (h.trans h')
        · exact Or.inr (Or.inl ⟨h.trans hy', hz⟩)
        · exact Or.inr (Or.inr ⟨h.trans hy', hz⟩)
      · rcases ihyz with h' | ⟨-, hz⟩ | ⟨-, hz⟩
        · exact Or.inr (Or.inl ⟨hx, hy.trans h'⟩)
        · exact Or.inr (Or.inl ⟨hx, hz⟩)
        · exact Or.inl (hx.trans hz)
      · rcases ihyz with h' | ⟨-, hz⟩ | ⟨-, hz⟩
        · exact Or.inr (Or.inr ⟨hx, hy.trans h'⟩)
        · exact Or.inl (hx.trans hz)
        · exact Or.inr (Or.inr ⟨hx, hz⟩)
  · rintro (h | ⟨hx, hy⟩ | ⟨hx, hy⟩)
    · exact h.mono hsub
    · exact ((hx.mono hsub).trans hedge).trans (hy.mono hsub)
    · exact ((hx.mono hsub).trans hedge.symm).trans (hy.mono hsub)

/-- The map names the classes of the points of `s`. -/
structure Represents (edges : List (α × α)) (s : Set α) (cls : α → Option β) : Prop where
  none_iff : ∀ x ∈ s, cls x = none ↔ Alone edges x
  /-- Two points have the same name exactly when they are connected. -/
  same_iff : ∀ x ∈ s, ∀ y ∈ s, ∀ c, cls x = some c → (cls y = some c ↔ Joined edges x y)

namespace Represents

variable {s : Set α} {cls cls' : α → Option β}

lemma nil (h : ∀ x ∈ s, cls x = none) : Represents [] s cls := by
  constructor
  · intro x hx
    exact iff_of_true (h x hx) (fun _ he => absurd he not_mem_nil)
  · intro x hx y hy c hc
    rw [h x hx] at hc
    cases hc

section

variable {c : β} (h : Represents edges s cls) (ha : a ∈ s) (hb : b ∈ s)
include h ha hb

/-- **Joining two classes.** -/
theorem join (hin : ∀ x ∈ s, Joined edges x a ∨ Joined edges x b → cls' x = some c)
    (hout : ∀ x ∈ s, ¬ (Joined edges x a ∨ Joined edges x b) → cls' x = cls x ∧ cls x ≠ some c) :
    Represents (edges ++ [(a, b)]) s cls' := by
  constructor
  · intro x hx
    by_cases htouch : Joined edges x a ∨ Joined edges x b
    · refine iff_of_false (by rw [hin x hx htouch]; exact Option.some_ne_none c) ?_
      intro halone
      have hold : Alone edges x := fun e he => halone e (mem_append_left _ he)
      have hnew := halone (a, b) (mem_append_right _ (mem_singleton_self _))
      rcases htouch with hxa | hxb
      · exact hnew.1 (hxa.eq_of_alone (Or.inl hold))
      · exact hnew.2 (hxb.eq_of_alone (Or.inl hold))
    · rw [(hout x hx htouch).1, h.none_iff x hx]
      constructor
      · intro halone e he
        rcases mem_append.mp he with he | he
        · exact halone e he
        · rw [mem_singleton.mp he]
          refine ⟨?_, ?_⟩
          · rintro rfl
            exact htouch (Or.inl (.refl _ _))
          · rintro rfl
            exact htouch (Or.inr (.refl _ _))
      · exact fun halone e he => halone e (mem_append_left _ he)
  · intro x hx y hy c' hc'
    rw [joined_concat]
    by_cases hxt : Joined edges x a ∨ Joined edges x b
    · rw [hin x hx hxt] at hc'
      obtain rfl := Option.some.inj hc'
      by_cases hyt : Joined edges y a ∨ Joined edges y b
      · refine iff_of_true (hin y hy hyt) ?_
        rcases hxt with hxa | hxb
        · rcases hyt with hya | hyb
          · exact Or.inl (hxa.trans hya.symm)
          · exact Or.inr (Or.inl ⟨hxa, hyb.symm⟩)
        · rcases hyt with hya | hyb
          · exact Or.inr (Or.inr ⟨hxb, hya.symm⟩)
          · exact Or.inl (hxb.trans hyb.symm)
      · obtain ⟨hsame, hne⟩ := hout y hy hyt
        refine iff_of_false (by rw [hsame]; exact hne) ?_
        rintro (hxy | ⟨-, hby⟩ | ⟨-, hay⟩)
        · rcases hxt with hxa | hxb
          · exact hyt (Or.inl (hxy.symm.trans hxa))
          · exact hyt (Or.inr (hxy.symm.trans hxb))
        · exact hyt (Or.inr hby.symm)
        · exact hyt (Or.inl hay.symm)
    · obtain ⟨hsame, hne⟩ := hout x hx hxt
      rw [hsame] at hc'
      have hother : ¬ (Joined edges x a ∧ Joined edges b y ∨ Joined edges x b ∧ Joined edges a y) := by
        rintro (⟨hxa, -⟩ | ⟨hxb, -⟩)
        · exact hxt (Or.inl hxa)
        · exact hxt (Or.inr hxb)
      rw [or_iff_left hother]
      by_cases hyt : Joined edges y a ∨ Joined edges y b
      · refine iff_of_false ?_ ?_
        · rw [hin y hy hyt]
          intro heq
          rw [hc'] at hne
          exact hne heq.symm
        · intro hxy
          rcases hyt with hya | hyb
          · exact hxt (Or.inl (hxy.trans hya))
          · exact hxt (Or.inr (hxy.trans hyb))
      · rw [(hout y hy hyt).1]
        exact h.same_iff x hx y hy c' hc'

lemma join_same (hca : cls a = some c) (hcb : cls b = some c) :
    Represents (edges ++ [(a, b)]) s cls := by
  refine h.join ha hb (c := c) ?_ ?_
  · rintro x hx (hxa | hxb)
    · exact (h.same_iff a ha x hx c hca).mpr hxa.symm
    · exact (h.same_iff b hb x hx c hcb).mpr hxb.symm
  · intro x hx htouch
    refine ⟨rfl, ?_⟩
    intro hc
    exact htouch (Or.inl ((h.same_iff a ha x hx c hca).mp hc).symm)

end

lemma swap (h : Represents (edges ++ [(a, b)]) s cls) : Represents (edges ++ [(b, a)]) s cls := by
  constructor
  · intro x hx
    rw [h.none_iff x hx]
    simp only [Alone, forall_mem_append, forall_mem_singleton]
    exact and_congr_right fun _ => and_comm
  · intro x hx y hy c hc
    rw [h.same_iff x hx y hy c hc, joined_concat, joined_concat]
    exact or_congr_right or_comm

/-- A point without a name joins a class. -/
lemma attach [DecidableEq α] (h : Represents edges s cls) (ha : a ∈ s) (hb : b ∈ s) {c : β}
    (hca : cls a = none) (hcb : cls b = some c)
    (hcls : ∀ x, cls' x = if x = a then some c else cls x) :
    Represents (edges ++ [(a, b)]) s cls' := by
  have halone := (h.none_iff a ha).mp hca
  refine h.join ha hb (c := c) ?_ ?_
  · intro x hx htouch
    rw [hcls]
    split
    · rfl
    · rename_i hne
      rcases htouch with hxa | hxb
      · exact absurd (hxa.eq_of_alone (Or.inr halone)) hne
      · exact (h.same_iff b hb x hx c hcb).mpr hxb.symm
  · intro x hx htouch
    have hne : x ≠ a := by
      rintro rfl
      exact htouch (Or.inl (.refl _ _))
    rw [hcls, if_neg hne]
    refine ⟨rfl, ?_⟩
    intro hc
    exact htouch (Or.inr ((h.same_iff b hb x hx c hcb).mp hc).symm)

lemma pair [DecidableEq α] (h : Represents edges s cls) (ha : a ∈ s) (hb : b ∈ s) {c : β}
    (hca : cls a = none) (hcb : cls b = none) (hnew : ∀ x ∈ s, cls x ≠ some c)
    (hcls : ∀ x, cls' x = if x = a ∨ x = b then some c else cls x) :
    Represents (edges ++ [(a, b)]) s cls' := by
  have hala := (h.none_iff a ha).mp hca
  have halb := (h.none_iff b hb).mp hcb
  refine h.join ha hb (c := c) ?_ ?_
  · intro x hx htouch
    rw [hcls, if_pos]
    exact htouch.imp (fun hxa => hxa.eq_of_alone (Or.inr hala))
      (fun hxb => hxb.eq_of_alone (Or.inr halb))
  · intro x hx htouch
    refine ⟨?_, hnew x hx⟩
    rw [hcls, if_neg]
    rintro (rfl | rfl)
    · exact htouch (Or.inl (.refl _ _))
    · exact htouch (Or.inr (.refl _ _))

lemma merge [DecidableEq β] (h : Represents edges s cls) (ha : a ∈ s) (hb : b ∈ s) {c d : β}
    (hca : cls a = some c) (hcb : cls b = some d)
    (hcls : ∀ x ∈ s, cls' x = if cls x = some d then some c else cls x) :
    Represents (edges ++ [(a, b)]) s cls' := by
  refine h.join ha hb (c := c) ?_ ?_
  · intro x hx htouch
    rw [hcls x hx]
    rcases htouch with hxa | hxb
    · rw [(h.same_iff a ha x hx c hca).mpr hxa.symm, ite_self]
    · rw [if_pos ((h.same_iff b hb x hx d hcb).mpr hxb.symm)]
  · intro x hx htouch
    have hnc : cls x ≠ some c := fun hc =>
      htouch (Or.inl ((h.same_iff a ha x hx c hca).mp hc).symm)
    have hnd : cls x ≠ some d := fun hd =>
      htouch (Or.inr ((h.same_iff b hb x hx d hcb).mp hd).symm)
    exact ⟨by rw [hcls x hx, if_neg hnd], hnc⟩

end Represents

/-- The map names the classes of the points of `s`, and may leave out points on no edge. -/
structure Separates (edges : List (α × α)) (s : Set α) (cls : α → Option β) : Prop where
  alone : ∀ x ∈ s, cls x = none → Alone edges x
  /-- Two points have the same name exactly when they are connected. -/
  same_iff : ∀ x ∈ s, ∀ y ∈ s, ∀ c, cls x = some c → (cls y = some c ↔ Joined edges x y)

namespace Separates

variable {s : Set α} {cls cls' : α → Option β}

lemma ofRepresents (h : Represents edges s cls) : Separates edges s cls :=
  ⟨fun x hx => (h.none_iff x hx).mp, h.same_iff⟩

/-- A point on no edge gets a class of its own. -/
lemma single [DecidableEq α] (h : Separates edges s cls) (ha : a ∈ s) {c : β}
    (hca : cls a = none) (hnew : ∀ x ∈ s, cls x ≠ some c)
    (hcls : ∀ x, cls' x = if x = a then some c else cls x) : Separates edges s cls' := by
  have halone := h.alone a ha hca
  constructor
  · intro x hx hnone
    rw [hcls] at hnone
    split at hnone
    · cases hnone
    · exact h.alone x hx hnone
  · intro x hx y hy d hd
    rw [hcls] at hd ⊢
    split at hd
    · rename_i hxa
      obtain rfl := Option.some.inj hd
      subst hxa
      constructor
      · intro hy'
        split at hy'
        · rename_i hyx
          rw [hyx]
          exact .refl _ _
        · exact absurd hy' (hnew y hy)
      · intro hjoined
        rw [if_pos (hjoined.eq_of_alone (Or.inl halone)).symm]
    · rename_i hxa
      by_cases hya : y = a
      · subst hya
        rw [if_pos rfl]
        refine iff_of_false ?_ ?_
        · intro heq
          rw [← heq] at hd
          exact hnew x hx hd
        · intro hjoined
          exact hxa (hjoined.eq_of_alone (Or.inr halone))
      · rw [if_neg hya]
        exact h.same_iff x hx y hy d hd

lemma eq_iff (h : Separates edges s cls) (hx : x ∈ s) (hy : y ∈ s) (hxn : cls x ≠ none) :
    cls x = cls y ↔ Joined edges x y := by
  obtain ⟨c, hc⟩ := Option.ne_none_iff_exists'.mp hxn
  rw [hc, eq_comm]
  exact h.same_iff x hx y hy c hc

end Separates

end AudioReach.Library
