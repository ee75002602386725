import Mathlib.Data.List.Induction
import Mathlib.Order.Lattice

/-!
# Serving by priority

Elements wait in the order in which they came.  The one to be served next is the first of those
with the greatest key (`firstMax`), and `serve` takes it out of the waiting list.

The same order is kept by a list to which each element is added behind all those whose key is
not smaller (`insertByKey`): its elements are served from the front (`serve_eq`).
-/

namespace AudioReach.Library

open List

variable {α κ : Type*} [LinearOrder κ] (key : α → κ)

/-- Add an element behind all those whose key is not smaller. -/
def insertByKey (x : α) (l : List α) : List α :=
  l.takeWhile (key x ≤ key ·) ++ x :: l.dropWhile (key x ≤ key ·)

/-- The waiting elements, in the order in which they are served. -/
def byKey (waiting : List α) : List α :=
  waiting.foldl (fun l x => insertByKey key x l) []

/-- The first of the elements with the greatest key. -/
def firstMax : List α → Option α
  | [] => none
  | x :: l =>
    match firstMax l with
    | none => some x
    | some y => if key y ≤ key x then some x else some y

/-- The next element to be served, and those that wait on. -/
def serve (waiting : List α) : Option (α × List α) :=
  (firstMax key waiting).map fun x => (x, waiting.eraseP (key · = key x))

variable {key} {l : List α} {x y : α}

lemma insertByKey_cons_of_le (h : key x ≤ key y) :
    insertByKey key x (y :: l) = y :: insertByKey key x l := by
  simp [insertByKey, h]

lemma insertByKey_cons_of_lt (h : key y < key x) : insertByKey key x (y :: l) = x :: y :: l := by
  simp [insertByKey, h.not_ge]

lemma byKey_concat : byKey key (l ++ [x]) = insertByKey key x (byKey key l) := by
  rw [byKey, byKey, foldl_append, foldl_cons, foldl_nil]

lemma insertByKey_perm : (insertByKey key x l).Perm (x :: l) := by
  refine perm_middle.trans ?_
  rw [takeWhile_append_dropWhile]

lemma byKey_perm : (byKey key l).Perm l := by
  induction l using reverseRecOn with
  | nil => rfl
  | append_singleton l x ih =>
    rw [byKey_concat]
    exact (insertByKey_perm.trans (ih.cons x)).trans (perm_append_singleton x l).symm

/-- The first greatest element after one more came. -/
lemma firstMax_concat : firstMax key (l ++ [x]) =
    match firstMax key l with
    | none => some x
    | some y => if key x ≤ key y then some y else some x := by
  induction l with
  | nil => rfl
  | cons z l ih =>
    rw [cons_append, firstMax, ih, firstMax]
    cases firstMax key l with
    | none => rfl
    | some y =>
      dsimp only
      by_cases hx : key x ≤ key y
      · rw [if_pos hx]
        by_cases hy : key y ≤ key z
        · rw [if_pos hy]
          exact (if_pos hy).trans (if_pos (hx.trans hy)).symm
        · rw [if_neg hy]
          exact (if_neg hy).trans (if_pos hx).symm
      · rw [if_neg hx]
        by_cases hy : key y ≤ key z
        · rw [if_pos hy]
        · have hxz : ¬ key x ≤ key z := fun h => hy ((not_le.mp hx).le.trans h)
          rw [if_neg hy]
          exact (if_neg hxz).trans (if_neg hx).symm

/-- No key is greater. -/
lemma le_of_firstMax (h : firstMax key l = some y) : ∀ z ∈ l, key z ≤ key y := by
  induction l using reverseRecOn generalizing y with
  | nil => cases h
  | append_singleton l x ih =>
    rw [firstMax_concat] at h
    cases hmax : firstMax key l with
    | none =>
      have hnil : l = [] := by
        cases l with
        | nil => rfl
        | cons z l =>
          rw [firstMax] at hmax
          split at hmax
          · cases hmax
          · split_ifs at hmax
      rw [hmax] at h
      obtain rfl := Option.some.inj h
      simp [hnil]
    | some m =>
      have hle := ih hmax
      rw [hmax] at h
      dsimp only at h
      intro z hz
      rcases mem_append.mp hz with hz | hz
      · split_ifs at h with hx
        · obtain rfl := Option.some.inj h
          exact hle z hz
        · obtain rfl := Option.some.inj h
          exact (hle z hz).trans (not_le.mp hx).le
      · obtain rfl := mem_singleton.mp hz
        split_ifs at h with hx
        · obtain rfl := Option.some.inj h
          exact hx
        · obtain rfl := Option.some.inj h
          exact le_rfl

lemma mem_of_firstMax (h : firstMax key l = some y) : y ∈ l := by
  induction l generalizing y with
  | nil => cases h
  | cons x l ih =>
    rw [firstMax] at h
    split at h
    · obtain rfl := Option.some.inj h
      exact mem_cons_self
    · rename_i m hm
      split_ifs at h
      · obtain rfl := Option.some.inj h
        exact mem_cons_self
      · obtain rfl := Option.some.inj h
        exact mem_cons_of_mem x (ih hm)

/-- **Serving in order.**  The list in serving order gives the next element at its front, and
then is the list of those that wait on. -/
theorem serve_eq (waiting : List α) :
    match byKey key waiting with
    | [] => serve key waiting = none
    | x :: rest => ∃ waiting', serve key waiting = some (x, waiting') ∧
        byKey key waiting' = rest := by
  induction waiting using reverseRecOn with
  | nil => rfl
  | append_singleton l x ih =>
    rw [byKey_concat]
    cases hsorted : byKey key l with
    | nil =>
      have hnil : l = [] := by
        have hperm : (byKey key l).Perm l := byKey_perm
        rwa [hsorted, nil_perm] at hperm
      subst hnil
      exact ⟨[], by simp [serve, firstMax], rfl⟩
    | cons y rest =>
      rw [hsorted] at ih
      obtain ⟨waiting', hserve, hrest⟩ := ih
      obtain ⟨m, hmax, hm⟩ := Option.map_eq_some_iff.mp hserve
      obtain ⟨rfl, rfl⟩ := Prod.mk.inj hm
      have hfirst : firstMax key (l ++ [x]) = if key x ≤ key m then some m else some x := by
        rw [firstMax_concat, hmax]
      by_cases hx : key x ≤ key m
      · rw [insertByKey_cons_of_le hx]
        refine ⟨l.eraseP (key · = key m) ++ [x], ?_, by rw [byKey_concat, hrest]⟩
        rw [serve, hfirst, if_pos hx, Option.map_some,
          eraseP_append_left (by simp) _ (mem_of_firstMax hmax)]
      · have hlt := not_le.mp hx
        rw [insertByKey_cons_of_lt hlt]
        refine ⟨l, ?_, hsorted⟩
        have hnone : ∀ z ∈ l, ¬ decide (key z = key x) = true := by
          intro z hz heq
          exact absurd (le_of_firstMax hmax z hz) (not_le.mpr ((of_decide_eq_true heq).symm ▸ hlt))
        rw [serve, hfirst, if_neg hx, Option.map_some, eraseP_append_right _ hnone]
        simp

/-- Keys do not increase along a list. -/
def Sorted (key : α → κ) (l : List α) : Prop := l.Pairwise fun x y => key y ≤ key x

/-- Behind the elements whose key is not smaller than `k`, all keys are smaller. -/
lemma Sorted.lt_of_mem_dropWhile (h : Sorted key l) {k : κ} :
    ∀ z ∈ l.dropWhile (k ≤ key ·), key z < k := by
  induction l with
  | nil => simp
  | cons y l ih =>
    obtain ⟨hle, hl⟩ := pairwise_cons.mp h
    by_cases hy : k ≤ key y
    · rw [dropWhile_cons_of_pos (by simpa using hy)]
      exact ih hl
    · rw [dropWhile_cons_of_neg (by simpa using hy)]
      have hlt := not_le.mp hy
      intro z hz
      rcases mem_cons.mp hz with rfl | hz
      · exact hlt
      · exact (hle z hz).trans_lt hlt

lemma Sorted.insertByKey (h : Sorted key l) : Sorted key (insertByKey key x l) := by
  induction l with
  | nil => exact pairwise_singleton _ x
  | cons y l ih =>
    obtain ⟨hle, hl⟩ := pairwise_cons.mp h
    by_cases hx : key x ≤ key y
    · rw [insertByKey_cons_of_le hx]
      refine pairwise_cons.mpr ⟨fun z hz => ?_, ih hl⟩
      rcases mem_cons.mp (insertByKey_perm.mem_iff.mp hz) with rfl | hz
      · exact hx
      · exact hle z hz
    · have hlt := not_le.mp hx
      rw [insertByKey_cons_of_lt hlt]
      refine pairwise_cons.mpr ⟨fun z hz => ?_, h⟩
      rcases mem_cons.mp hz with rfl | hz
      · exact hlt.le
      · exact (hle z hz).trans hlt.le

lemma sorted_byKey : Sorted key (byKey key l) := by
  induction l using reverseRecOn with
  | nil => exact List.Pairwise.nil
  | append_singleton l x ih =>
    rw [byKey_concat]
    exact ih.insertByKey

end AudioReach.Library
