import Mathlib.Data.List.Basic
import Mathlib.Data.Nat.ModEq

/-!
# A stream laid out in a ring

A stream is written into a memory of `size` cells, from the cell `start` on and around its end
back to cell `0`.  The memory *shows* the stream when each of its last `size` elements is in the
cell it was written to.  Two kinds of writes keep this: the next elements at the end of the
stream, and a patch of elements that are among the last `size`.  Both overwrite a stretch of the
stream, and both are a store to adjacent cells, as long as the stretch does not go around the
end of the memory.  `storeRing` is the loop that goes around it.
-/

namespace AudioReach.Library

open List

variable {α : Type*} {size start a : ℕ} {m : ℕ → α} {S xs ys : List α}

/-- The memory after `xs` is stored to the adjacent cells from `off` on. -/
def putAt (m : ℕ → α) (off : ℕ) (xs : List α) : ℕ → α :=
  fun p => if off ≤ p then xs[p - off]?.getD (m p) else m p

lemma putAt_add {off j : ℕ} {x : α} (h : xs[j]? = some x) : putAt m off xs (off + j) = x := by
  simp [putAt, h]

lemma putAt_of_outside {off p : ℕ} (h : p < off ∨ off + xs.length ≤ p) :
    putAt m off xs p = m p := by
  rcases h with h | h
  · simp [putAt, Nat.not_le.mpr h]
  · have hnone : xs[p - off]? = none := getElem?_eq_none (by omega)
    simp [putAt, hnone]

/-- The elements of `n` adjacent cells from `off` on. -/
def getAt (m : ℕ → α) (off n : ℕ) : List α :=
  (range n).map fun k => m (off + k)

section

variable (m : ℕ → α)

@[simp] lemma length_getAt (off n : ℕ) : (getAt m off n).length = n := by
  simp [getAt]

lemma getAt_add (off n k : ℕ) : getAt m off (n + k) = getAt m off n ++ getAt m (off + n) k := by
  simp [getAt, range_add, Nat.add_assoc]

lemma take_getAt (off : ℕ) {n k : ℕ} (h : k ≤ n) : (getAt m off n).take k = getAt m off k := by
  obtain ⟨d, rfl⟩ := Nat.exists_eq_add_of_le h
  rw [getAt_add, take_left' (length_getAt m off k)]

lemma getAt_putAt (off : ℕ) (xs : List α) : getAt (putAt m off xs) off xs.length = xs := by
  apply ext_getElem?
  intro j
  rcases Nat.lt_or_ge j xs.length with hj | hj
  · simp [getAt, hj, putAt_add (getElem?_eq_getElem hj)]
  · rw [getElem?_eq_none (by simpa using hj), getElem?_eq_none hj]

end

lemma getAt_putAt_of_outside {off p n : ℕ} (h : p + n ≤ off ∨ off + xs.length ≤ p) :
    getAt (putAt m off xs) p n = getAt m p n := by
  apply map_congr_left
  intro k hk
  rw [mem_range] at hk
  exact putAt_of_outside (by omega)

/-- A store to a memory of `size` cells, or `none` if it does not stay inside. -/
def storeIn (size : ℕ) (m : ℕ → α) (off : ℕ) (xs : List α) : Option (ℕ → α) :=
  if off + xs.length ≤ size then some (putAt m off xs) else none

lemma storeIn_eq_some {off : ℕ} (h : off + xs.length ≤ size) :
    storeIn size m off xs = some (putAt m off xs) :=
  if_pos h

/-- The stream `S` with its elements from `a` on replaced by `xs`, and `xs` appended where `S`
has no elements. -/
def overwrite (S : List α) (a : ℕ) (xs : List α) : List α :=
  S.take a ++ xs ++ S.drop (a + xs.length)

lemma overwrite_length (S : List α) : overwrite S S.length xs = S ++ xs := by
  simp [overwrite]

lemma overwrite_append (A B C : List α) (h : xs.length = B.length) :
    overwrite (A ++ (B ++ C)) A.length xs = A ++ (xs ++ C) := by
  rw [overwrite, take_left, h, ← drop_drop, drop_left, drop_left, append_assoc]

variable (xs) in
lemma take_drop_overwrite (ha : a ≤ S.length) :
    ((overwrite S a xs).drop a).take xs.length = xs := by
  rw [overwrite, append_assoc, drop_left' (length_take_of_le ha), take_left]

lemma getElem?_overwrite (ha : a ≤ S.length) (j : ℕ) :
    (overwrite S a xs)[j]? = if a ≤ j ∧ j < a + xs.length then xs[j - a]? else S[j]? := by
  have hlen : (S.take a).length = a := length_take_of_le ha
  by_cases hlow : j < a
  · rw [if_neg (by omega), overwrite, append_assoc, getElem?_append_left (by omega),
      getElem?_take_of_lt hlow]
  · by_cases hhigh : j < a + xs.length
    · rw [if_pos (by omega), overwrite, append_assoc, getElem?_append_right (by omega),
        hlen, getElem?_append_left (by omega)]
    · rw [if_neg (by omega), overwrite, getElem?_append_right
          (by rw [length_append]; omega), getElem?_drop, length_append, hlen]
      congr 1
      omega

lemma length_overwrite (ha : a ≤ S.length) :
    (overwrite S a xs).length = max S.length (a + xs.length) := by
  simp only [overwrite, length_append, length_take, length_drop]
  omega

/-- The memory shows the last `size` elements of `S`, laid out from `start` on. -/
def Shows (size : ℕ) (m : ℕ → α) (start : ℕ) (S : List α) : Prop :=
  ∀ j x, S[j]? = some x → S.length ≤ j + size → m ((start + j) % size) = x

lemma Shows.nil : Shows size m start [] := by
  intro j x hx
  simp at hx

/-- Two of `size` consecutive positions of a stream are in different cells. -/
lemma eq_of_mod_eq {i j : ℕ} (h : (start + i) % size = (start + j) % size) (hij : i < j + size)
    (hji : j < i + size) : i = j := by
  have hmod : i ≡ j [MOD size] := Nat.ModEq.add_left_cancel' start h
  rcases Nat.le_total i j with hle | hle
  · have hdvd : size ∣ j - i := (Nat.modEq_iff_dvd' hle).mp hmod
    have hzero : j - i = 0 := Nat.eq_zero_of_dvd_of_lt hdvd (by omega)
    omega
  · have hdvd : size ∣ i - j := (Nat.modEq_iff_dvd' hle).mp hmod.symm
    have hzero : i - j = 0 := Nat.eq_zero_of_dvd_of_lt hdvd (by omega)
    omega

/-- The cell after `d` steps that do not go around the end. -/
lemma add_mod_of_fits {n d : ℕ} (h : n % size + d < size) : (n + d) % size = n % size + d := by
  rw [Nat.add_mod, Nat.mod_eq_of_lt (a := d) (by omega), Nat.mod_eq_of_lt h]

variable (a xs) in
/-- **Writing into a ring.** Elements stored over a stretch that fits before the end of the
memory, and that is among the last `size` elements of the stream. -/
theorem Shows.overwrite (h : Shows size m start S) (ha : a ≤ S.length)
    (hfits : (start + a) % size + xs.length ≤ size) (hlast : S.length ≤ a + size) :
    Shows size (putAt m ((start + a) % size) xs) start (overwrite S a xs) := by
  intro j x hx hj
  rw [getElem?_overwrite ha] at hx
  rw [length_overwrite ha] at hj
  split at hx
  · rename_i hin
    have hcell : (start + j) % size = (start + a) % size + (j - a) := by
      rw [← add_mod_of_fits (by omega)]
      congr 1
      omega
    rw [hcell]
    exact putAt_add hx
  · rename_i hout
    have hj' : j < S.length := (List.getElem?_eq_some_iff.mp hx).1
    have hcell : (start + j) % size < (start + a) % size ∨
        (start + a) % size + xs.length ≤ (start + j) % size := by
      by_contra hcon
      obtain ⟨d, hd⟩ : ∃ d, (start + j) % size = (start + a) % size + d :=
        ⟨(start + j) % size - (start + a) % size, by omega⟩
      have heq : (start + j) % size = (start + (a + d)) % size := by
        rw [hd, ← Nat.add_assoc, add_mod_of_fits (n := start + a) (by omega)]
      have := eq_of_mod_eq heq (by omega) (by omega)
      omega
    rw [putAt_of_outside hcell]
    exact h j x hx (by omega)

variable (xs) in
lemma Shows.append (h : Shows size m start S)
    (hfits : (start + S.length) % size + xs.length ≤ size) :
    Shows size (putAt m ((start + S.length) % size) xs) start (S ++ xs) := by
  have hover := h.overwrite S.length xs (Nat.le_refl _) hfits (Nat.le_add_right _ _)
  rwa [overwrite_length] at hover

variable (xs) in
/-- A patch of the elements `B`. -/
lemma Shows.patch {A B C : List α} (h : Shows size m start (A ++ (B ++ C)))
    (hlen : xs.length = B.length) (hfits : (start + A.length) % size + xs.length ≤ size)
    (hlast : B.length + C.length ≤ size) :
    Shows size (putAt m ((start + A.length) % size) xs) start (A ++ (xs ++ C)) := by
  have hover := h.overwrite A.length xs (by simp) hfits (by simp; omega)
  rwa [overwrite_append _ _ _ hlen] at hover

/-- The elements from position `a` of the stream on, read in ring order. -/
lemma Shows.read (h : Shows size m start (S ++ xs ++ ys)) (hlast : xs.length + ys.length ≤ size)
    (j : ℕ) (x : α) (hx : xs[j]? = some x) : m ((start + S.length + j) % size) = x := by
  have hj : j < xs.length := (List.getElem?_eq_some_iff.mp hx).1
  rw [Nat.add_assoc]
  apply h
  · rw [append_assoc, getElem?_append_right (by omega), Nat.add_sub_cancel_left,
      getElem?_append_left hj, hx]
  · simp only [length_append]
    omega

/-! ## Writing around the end -/

/-- The index after `n` elements were written at `off`, with the test at the end of the memory. -/
def wrapIndex (size off n : ℕ) : ℕ :=
  if size ≤ off + n then 0 else off + n

lemma wrapIndex_eq {n k : ℕ} (h : n % size + k ≤ size) :
    wrapIndex size (n % size) k = (n + k) % size := by
  rw [wrapIndex]
  split
  · have hend : n % size + k = size := by omega
    rw [← Nat.mod_add_mod, hend, Nat.mod_self]
  · rw [add_mod_of_fits (by omega)]

/-- Stores the elements at `off`, as many as fit before the end of the memory, and goes on at its
beginning.  Gives the memory and the index after them, or `none` if a store leaves the memory or
`fuel` rounds are too few. -/
def storeRing (size : ℕ) : ℕ → (ℕ → α) → ℕ → List α → Option ((ℕ → α) × ℕ)
  | _, m, off, [] => some (m, off)
  | 0, _, _, _ :: _ => none
  | fuel + 1, m, off, x :: xs =>
    let n := min (xs.length + 1) (size - off)
    (storeIn size m off ((x :: xs).take n)).bind fun m =>
      storeRing size fuel m (wrapIndex size off n) ((x :: xs).drop n)

variable (xs) in
/-- The loop writes the next elements of the stream. -/
theorem Shows.storeRing (hsize : 0 < size) (fuel : ℕ) (hfuel : xs.length ≤ fuel)
    (h : Shows size m start S) :
    ∃ m', storeRing size fuel m ((start + S.length) % size) xs
        = some (m', (start + (S ++ xs).length) % size) ∧
      Shows size m' start (S ++ xs) := by
  induction fuel generalizing m S xs with
  | zero =>
    obtain rfl : xs = [] := length_eq_zero_iff.mp (by omega)
    rw [append_nil]
    exact ⟨m, rfl, h⟩
  | succ fuel ih =>
    cases xs with
    | nil =>
      rw [append_nil]
      exact ⟨m, rfl, h⟩
    | cons x xs =>
      have hlt : (start + S.length) % size < size := Nat.mod_lt _ hsize
      generalize hn : min (xs.length + 1) (size - (start + S.length) % size) = n
      have hle : n ≤ (x :: xs).length := by rw [length_cons]; omega
      have htake : ((x :: xs).take n).length = n := length_take_of_le hle
      have hnext := h.append ((x :: xs).take n) (by omega)
      have hdrop : ((x :: xs).drop n).length ≤ fuel := by
        rw [length_drop]
        omega
      obtain ⟨m', hloop, hshows⟩ := ih _ hdrop hnext
      rw [append_assoc, take_append_drop] at hloop hshows
      refine ⟨m', ?_, hshows⟩
      rw [Library.storeRing, hn, wrapIndex_eq (by omega), storeIn_eq_some (by omega),
        Option.bind_some, ← hloop, length_append, htake, Nat.add_assoc]

end AudioReach.Library
