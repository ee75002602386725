import AudioReach.Interleaver.Model
import AudioReach.Library.Interleave

/-!
# The loops of the interleaver

Seen as samples, the memory of a buffer is a sequence, and every loop nest of the interleaver
does the same for its width: a loop over the samples of a channel writes a stripe of the
interleaved sequence, or copies every `C`-th sample, as long as the indices are not negative.
-/

namespace AudioReach.Interleaver

open Function (update update_of_ne update_self)
open Library List Option

/-! ## Bytes and samples -/

section Samples

variable {w : ℕ}

lemma load_injective [NeZero w] {m m' : Bytes} (h : load w m = load w m') : m = m' := by
  funext x
  have hx := congrFun (congrFun h (x / w)) ⟨x % w, Nat.mod_lt x (Nat.pos_of_neZero w)⟩
  simp only [load, Nat.div_add_mod] at hx
  exact hx

@[simp] lemma load_store [NeZero w] (m : Bytes) (k : ℕ) (v : Fin w → UInt8) :
    load w (store w m k v) = update (load w m) k v := by
  funext e b
  have hdiv : (w * e + b) / w = e := by
    rw [Nat.mul_add_div (Nat.pos_of_neZero w), Nat.div_eq_of_lt b.isLt, Nat.add_zero]
  have hmod : Fin.ofNat w (w * e + b) = b := by
    apply Fin.ext
    rw [Fin.val_ofNat, Nat.mul_add_mod, Nat.mod_eq_of_lt b.isLt]
  by_cases he : e = k
  · subst he
    rw [load, store, if_pos hdiv, hmod, update_self]
  · rw [load, store, if_neg (by rwa [hdiv]), update_of_ne he, load]

lemma store_three (src dst : Bytes) (e i : ℕ) :
    update (update (update dst (3 * e + 0) (src (3 * i + 0))) (3 * e + 1) (src (3 * i + 1)))
      (3 * e + 2) (src (3 * i + 2)) = store 3 dst e (load 3 src i) := by
  funext x
  rw [store]
  by_cases hx : x / 3 = e
  · rw [if_pos hx, load, Fin.val_ofNat]
    obtain h | h | h : x % 3 = 0 ∨ x % 3 = 1 ∨ x % 3 = 2 := by omega
    · rw [h, update_of_ne (by omega), update_of_ne (by omega),
        show x = 3 * e + 0 by omega, update_self]
    · rw [h, update_of_ne (by omega), show x = 3 * e + 1 by omega, update_self]
    · rw [h, show x = 3 * e + 2 by omega, update_self]
  · rw [if_neg hx, update_of_ne (by omega), update_of_ne (by omega), update_of_ne (by omega)]

lemma mul_add_lt_iff {k e : ℕ} (b : Fin w) : w * e + b < w * k ↔ e < k := by
  constructor
  · intro h
    by_contra hge
    have := Nat.mul_le_mul_left w (Nat.not_lt.mp hge)
    omega
  · intro h
    have := Nat.mul_le_mul_left w h
    rw [Nat.mul_succ] at this
    omega

lemma memscpy_eq_overlay (n : ℕ) (src dst : Bytes) : memscpy n src dst = overlay n src dst := rfl

lemma load_memscpy (n : ℕ) (src dst : Bytes) :
    load w (memscpy (w * n) src dst) = overlay n (load w src) (load w dst) := by
  funext e b
  simp only [load, memscpy, overlay, mul_add_lt_iff]
  by_cases he : e < n
  · rw [if_pos he, if_pos he, load]
  · rw [if_neg he, if_neg he, load]

lemma load_dropFirst (k : ℕ) (m : Bytes) :
    load w (dropFirst (w * k) m) = dropFirst k (load w m) := by
  funext e b
  simp only [load, dropFirst, Nat.mul_add, Nat.add_assoc]

lemma load_placeAt (k : ℕ) (old new : Bytes) :
    load w (placeAt (w * k) old new) = placeAt k (load w old) (load w new) := by
  funext e b
  simp only [load, placeAt, mul_add_lt_iff]
  by_cases he : e < k
  · rw [if_pos he, if_pos he, load]
  · have hle := Nat.mul_le_mul_left w (Nat.not_lt.mp he)
    rw [if_neg he, if_neg he, load, Nat.mul_sub, Nat.sub_add_comm hle]

end Samples

/-! ## The loops over the samples of a channel -/

lemma index_eq_some {k : UInt32} {e : ℕ} (hk : k.toNat = e) (he : e < 2 ^ 31) :
    index k = some e := by
  rw [index, hk, if_pos he]

section Loops

variable {w : ℕ} [NeZero w] {C : UInt32} {j : ℕ}

lemma next_index {i left : ℕ} {k : UInt32} (hj : j < C.toNat) (hk : k.toNat = i * C.toNat + j)
    (hfit : (i + (left + 1)) * C.toNat < 2 ^ 31) :
    i * C.toNat + j < 2 ^ 31 ∧ (k + C).toNat = (i + 1) * C.toNat + j ∧
      (i + 1 + left) * C.toNat < 2 ^ 31 := by
  have hsplit : (i + (left + 1)) * C.toNat = i * C.toNat + (left * C.toNat + C.toNat) := by
    rw [Nat.add_mul, Nat.succ_mul]
  have hnext : (i + 1) * C.toNat = i * C.toNat + C.toNat := Nat.succ_mul _ _
  refine ⟨by omega, ?_, by rwa [Nat.add_assoc, Nat.add_comm 1 left]⟩
  rw [UInt32.toNat_add, hk, Nat.mod_eq_of_lt (by omega)]
  omega

section

variable {left i : ℕ} {k : UInt32} (hj : j < C.toNat) (src : Bytes) (hk : k.toNat = i * C.toNat + j)
  (hfit : (i + left) * C.toNat < 2 ^ 31) (dst : Bytes)
include hj hk hfit

lemma intlvSamples_spec : ∃ dst', intlvSamples w C src left i k dst = some dst' ∧
      load w dst' = stripe C.toNat j i (i + left) (load w src) (load w dst) := by
  induction left generalizing i k dst with
  | zero => exact ⟨dst, rfl, (stripe_nil _ _ _ _ _).symm⟩
  | succ left ih =>
    obtain ⟨hlt, hnext, hfit'⟩ := next_index hj hk hfit
    obtain ⟨dst', hrun, hload⟩ := ih hnext hfit' (store w dst (i * C.toNat + j) (load w src i))
    refine ⟨dst', ?_, ?_⟩
    · rw [intlvSamples, index_eq_some hk hlt, bind_some, hrun]
    · rw [hload, load_store, Nat.add_assoc i 1 left, Nat.add_comm 1 left, stripe_cons hj (by omega)]

/-- The samples of a channel are loaded from every `C`-th place. -/
lemma deintlvSamples_spec : ∃ dst', deintlvSamples w C src left i k dst = some dst' ∧
      load w dst' = stripe 1 0 i (i + left) (deinterleave C.toNat (load w src) j) (load w dst) := by
  induction left generalizing i k dst with
  | zero => exact ⟨dst, rfl, (stripe_nil _ _ _ _ _).symm⟩
  | succ left ih =>
    obtain ⟨hlt, hnext, hfit'⟩ := next_index hj hk hfit
    obtain ⟨dst', hrun, hload⟩ := ih hnext hfit' (store w dst i (load w src (i * C.toNat + j)))
    refine ⟨dst', ?_, ?_⟩
    · rw [deintlvSamples, index_eq_some hk hlt, bind_some, hrun]
    · have hcons := stripe_cons (show 0 < 1 by decide) (show i < i + (left + 1) by omega)
        (deinterleave C.toNat (load w src) j) (load w dst)
      rw [Nat.mul_one, Nat.add_zero] at hcons
      rw [hload, load_store, Nat.add_assoc i 1 left, Nat.add_comm 1 left, ← hcons]
      rfl

end

end Loops

section LoopsThree

variable {C : UInt32} {j : ℕ}

section

variable {i left : ℕ} (hj : j < C.toNat)
include hj

lemma three_index (hfit : 3 * ((i + (left + 1)) * C.toNat) < 2 ^ 31) :
    (3 * (UInt32.ofNat i * C + UInt32.ofNat j)).toNat = 3 * (i * C.toNat + j) ∧
      3 * (i * C.toNat + j) < 2 ^ 31 ∧ (UInt32.ofNat i * 3).toNat = 3 * i ∧ 3 * (i + 1) < 2 ^ 31 ∧
      3 * ((i + 1 + left) * C.toNat) < 2 ^ 31 := by
  have hsplit : (i + (left + 1)) * C.toNat = i * C.toNat + (left * C.toNat + C.toNat) := by
    rw [Nat.add_mul, Nat.succ_mul]
  have hself : i + (left + 1) ≤ (i + (left + 1)) * C.toNat := Nat.le_mul_of_pos_right _ (by omega)
  have hsize : UInt32.size = 2 ^ 32 := rfl
  have hi : (UInt32.ofNat i).toNat = i := UInt32.toNat_ofNat_of_lt' (by omega)
  have hj' : (UInt32.ofNat j).toNat = j := UInt32.toNat_ofNat_of_lt' (by omega)
  have hthree : (3 : UInt32).toNat = 3 := rfl
  have hlt : 3 * (i * C.toNat + j) < 2 ^ 31 := by omega
  refine ⟨?_, hlt, ?_, by omega, by rwa [Nat.add_assoc, Nat.add_comm 1 left]⟩
  · rw [UInt32.toNat_mul, UInt32.toNat_add, UInt32.toNat_mul, hi, hj', hthree,
      Nat.mod_eq_of_lt (show i * C.toNat < 2 ^ 32 by omega),
      Nat.mod_eq_of_lt (show i * C.toNat + j < 2 ^ 32 by omega), Nat.mod_eq_of_lt (by omega)]
  · rw [UInt32.toNat_mul, hi, hthree, Nat.mod_eq_of_lt (by omega), Nat.mul_comm]

lemma intlvSamples3_spec (src : Bytes) {temp : UInt32} (htemp : temp.toNat = 3 * i)
    (hfit : 3 * ((i + left) * C.toNat) < 2 ^ 31) (dst : Bytes) :
    ∃ dst', intlvSamples3 3 C src j left i temp dst = some dst' ∧
      load 3 dst' = stripe C.toNat j i (i + left) (load 3 src) (load 3 dst) := by
  induction left generalizing i temp dst with
  | zero => exact ⟨dst, rfl, (stripe_nil _ _ _ _ _).symm⟩
  | succ left ih =>
    obtain ⟨hk, hlt, -, hnext, hfit'⟩ := three_index hj hfit
    have htemp' : (temp + 3).toNat = 3 * (i + 1) := by
      rw [UInt32.toNat_add, htemp, show (3 : UInt32).toNat = 3 from rfl,
        Nat.mod_eq_of_lt (by omega)]
      omega
    obtain ⟨dst', hrun, hload⟩ := ih htemp' hfit' (store 3 dst (i * C.toNat + j) (load 3 src i))
    refine ⟨dst', ?_, ?_⟩
    · rw [intlvSamples3, index_eq_some hk hlt, bind_some, index_eq_some htemp (by omega), bind_some]
      dsimp only
      rw [store_three, hrun]
    · rw [hload, load_store, Nat.add_assoc i 1 left, Nat.add_comm 1 left, stripe_cons hj (by omega)]

/-- The samples of a channel, of three bytes each, are loaded from every `C`-th place. -/
lemma deintlvSamples3_spec (src : Bytes) {k : UInt32}
    (hk : left ≠ 0 → k.toNat = 3 * (i * C.toNat + j)) (hfit : 3 * ((i + left) * C.toNat) < 2 ^ 31)
    (dst : Bytes) :
    ∃ dst', deintlvSamples3 3 C src left i k dst = some dst' ∧
      load 3 dst' = stripe 1 0 i (i + left) (deinterleave C.toNat (load 3 src) j) (load 3 dst) := by
  induction left generalizing i k dst with
  | zero => exact ⟨dst, rfl, (stripe_nil _ _ _ _ _).symm⟩
  | succ left ih =>
    replace hk := hk (Nat.succ_ne_zero left)
    obtain ⟨-, hlt, htemp, hnext, hfit'⟩ := three_index hj hfit
    have hk' : left ≠ 0 → (k + 3 * C).toNat = 3 * ((i + 1) * C.toNat + j) := by
      intro hleft
      have hC : 3 * C.toNat < 2 ^ 31 := by
        refine lt_of_le_of_lt (Nat.mul_le_mul_left 3 ?_) hfit
        exact Nat.le_mul_of_pos_left _ (by omega)
      have hsucc : (i + 1) * C.toNat = i * C.toNat + C.toNat := Nat.succ_mul _ _
      rw [UInt32.toNat_add, UInt32.toNat_mul, hk, show (3 : UInt32).toNat = 3 from rfl,
        Nat.mod_eq_of_lt (show 3 * C.toNat < 2 ^ 32 by omega), Nat.mod_eq_of_lt (by omega)]
      omega
    obtain ⟨dst', hrun, hload⟩ :=
      ih hk' hfit' (store 3 dst i (load 3 src (i * C.toNat + j)))
    refine ⟨dst', ?_, ?_⟩
    · rw [deintlvSamples3, index_eq_some htemp (by omega), bind_some,
        index_eq_some hk hlt, bind_some]
      dsimp only
      rw [store_three, hrun]
    · have hcons := stripe_cons (show 0 < 1 by decide) (show i < i + (left + 1) by omega)
        (deinterleave C.toNat (load 3 src) j) (load 3 dst)
      rw [Nat.mul_one, Nat.add_zero] at hcons
      rw [hload, load_store, Nat.add_assoc i 1 left, Nat.add_comm 1 left, ← hcons]
      rfl

end

end LoopsThree

/-! ## The loops over the channels -/

lemma frame_lt {n C j e : ℕ} (hj : j < C) (he : e < n) : e * C + j < n * C := by
  have hle := Nat.mul_le_mul_right C (Nat.succ_le_of_lt he)
  rw [Nat.succ_mul] at hle
  omega


section Channels

variable {w : ℕ} {C : UInt32}

/-- **The frames.** If the samples of each channel are written as its stripe, the frames are
written. -/
lemma intlvChannels_spec {samples : ℕ → Bytes → Option Bytes} {input : ℕ → Bytes} {n : ℕ}
    (hsamples : ∀ j < C.toNat, ∀ dst, ∃ dst', samples j dst = some dst' ∧
      load w dst' = stripe C.toNat j 0 n (load w (input j)) (load w dst)) (dst : Bytes) :
    ∃ dst', intlvChannels samples C dst = some dst' ∧ load w dst' =
        overlay (n * C.toNat) (interleave C.toNat fun j => load w (input j)) (load w dst) := by
  rw [← foldl_stripe_all, intlvChannels]
  have hmem : ∀ j ∈ range C.toNat, j < C.toNat := fun j => mem_range.mp
  generalize range C.toNat = l at hmem
  induction l generalizing dst with
  | nil => exact ⟨dst, rfl, rfl⟩
  | cons j l ih =>
    obtain ⟨dst₁, hrun, hload⟩ := hsamples j (hmem j mem_cons_self) dst
    obtain ⟨dst', hrun', hload'⟩ := ih dst₁ fun j' hj' => hmem j' (mem_cons_of_mem j hj')
    refine ⟨dst', ?_, ?_⟩
    · rw [foldlM_cons, hrun]
      exact hrun'
    · rw [hload', foldl_cons, hload]

/-- **The channels.** If the samples of each channel are written to its buffer, all channels are
written, and nothing else. -/
lemma deintlvChannels_spec {samples : ℕ → Bytes → Option Bytes} {D : UInt32}
    {ch : ℕ → ℕ → Fin w → UInt8} {n : ℕ}
    (hsamples : ∀ j < D.toNat, ∀ dst, ∃ dst', samples j dst = some dst' ∧
      load w dst' = overlay n (ch j) (load w dst)) (output : ℕ → CapiBuf) :
    ∃ output', deintlvChannels samples D output = some output' ∧
      (∀ j < D.toNat, load w (output' j).data = overlay n (ch j) (load w (output j).data)) ∧
      (∀ j, D.toNat ≤ j → output' j = output j) := by
  rw [deintlvChannels]
  generalize D.toNat = J at hsamples
  induction J with
  | zero => exact ⟨output, rfl, fun j hj => absurd hj (Nat.not_lt_zero j), fun _ _ => rfl⟩
  | succ J ih =>
    obtain ⟨output₁, hrun, hdone, hrest⟩ := ih fun j hj => hsamples j (Nat.lt_succ_of_lt hj)
    obtain ⟨data, hdata, hload⟩ := hsamples J (Nat.lt_succ_self J) (output₁ J).data
    refine ⟨update output₁ J { output₁ J with data := data }, ?_, ?_, ?_⟩
    · rw [range_succ, foldlM_append, hrun]
      simp [hdata]
    · intro j hj
      rcases Nat.lt_succ_iff_lt_or_eq.mp hj with hlt | rfl
      · rw [update_of_ne (Nat.ne_of_lt hlt), hdone j hlt]
      · rw [update_self, hload, hrest j le_rfl]
    · intro j hj
      rw [update_of_ne (by omega), hrest j (by omega)]

end Channels

end AudioReach.Interleaver
