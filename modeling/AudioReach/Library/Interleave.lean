import Mathlib.Data.Nat.Count

/-!
# Interleaving

A signal is a sequence of elements, and `C` signals are interleaved to one by taking an element of
each in turn.  The signals come back by taking every `C`-th element.

A sequence is written to memory up to some element (`overlay`), or piece by piece, each piece where
the one before ended (`placeAt`); a signal is written to an interleaved sequence as a stripe
(`stripe`), and the stripes of all the signals make up the interleaved sequence.
-/

namespace AudioReach.Library

open Function (update)

variable {α : Type*}

/-! ## The two directions -/

/-- The signals one after another, an element of each in turn. -/
def interleave (C : ℕ) (ch : ℕ → ℕ → α) : ℕ → α := fun e => ch (e % C) (e / C)

/-- Every `C`-th element from `j` on. -/
def deinterleave (C : ℕ) (s : ℕ → α) (j : ℕ) : ℕ → α := fun i => s (i * C + j)

/-- **Round trip.** A signal comes back. -/
lemma deinterleave_interleave {C j : ℕ} (hj : j < C) (ch : ℕ → ℕ → α) :
    deinterleave C (interleave C ch) j = ch j := by
  funext i
  have hC : 0 < C := by omega
  rw [deinterleave, interleave, Nat.mul_add_mod_of_lt hj, Nat.mul_comm, Nat.mul_add_div hC,
    Nat.div_eq_of_lt hj, Nat.add_zero]

/-- **Round trip.** An interleaved sequence comes back. -/
lemma interleave_deinterleave (C : ℕ) (s : ℕ → α) : interleave C (deinterleave C s) = s := by
  funext e
  rw [interleave, deinterleave, Nat.div_add_mod']

/-! ## Pieces -/

/-- The sequence from element `k` on. -/
def dropFirst (k : ℕ) (s : ℕ → α) : ℕ → α := fun i => s (k + i)

/-- The first `n` elements of `new` are written over `old`. -/
def overlay (n : ℕ) (new old : ℕ → α) : ℕ → α := fun e => if e < n then new e else old e

/-- What is written at element `k` on. -/
def placeAt (k : ℕ) (old new : ℕ → α) : ℕ → α := fun e => if e < k then old e else new (e - k)

lemma overlay_zero (new old : ℕ → α) : overlay 0 new old = old := by
  funext e
  exact if_neg (Nat.not_lt_zero e)

lemma overlay_congr {n : ℕ} {new new' old : ℕ → α} (h : ∀ e < n, new e = new' e) :
    overlay n new old = overlay n new' old := by
  funext e
  by_cases he : e < n
  · rw [overlay, overlay, if_pos he, if_pos he, h e he]
  · rw [overlay, overlay, if_neg he, if_neg he]

/-- **Piecewise.** Two pieces are written one after the other as they are written at once. -/
lemma placeAt_overlay (k n : ℕ) (new old : ℕ → α) : placeAt k (overlay k new old)
      (overlay n (dropFirst k new) (dropFirst k (overlay k new old))) =
      overlay (k + n) new old := by
  funext e
  simp only [placeAt, overlay, dropFirst]
  by_cases hk : e < k
  · rw [if_pos hk, if_pos hk, if_pos (by omega)]
  · have hback : k + (e - k) = e := by omega
    rw [if_neg hk, hback, if_neg hk]
    by_cases hn : e - k < n
    · rw [if_pos hn, if_pos (by omega)]
    · rw [if_neg hn, if_neg (by omega)]

lemma interleave_dropFirst {C : ℕ} (hC : 0 < C) (k : ℕ) (ch : ℕ → ℕ → α) :
    interleave C (fun j => dropFirst k (ch j)) = dropFirst (k * C) (interleave C ch) := by
  funext e
  simp only [interleave, dropFirst]
  rw [Nat.mul_add_mod_self_right, Nat.mul_comm, Nat.mul_add_div hC]

/-- Every `C`-th element of the rest is the rest of every `C`-th element. -/
lemma deinterleave_dropFirst (C k : ℕ) (s : ℕ → α) (j : ℕ) :
    deinterleave C (dropFirst (k * C) s) j = dropFirst k (deinterleave C s j) := by
  funext i
  simp only [deinterleave, dropFirst]
  rw [Nat.add_mul, Nat.add_assoc]

/-! ## Stripes -/

/-- The elements of signal `j` from `lo` to `hi` are written to an interleaved sequence. -/
def stripe (C j lo hi : ℕ) (v m : ℕ → α) : ℕ → α := fun e =>
  if e % C = j ∧ lo ≤ e / C ∧ e / C < hi then v (e / C) else m e

lemma stripe_nil (C j lo : ℕ) (v m : ℕ → α) : stripe C j lo lo v m = m := by
  funext e
  exact if_neg (by omega)

lemma stripe_cons {C j lo hi : ℕ} (hj : j < C) (hlo : lo < hi) (v m : ℕ → α) :
    stripe C j (lo + 1) hi v (update m (lo * C + j) (v lo)) = stripe C j lo hi v m := by
  funext e
  have hC : 0 < C := by omega
  have hdiv := Nat.div_add_mod' e C
  by_cases he : e = lo * C + j
  · have hmod : e % C = j := by
      rw [he, Nat.mul_add_mod_of_lt hj]
    have hquot : e / C = lo := by
      exact Nat.eq_of_mul_eq_mul_right hC (by omega)
    simp only [stripe]
    rw [if_neg (by omega), if_pos ⟨hmod, by omega, by omega⟩, hquot, he, Function.update_self]
  · have hne : ¬ (e % C = j ∧ e / C = lo) := by
      rintro ⟨hmod, hquot⟩
      rw [hmod, hquot] at hdiv
      exact he hdiv.symm
    simp only [stripe, Function.update_of_ne he]
    exact if_congr (by omega) rfl rfl

lemma stripe_one (n : ℕ) (v m : ℕ → α) : stripe 1 0 0 n v m = overlay n v m := by
  funext e
  simp [stripe, overlay, Nat.mod_one]

lemma interleave_one (ch : ℕ → ℕ → α) : interleave 1 ch = ch 0 := by
  funext e
  simp [interleave, Nat.mod_one]

lemma deinterleave_one (s : ℕ → α) : deinterleave 1 s 0 = s := by
  funext e
  simp [deinterleave]

lemma foldl_stripe (C n J : ℕ) (ch : ℕ → ℕ → α) (m : ℕ → α) :
    (List.range J).foldl (fun m j => stripe C j 0 n (ch j) m) m =
      fun e => if e % C < J ∧ e / C < n then ch (e % C) (e / C) else m e := by
  induction J with
  | zero => simp
  | succ J ih =>
    rw [List.range_succ, List.foldl_append, ih, List.foldl_cons, List.foldl_nil]
    funext e
    simp only [stripe]
    by_cases hJ : e % C = J
    · rw [hJ]
      by_cases hn : e / C < n
      · rw [if_pos ⟨rfl, Nat.zero_le _, hn⟩, if_pos ⟨Nat.lt_succ_self J, hn⟩]
      · rw [if_neg (by omega), if_neg (by omega), if_neg (by omega)]
    · rw [if_neg (by omega)]
      exact if_congr (by omega) rfl rfl

/-- **The stripes of all signals** make up the interleaved sequence. -/
lemma foldl_stripe_all (C n : ℕ) (ch : ℕ → ℕ → α) (m : ℕ → α) :
    (List.range C).foldl (fun m j => stripe C j 0 n (ch j) m) m
      = overlay (n * C) (interleave C ch) m := by
  rw [foldl_stripe]
  funext e
  rcases Nat.eq_zero_or_pos C with rfl | hC
  · simp [overlay]
  · exact if_congr (by rw [and_iff_right (Nat.mod_lt e hC), Nat.div_lt_iff_lt_mul hC]) rfl rfl

/-! ## Shares

Samples of `s` bytes of `C` signals are interleaved, and the bytes are counted. -/

section Shares

variable {C s c n z : ℕ}

/-- How many of the first `n` bytes belong to signal `c`. -/
def share (C s c n : ℕ) : ℕ := Nat.count (fun k => k / s % C = c) n

lemma share_of_le (hs : 0 < s) (hn : n ≤ C * s) : c < C → share C s c n = min s (n - c * s) := by
  intro hc
  induction n with
  | zero => simp [share]
  | succ n ih =>
    have hdiv : n / s < C := Nat.div_lt_of_lt_mul (by rw [Nat.mul_comm]; omega)
    have hmem : n / s = c ↔ c * s ≤ n ∧ n < c * s + s := by
      rw [Nat.div_eq_iff hs]
      omega
    have ih := ih (by omega)
    rw [share] at ih ⊢
    rw [Nat.count_succ, ih, Nat.mod_eq_of_lt hdiv, if_congr hmem rfl rfl]
    split <;> omega

lemma signal_add (hs : 0 < s) (q k : ℕ) : (C * s * q + k) / s % C = k / s % C := by
  rw [show C * s * q + k = k + s * (C * q) by rw [Nat.add_comm, Nat.mul_comm C s, Nat.mul_assoc],
    Nat.add_mul_div_left _ _ hs, Nat.add_mul_mod_self_left]

lemma share_frames (hs : 0 < s) (hc : c < C) (q n : ℕ) :
    share C s c (C * s * q + n) = s * q + share C s c n := by
  have hle : c * s + s ≤ C * s := by
    rw [← Nat.succ_mul]
    exact Nat.mul_le_mul_right s hc
  induction q with
  | zero => simp
  | succ q ih =>
    have hfirst := share_of_le hs (Nat.le_refl (C * s)) hc
    have hshift : ∀ k, (C * s + k) / s % C = k / s % C := fun k => by
      simpa using @signal_add C s hs 1 k
    rw [show C * s * (q + 1) + n = C * s + (C * s * q + n) by rw [Nat.mul_succ]; omega, share,
      Nat.count_add, ← share, hfirst]
    simp only [hshift]
    rw [← share, ih, Nat.mul_succ]
    omega

/-- **Equal shares.** All signals have `z` of the bytes if and only if these are whole samples of
all signals, or bytes of the only one. -/
theorem share_eq_iff (hs : 0 < s) (hC : 0 < C) :
    (∀ c < C, share C s c n = z) ↔ n = C * z ∧ (C = 1 ∨ s ∣ z) := by
  have hall : ∀ c < C, share C s c n = s * (n / (C * s)) + min s (n % (C * s) - c * s) := by
    intro c hc
    have hlt := Nat.mod_lt n (Nat.mul_pos hC hs)
    rw [← share_of_le hs hlt.le hc, ← share_frames hs hc, Nat.div_add_mod]
  constructor
  · intro h
    have hdiv := Nat.div_add_mod n (C * s)
    have hlt := Nat.mod_lt n (Nat.mul_pos hC hs)
    have hfirst := (hall 0 hC).symm.trans (h 0 hC)
    generalize n / (C * s) = q at *
    generalize n % (C * s) = r at *
    rcases Nat.eq_or_lt_of_le hC with hone | htwo
    · subst hone
      rw [Nat.one_mul] at hdiv hlt ⊢
      exact ⟨by omega, Or.inl rfl⟩
    · -- the last signal has its whole sample only if nothing is left of the frame
      have hlast := (hall (C - 1) (by omega)).symm.trans (h (C - 1) (by omega))
      have hsplit : (C - 1) * s + s = C * s := by
        rw [← Nat.succ_mul]
        congr 1
        omega
      have hle : s ≤ (C - 1) * s := Nat.le_mul_of_pos_left s (by omega)
      have hr : r = 0 := by omega
      rw [hr, Nat.zero_sub, Nat.min_eq_right (Nat.zero_le s), Nat.add_zero] at hfirst
      rw [hr, Nat.add_zero, Nat.mul_assoc, hfirst] at hdiv
      exact ⟨hdiv.symm, Or.inr ⟨q, hfirst.symm⟩⟩
  · rintro ⟨rfl, rfl | ⟨q, rfl⟩⟩ c hc
    · obtain rfl : c = 0 := by omega
      simp [share, Nat.mod_one, Nat.count_true]
    · have hframes := share_frames hs hc q 0
      rw [Nat.add_zero, Nat.mul_assoc] at hframes
      rw [hframes, share, Nat.count_zero, Nat.add_zero]

end Shares

end AudioReach.Library
