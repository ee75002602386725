import Mathlib.Data.List.Range
import AudioReach.Library.Loops
import AudioReach.PushMode.Model

/-!
# What the copies of push mode store

The interleaving of a deinterleaved frame visits the samples channel by channel and stores each at
its place among the samples of the other channels.  When there is room for all of them before the
end of the buffer, the frame is stored in interleaved order from the write index on.
-/

namespace AudioReach

open Library List

/-! ## Interleaving -/

section Interleaving

variable {size ch bps n dst : ℕ} {m : ℕ → UInt8} {src : ℕ → ℕ → UInt8}

/-- The channel of byte `k` of interleaved samples. -/
def chanAt (ch bps k : ℕ) : ℕ := k / bps % ch

/-- The sample of byte `k` of interleaved samples. -/
def sampAt (ch bps k : ℕ) : ℕ := k / bps / ch

/-- Byte `k` of the interleaved samples. -/
def interleavedByte (src : ℕ → ℕ → UInt8) (ch bps k : ℕ) : UInt8 :=
  src (chanAt ch bps k) (sampAt ch bps k * bps + k % bps)

/-- The interleaved samples, `n` of each channel. -/
def interleavedBytes (src : ℕ → ℕ → UInt8) (ch bps n : ℕ) : List UInt8 :=
  (range (bps * (n * ch))).map (interleavedByte src ch bps)

open Classical in
/-- The memory after the samples that are `done` were stored to their places. -/
noncomputable def layout (m : ℕ → UInt8) (dst : ℕ) (src : ℕ → ℕ → UInt8) (ch bps n : ℕ)
    (done : ℕ → ℕ → Prop) : ℕ → UInt8 :=
  fun p => if dst ≤ p ∧ p - dst < bps * (n * ch) ∧
      done (sampAt ch bps (p - dst)) (chanAt ch bps (p - dst)) then
    interleavedByte src ch bps (p - dst) else m p

lemma layout_apply_congr {done done' : ℕ → ℕ → Prop} {p : ℕ}
    (h : dst ≤ p → p - dst < bps * (n * ch) →
      (done (sampAt ch bps (p - dst)) (chanAt ch bps (p - dst)) ↔
        done' (sampAt ch bps (p - dst)) (chanAt ch bps (p - dst)))) :
    layout m dst src ch bps n done p = layout m dst src ch bps n done' p := by
  classical
  exact if_congr (and_congr_right fun hle => and_congr_right fun hlt => h hle hlt) rfl rfl

lemma layout_congr (done done' : ℕ → ℕ → Prop) (hch : 0 < ch) (hbps : 0 < bps)
    (h : ∀ i j, i < n → j < ch → (done i j ↔ done' i j)) :
    layout m dst src ch bps n done = layout m dst src ch bps n done' := by
  funext p
  refine layout_apply_congr fun _ hlt => ?_
  have hsamp : sampAt ch bps (p - dst) < n := by
    rwa [sampAt, Nat.div_lt_iff_lt_mul hch, Nat.div_lt_iff_lt_mul hbps, Nat.mul_comm]
  exact h _ _ hsamp (Nat.mod_lt _ hch)

lemma layout_none : layout m dst src ch bps n (fun _ _ => False) = m := by
  funext p
  simp [layout]

lemma layout_all : layout m dst src ch bps n (fun _ _ => True)
    = putAt m dst (interleavedBytes src ch bps n) := by
  funext p
  by_cases hle : dst ≤ p
  · by_cases hlt : p - dst < bps * (n * ch)
    · simp [layout, putAt, hle, hlt, interleavedBytes]
    · have hnone : (interleavedBytes src ch bps n)[p - dst]? = none :=
        getElem?_eq_none (by simp [interleavedBytes]; omega)
      simp [layout, putAt, hle, hlt, hnone]
  · simp [layout, putAt, hle]

/-- The bytes of sample `i` of channel `j`. -/
lemma byte_of_sample {i j b : ℕ} (hbps : b < bps) (hj : j < ch) :
    sampAt ch bps (bps * (i * ch + j) + b) = i ∧ chanAt ch bps (bps * (i * ch + j) + b) = j ∧
      (bps * (i * ch + j) + b) % bps = b := by
  have hdiv : (bps * (i * ch + j) + b) / bps = i * ch + j := by
    rw [Nat.mul_add_div (by omega), Nat.div_eq_of_lt hbps, Nat.add_zero]
  refine ⟨?_, ?_, ?_⟩
  · rw [sampAt, hdiv, Nat.mul_comm, Nat.mul_add_div (by omega), Nat.div_eq_of_lt hj, Nat.add_zero]
  · rw [chanAt, hdiv, Nat.mul_comm, Nat.mul_add_mod, Nat.mod_eq_of_lt hj]
  · rw [Nat.mul_add_mod, Nat.mod_eq_of_lt hbps]

variable (bps) in
lemma place_le {i j : ℕ} (hi : i < n) (hj : j < ch) :
    bps * (i * ch + j) + bps ≤ bps * (n * ch) := by
  have hrow : i * ch + j + 1 ≤ n * ch := by
    calc i * ch + j + 1 ≤ i * ch + ch := by omega
      _ = (i + 1) * ch := by rw [Nat.add_mul, Nat.one_mul]
      _ ≤ n * ch := Nat.mul_le_mul_right ch hi
  calc bps * (i * ch + j) + bps = bps * (i * ch + j + 1) := (Nat.mul_succ bps _).symm
    _ ≤ bps * (n * ch) := Nat.mul_le_mul_left bps hrow

/-- Storing one more sample. -/
lemma layout_store {done : ℕ → ℕ → Prop} {i j : ℕ} (hbps : 0 < bps) (hi : i < n) (hj : j < ch) :
    putAt (layout m dst src ch bps n done) (dst + bps * (i * ch + j)) (sampleBytes (src j) bps i)
      = layout m dst src ch bps n (fun i' j' => done i' j' ∨ i' = i ∧ j' = j) := by
  have hplace := place_le bps hi hj
  funext p
  by_cases hin : dst + bps * (i * ch + j) ≤ p ∧ p < dst + bps * (i * ch + j) + bps
  · obtain ⟨b, rfl⟩ : ∃ b, p = dst + (bps * (i * ch + j) + b) :=
      ⟨p - dst - bps * (i * ch + j), by omega⟩
    have hb : b < bps := by omega
    obtain ⟨hsamp, hchan, hmod⟩ := byte_of_sample hb hj
    have hval : (sampleBytes (src j) bps i)[b]? = some (src j (i * bps + b)) := by
      simp [sampleBytes, hb]
    rw [← Nat.add_assoc, putAt_add hval, layout, Nat.add_assoc, Nat.add_sub_cancel_left, if_pos
      ⟨Nat.le_add_right _ _, by omega, Or.inr ⟨hsamp, hchan⟩⟩, interleavedByte, hsamp, hchan, hmod]
  · rw [putAt_of_outside (by simp only [sampleBytes, length_map, length_range]; omega)]
    have hother : dst ≤ p → ¬ (sampAt ch bps (p - dst) = i ∧ chanAt ch bps (p - dst) = j) := by
      rintro hle ⟨rfl, rfl⟩
      have hrow : sampAt ch bps (p - dst) * ch + chanAt ch bps (p - dst) = (p - dst) / bps := by
        rw [sampAt, chanAt, Nat.mul_comm, Nat.div_add_mod]
      have hk := Nat.div_add_mod (p - dst) bps
      have := Nat.mod_lt (p - dst) hbps
      rw [hrow] at hin
      omega
    refine layout_apply_congr fun hle _ => ?_
    exact (or_iff_left (hother hle)).symm

lemma interleave_channel {j : ℕ} (hbps : 0 < bps) (hj : j < ch)
    (hfits : dst + bps * (n * ch) ≤ size) :
    (range n).foldlM (fun m i => storeIn size m (dst + bps * (i * ch + j))
        (sampleBytes (src j) bps i)) (layout m dst src ch bps n fun _ j' => j' < j)
      = some (layout m dst src ch bps n fun _ j' => j' < j + 1) := by
  have hch : 0 < ch := by omega
  have hloop := foldlM_range (n := n)
    (f := fun m i => storeIn size m (dst + bps * (i * ch + j)) (sampleBytes (src j) bps i))
    (fun i => layout m dst src ch bps n fun i' j' => j' < j ∨ i' < i ∧ j' = j) ?_
  · convert hloop using 2
    · exact layout_congr _ _ hch hbps fun i j' _ _ => by omega
    · exact layout_congr _ _ hch hbps fun i j' hi _ => by omega
  · intro i hi
    have hplace := place_le bps hi hj
    rw [storeIn_eq_some (by simp only [sampleBytes, length_map, length_range]; omega),
      layout_store hbps hi hj]
    exact congrArg some (layout_congr _ _ hch hbps fun i' j' _ _ => by omega)

/-- **Interleaving.** With room for all samples, they are stored in interleaved order. -/
theorem spfDeintlvToIntlvV2_eq (hch : 0 < ch) (hbps : 0 < bps)
    (hfits : dst + bps * (n * ch) ≤ size) :
    spfDeintlvToIntlvV2 size m dst src ch bps n
      = some (putAt m dst (interleavedBytes src ch bps n)) := by
  rw [spfDeintlvToIntlvV2]
  split
  · rename_i hone
    have hbytes : (range (n * bps)).map (src 0) = interleavedBytes src ch bps n := by
      subst hone
      rw [interleavedBytes, Nat.mul_one, Nat.mul_comm]
      apply map_congr_left
      intro k _
      rw [interleavedByte, chanAt, sampAt, Nat.mod_one, Nat.div_one, Nat.mul_comm, Nat.div_add_mod]
    rw [hbytes, storeIn_eq_some (by simpa [interleavedBytes] using hfits)]
  · have hloop := foldlM_range (f := fun m j => (range n).foldlM (fun m i =>
        storeIn size m (dst + bps * (i * ch + j)) (sampleBytes (src j) bps i)) m)
      (fun j => layout m dst src ch bps n fun _ j' => j' < j)
      fun j hj => interleave_channel hbps hj hfits
    rw [← layout_all, ← layout_congr (fun _ j' => j' < ch) _ hch hbps (by simp), ← hloop]
    congr 1
    rw [layout_congr _ (fun _ _ => False) hch hbps (by simp), layout_none]

end Interleaving

end AudioReach
