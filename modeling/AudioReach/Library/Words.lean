import Mathlib.Data.UInt
import AudioReach.Library.RingStream

/-!
# Words in memory

A `uint32_t` takes four bytes, the low one first.  `wordBytes` are the bytes of a word, `wordAt`
is the word that four adjacent cells hold, and a word that was stored is read back.
-/

namespace AudioReach.Library

lemma toNat_min (a b : UInt32) : (min a b).toNat = min a.toNat b.toNat := by
  change (if a ≤ b then a else b).toNat = _
  split
  · exact (min_eq_left ‹_›).symm
  · rename_i h
    exact (min_eq_right (Nat.le_of_lt (Nat.not_le.mp h))).symm

/-- The bytes of a `uint32_t` in memory. -/
def wordBytes (v : UInt32) : List UInt8 :=
  [v.toUInt8, (v >>> 8).toUInt8, (v >>> 16).toUInt8, (v >>> 24).toUInt8]

@[simp] lemma length_wordBytes (v : UInt32) : (wordBytes v).length = 4 := rfl

/-- The `uint32_t` with these bytes. -/
def wordOf (a b c d : UInt8) : UInt32 :=
  UInt32.ofNat (a.toNat + 2 ^ 8 * b.toNat + 2 ^ 16 * c.toNat + 2 ^ 24 * d.toNat)

/-- The `uint32_t` at the address `p`. -/
def wordAt (m : ℕ → UInt8) (p : ℕ) : UInt32 := wordOf (m p) (m (p + 1)) (m (p + 2)) (m (p + 3))

lemma wordOf_wordBytes (v : UInt32) :
    wordOf v.toUInt8 (v >>> 8).toUInt8 (v >>> 16).toUInt8 (v >>> 24).toUInt8 = v := by
  apply UInt32.toNat_inj.mp
  have hlt := v.toNat_lt
  rw [wordOf, UInt32.toNat_ofNat']
  simp only [UInt32.toNat_toUInt8, UInt32.toNat_shiftRight, UInt32.reduceToNat, Nat.reduceMod,
    Nat.shiftRight_eq_div_pow]
  omega

lemma wordAt_putAt (m : ℕ → UInt8) (p : ℕ) (v : UInt32) :
    wordAt (putAt m p (wordBytes v)) p = v := by
  have hzero : putAt m p (wordBytes v) (p + 0) = v.toUInt8 := putAt_add rfl
  have hone : putAt m p (wordBytes v) (p + 1) = (v >>> 8).toUInt8 := putAt_add rfl
  have htwo : putAt m p (wordBytes v) (p + 2) = (v >>> 16).toUInt8 := putAt_add rfl
  have hthree : putAt m p (wordBytes v) (p + 3) = (v >>> 24).toUInt8 := putAt_add rfl
  rw [Nat.add_zero] at hzero
  rw [wordAt, hzero, hone, htwo, hthree, wordOf_wordBytes]

lemma wordAt_putAt_of_outside {m : ℕ → UInt8} {p off : ℕ} {xs : List UInt8}
    (h : p + 4 ≤ off ∨ off + xs.length ≤ p) : wordAt (putAt m off xs) p = wordAt m p := by
  rw [wordAt, putAt_of_outside (by omega), putAt_of_outside (by omega),
    putAt_of_outside (by omega), putAt_of_outside (by omega), wordAt]

end AudioReach.Library
