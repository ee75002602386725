import Mathlib.Algebra.Ring.Nat

/-!
# Result codes and pointers

The `ar_result_t` codes that the modelled functions return.  The functions only
compare them for equality, so they form an enumeration; the numeric values of
`ar_osal_error.h` play no role.

A pointer is an address; the null pointer is `none` wherever the source tests for
it.  Sizes are computed in a type as wide as a pointer.
-/

namespace AudioReach

/-- The `ar_result_t` codes returned by the modelled functions. -/
inductive ArResult
  | eok
  | efailed
  | ebadparam
  | eunsupported
  | enomemory
  | ealready
  | eduplicate
  | enotexist
  | enoresource
  | eneedmore
  | ebusy
  | ehandle
  | enotready
  | eunexpected
  deriving DecidableEq, Repr

/-- An address. -/
abbrev Addr := ℕ

/-- The width of the pointers of the target. -/
inductive Abi
  | bits32
  | bits64
  deriving DecidableEq, Repr

/-- The size of a pointer, and of a `size_t`. -/
def Abi.ptrSize : Abi → ℕ
  | .bits32 => 4
  | .bits64 => 8

lemma Abi.ptrSize_pos (abi : Abi) : 0 < abi.ptrSize := by
  cases abi <;> simp [ptrSize]

end AudioReach
