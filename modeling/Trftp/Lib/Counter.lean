import Mathlib.Data.Nat.Basic

/-!
# Counters in machine words

A 32-bit counter behaves like a number as long as it stays below a bound that is itself
a word. These are the facts a bounded loop needs about its increment and its last index.
-/

namespace Lib

/-- Incrementing a counter that is below a bound does not wrap. -/
theorem toNat_succ_of_lt {index bound : UInt32} (h : index.toNat < bound.toNat) :
    (index + 1).toNat = index.toNat + 1 := by
  have hbound := bound.toNat_lt
  rw [UInt32.toNat_add, UInt32.toNat_one, Nat.mod_eq_of_lt (by omega)]

/-- The last index of a loop that runs at all. -/
theorem toNat_pred {bound : UInt32} (h : 0 < bound.toNat) : (bound - 1).toNat = bound.toNat - 1 := by
  rw [UInt32.toNat_sub_of_le, UInt32.toNat_one]
  rw [UInt32.le_iff_toNat_le, UInt32.toNat_one]
  omega

/-- A counter is at the last index exactly when its successor is the bound. -/
theorem eq_pred_iff {index bound : UInt32} (h : 0 < bound.toNat) :
    index = bound - 1 ↔ index.toNat + 1 = bound.toNat := by
  rw [← UInt32.toNat_inj, toNat_pred h]
  omega

end Lib
