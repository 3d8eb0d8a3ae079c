import Mathlib.Algebra.Ring.Int.Defs
import Mathlib.Algebra.Ring.Nat
import Mathlib.Tactic.Common

/-!
# 64-bit integers

The larger of two unsigned numbers, successors that do not wrap, and unsigned numbers read
as signed ones.
-/

namespace UInt64

/-- The maximum is the left one, if that is not smaller. -/
theorem max_eq_left_of_le {u v : UInt64} (h : v ≤ u) : max u v = u := by
  rw [← UInt64.toNat_inj, UInt64.toNat_max]
  exact Nat.max_eq_left (UInt64.le_iff_toNat_le.mp h)

/-- The maximum is the right one, if that is greater. -/
theorem max_eq_right_of_lt {u v : UInt64} (h : u < v) : max u v = v := by
  rw [← UInt64.toNat_inj, UInt64.toNat_max]
  exact Nat.max_eq_right (Nat.le_of_lt (UInt64.lt_iff_toNat_lt.mp h))

/-- Below the greatest `u64`, adding one does not wrap. -/
theorem toNat_add_one_of_lt {u : UInt64} (h : u.toNat < 2 ^ 64 - 1) :
    (u + 1).toNat = u.toNat + 1 := by
  rw [UInt64.toNat_add, UInt64.toNat_one]
  exact Nat.mod_eq_of_lt (by omega)

/-- The largest number is the one whose successor wraps. -/
theorem toNat_add_one_iff {u : UInt64} : (u + 1).toNat = u.toNat + 1 ↔ u.toNat ≠ 2 ^ 64 - 1 := by
  have hlt := u.toNat_lt
  constructor
  · intro hsucc heq
    have hlt' := (u + 1).toNat_lt
    omega
  · intro hne
    exact toNat_add_one_of_lt (by omega)

/-- Below `2 ^ 63` a cast to `i64` keeps the value. -/
theorem toInt_toInt64_of_lt {u : UInt64} (h : u.toNat < 2 ^ 63) :
    u.toInt64.toInt = (u.toNat : Int) := by
  have htop : 2 * u.toBitVec.toNat < 2 ^ 64 := by
    rw [UInt64.toNat_toBitVec]
    omega
  exact BitVec.toInt_eq_toNat_of_lt htop

end UInt64

namespace Int64

/-- Below the greatest `i64`, adding one does not wrap. -/
theorem toInt_add_one_of_lt {i : Int64} (h : i.toInt < 2 ^ 63 - 1) :
    (i + 1).toInt = i.toInt + 1 := by
  have hle := i.le_toInt
  rw [Int64.toInt_add, Int64.toInt_one]
  exact Int.bmod_eq_of_le (by omega) (by omega)

/-- The successor of the largest number is the smallest one. -/
theorem toInt_add_one_of_eq {i : Int64} (h : i.toInt = 2 ^ 63 - 1) :
    (i + 1).toInt = -2 ^ 63 := by
  rw [Int64.toInt_add, Int64.toInt_one, h]
  rfl

end Int64
