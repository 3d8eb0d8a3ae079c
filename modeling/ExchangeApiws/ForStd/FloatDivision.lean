import Mathlib.Data.Rat.Floor
import Mathlib.Algebra.Order.Field.Basic
import Mathlib.Tactic.Linarith

/-!
# Quotients with infinities and the saturating cast

Floating point division over exact values: a division by zero has an infinite quotient with
the sign of the dividend, or none at all. The cast to an unsigned integer truncates and
saturates, and reads a missing quotient as zero.

## Key results

- `le_saturate_iff`: when the cast of a quotient reaches a bound
-/

namespace FloatDivision

/-- The quotient of a division of floating point numbers. -/
inductive Extended where
  | finite (q : ℚ)
  | infinite (negative : Bool)
  | undefined
  deriving DecidableEq, Repr

def divide (a b : ℚ) : Extended :=
  if b ≠ 0 then .finite (a / b)
  else if 0 < a then .infinite false
  else if a < 0 then .infinite true
  else .undefined

/-- The cast to an unsigned integer with the largest value `max`. -/
def Extended.saturate (max : ℕ) : Extended → ℕ
  | .finite q => min ⌊q⌋.toNat max
  | .infinite false => max
  | .infinite true => 0
  | .undefined => 0

/-- A saturated value is within the range it is saturated to. -/
theorem Extended.saturate_le (max : ℕ) (q : Extended) : q.saturate max ≤ max := by
  cases q with
  | finite q => exact Nat.min_le_right _ _
  | infinite negative => cases negative <;> simp [saturate]
  | undefined => exact Nat.zero_le _

/-- When the cast of a quotient reaches a bound, by the sign of the divisor. -/
theorem le_saturate_iff {a b : ℚ} {k max : ℕ} (hk : 0 < k) (hmax : k ≤ max) :
    k ≤ (divide a b).saturate max ↔
      (0 < b ∧ k * b ≤ a) ∨ (b = 0 ∧ 0 < a) ∨ (b < 0 ∧ a ≤ k * b) := by
  have hfinite : ∀ q : ℚ, k ≤ (Extended.finite q).saturate max ↔ (k : ℚ) ≤ q := by
    intro q
    have htoNat : k ≤ ⌊q⌋.toNat ↔ (k : ℤ) ≤ ⌊q⌋ := by omega
    rw [Extended.saturate, le_min_iff, and_iff_left hmax, htoNat, Int.le_floor, Int.cast_natCast]
  rcases lt_trichotomy b 0 with hb | rfl | hb
  · rw [divide, if_pos hb.ne, hfinite, le_div_iff_of_neg hb]
    simp [hb, hb.ne, hb.not_gt]
  · rw [divide, if_neg (not_not.mpr rfl)]
    split
    · rename_i ha
      simp [Extended.saturate, hmax, ha]
    · rename_i ha
      split <;> simp [Extended.saturate, ha, hk.ne']
  · rw [divide, if_pos hb.ne', hfinite, le_div_iff₀ hb]
    simp [hb, hb.ne', hb.not_gt]

end FloatDivision
