import Mathlib.Algebra.Group.Nat.Defs
import Mathlib.Data.Nat.Basic

/-!
# Machine integers

The code counts in `u64`. Its values are natural numbers below `u64Bound` here, and every
operation that could leave the range says what it does there: saturate, report `none`, or
drop the high bits.
-/

set_option autoImplicit false

namespace WaitingRoom

/-- One past the largest `u64`. -/
def u64Bound : ℕ := 2 ^ 64

/-- One past the largest `u32`. -/
def u32Bound : ℕ := 2 ^ 32

/-- `u64::MAX`. -/
def u64Max : ℕ := u64Bound - 1

/-- `u64::saturating_add`. -/
def saturatingAdd (a b : ℕ) : ℕ := min (a + b) u64Max

/-- `u64::saturating_sub`. -/
def saturatingSub (a b : ℕ) : ℕ := a - b

/-- `u64::saturating_mul`. -/
def saturatingMul (a b : ℕ) : ℕ := min (a * b) u64Max

/-- `u64::checked_add`. -/
def checkedAdd (a b : ℕ) : Option ℕ := if a + b < u64Bound then some (a + b) else none

/-- `u64::checked_sub`. -/
def checkedSub (a b : ℕ) : Option ℕ := if b ≤ a then some (a - b) else none

/-- `u64 << k`, which drops the bits shifted out. -/
def shiftLeft (a k : ℕ) : ℕ := (a <<< k) % u64Bound

theorem saturatingAdd_of_lt {a b : ℕ} (inside : a + b < u64Bound) : saturatingAdd a b = a + b :=
  min_eq_left (Nat.le_pred_of_lt inside)

theorem saturatingAdd_le (a b : ℕ) : saturatingAdd a b ≤ a + b := min_le_left _ _

theorem le_saturatingAdd {a : ℕ} (b : ℕ) (inside : a < u64Bound) : a ≤ saturatingAdd a b :=
  le_min (Nat.le_add_right a b) (Nat.le_pred_of_lt inside)

theorem saturatingAdd_lt (a b : ℕ) : saturatingAdd a b < u64Bound :=
  lt_of_le_of_lt (min_le_right _ _) (by decide)

theorem checkedAdd_eq_some {a b c : ℕ} :
    checkedAdd a b = some c ↔ a + b < u64Bound ∧ a + b = c := by
  simp [checkedAdd]

theorem checkedSub_eq_some {a b c : ℕ} : checkedSub a b = some c ↔ b ≤ a ∧ a - b = c := by
  simp [checkedSub]

end WaitingRoom
