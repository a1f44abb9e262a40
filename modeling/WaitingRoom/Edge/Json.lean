import Mathlib.Data.Rat.Defs
import Mathlib.Algebra.Order.Ring.Rat

/-!
# JSON values

The values of a JSON document, as a reader in either language sees them. A number is the rational
a reader makes of it, or infinite where the text is too large for a double.
-/

set_option autoImplicit false

namespace WaitingRoom.Edge

/-- A number as JavaScript reads it. -/
inductive JsNumber where
  | finite (value : ℚ)
  | infinite (negative : Bool)
  deriving DecidableEq

/-- The order of the numbers. -/
def JsNumber.le : JsNumber → JsNumber → Bool
  | .finite a, .finite b => decide (a ≤ b)
  | .finite _, .infinite negative => !negative
  | .infinite negative, .finite _ => negative
  | .infinite negative, .infinite negative' => negative || !negative'

/-- The multiple of `unit` that is nearest to a number, the even one of two. -/
def roundTo (unit n : ℕ) : ℕ :=
  let below := n / unit
  let rest := n % unit
  if 2 * rest < unit ∨ 2 * rest = unit ∧ below % 2 = 0 then below * unit else (below + 1) * unit

/-- The double nearest to a natural number that a text holds, below the largest. -/
def nearestDouble (n : ℕ) : ℕ := if n < 2 ^ 53 then n else roundTo (2 ^ (Nat.log2 n - 52)) n

theorem le_roundTo {unit n k : ℕ} (reached : k * unit ≤ n) (some : 0 < unit) :
    k * unit ≤ roundTo unit n := by
  have below : k ≤ n / unit := (Nat.le_div_iff_mul_le some).mpr reached
  rw [roundTo]
  split_ifs
  · exact Nat.mul_le_mul_right unit below
  · exact Nat.mul_le_mul_right unit (Nat.le_succ_of_le below)

/-- **Rounding does not carry a number over a small one.** -/
theorem nearestDouble_le_iff {n now : ℕ} (small : now < 2 ^ 53) : nearestDouble n ≤ now ↔ n ≤ now := by
  rw [nearestDouble]
  split_ifs with exact_
  · exact Iff.rfl
  · have large : 2 ^ 53 ≤ n := Nat.not_lt.mp exact_
    have digits : 53 ≤ Nat.log2 n := (Nat.le_log2 (by omega)).mpr large
    have top : 2 ^ 52 * 2 ^ (Nat.log2 n - 52) = 2 ^ Nat.log2 n := by
      rw [← Nat.pow_add]
      congr 1
      omega
    have reached : 2 ^ Nat.log2 n ≤ n := Nat.log2_self_le (by omega)
    have rounded := le_roundTo (top.le.trans reached) (Nat.two_pow_pos (Nat.log2 n - 52))
    have bound : 2 ^ 53 ≤ 2 ^ Nat.log2 n := Nat.pow_le_pow_right (by omega) digits
    omega
/-- A JSON value. -/
inductive Json where
  | null
  | bool (value : Bool)
  | number (value : JsNumber)
  | string (text : String)
  | array (items : List Json)
  | object (members : List (String × Json))

namespace Json

/-- A natural number. -/
def nat (n : ℕ) : Json := .number (.finite n)

/-- Read an unsigned integer below `bound`. -/
def asUnsigned (bound : ℕ) : Json → Option ℕ
  | .number (.finite value) =>
      if value.den = 1 ∧ 0 ≤ value.num ∧ value.num.toNat < bound then some value.num.toNat
      else none
  | _ => none

def asString : Json → Option String
  | .string text => some text
  | _ => none

def asBool : Json → Option Bool
  | .bool value => some value
  | _ => none

def asArray : Json → Option (List Json)
  | .array items => some items
  | _ => none

theorem asUnsigned_nat {bound n : ℕ} (inside : n < bound) : asUnsigned bound (nat n) = some n := by
  simp [asUnsigned, nat, inside]

theorem asUnsigned_nat_eq_none {bound n : ℕ} (outside : ¬ n < bound) :
    asUnsigned bound (nat n) = none := by
  simp [asUnsigned, nat, outside]

theorem asUnsigned_lt {bound n : ℕ} {json : Json} (read : asUnsigned bound json = some n) :
    n < bound := by
  unfold asUnsigned at read
  split at read
  · split_ifs at read with fits
    obtain rfl := Option.some.inj read
    exact fits.2.2
  · cases read

end Json

end WaitingRoom.Edge
