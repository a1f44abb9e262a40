import Mathlib.Algebra.Order.Field.Basic
import Mathlib.Data.Rat.Floor
import WaitingRoom.Edge.Json

/-!
# Numbers of a script

The numbers are ordered (`JsNumber.antisymm`, `JsNumber.total`, `JsNumber.trans`), but for `NaN`, which
a comparison never holds of. The arithmetic is that of the extended rationals, without rounding, and has
one zero; a number that is no `NaN` stays finite between two bounds (`clamp_bounds`).
-/

set_option autoImplicit false

namespace WaitingRoom.Edge

/-! ## The order -/

theorem JsNumber.refl (a : JsNumber) : a.le a := by
  cases a with
  | finite a => exact decide_eq_true (Rat.le_refl)
  | infinite negative => cases negative <;> rfl

theorem JsNumber.antisymm {a b : JsNumber} (le : a.le b) (ge : b.le a) : a = b := by
  cases a with
  | finite a =>
      cases b with
      | finite b =>
          rw [JsNumber.le, decide_eq_true_eq] at le ge
          rw [le.antisymm ge]
      | infinite negative => cases negative <;> simp_all [JsNumber.le]
  | infinite negative =>
      cases b with
      | finite b => cases negative <;> simp_all [JsNumber.le]
      | infinite negative' => cases negative <;> cases negative' <;> simp_all [JsNumber.le]

theorem JsNumber.total {a b : JsNumber} (greater : ¬ a.le b) : b.le a := by
  cases a with
  | finite a =>
      cases b with
      | finite b =>
          rw [JsNumber.le, decide_eq_true_eq] at greater ⊢
          exact le_of_not_ge greater
      | infinite negative => cases negative <;> simp_all [JsNumber.le]
  | infinite negative =>
      cases b with
      | finite b => cases negative <;> simp_all [JsNumber.le]
      | infinite negative' => cases negative <;> cases negative' <;> simp_all [JsNumber.le]

theorem JsNumber.trans {a b c : JsNumber} (first : a.le b) (second : b.le c) : a.le c := by
  cases a with
  | finite a =>
      cases b with
      | finite b =>
          cases c with
          | finite c =>
              rw [JsNumber.le, decide_eq_true_eq] at first second ⊢
              exact first.trans second
          | infinite negative => exact second
      | infinite negative => cases negative <;> cases c <;> simp_all [JsNumber.le]
  | infinite negative =>
      cases negative with
      | true => cases c <;> rfl
      | false =>
          cases b with
          | finite b => exact absurd first Bool.false_ne_true
          | infinite negative' => cases negative' <;> cases c <;> simp_all [JsNumber.le]

/-! ## Numbers with `NaN` -/

/-- A number of the script; `none` is `NaN`. -/
abbrev Number := Option JsNumber

/-- `left >= right`. -/
def atLeast (left right : Number) : Bool :=
  match left, right with
  | some left, some right => right.le left
  | _, _ => false

/-- `left > right`. -/
def above (left right : Number) : Bool :=
  match left, right with
  | some left, some right => !left.le right
  | _, _ => false

/-- `Math.max(0, value)`. -/
def atLeastZero (value : Number) : Number :=
  value.map fun value => if value.le (.finite 0) then .finite 0 else value

/-! ## Arithmetic -/

/-- `left - right`. -/
def minus (left right : Number) : Number :=
  match left, right with
  | some (.finite a), some (.finite b) => some (.finite (a - b))
  | some (.finite _), some (.infinite negative) => some (.infinite !negative)
  | some (.infinite negative), some (.finite _) => some (.infinite negative)
  | some (.infinite negative), some (.infinite negative') =>
      if negative = negative' then none else some (.infinite negative)
  | _, _ => none

/-- `left * right`. -/
def times (left right : Number) : Number :=
  match left, right with
  | some (.finite a), some (.finite b) => some (.finite (a * b))
  | some (.finite a), some (.infinite negative) | some (.infinite negative), some (.finite a) =>
      if a = 0 then none else some (.infinite (negative ^^ decide (a < 0)))
  | some (.infinite negative), some (.infinite negative') => some (.infinite (negative ^^ negative'))
  | _, _ => none

/-- `left / right`. -/
def dividedBy (left right : Number) : Number :=
  match left, right with
  | some (.finite a), some (.finite b) =>
      if b ≠ 0 then some (.finite (a / b))
      else if a = 0 then none
      else some (.infinite (decide (a < 0)))
  | some (.finite _), some (.infinite _) => some (.finite 0)
  | some (.infinite negative), some (.finite b) => some (.infinite (negative ^^ decide (b < 0)))
  | _, _ => none

/-- `Math.min(left, right)`. -/
def least (left right : Number) : Number :=
  match left, right with
  | some left, some right => some (if left.le right then left else right)
  | _, _ => none

/-- `Math.max(left, right)`. -/
def greatest (left right : Number) : Number :=
  match left, right with
  | some left, some right => some (if left.le right then right else left)
  | _, _ => none

/-- `Math.round(value)`: halves go up. -/
def rounded (value : Number) : Number :=
  value.map fun
    | .finite q => .finite ⌊q + 1 / 2⌋
    | infinite => infinite

/-- A number that is no `NaN` is brought between two bounds. -/
theorem clamp_bounds {low high : ℚ} (ordered : low ≤ high) (value : JsNumber) :
    ∃ q, least (some (.finite high)) (greatest (some (.finite low)) (some value)) = some (.finite q) ∧
      low ≤ q ∧ q ≤ high := by
  cases value with
  | infinite negative =>
      cases negative with
      | true => exact ⟨low, by simp [least, greatest, JsNumber.le, ordered.ge_iff_eq'], le_rfl, ordered⟩
      | false => exact ⟨high, by simp [least, greatest, JsNumber.le], ordered, le_rfl⟩
  | finite q =>
      by_cases below : low ≤ q
      · by_cases above_ : high ≤ q
        · exact ⟨high, by simp [least, greatest, JsNumber.le, below, above_], ordered, le_rfl⟩
        · exact ⟨q, by simp [least, greatest, JsNumber.le, below, above_], below, le_of_not_ge above_⟩
      · refine ⟨low, ?_, le_rfl, ordered⟩
        simp [least, greatest, JsNumber.le, below, ordered.ge_iff_eq']

/-- A share of what is more than nothing is a number. -/
theorem exists_dividedBy {value : Number} (positive : above value (some (.finite 0))) {factor share : ℚ}
    (factor_pos : 0 < factor) (share_pos : 0 < share) :
    ∃ number, dividedBy (times value (some (.finite factor))) (some (.finite share)) = some number := by
  cases value with
  | none => exact absurd positive Bool.false_ne_true
  | some number =>
      cases number with
      | finite q => exact ⟨.finite (q * factor / share), by simp [times, dividedBy, share_pos.ne']⟩
      | infinite negative => exact ⟨_, by simp [times, dividedBy, factor_pos.ne']; rfl⟩

/-- Rounding does not carry a number below a whole one. -/
theorem floor_le_rounded {low q : ℚ} (below : low ≤ q) : ⌊low⌋ ≤ ⌊q + 1 / 2⌋ := by
  refine Int.floor_le_floor (below.trans ?_)
  linarith

end WaitingRoom.Edge
