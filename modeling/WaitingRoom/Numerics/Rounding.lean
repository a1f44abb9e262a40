import Mathlib.Algebra.Order.Field.Rat
import Mathlib.Data.Int.Log
import Mathlib.Data.Rat.Floor
import Mathlib.Algebra.Order.Floor.Ring
import Mathlib.Algebra.Order.Field.Power
import Mathlib.Algebra.Ring.Int.Parity
import Mathlib.Tactic.Linarith
import Mathlib.Tactic.Positivity
import Mathlib.Tactic.Ring

/-!
# Rounding

A floating-point operation is the exact one followed by a rounding. `Rounding` is what such a
rounding promises: it keeps the order, and it keeps zero, one and every number that it rounds to.
`Rounding.exact` rounds nothing. `FloatFormat.rounding` is the rounding of a binary format with a significand of so
many digits and a least exponent: to the nearest number of the format, and to the even significand
of two equally near ones. `binary64` is the format of IEEE 754. The range of a format is not
bounded above here.
-/

set_option autoImplicit false

namespace WaitingRoom.Numerics

/-- A rounding of the rationals. -/
structure Rounding where
  round : ℚ → ℚ
  mono : Monotone round
  round_zero : round 0 = 0
  round_one : round 1 = 1
  round_round : ∀ x, round (round x) = round x

namespace Rounding

/-- The numbers that are rounded to themselves. -/
def Represents (rounding : Rounding) (x : ℚ) : Prop := rounding.round x = x

variable {rounding : Rounding} {x bound : ℚ}

theorem represents_round (rounding : Rounding) (x : ℚ) : rounding.Represents (rounding.round x) :=
  rounding.round_round x

theorem le_round (represents : rounding.Represents bound) (below : bound ≤ x) :
    bound ≤ rounding.round x :=
  represents.symm.trans_le (rounding.mono below)

theorem round_nonneg (sign : 0 ≤ x) : 0 ≤ rounding.round x := le_round rounding.round_zero sign

/-- Every number represents itself. -/
def exact : Rounding where
  round x := x
  mono := monotone_id
  round_zero := rfl
  round_one := rfl
  round_round _ := rfl

@[simp] theorem exact_round (x : ℚ) : exact.round x = x := rfl

end Rounding

/-! ## The nearest integer -/

/-- The nearest integer, and the even one of two. -/
def nearestEven (x : ℚ) : ℤ :=
  if Int.fract x < 1 / 2 then ⌊x⌋
  else if 1 / 2 < Int.fract x then ⌊x⌋ + 1
  else if Even ⌊x⌋ then ⌊x⌋ else ⌊x⌋ + 1

theorem nearestEven_intCast (n : ℤ) : nearestEven n = n := by
  rw [nearestEven, Int.fract_intCast, if_pos (by norm_num), Int.floor_intCast]

theorem floor_le_nearestEven (x : ℚ) : ⌊x⌋ ≤ nearestEven x := by
  rw [nearestEven]
  split_ifs
  · exact le_rfl
  · exact (lt_add_one _).le
  · exact le_rfl
  · exact (lt_add_one _).le

theorem nearestEven_le (x : ℚ) : nearestEven x ≤ ⌊x⌋ + 1 := by
  rw [nearestEven]
  split_ifs
  · exact (lt_add_one _).le
  · exact le_rfl
  · exact (lt_add_one _).le
  · exact le_rfl

theorem nearestEven_mono {x y : ℚ} (below : x ≤ y) : nearestEven x ≤ nearestEven y := by
  rcases (Int.floor_mono below).eq_or_lt with same | apart
  · -- between the same two integers the fraction decides
    have fraction : Int.fract x ≤ Int.fract y := by
      rw [Int.fract, Int.fract, same]
      exact sub_le_sub_right below _
    rcases lt_trichotomy (Int.fract y) (1 / 2) with low | half | high
    · rw [nearestEven, nearestEven, if_pos low, if_pos (fraction.trans_lt low), same]
    · by_cases under : Int.fract x < 1 / 2
      · rw [nearestEven, if_pos under, same]
        exact floor_le_nearestEven y
      · have alike : Int.fract x = Int.fract y := fraction.antisymm (half ▸ not_lt.mp under)
        rw [nearestEven, nearestEven, alike, same]
    · have up : nearestEven y = ⌊y⌋ + 1 := by
        rw [nearestEven, if_neg (not_lt.mpr high.le), if_pos high]
      rw [up, ← same]
      exact nearestEven_le x
  · exact (nearestEven_le x).trans ((Int.add_one_le_of_lt apart).trans (floor_le_nearestEven y))

/-! ## Binary formats -/

/-- A binary floating-point format: the digits of its significand and its least exponent. -/
structure FloatFormat where
  digits : ℕ
  least : ℤ
  positive : 0 < digits
  whole : least ≤ 0

/-- IEEE 754 double precision. -/
def binary64 : FloatFormat := ⟨53, -1074, by decide, by decide⟩

namespace FloatFormat

/-- The exponent of the last digit of a positive number. -/
def exponent (format : FloatFormat) (x : ℚ) : ℤ :=
  max (Int.log 2 x + 1 - format.digits) format.least

/-- The distance of the numbers of the format around a positive number. -/
def quantum (format : FloatFormat) (x : ℚ) : ℚ := 2 ^ format.exponent x

/-- A number that is not negative, rounded to the format. -/
def roundMagnitude (format : FloatFormat) (x : ℚ) : ℚ :=
  nearestEven (x / format.quantum x) * format.quantum x

/-- A number rounded to the format. -/
def roundTo (format : FloatFormat) (x : ℚ) : ℚ :=
  if 0 ≤ x then format.roundMagnitude x else -format.roundMagnitude (-x)

variable {format : FloatFormat} {x y : ℚ} {n : ℤ}

theorem quantum_pos (format : FloatFormat) (x : ℚ) : 0 < format.quantum x :=
  zpow_pos two_pos _

theorem le_roundMagnitude (below : n * format.quantum x ≤ x) :
    n * format.quantum x ≤ format.roundMagnitude x := by
  have quotient : (n : ℚ) ≤ x / format.quantum x := (le_div_iff₀ (quantum_pos format x)).mpr below
  have rounded : n ≤ nearestEven (x / format.quantum x) :=
    (nearestEven_intCast n).symm.trans_le (nearestEven_mono quotient)
  exact mul_le_mul_of_nonneg_right (Int.cast_le.mpr rounded) (quantum_pos format x).le

theorem roundMagnitude_le (below : x ≤ n * format.quantum x) :
    format.roundMagnitude x ≤ n * format.quantum x := by
  have quotient : x / format.quantum x ≤ n := (div_le_iff₀ (quantum_pos format x)).mpr below
  have rounded : nearestEven (x / format.quantum x) ≤ n :=
    (nearestEven_mono quotient).trans_eq (nearestEven_intCast n)
  exact mul_le_mul_of_nonneg_right (Int.cast_le.mpr rounded) (quantum_pos format x).le

theorem roundMagnitude_nonneg (sign : 0 ≤ x) : 0 ≤ format.roundMagnitude x := by
  have below : ((0 : ℤ) : ℚ) * format.quantum x ≤ x := by rwa [Int.cast_zero, zero_mul]
  have rounded := le_roundMagnitude below
  rwa [Int.cast_zero, zero_mul] at rounded

theorem roundMagnitude_zero (format : FloatFormat) : format.roundMagnitude 0 = 0 := by
  have zero := nearestEven_intCast 0
  rw [Int.cast_zero] at zero
  rw [roundMagnitude, zero_div, zero, Int.cast_zero, zero_mul]

/-- A multiple of the quantum is a number of the format. -/
theorem roundMagnitude_of_multiple (multiple : x = n * format.quantum x) :
    format.roundMagnitude x = x := by
  have above := le_roundMagnitude multiple.ge
  have below := roundMagnitude_le multiple.le
  rw [← multiple] at above below
  exact le_antisymm below above

/-- A positive number is less than all digits set. -/
theorem lt_all_digits (x : ℚ) : x < 2 ^ (format.exponent x + format.digits) := by
  refine (Int.lt_zpow_succ_log_self one_lt_two x).trans_le ?_
  refine zpow_le_zpow_right₀ one_le_two ?_
  have := le_max_left (Int.log 2 x + 1 - format.digits) format.least
  rw [exponent]
  omega

/-- Above the least exponent the first digit is set. -/
theorem first_digit_le (positive : 0 < x) (above : format.least < format.exponent x) :
    2 ^ (format.exponent x + format.digits - 1) ≤ x := by
  have normal : format.exponent x = Int.log 2 x + 1 - format.digits := by
    rw [exponent] at above ⊢
    rcases max_choice (Int.log 2 x + 1 - format.digits) format.least with same | same
    · exact same
    · exact absurd same above.ne'
  rw [normal, show Int.log 2 x + 1 - format.digits + format.digits - 1 = Int.log 2 x by omega]
  exact Int.zpow_log_le_self one_lt_two positive

/-- A power of two is so many quanta. -/
theorem pow_quantum (format : FloatFormat) (x : ℚ) (k : ℕ) :
    (2 : ℚ) ^ (format.exponent x + k) = ((2 ^ k : ℤ) : ℚ) * format.quantum x := by
  rw [zpow_add₀ two_ne_zero, mul_comm, quantum, zpow_natCast]
  norm_cast

theorem roundMagnitude_mono (positive : 0 < x) (below : x ≤ y) :
    format.roundMagnitude x ≤ format.roundMagnitude y := by
  have logs : Int.log 2 x ≤ Int.log 2 y := Int.log_mono_right positive below
  have exponents : format.exponent x ≤ format.exponent y := by
    rw [exponent, exponent]
    omega
  rcases exponents.eq_or_lt with same | apart
  · have quanta : format.quantum x = format.quantum y := congrArg (2 ^ ·) same
    rw [roundMagnitude, roundMagnitude, quanta]
    have quotient := div_le_div_of_nonneg_right below (quantum_pos format y).le
    exact mul_le_mul_of_nonneg_right (Int.cast_le.mpr (nearestEven_mono quotient))
      (quantum_pos format y).le
  · -- a power of two lies between numbers of different exponents
    obtain ⟨k, digits⟩ := Nat.exists_eq_add_one.mpr format.positive
    have least : format.least < format.exponent y := (le_max_right _ _).trans_lt apart
    have upper : x ≤ (2 ^ format.digits : ℤ) * format.quantum x :=
      (lt_all_digits x).le.trans_eq (pow_quantum format x _)
    have lower : (2 ^ k : ℤ) * format.quantum y ≤ y := by
      rw [← pow_quantum]
      have first := first_digit_le (positive.trans_le below) least
      rwa [show format.exponent y + format.digits - 1 = format.exponent y + k by omega] at first
    refine (roundMagnitude_le upper).trans (le_trans ?_ (le_roundMagnitude lower))
    rw [← pow_quantum, ← pow_quantum]
    refine zpow_le_zpow_right₀ one_le_two ?_
    omega

/-- A significand of the format is kept. -/
theorem roundMagnitude_of_lt {e : ℤ} (sign : 0 ≤ n) (room : n < 2 ^ format.digits)
    (least : format.least ≤ e) : format.roundMagnitude (n * 2 ^ e) = n * 2 ^ e := by
  rcases sign.eq_or_lt with rfl | positive
  · rw [Int.cast_zero, zero_mul, roundMagnitude_zero]
  have unit : (0 : ℚ) < 2 ^ e := zpow_pos two_pos e
  have size : (n : ℚ) * 2 ^ e < 2 ^ (e + format.digits) := by
    rw [zpow_add₀ two_ne_zero, mul_comm, zpow_natCast]
    exact mul_lt_mul_of_pos_left (by exact_mod_cast room) unit
  have value : (0 : ℚ) < n * 2 ^ e := mul_pos (Int.cast_pos.mpr positive) unit
  have log := (Int.lt_zpow_iff_log_lt one_lt_two value).mp (by exact_mod_cast size)
  have exponents : format.exponent (n * 2 ^ e) ≤ e := by
    rw [exponent]
    omega
  obtain ⟨k, apart⟩ := Int.exists_add_of_le exponents
  refine roundMagnitude_of_multiple (n := n * 2 ^ k) ?_
  have power : (2 : ℚ) ^ e = 2 ^ k * format.quantum (n * 2 ^ e) := by
    conv_lhs => rw [apart]
    rw [zpow_add₀ two_ne_zero, zpow_natCast, mul_comm, quantum]
  push_cast
  rw [mul_assoc, ← power]

/-- A significand of the format, or the next power of two, is kept. -/
theorem roundMagnitude_of_le (format : FloatFormat) {e : ℤ} (sign : 0 ≤ n) (room : n ≤ 2 ^ format.digits)
    (least : format.least ≤ e) : format.roundMagnitude (n * 2 ^ e) = n * 2 ^ e := by
  rcases room.eq_or_lt with rfl | room
  · obtain ⟨k, digits⟩ := Nat.exists_eq_add_one.mpr format.positive
    have value : ((2 ^ format.digits : ℤ) : ℚ) * 2 ^ e = (2 ^ k : ℤ) * 2 ^ (e + 1) := by
      rw [digits, pow_succ, zpow_add₀ two_ne_zero, zpow_one]
      push_cast
      ring
    rw [value]
    refine roundMagnitude_of_lt (by positivity) ?_ (by omega)
    exact pow_lt_pow_right₀ one_lt_two (by omega)
  · exact roundMagnitude_of_lt sign room least

theorem roundMagnitude_roundMagnitude (sign : 0 ≤ x) :
    format.roundMagnitude (format.roundMagnitude x) = format.roundMagnitude x := by
  refine roundMagnitude_of_le format ?_ ?_ (le_max_right _ _)
  · have quotient : ((0 : ℤ) : ℚ) ≤ x / format.quantum x := by
      rw [Int.cast_zero]
      exact div_nonneg sign (quantum_pos format x).le
    exact (nearestEven_intCast 0).symm.trans_le (nearestEven_mono quotient)
  · have quotient : x / format.quantum x ≤ ((2 ^ format.digits : ℤ) : ℚ) := by
      rw [div_le_iff₀ (quantum_pos format x), ← pow_quantum]
      exact (lt_all_digits x).le
    exact (nearestEven_mono quotient).trans_eq (nearestEven_intCast _)

theorem roundTo_nonneg (sign : 0 ≤ x) : format.roundTo x = format.roundMagnitude x := if_pos sign

theorem roundTo_neg (format : FloatFormat) (x : ℚ) : format.roundTo (-x) = -format.roundTo x := by
  rcases lt_trichotomy x 0 with negative | rfl | positive
  · rw [roundTo, roundTo, if_pos (by linarith), if_neg (by linarith), neg_neg]
  · rw [neg_zero, roundTo_nonneg le_rfl, roundMagnitude_zero, neg_zero]
  · rw [roundTo, roundTo, if_neg (by linarith), if_pos positive.le, neg_neg]

theorem roundTo_mono_nonneg (format : FloatFormat) (sign : 0 ≤ x) (below : x ≤ y) :
    format.roundTo x ≤ format.roundTo y := by
  rw [roundTo_nonneg sign, roundTo_nonneg (sign.trans below)]
  rcases sign.eq_or_lt with rfl | positive
  · rw [roundMagnitude_zero]
    exact roundMagnitude_nonneg below
  · exact roundMagnitude_mono positive below

/-- The natural numbers of a significand are kept. -/
theorem roundTo_natCast (format : FloatFormat) {count : ℕ} (room : count ≤ 2 ^ format.digits) :
    format.roundTo count = count := by
  have kept := roundMagnitude_of_le format (n := count) (e := 0) (by positivity)
    (by exact_mod_cast room) format.whole
  rw [zpow_zero, mul_one, Int.cast_natCast] at kept
  exact (roundTo_nonneg (Nat.cast_nonneg count)).trans kept

theorem roundTo_mono (format : FloatFormat) : Monotone format.roundTo := by
  intro x y below
  rcases le_total 0 x with sign | sign
  · exact roundTo_mono_nonneg format sign below
  · rcases le_total 0 y with sign' | sign'
    · -- zero lies between the two
      have left := roundTo_mono_nonneg format le_rfl (neg_nonneg.mpr sign)
      have right := roundTo_mono_nonneg format le_rfl sign'
      rw [roundTo_neg] at left
      rw [roundTo_nonneg le_rfl, roundMagnitude_zero] at left right
      linarith
    · have mirrored := roundTo_mono_nonneg format (neg_nonneg.mpr sign')
        (neg_le_neg below)
      rw [roundTo_neg, roundTo_neg] at mirrored
      linarith

theorem roundTo_roundTo (x : ℚ) : format.roundTo (format.roundTo x) = format.roundTo x := by
  rcases le_total 0 x with sign | sign
  · rw [roundTo_nonneg sign, roundTo_nonneg (roundMagnitude_nonneg sign),
      roundMagnitude_roundMagnitude sign]
  · obtain ⟨y, rfl⟩ : ∃ y, x = -y := ⟨-x, (neg_neg x).symm⟩
    have sign' : 0 ≤ y := neg_nonpos.mp sign
    rw [roundTo_neg, roundTo_neg, roundTo_nonneg sign', roundTo_nonneg (roundMagnitude_nonneg sign'),
      roundMagnitude_roundMagnitude sign']

/-- **The rounding of a format.** -/
def rounding (format : FloatFormat) : Rounding where
  round := format.roundTo
  mono := roundTo_mono format
  round_zero := by
    have zero := roundTo_natCast format (Nat.zero_le _)
    rwa [Nat.cast_zero] at zero
  round_one := by
    have one := roundTo_natCast format Nat.one_le_two_pow
    rwa [Nat.cast_one] at one
  round_round := roundTo_roundTo

theorem represents_natCast {count : ℕ} (room : count ≤ 2 ^ format.digits) :
    format.rounding.Represents count :=
  roundTo_natCast format room

end FloatFormat

end WaitingRoom.Numerics
