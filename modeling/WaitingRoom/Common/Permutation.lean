import WaitingRoom.Combinatorics.CycleWalk
import WaitingRoom.Common.Arithmetic

/-!
# The seeded permutation of the cohort

`prp` maps a registration index to a queue position: four Feistel rounds over the smallest
power of four that covers the cohort, cycle-walked back into it. The keyed hash is a
parameter, since nothing here depends on it: for every hash and every seed, `prp` is a
bijection of `[0, n)` (`prp_bijOn`), and its loop returns (`prp_walk_isSome`).
-/

set_option autoImplicit false

namespace WaitingRoom

open WaitingRoom.Combinatorics

/-- The 256-bit seed. -/
structure Seed where
  bytes : List UInt8
  size : bytes.length = 32
  deriving DecidableEq

/-- `HMAC-SHA256`: a tag of 32 bytes for a key and a message. -/
abbrev Hmac := Seed → List UInt8 → Vector UInt8 32

/-- Number of Feistel rounds. -/
def rounds : ℕ := 4

/-- `u32::from_be_bytes`. -/
def u32OfBeBytes (b0 b1 b2 b3 : UInt8) : ℕ :=
  b0.toNat * 2 ^ 24 + b1.toNat * 2 ^ 16 + b2.toNat * 2 ^ 8 + b3.toNat

/-- The low four bytes of `u64::to_be_bytes`. -/
def lowBeBytes (x : ℕ) : List UInt8 :=
  [UInt8.ofNat (x / 2 ^ 24), UInt8.ofNat (x / 2 ^ 16), UInt8.ofNat (x / 2 ^ 8), UInt8.ofNat x]

/-- `F(r, x)`: the first four bytes of the tag of `r || x`, masked. -/
def roundFunction (hmac : Hmac) (key : Seed) (mask round x : ℕ) : ℕ :=
  let tag := hmac key (UInt8.ofNat round :: lowBeBytes x)
  u32OfBeBytes tag[0] tag[1] tag[2] tag[3] &&& mask

/-- `u64::leading_zeros`. -/
def leadingZeros (x : ℕ) : ℕ := if x = 0 then 64 else 63 - x.log2

/-- Half-width `b = ceil(bit_length(n - 1) / 2)`. -/
def halfWidth (n : ℕ) : ℕ :=
  let bits := 64 - leadingZeros (n - 1)
  (bits + 1) / 2

/-- One full Feistel encryption over the `2b`-bit domain. -/
def enc (F : ℕ → ℕ → ℕ) (v b mask : ℕ) : ℕ :=
  let halves := feistel F rounds 0 (v >>> b, v &&& mask)
  shiftLeft halves.1 b ||| halves.2

/-- The walk of `prp`: apply `enc` until the result is below `n`. The domain has `4 ^ b`
elements, and that many steps are enough. -/
def prpWalk (hmac : Hmac) (seed : Seed) (i n : ℕ) : Option ℕ :=
  let b := halfWidth n
  let mask := shiftLeft 1 b - 1
  cycleWalk (fun v => enc (roundFunction hmac seed mask) v b mask) (fun v => decide (v < n))
    (4 ^ b) i

/-- The queue position of a registration index in a cohort of `n`. -/
def prp (hmac : Hmac) (seed : Seed) (i n : ℕ) : ℕ :=
  if n ≤ 1 ∨ n ≤ i then i else (prpWalk hmac seed i n).getD i

/-! ## The domain covers the cohort -/

theorem two_pow_lt_u64Bound {b : ℕ} (small : b ≤ 32) : 2 ^ b < u64Bound :=
  Nat.pow_lt_pow_right (by omega) (by omega)

theorem shiftLeft_one {b : ℕ} (small : b ≤ 32) : shiftLeft 1 b = 2 ^ b := by
  rw [shiftLeft, Nat.one_shiftLeft, Nat.mod_eq_of_lt (two_pow_lt_u64Bound small)]

theorem halfWidth_le {n : ℕ} : halfWidth n ≤ 32 := by
  simp only [halfWidth]
  omega

theorem le_four_pow_halfWidth {n : ℕ} (two : 2 ≤ n) (bound : n ≤ u64Bound) :
    n ≤ 4 ^ halfWidth n := by
  have positive : n - 1 ≠ 0 := by omega
  have log : (n - 1).log2 < 64 :=
    (Nat.log2_lt positive).mpr (show n - 1 < 2 ^ 64 by
      have := bound
      simp only [u64Bound] at this
      omega)
  have below : n - 1 < 2 ^ ((n - 1).log2 + 1) := Nat.lt_log2_self
  have width : (n - 1).log2 + 1 ≤ 2 * halfWidth n := by
    simp only [halfWidth, leadingZeros, positive, if_false]
    omega
  calc n ≤ 2 ^ ((n - 1).log2 + 1) := by omega
    _ ≤ 2 ^ (2 * halfWidth n) := Nat.pow_le_pow_right (by omega) width
    _ = 4 ^ halfWidth n := by rw [Nat.pow_mul]

/-! ## `enc` permutes its domain -/

section Enc

variable {F : ℕ → ℕ → ℕ} {b mask : ℕ}

/-- Splitting a `2b`-bit word into halves loses nothing. -/
theorem halves_injOn (masked : mask = 2 ^ b - 1) {v w : ℕ} (high : v >>> b = w >>> b)
    (low : v &&& mask = w &&& mask) : v = w := by
  rw [Nat.shiftRight_eq_div_pow, Nat.shiftRight_eq_div_pow] at high
  rw [masked, Nat.and_two_pow_sub_one_eq_mod, Nat.and_two_pow_sub_one_eq_mod] at low
  calc v = 2 ^ b * (v / 2 ^ b) + v % 2 ^ b := (Nat.div_add_mod _ _).symm
    _ = 2 ^ b * (w / 2 ^ b) + w % 2 ^ b := by rw [high, low]
    _ = w := Nat.div_add_mod _ _

theorem high_lt {v : ℕ} (inside : v < 4 ^ b) : v >>> b < 2 ^ b := by
  rw [Nat.shiftRight_eq_div_pow, Nat.div_lt_iff_lt_mul (Nat.two_pow_pos b), ← Nat.mul_pow]
  exact inside

theorem low_lt (masked : mask = 2 ^ b - 1) (v : ℕ) : v &&& mask < 2 ^ b := by
  rw [masked, Nat.and_two_pow_sub_one_eq_mod]
  exact Nat.mod_lt _ (Nat.two_pow_pos b)

/-- Recombining two halves of `b ≤ 32` bits drops no bit. -/
theorem recombine {left right : ℕ} (small : b ≤ 32) (leftBits : left < 2 ^ b)
    (rightBits : right < 2 ^ b) : shiftLeft left b ||| right = left * 2 ^ b + right := by
  have whole : left * 2 ^ b < u64Bound :=
    calc left * 2 ^ b < 2 ^ b * 2 ^ b := Nat.mul_lt_mul_of_pos_right leftBits (Nat.two_pow_pos b)
      _ = 2 ^ (b + b) := (Nat.pow_add _ _ _).symm
      _ ≤ 2 ^ 64 := Nat.pow_le_pow_right (by omega) (by omega)
  rw [shiftLeft, Nat.shiftLeft_eq, Nat.mod_eq_of_lt whole, ← Nat.shiftLeft_eq,
    ← Nat.shiftLeft_add_eq_or_of_lt rightBits]

variable (small : b ≤ 32) (masked : mask = 2 ^ b - 1) (bits : ∀ round x, F round x < 2 ^ b)

include small masked bits

theorem enc_eq {v : ℕ} (inside : v < 4 ^ b) :
    enc F v b mask = (feistel F rounds 0 (v >>> b, v &&& mask)).1 * 2 ^ b +
      (feistel F rounds 0 (v >>> b, v &&& mask)).2 := by
  obtain ⟨left, right⟩ := feistel_lt bits rounds 0 (v >>> b, v &&& mask) (high_lt inside)
    (low_lt masked v)
  exact recombine small left right

theorem enc_mapsTo : Set.MapsTo (fun v => enc F v b mask) (Finset.range (4 ^ b))
    (Finset.range (4 ^ b)) := by
  intro v member
  have inside : v < 4 ^ b := by simpa using member
  obtain ⟨left, right⟩ := feistel_lt bits rounds 0 (v >>> b, v &&& mask) (high_lt inside)
    (low_lt masked v)
  have square : 4 ^ b = 2 ^ b * 2 ^ b := Nat.mul_pow 2 2 b
  simp only [Finset.coe_range, Set.mem_Iio]
  rw [enc_eq small masked bits inside, square]
  have room := Nat.mul_le_mul_right (2 ^ b) (Nat.succ_le_of_lt left)
  rw [Nat.succ_mul] at room
  omega

/-- **`enc` is injective on its domain, whatever the round function.** -/
theorem enc_injOn : Set.InjOn (fun v => enc F v b mask) (Finset.range (4 ^ b)) := by
  intro v member w member' same
  have inside : v < 4 ^ b := by simpa using member
  have inside' : w < 4 ^ b := by simpa using member'
  simp only at same
  rw [enc_eq small masked bits inside, enc_eq small masked bits inside'] at same
  have rightV := (feistel_lt bits rounds 0 (v >>> b, v &&& mask) (high_lt inside)
    (low_lt masked v)).2
  have rightW := (feistel_lt bits rounds 0 (w >>> b, w &&& mask) (high_lt inside')
    (low_lt masked w)).2
  have right := congrArg (· % 2 ^ b) same
  simp only [Nat.mul_add_mod_self_right, Nat.mod_eq_of_lt rightV, Nat.mod_eq_of_lt rightW] at right
  rw [right, Nat.add_right_cancel_iff, Nat.mul_left_inj (Nat.two_pow_pos b).ne'] at same
  obtain ⟨high, low⟩ := Prod.mk.inj (feistel_injective F rounds 0 (Prod.ext same right))
  exact halves_injOn masked high low

end Enc

/-! ## `prp` permutes the cohort -/

section Prp

variable (hmac : Hmac) (seed : Seed)

theorem roundFunction_lt {b mask : ℕ} (masked : mask = 2 ^ b - 1) (round x : ℕ) :
    roundFunction hmac seed mask round x < 2 ^ b := low_lt masked _

/-- **The loop of `prp` returns.** -/
theorem prpWalk_isSome {i n : ℕ} (two : 2 ≤ n) (bound : n ≤ u64Bound) (inside : i < n) :
    (prpWalk hmac seed i n).isSome := by
  have masked : shiftLeft 1 (halfWidth n) - 1 = 2 ^ halfWidth n - 1 := by
    rw [shiftLeft_one halfWidth_le]
  have bits := roundFunction_lt hmac seed masked
  have domain : (cycleWalk (fun v => enc (roundFunction hmac seed (shiftLeft 1 (halfWidth n) - 1)) v
      (halfWidth n) (shiftLeft 1 (halfWidth n) - 1)) (fun v => decide (v < n))
      (Finset.range (4 ^ halfWidth n)).card i).isSome :=
    cycleWalk_isSome (enc_mapsTo halfWidth_le masked bits) (enc_injOn halfWidth_le masked bits)
      (by simpa using inside.trans_le (le_four_pow_halfWidth two bound)) (by simpa using inside)
  rwa [Finset.card_range] at domain

/-- Outside the domain the index is returned unchanged. -/
theorem prp_of_le {i n : ℕ} (outside : n ≤ 1 ∨ n ≤ i) : prp hmac seed i n = i := if_pos outside

/-- **`prp` is a bijection of `[0, n)`, for every hash and seed.** -/
theorem prp_bijOn {n : ℕ} (bound : n ≤ u64Bound) :
    Set.BijOn (fun i => prp hmac seed i n) (Set.Iio n) (Set.Iio n) := by
  rcases Nat.lt_or_ge n 2 with degenerate | two
  · have identity : ∀ i, prp hmac seed i n = i := fun i => prp_of_le _ _ (.inl (by omega))
    simp only [identity]
    exact Set.bijOn_id _
  have masked : shiftLeft 1 (halfWidth n) - 1 = 2 ^ halfWidth n - 1 := by
    rw [shiftLeft_one halfWidth_le]
  have bits := roundFunction_lt hmac seed masked
  have walks : ∀ v ∈ Finset.range (4 ^ halfWidth n), decide (v < n) = true →
      cycleWalk (fun v => enc (roundFunction hmac seed (shiftLeft 1 (halfWidth n) - 1)) v
        (halfWidth n) (shiftLeft 1 (halfWidth n) - 1)) (fun v => decide (v < n))
        (Finset.range (4 ^ halfWidth n)).card v = some (prp hmac seed v n) := by
    intro v _ stops
    have inside : v < n := of_decide_eq_true stops
    obtain ⟨w, walk⟩ := Option.isSome_iff_exists.mp (prpWalk_isSome hmac seed two bound inside)
    have reached : prp hmac seed v n = w := by
      rw [prp, if_neg (by omega), walk, Option.getD_some]
    rw [reached, Finset.card_range]
    exact walk
  have bijective := cycleWalk_bijOn (enc_mapsTo halfWidth_le masked bits)
    (enc_injOn halfWidth_le masked bits) walks
  have cohort : {v | v ∈ Finset.range (4 ^ halfWidth n) ∧ decide (v < n) = true} = Set.Iio n := by
    ext v
    simp only [Finset.mem_range, decide_eq_true_eq, Set.mem_ofPred_eq, Set.mem_Iio,
      and_iff_right_iff_imp]
    exact fun inside => inside.trans_le (le_four_pow_halfWidth two bound)
  rwa [cohort] at bijective

end Prp

end WaitingRoom
