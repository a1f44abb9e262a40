import Mathlib.Order.Bounds.Defs
import WaitingRoom.Common.Permutation

/-!
# The permutation over the full range of cohorts

The domain of the walk is the smallest power of four that covers the cohort, and no shift, mask or
message of a round loses a bit of it (`walkDomain`). On that domain `enc` is a bijection, its walk
returns, and `prp` is a bijection of the cohort, whatever the keyed hash is
(`prp_permutes_cohort`).
-/

set_option autoImplicit false

namespace WaitingRoom

open WaitingRoom.Combinatorics

section Domain

variable {F : ℕ → ℕ → ℕ} {b mask n : ℕ}

/-- A power of four that covers the cohort is as wide as the walk's. -/
theorem halfWidth_le_of_le_four_pow {k : ℕ} (two : 2 ≤ n) (covers : n ≤ 4 ^ k) : halfWidth n ≤ k := by
  have positive : n - 1 ≠ 0 := by omega
  have below : (n - 1).log2 < 2 * k := by
    rw [Nat.log2_lt positive, Nat.pow_mul]
    exact Nat.lt_of_lt_of_le (Nat.sub_lt (by omega) Nat.one_pos) covers
  simp only [halfWidth, leadingZeros, positive, if_false]
  omega

/-- The four message bytes of a right half hold it. -/
theorem lowBeBytes_eq {x : ℕ} (fits : x < 2 ^ 32) :
    ∃ b0 b1 b2 b3, lowBeBytes x = [b0, b1, b2, b3] ∧ u32OfBeBytes b0 b1 b2 b3 = x := by
  refine ⟨_, _, _, _, rfl, ?_⟩
  simp only [u32OfBeBytes, UInt8.toNat_ofNat']
  omega

variable (small : b ≤ 32) (masked : mask = 2 ^ b - 1) (bits : ∀ round x, F round x < 2 ^ b)

include small masked bits

/-- **`enc` is a bijection of its domain, whatever the round function.** -/
theorem enc_bijOn : Set.BijOn (fun v => enc F v b mask) (Set.Iio (4 ^ b)) (Set.Iio (4 ^ b)) := by
  have maps := enc_mapsTo small masked bits
  have injective := enc_injOn small masked bits
  rw [← Finset.coe_range]
  exact ⟨maps, injective, Finset.surjOn_of_injOn_of_card_le _ maps injective le_rfl⟩

end Domain

/-- The halves of a word after a number of rounds. -/
def halvesAfter (hmac : Hmac) (seed : Seed) (b mask count v : ℕ) : ℕ × ℕ :=
  feistel (roundFunction hmac seed mask) count 0 (v >>> b, v &&& mask)

/-- What the walk over a domain of `4 ^ b` words needs of its half-width and mask. -/
structure WalkDomain (hmac : Hmac) (seed : Seed) (n b mask : ℕ) : Prop where
  smallest : IsLeast {k | n ≤ 4 ^ k} b
  width : b ≤ 32
  unshifted : shiftLeft 1 b = 2 ^ b ∧ mask = 2 ^ b - 1
  message : ∀ v < 4 ^ b, ∀ count, ∃ b0 b1 b2 b3,
    lowBeBytes (halvesAfter hmac seed b mask count v).2 = [b0, b1, b2, b3] ∧
      u32OfBeBytes b0 b1 b2 b3 = (halvesAfter hmac seed b mask count v).2
  recombined : ∀ v < 4 ^ b, enc (roundFunction hmac seed mask) v b mask =
    (halvesAfter hmac seed b mask rounds v).1 * 2 ^ b + (halvesAfter hmac seed b mask rounds v).2
  bijective : Set.BijOn (fun v => enc (roundFunction hmac seed mask) v b mask) (Set.Iio (4 ^ b))
    (Set.Iio (4 ^ b))
  returns : ∀ i < n, (prpWalk hmac seed i n).isSome

/-- The walk of a cohort has such a domain. -/
theorem walkDomain (hmac : Hmac) (seed : Seed) {n : ℕ} (two : 2 ≤ n) (bound : n ≤ u64Bound) :
    WalkDomain hmac seed n (halfWidth n) (shiftLeft 1 (halfWidth n) - 1) := by
  have masked : shiftLeft 1 (halfWidth n) - 1 = 2 ^ halfWidth n - 1 := by
    rw [shiftLeft_one halfWidth_le]
  have bits := roundFunction_lt hmac seed masked
  refine
    { smallest := ⟨le_four_pow_halfWidth two bound, fun k => halfWidth_le_of_le_four_pow two⟩
      width := halfWidth_le
      unshifted := ⟨shiftLeft_one halfWidth_le, masked⟩
      message := fun v inside count => lowBeBytes_eq ?_
      recombined := fun v inside => enc_eq halfWidth_le masked bits inside
      bijective := enc_bijOn halfWidth_le masked bits
      returns := fun i inside => prpWalk_isSome hmac seed two bound inside }
  have right := (feistel_lt bits count 0 (v >>> halfWidth n, _) (high_lt inside) (low_lt masked v)).2
  exact right.trans_le (Nat.pow_le_pow_right (by omega) halfWidth_le)

/-- **The permutation is a bijection of every cohort.** -/
theorem prp_permutes_cohort (hmac : Hmac) (seed : Seed) {n : ℕ} (bound : n < u64Bound) :
    (2 ≤ n → WalkDomain hmac seed n (halfWidth n) (shiftLeft 1 (halfWidth n) - 1)) ∧
      Set.BijOn (fun i => prp hmac seed i n) (Set.Iio n) (Set.Iio n) ∧
      ∀ i, n ≤ i ∨ n ≤ 1 → prp hmac seed i n = i :=
  ⟨fun two => walkDomain hmac seed two bound.le, prp_bijOn hmac seed bound.le,
    fun _ outside => prp_of_le hmac seed outside.symm⟩

/-- The largest cohort, under a hash that always says the same. -/
theorem prp_permutes_cohort_largest :
    Set.BijOn (fun i => prp (fun _ _ => Vector.replicate 32 7) ⟨List.replicate 32 0, rfl⟩ i
      (u64Bound - 1)) (Set.Iio (u64Bound - 1)) (Set.Iio (u64Bound - 1)) :=
  (prp_permutes_cohort _ _ (by decide)).2.1

end WaitingRoom
