import Mathlib.Algebra.Order.Field.Basic
import Mathlib.Algebra.BigOperators.Fin
import Mathlib.Algebra.Order.BigOperators.Group.Finset
import Mathlib.Data.Int.ConditionallyCompleteOrder
import WaitingRoom.Lambda.Controller

/-!
# What one release computes

The release of a pass is bounded on every input (`release_sound`): the cursor moves forward, not
past one behind the end of the line, and by at least the target while there is line left. Evaluated
with a check at every `u64` and at every division, it computes the same decision
(`computeRelease_checked`). Over a run of passes the cursor reaches the end of the line
(`cursor_reaches_end`).

The release falls when more arrivals are counted and rises with the carried rate
(`release_antitone`, `release_mono`), and a rate that was measured over a whole run bounds every
release of the run (`releases_bounded_by_rate`).
-/

set_option autoImplicit false

namespace WaitingRoom

open Numerics

/-! ## The shape of a release -/

/-- A rate as it is stored: one too small for the table is zero. -/
def storableRate (rounding : Rounding) (rate : ℚ) : ℚ :=
  if 0 < rate ∧ rate < rounding.round ddbNumberMinPositive then 0 else rate

section Shape

variable {rounding : Rounding} (inputs : ReleaseInputs) (prev : Option NoShowState) (now : ℕ)

theorem computeRelease_next :
    (computeRelease rounding inputs prev now).nextServingCounter =
      max (min (saturatingAdd inputs.servingCounter (measure rounding inputs prev now).1)
        (saturatingAdd inputs.queueCounter 1)) inputs.servingCounter := rfl

theorem computeRelease_rate :
    (computeRelease rounding inputs prev now).noShow.smoothedRate =
      storableRate rounding (measure rounding inputs prev now).2 := rfl

theorem correction_exact (target : ℕ) (smoothedNoShow : ℚ) :
    correction .exact target smoothedNoShow =
      if 1 - smoothedNoShow ≤ 0 then target * maxCorrectionMultiple
      else min (target / (1 - smoothedNoShow)) (target * maxCorrectionMultiple) := rfl

end Shape

/-! ## Monotone steps -/

theorem roundAway_mono : Monotone roundAway := by
  intro x y below
  rw [roundAway, roundAway]
  split_ifs with left right right
  · exact Int.floor_le_floor (by linarith)
  · exact absurd (left.trans below) right
  · have negative : (0 : ℤ) ≤ ⌊-x + 1 / 2⌋ := Int.floor_nonneg.mpr (by linarith)
    have positive : (0 : ℤ) ≤ ⌊y + 1 / 2⌋ := Int.floor_nonneg.mpr (by linarith)
    omega
  · have floors : ⌊-y + 1 / 2⌋ ≤ ⌊-x + 1 / 2⌋ := Int.floor_le_floor (by linarith)
    omega

theorem roundAway_natCast (n : ℕ) : roundAway n = n := by
  have half : ⌊(1 / 2 : ℚ)⌋ = 0 := Int.floor_eq_zero_iff.mpr ⟨by norm_num, by norm_num⟩
  rw [roundAway, if_pos (Nat.cast_nonneg n), Int.floor_natCast_add, half, add_zero]

section Saturate

variable {rounding : Rounding}

theorem saturateU64_mono (room : rounding.round u64Max ≤ u64Bound) :
    Monotone (saturateU64 rounding) := by
  intro x y below
  have above : (x : ℚ) ≤ y := Int.cast_le.mpr below
  simp only [saturateU64]
  by_cases none : x ≤ 0
  · rw [if_pos none]
    exact Nat.zero_le _
  rw [if_neg none, if_neg (show ¬ y ≤ 0 by omega)]
  by_cases all : rounding.round u64Max ≤ x
  · rw [if_pos all, if_pos (all.trans above)]
  · rw [if_neg all]
    -- what is cast lies below `2 ^ 64`
    have inside : (x : ℚ) < u64Bound := (not_le.mp all).trans_le room
    have short : x < u64Bound := by exact_mod_cast inside
    split_ifs with all'
    · simp only [u64Max, u64Bound] at *
      omega
    · omega

theorem saturateU64_natCast (bound : (u64Max : ℚ) ≤ rounding.round u64Max) {n : ℕ}
    (fits : n ≤ u64Max) : saturateU64 rounding n = n := by
  simp only [saturateU64]
  split_ifs with none all
  · omega
  · have whole : (u64Max : ℚ) ≤ n := by exact_mod_cast bound.trans all
    exact le_antisymm (Nat.cast_le.mp whole) fits
  · exact Int.toNat_natCast n

theorem clampUnit_mono : Monotone clampUnit := fun _ _ below =>
  max_le_max_left _ (min_le_min_right _ below)

theorem storableRate_mono : Monotone (storableRate rounding) := by
  intro x y below
  simp only [storableRate]
  split_ifs with small large large
  · exact le_rfl
  · exact (small.1.trans_le below).le
  · by_contra above
    exact small ⟨not_le.mp above, below.trans_lt large.2⟩
  · exact below

/-- A larger rate is corrected by more. -/
theorem correction_mono (target : ℕ) : Monotone (correction rounding target) := by
  intro rate rate' below
  have nonneg : 0 ≤ rounding.round target := Rounding.round_nonneg (Nat.cast_nonneg target)
  have denominators : rounding.round (1 - rate') ≤ rounding.round (1 - rate) :=
    rounding.mono (by linarith)
  simp only [correction]
  split_ifs with left right right
  · exact le_rfl
  · exact absurd (denominators.trans left) right
  · exact min_le_right _ _
  · refine min_le_min_right _ (rounding.mono ?_)
    exact div_le_div_of_nonneg_left nonneg (not_le.mp right) denominators

theorem boundedRelease_mono (room : rounding.round u64Max ≤ u64Bound) (target : ℕ) :
    Monotone (boundedRelease rounding target) := fun _ _ below =>
  saturateU64_mono room (roundAway_mono (correction_mono target below))

/-- What is corrected is at least the target. -/
theorem le_boundedRelease {target : ℕ} (represents : RepresentsTarget rounding target)
    (fits : target ≤ u64Max) {rate : ℚ} (rates : 0 ≤ rate) :
    target ≤ boundedRelease rounding target rate := by
  have none : boundedRelease rounding target 0 = target := by
    have nonneg : (0 : ℚ) ≤ target := Nat.cast_nonneg target
    have raw : correction rounding target 0 = target := by
      have kept : rounding.round target = target := represents.raw
      simp only [correction, correction_cap represents]
      rw [sub_zero, rounding.round_one, if_neg (by norm_num), div_one, kept, kept]
      exact min_eq_left (by linarith)
    rw [boundedRelease, raw, roundAway_natCast, saturateU64_natCast represents.bound fits]
  calc target = boundedRelease rounding target 0 := none.symm
    _ ≤ boundedRelease rounding target rate := boundedRelease_mono represents.room target rates

/-- A pass is to release the target at least. -/
theorem target_le_measure {inputs : ReleaseInputs}
    (represents : RepresentsTarget rounding (targetReleasePerInterval inputs.targetRate))
    (prev : Option NoShowState) (now : ℕ) :
    targetReleasePerInterval inputs.targetRate ≤ (measure rounding inputs prev now).1 := by
  rw [measure]
  split_ifs
  · exact le_rfl
  · exact le_boundedRelease represents (targetReleasePerInterval_le _) (clampUnit_bounds _).1

end Saturate

/-- The sum of the shards saturates as a whole. -/
theorem sumArrivals_eq (arrivals : Shard → ℕ) :
    sumArrivals arrivals = min (∑ shard, arrivals shard) u64Max := by
  have folded : ∀ (list : List Shard) (start : ℕ),
      list.foldl (fun total shard => saturatingAdd total (arrivals shard)) (min start u64Max) =
        min (start + (list.map arrivals).sum) u64Max := by
    intro list
    induction list with
    | nil => intro start; rfl
    | cons shard list ih =>
        intro start
        have step : saturatingAdd (min start u64Max) (arrivals shard) =
            min (start + arrivals shard) u64Max := by
          simp only [saturatingAdd]
          omega
        rw [List.foldl_cons, step, ih, List.map_cons, List.sum_cons, Nat.add_assoc]
  have whole := folded (List.finRange shards) 0
  rw [Nat.zero_min, Nat.zero_add] at whole
  rw [sumArrivals, whole]
  exact congrArg (min · u64Max) (by rw [← List.ofFn_eq_map, List.sum_ofFn])

/-! ## With every operation checked -/

/-- A value that a `u64` holds. -/
def inU64 (value : ℕ) : Option ℕ := if value < u64Bound then some value else none

/-- A division that is defined. -/
def checkedDiv (a b : ℚ) : Option ℚ := if b = 0 then none else some (a / b)

/-- A cast of a number between zero and `u64::MAX`. -/
def castU64 (rounded : ℤ) : Option ℕ :=
  if 0 < rounded ∧ rounded < u64Max then some rounded.toNat else none

/-- `correction`, undefined where it would divide by zero. -/
def correctionChecked (target : ℕ) (smoothedNoShow : ℚ) : Option ℚ :=
  if 1 - smoothedNoShow ≤ 0 then some (target * maxCorrectionMultiple)
  else (checkedDiv target (1 - smoothedNoShow)).map fun raw => min raw (target * maxCorrectionMultiple)

/-- `saturateU64`, undefined where the cast would be out of range. -/
def saturateChecked (rounded : ℤ) : Option ℕ :=
  if rounded ≤ 0 then some 0 else if (u64Max : ℤ) ≤ rounded then some u64Max else castU64 rounded

/-- `boundedRelease`, undefined where it would divide by zero or cast out of range. -/
def boundedReleaseChecked (target : ℕ) (smoothedNoShow : ℚ) : Option ℕ := do
  let raw ← correctionChecked target smoothedNoShow
  saturateChecked (roundAway raw)

/-- `measure`, undefined where it would divide by zero or leave `u64`. -/
def measureChecked (inputs : ReleaseInputs) (prev : Option NoShowState) (now : ℕ) :
    Option (ℕ × ℚ) := do
  let arrivalsTotal ← inU64 (sumArrivals inputs.arrivals)
  let observedArrivals ← inU64 (saturatingSub arrivalsTotal inputs.lastArrivalsTotal)
  let releasedLast ← inU64 (saturatingSub inputs.servingCounter (max inputs.lastServingCounter 1))
  let target ← inU64 (targetReleasePerInterval inputs.targetRate)
  if releasedLast = 0 ∨ inputs.PriorOpenPassIsStale now then
    return (target, (prev.getD ⟨0⟩).smoothedRate)
  else
    let fraction ← checkedDiv observedArrivals releasedLast
    let observedNoShow := 1 - clampUnit fraction
    let smoothed := clampUnit
      (match prev with
      | some state => ewmaAlpha * observedNoShow + (1 - ewmaAlpha) * state.smoothedRate
      | none => observedNoShow)
    let release ← boundedReleaseChecked target smoothed
    return (release, smoothed)

/-- `computeRelease`, undefined where a step would divide by zero or leave `u64`. -/
def computeReleaseChecked (inputs : ReleaseInputs) (prev : Option NoShowState) (now : ℕ) :
    Option ReleaseDecision := do
  let (positions, measured) ← measureChecked inputs prev now
  let advanced ← inU64 (saturatingAdd inputs.servingCounter positions)
  let ceiling ← inU64 (saturatingAdd inputs.queueCounter 1)
  let nextServingCounter ← inU64 (max (min advanced ceiling) inputs.servingCounter)
  let release ← inU64 (saturatingSub nextServingCounter inputs.servingCounter)
  return {
    release := release
    nextServingCounter := nextServingCounter
    previousServingCounter := inputs.servingCounter
    arrivalsTotal := sumArrivals inputs.arrivals
    noShow := ⟨storableRate .exact measured⟩
    lastOpenPassAt := now }

/-- The fields of the inputs that a pass computes with are `u64` values, and the rate is a `u32`. -/
structure ReleaseInputs.Fits (inputs : ReleaseInputs) : Prop where
  arrivals : ∀ shard, inputs.arrivals shard < u64Bound
  lastArrivalsTotal : inputs.lastArrivalsTotal < u64Bound
  lastServingCounter : inputs.lastServingCounter < u64Bound
  servingCounter : inputs.servingCounter < u64Bound
  queueCounter : inputs.queueCounter < u64Bound
  targetRate : inputs.targetRate < u32Bound
  lastOpenPassAt : inputs.lastOpenPassAt < u64Bound

theorem correction_checked (target : ℕ) (rate : ℚ) :
    correctionChecked target rate = some (correction .exact target rate) := by
  rw [correctionChecked, correction_exact]
  split_ifs with full
  · rfl
  · rw [checkedDiv, if_neg (not_le.mp full).ne']
    rfl

theorem saturate_checked (rounded : ℤ) :
    saturateChecked rounded = some (saturateU64 .exact rounded) := by
  have whole : (u64Max : ℚ) ≤ rounded ↔ (u64Max : ℤ) ≤ rounded := by exact_mod_cast Iff.rfl
  rw [saturateChecked, saturateU64, Rounding.exact_round, if_congr whole rfl rfl]
  split_ifs with none all
  · rfl
  · rfl
  · exact if_pos ⟨not_le.mp none, not_le.mp all⟩

theorem boundedRelease_checked (target : ℕ) (rate : ℚ) :
    boundedReleaseChecked target rate = some (boundedRelease .exact target rate) := by
  simp only [boundedReleaseChecked, correction_checked, Option.bind_eq_bind, Option.bind_some]
  exact saturate_checked _

theorem inU64_of_lt {value : ℕ} (fits : value < u64Bound) : inU64 value = some value := if_pos fits

theorem inU64_of_le {value : ℕ} (fits : value ≤ u64Max) : inU64 value = some value :=
  inU64_of_lt (Nat.lt_of_le_pred (by decide) fits)

variable {inputs : ReleaseInputs} {prev : Option NoShowState} {now : ℕ}

theorem measure_checked (fits : inputs.Fits) :
    measureChecked inputs prev now = some (measure .exact inputs prev now) := by
  have arrivals := inU64_of_lt (sumArrivals_lt inputs.arrivals)
  have observed : inU64 (saturatingSub (sumArrivals inputs.arrivals) inputs.lastArrivalsTotal) =
      some inputs.observedArrivals :=
    inU64_of_lt ((Nat.sub_le _ _).trans_lt (sumArrivals_lt inputs.arrivals))
  have released : inU64 (saturatingSub inputs.servingCounter (max inputs.lastServingCounter 1)) =
      some inputs.releasedLast :=
    inU64_of_lt ((Nat.sub_le _ _).trans_lt fits.servingCounter)
  have target := inU64_of_le (targetReleasePerInterval_le inputs.targetRate)
  simp only [measureChecked, arrivals, observed, released, target, Option.bind_eq_bind,
    Option.bind_some, Option.pure_def, measure]
  split_ifs with unmeasurable
  · rfl
  · have divisor : (inputs.releasedLast : ℚ) ≠ 0 := by
      exact_mod_cast fun none => unmeasurable (.inl none)
    rw [checkedDiv, if_neg divisor, Option.bind_some, boundedRelease_checked, Option.bind_some]
    rfl

/-- **No step of a release wraps or divides by zero.** -/
theorem computeRelease_checked (fits : inputs.Fits) :
    computeReleaseChecked inputs prev now = some (computeRelease .exact inputs prev now) := by
  have advanced := inU64_of_lt (saturatingAdd_lt inputs.servingCounter (measure .exact inputs prev now).1)
  have ceiling := inU64_of_lt (saturatingAdd_lt inputs.queueCounter 1)
  have next : inU64 (max (min (saturatingAdd inputs.servingCounter (measure .exact inputs prev now).1)
      (saturatingAdd inputs.queueCounter 1)) inputs.servingCounter) =
        some (computeRelease .exact inputs prev now).nextServingCounter :=
    inU64_of_lt (max_lt ((min_le_right _ _).trans_lt (saturatingAdd_lt _ _)) fits.servingCounter)
  have release : inU64 (saturatingSub (computeRelease .exact inputs prev now).nextServingCounter
      inputs.servingCounter) = some (computeRelease .exact inputs prev now).release :=
    inU64_of_lt ((Nat.sub_le _ _).trans_lt
      (max_lt ((min_le_right _ _).trans_lt (saturatingAdd_lt _ _)) fits.servingCounter))
  simp only [computeReleaseChecked, measure_checked fits, advanced, ceiling, next, release,
    Option.bind_eq_bind, Option.bind_some, Option.pure_def]
  rfl

/-! ## One release -/

/-- What holds of the release of one pass. -/
structure ReleaseSound (inputs : ReleaseInputs) (prev : Option NoShowState) (now : ℕ) : Prop where
  forward : inputs.servingCounter ≤ (computeRelease .exact inputs prev now).nextServingCounter
  ceiling : (computeRelease .exact inputs prev now).nextServingCounter ≤
    max inputs.servingCounter (saturatingAdd inputs.queueCounter 1)
  exact_ : (computeRelease .exact inputs prev now).nextServingCounter =
    inputs.servingCounter + (computeRelease .exact inputs prev now).release
  progress : min (saturatingAdd inputs.queueCounter 1)
      (saturatingAdd inputs.servingCounter (inputs.targetRate * intervalSecs)) ≤
    (computeRelease .exact inputs prev now).nextServingCounter
  cap : (computeRelease .exact inputs prev now).release ≤ 2 * (inputs.targetRate * intervalSecs)
  rate : (computeRelease .exact inputs prev now).noShow.smoothedRate = 0 ∨
    ddbNumberMinPositive ≤ (computeRelease .exact inputs prev now).noShow.smoothedRate ∧
      (computeRelease .exact inputs prev now).noShow.smoothedRate ≤ 1
  stamped : (computeRelease .exact inputs prev now).lastOpenPassAt = now
  defined : computeReleaseChecked inputs prev now = some (computeRelease .exact inputs prev now)
  summed : (computeRelease .exact inputs prev now).arrivalsTotal =
    min (∑ shard, inputs.arrivals shard) u64Max
  arrivalsAhead : (computeRelease .exact inputs prev now).arrivalsTotal ≤ inputs.lastArrivalsTotal →
    inputs.observedArrivals = 0
  servingAhead : inputs.servingCounter ≤ inputs.lastServingCounter → inputs.releasedLast = 0

theorem saturatingAdd_mono {a b c : ℕ} (below : b ≤ c) : saturatingAdd a b ≤ saturatingAdd a c :=
  min_le_min_right _ (Nat.add_le_add_left below a)

/-- **A release is bounded, moves forward and makes progress, on every input.** -/
theorem release_sound (fits : inputs.Fits)
    (rates : ∀ state, prev = some state → 0 ≤ state.smoothedRate ∧ state.smoothedRate ≤ 1) :
    ReleaseSound inputs prev now where
  forward := (computeRelease_bounds inputs prev now).1
  ceiling := (computeRelease_bounds inputs prev now).2.trans_eq (max_comm _ _)
  exact_ := computeRelease_release inputs prev now
  progress := by
    rw [computeRelease_next, ← targetReleasePerInterval_eq fits.targetRate, min_comm]
    refine le_max_of_le_left (min_le_min_right _ (saturatingAdd_mono ?_))
    exact target_le_measure (representsTarget_exact _) prev now
  cap := by
    rw [← targetReleasePerInterval_eq fits.targetRate]
    exact (computeRelease_le .exact inputs prev now).trans (measure_le_cap (representsTarget_exact _) prev now)
  rate := by
    have bounds : 0 ≤ (computeRelease .exact inputs prev now).noShow.smoothedRate ∧
        (computeRelease .exact inputs prev now).noShow.smoothedRate ≤ 1 :=
      computeRelease_noShow_bounds inputs now rates
    rcases bounds.1.eq_or_lt with zero | positive
    · exact .inl zero.symm
    · refine .inr ⟨?_, bounds.2⟩
      exact not_lt.mp fun small =>
        computeRelease_noShow_storable inputs prev now ⟨positive, small⟩
  stamped := rfl
  defined := computeRelease_checked fits
  summed := sumArrivals_eq inputs.arrivals
  arrivalsAhead := Nat.sub_eq_zero_of_le
  servingAhead ahead := Nat.sub_eq_zero_of_le (ahead.trans (le_max_left _ _))

/-! ## A run of passes -/

/-- What one pass of a run computes its release from. -/
structure Pass where
  inputs : ReleaseInputs
  prev : Option NoShowState
  now : ℕ

/-- What the pass decides. -/
def Pass.decision (pass : Pass) : ReleaseDecision := computeRelease .exact pass.inputs pass.prev pass.now

/-- Passes over a line that nobody joins: each reads the cursor that the one before left. -/
structure QuietRun (passes : ℕ → Pass) (queue : ℕ) : Prop where
  fits : ∀ k, (passes k).inputs.Fits
  follows : ∀ k, (passes (k + 1)).inputs.servingCounter = (passes k).decision.nextServingCounter
  quiet : ∀ k, (passes k).inputs.queueCounter = queue
  releases : ∀ k, 1 ≤ (passes k).inputs.targetRate

/-- Every pass brings the cursor one position nearer to the end of the line, at least. -/
theorem QuietRun.cursor_le {passes : ℕ → Pass} {queue : ℕ} (run : QuietRun passes queue) (k : ℕ) :
    min (saturatingAdd queue 1) ((passes 0).inputs.servingCounter + k) ≤
      (passes k).inputs.servingCounter := by
  induction k with
  | zero => exact min_le_right _ _
  | succ k ih =>
      have target : 1 ≤ targetReleasePerInterval (passes k).inputs.targetRate := by
        rw [targetReleasePerInterval_eq (run.fits k).targetRate]
        exact Nat.mul_pos (run.releases k) (by decide)
      have forward : (passes k).inputs.servingCounter ≤ (passes k).decision.nextServingCounter :=
        (computeRelease_bounds (passes k).inputs (passes k).prev (passes k).now).1
      have progress : min (saturatingAdd queue 1) (saturatingAdd (passes k).inputs.servingCounter 1) ≤
          (passes k).decision.nextServingCounter := by
        rw [Pass.decision, computeRelease_next, run.quiet k, min_comm]
        refine le_max_of_le_left (min_le_min_right _ (saturatingAdd_mono ?_))
        exact target.trans (target_le_measure (representsTarget_exact _) _ _)
      have short : saturatingAdd queue 1 ≤ u64Max := min_le_right _ _
      rw [run.follows k]
      rw [saturatingAdd.eq_def (passes k).inputs.servingCounter] at progress
      generalize saturatingAdd queue 1 = end_ at *
      generalize u64Max = bound at *
      omega

/-- **Finitely many passes bring the cursor to the end of the line.** -/
theorem QuietRun.reaches_end {passes : ℕ → Pass} {queue : ℕ} (run : QuietRun passes queue) :
    ∃ enough, ∀ k, enough ≤ k → saturatingAdd queue 1 ≤ (passes k).inputs.servingCounter := by
  have end_ : saturatingAdd queue 1 ≤ u64Max := min_le_right _ _
  generalize u64Max = enough at end_
  refine ⟨enough, fun k long => ?_⟩
  have near : saturatingAdd queue 1 ≤ (passes 0).inputs.servingCounter + k :=
    end_.trans (long.trans (Nat.le_add_left _ _))
  exact (le_min le_rfl near).trans (run.cursor_le k)

/-- **`compute_release` is bounded and monotone on every input, and makes progress**: finitely many
passes over a line that nobody joins bring the cursor past every position a cursor can pass. -/
theorem release_bounded_and_progresses :
    (∀ (inputs : ReleaseInputs) (prev : Option NoShowState) (now : ℕ), inputs.Fits →
      (∀ state, prev = some state → 0 ≤ state.smoothedRate ∧ state.smoothedRate ≤ 1) →
      ReleaseSound inputs prev now) ∧
    ∀ (passes : ℕ → Pass) (queue : ℕ), QuietRun passes queue →
      ∃ enough, ∀ k, enough ≤ k →
        saturatingAdd queue 1 ≤ (passes k).inputs.servingCounter ∧
          ∀ position ≤ queue, position < u64Max → position < (passes k).inputs.servingCounter := by
  refine ⟨fun inputs prev now fits rates => release_sound fits rates, fun passes queue run => ?_⟩
  obtain ⟨enough, reached⟩ := run.reaches_end
  refine ⟨enough, fun k long => ⟨reached k long, fun position issued inside => ?_⟩⟩
  exact (lt_min (Nat.lt_succ_of_le issued) inside).trans_le (reached k long)

namespace Sample

/-- Pass `k` of a run over a line of twenty-five, every pass too late to measure the one before. -/
def walk (k : ℕ) : Pass where
  inputs := ⟨fun _ => 0, 0, min (1 + 10 * (k - 1)) 26, min (1 + 10 * k) 26, 25, 1, 20 * k⟩
  prev := some ⟨1 / 5⟩
  now := 20 * (k + 1)

theorem walk_next (k : ℕ) : (walk k).decision.nextServingCounter = min (1 + 10 * (k + 1)) 26 := by
  have stale : (walk k).inputs.PriorOpenPassIsStale (walk k).now := by
    change 20 ≤ 20 * (k + 1) - 20 * k
    omega
  have short : u64Max = 18446744073709551615 := rfl
  rw [Pass.decision, computeRelease_next, measure_of_unmeasurable (.inr stale)]
  change max (min (min (min (1 + 10 * k) 26 + 10) u64Max) (min (25 + 1) u64Max)) _ = _
  change max _ (min (1 + 10 * k) 26) = _
  omega

/-- The first thousand passes are early enough for a clock of a `u64`, and the rest repeat the last. -/
def walkRun (k : ℕ) : Pass := walk (min k 1000)

theorem walkRun_run : QuietRun walkRun 25 where
  fits k := by
    have bounded : min k 1000 ≤ 1000 := min_le_right _ _
    generalize least : min k 1000 = early at bounded
    simp only [walkRun, least]
    refine ⟨fun _ => Nat.two_pow_pos 64, Nat.two_pow_pos 64, ?_, ?_, ?_, ?_, ?_⟩
    all_goals simp only [walk, u64Bound, u32Bound]; omega
  follows k := by
    rw [walkRun, walkRun, walk_next]
    change min (1 + 10 * min (k + 1) 1000) 26 = _
    omega
  quiet _ := rfl
  releases _ := Nat.le_refl 1

/-- A pass at the end of the longest line there is. -/
def lastPass : Pass where
  inputs := ⟨fun _ => 0, 0, 0, u64Max, u64Max, 1, 0⟩
  prev := none
  now := 0

theorem lastPass_run : QuietRun (fun _ => lastPass) u64Max where
  fits _ := ⟨by decide, by decide, by decide, by decide, by decide, by decide, by decide⟩
  follows _ := by decide +kernel
  quiet _ := rfl
  releases _ := Nat.le_refl 1

end Sample

/-- The first pass of the walk moves the cursor from the first position to the eleventh, as a sound
release, and finitely many bring it past all twenty-five. -/
theorem release_bounded_and_progresses_sample :
    (Sample.walkRun 0).inputs.servingCounter = 1 ∧
      (Sample.walkRun 0).decision.nextServingCounter = 11 ∧
      ReleaseSound (Sample.walkRun 0).inputs (Sample.walkRun 0).prev (Sample.walkRun 0).now ∧
      ∃ enough : ℕ, ∀ k : ℕ, enough ≤ k →
        saturatingAdd 25 1 ≤ (Sample.walkRun k).inputs.servingCounter ∧
          ∀ position ≤ 25, position < u64Max →
            position < (Sample.walkRun k).inputs.servingCounter := by
  refine ⟨by decide +kernel, by decide +kernel, ?_,
    release_bounded_and_progresses.2 Sample.walkRun 25 Sample.walkRun_run⟩
  refine release_bounded_and_progresses.1 _ _ _ (Sample.walkRun_run.fits 0) ?_
  rintro state ⟨⟩
  decide +kernel

/-- No pass brings the cursor past the last position of the longest line. -/
theorem cursor_stops_at_max : ∃ (passes : ℕ → Pass) (queue : ℕ), QuietRun passes queue ∧
    ∀ k, ¬ queue < (passes k).inputs.servingCounter :=
  ⟨fun _ => Sample.lastPass, u64Max, Sample.lastPass_run, fun _ => Nat.lt_irrefl u64Max⟩

/-! ## Counting more arrivals, carrying a larger rate -/

/-- One decision releases no more than another, and carries no larger rate. -/
structure ReleaseDecision.AtMost (decision other : ReleaseDecision) : Prop where
  rate : decision.noShow.smoothedRate ≤ other.noShow.smoothedRate
  release : decision.release ≤ other.release
  next : decision.nextServingCounter ≤ other.nextServingCounter

/-- A smaller measurement makes a smaller decision. -/
theorem atMost_of_measure {inputs' : ReleaseInputs} {prev' : Option NoShowState}
    (serving : inputs.servingCounter = inputs'.servingCounter)
    (queue : inputs.queueCounter = inputs'.queueCounter)
    (positions : (measure .exact inputs prev now).1 ≤ (measure .exact inputs' prev' now).1)
    (rates : (measure .exact inputs prev now).2 ≤ (measure .exact inputs' prev' now).2) :
    (computeRelease .exact inputs prev now).AtMost (computeRelease .exact inputs' prev' now) := by
  have next : (computeRelease .exact inputs prev now).nextServingCounter ≤
      (computeRelease .exact inputs' prev' now).nextServingCounter := by
    rw [computeRelease_next, computeRelease_next, serving, queue]
    exact max_le_max_right _ (min_le_min_right _ (saturatingAdd_mono positions))
  refine ⟨?_, ?_, next⟩
  · rw [computeRelease_rate, computeRelease_rate]
    exact storableRate_mono rates
  · rw [computeRelease_release, computeRelease_release, serving] at next
    exact Nat.le_of_add_le_add_left next

/-- A pass that measures releases what its smoothed rate corrects. -/
theorem measure_of_measurable (measurable : ¬ (inputs.releasedLast = 0 ∨ inputs.PriorOpenPassIsStale now)) :
    measure .exact inputs prev now =
      (boundedRelease .exact (targetReleasePerInterval inputs.targetRate) (inputs.smoothed .exact prev),
        inputs.smoothed .exact prev) :=
  if_neg measurable

/-- Two passes over the same interval: a smaller rate, carried or smoothed, measures less. -/
theorem atMost_of_rates {inputs' : ReleaseInputs} {prev' : Option NoShowState}
    (serving : inputs.servingCounter = inputs'.servingCounter)
    (queue : inputs.queueCounter = inputs'.queueCounter)
    (target : inputs.targetRate = inputs'.targetRate)
    (last : inputs.lastServingCounter = inputs'.lastServingCounter)
    (opened : inputs.lastOpenPassAt = inputs'.lastOpenPassAt)
    (carried : (prev.getD ⟨0⟩).smoothedRate ≤ (prev'.getD ⟨0⟩).smoothedRate)
    (smoothed : inputs.smoothed .exact prev ≤ inputs'.smoothed .exact prev') :
    (computeRelease .exact inputs prev now).AtMost (computeRelease .exact inputs' prev' now) := by
  have same : (inputs.releasedLast = 0 ∨ inputs.PriorOpenPassIsStale now) ↔
      (inputs'.releasedLast = 0 ∨ inputs'.PriorOpenPassIsStale now) := by
    simp only [ReleaseInputs.releasedLast, ReleaseInputs.PriorOpenPassIsStale, serving, last, opened]
  by_cases unmeasurable : inputs.releasedLast = 0 ∨ inputs.PriorOpenPassIsStale now
  · refine atMost_of_measure serving queue ?_ ?_
    · rw [measure_of_unmeasurable unmeasurable, measure_of_unmeasurable (same.mp unmeasurable), target]
    · rw [measure_of_unmeasurable unmeasurable, measure_of_unmeasurable (same.mp unmeasurable)]
      exact carried
  · have measurable' := mt same.mpr unmeasurable
    refine atMost_of_measure serving queue ?_ ?_
    · rw [measure_of_measurable unmeasurable, measure_of_measurable measurable', target]
      exact boundedRelease_mono exact_room _ smoothed
    · rw [measure_of_measurable unmeasurable, measure_of_measurable measurable']
      exact smoothed

/-- More arrivals are observed. -/
theorem observedNoShow_antitone {inputs' : ReleaseInputs}
    (serving : inputs.servingCounter = inputs'.servingCounter)
    (last : inputs.lastServingCounter = inputs'.lastServingCounter)
    (baseline : inputs.lastArrivalsTotal = inputs'.lastArrivalsTotal)
    (arrivals : ∀ shard, inputs.arrivals shard ≤ inputs'.arrivals shard) :
    inputs'.observedNoShow .exact ≤ inputs.observedNoShow .exact := by
  have totals : sumArrivals inputs.arrivals ≤ sumArrivals inputs'.arrivals := by
    rw [sumArrivals_eq, sumArrivals_eq]
    exact min_le_min_right _ (Finset.sum_le_sum fun shard _ => arrivals shard)
  have observed : (inputs.observedArrivals : ℚ) ≤ inputs'.observedArrivals := by
    simp only [ReleaseInputs.observedArrivals, ← baseline]
    exact_mod_cast Nat.sub_le_sub_right totals _
  have released : inputs.releasedLast = inputs'.releasedLast := by
    simp only [ReleaseInputs.releasedLast, serving, last]
  rw [ReleaseInputs.observedNoShow, ReleaseInputs.observedNoShow, released]
  refine sub_le_sub_left (clampUnit_mono ?_) 1
  exact div_le_div_of_nonneg_right observed (Nat.cast_nonneg _)

/-- **Counting more arrivals only slows the release.** -/
theorem release_antitone {arrivals : Shard → ℕ}
    (more : ∀ shard, inputs.arrivals shard ≤ arrivals shard) :
    (computeRelease .exact { inputs with arrivals := arrivals } prev now).AtMost
      (computeRelease .exact inputs prev now) := by
  have observed : ({ inputs with arrivals := arrivals } : ReleaseInputs).observedNoShow .exact ≤
      inputs.observedNoShow .exact := observedNoShow_antitone rfl rfl rfl more
  refine atMost_of_rates rfl rfl rfl rfl rfl le_rfl (clampUnit_mono ?_)
  cases prev with
  | none => exact observed
  | some state =>
      have weight : (0 : ℚ) ≤ ewmaAlpha := by norm_num [ewmaAlpha]
      have scaled := mul_le_mul_of_nonneg_left observed weight
      simp only [Rounding.exact_round]
      linarith

/-- **Carrying a larger rate only speeds it up.** -/
theorem release_mono {state state' : NoShowState}
    (larger : state.smoothedRate ≤ state'.smoothedRate) :
    (computeRelease .exact inputs (some state) now).AtMost (computeRelease .exact inputs (some state') now) := by
  have weight : (0 : ℚ) ≤ 1 - ewmaAlpha := by norm_num [ewmaAlpha]
  have scaled := mul_le_mul_of_nonneg_left larger weight
  refine atMost_of_rates rfl rfl rfl rfl rfl larger (clampUnit_mono ?_)
  simp only [Rounding.exact_round]
  linarith

/-! ## A rate that bounds a whole run -/

/-- A pass measures its interval. -/
def Pass.Measures (pass : Pass) : Prop :=
  ¬ (pass.inputs.releasedLast = 0 ∨ pass.inputs.PriorOpenPassIsStale pass.now)

/-- Passes that carry the rate of the one before, over intervals in which at least the share `1 - q`
of what was released arrived. -/
structure RateRun (passes : ℕ → Pass) (q : ℚ) : Prop where
  carries : ∀ k, (passes (k + 1)).prev = some (passes k).decision.noShow
  starts : ∀ state, (passes 0).prev = some state → state.smoothedRate ≤ q
  arrived : ∀ k, (passes k).Measures →
    (1 - q) * (passes k).inputs.releasedLast ≤ (passes k).inputs.observedArrivals

section Rate

variable {q : ℚ} (low : 0 ≤ q) (high : q < 1)

include low

/-- A measured no-show is at most the share that did not arrive. -/
theorem observedNoShow_le {pass : Pass} (measures : pass.Measures)
    (arrived : (1 - q) * pass.inputs.releasedLast ≤ pass.inputs.observedArrivals) :
    pass.inputs.observedNoShow .exact ≤ q := by
  have released : (0 : ℚ) < pass.inputs.releasedLast := by
    exact_mod_cast Nat.pos_of_ne_zero fun none => measures (.inl none)
  have fraction : 1 - q ≤ (pass.inputs.observedArrivals : ℚ) / pass.inputs.releasedLast :=
    (le_div_iff₀ released).mpr arrived
  have clamped : 1 - q ≤ clampUnit ((pass.inputs.observedArrivals : ℚ) / pass.inputs.releasedLast) :=
    le_max_of_le_right (le_min fraction (by linarith))
  simp only [ReleaseInputs.observedNoShow, Rounding.exact_round]
  linarith

/-- Smoothing stays below a bound of both rates. -/
theorem smoothed_le {pass : Pass} (observed : pass.inputs.observedNoShow .exact ≤ q)
    (carried : ∀ state, pass.prev = some state → state.smoothedRate ≤ q) :
    pass.inputs.smoothed .exact pass.prev ≤ q := by
  refine max_le low (min_le_of_left_le ?_)
  cases prev : pass.prev with
  | none => exact observed
  | some state =>
      have rate := carried state prev
      simp only [ewmaAlpha, Rounding.exact_round]
      linarith

/-- What a pass measures is at most the bound. -/
theorem measure_rate_le {pass : Pass}
    (carried : ∀ state, pass.prev = some state → state.smoothedRate ≤ q)
    (arrived : pass.Measures →
      (1 - q) * pass.inputs.releasedLast ≤ pass.inputs.observedArrivals) :
    (measure .exact pass.inputs pass.prev pass.now).2 ≤ q := by
  rw [measure]
  split_ifs with unmeasurable
  · cases prev : pass.prev with
    | none => exact low
    | some state => exact carried state prev
  · exact smoothed_le low (observedNoShow_le low unmeasurable (arrived unmeasurable)) carried

theorem storableRate_le {rate : ℚ} (below : rate ≤ q) : storableRate .exact rate ≤ q := by
  rw [storableRate]
  split_ifs
  · exact low
  · exact below

include high

/-- What a pass releases is the target, or its correction by the bound. -/
theorem measure_positions_le {pass : Pass}
    (carried : ∀ state, pass.prev = some state → state.smoothedRate ≤ q)
    (arrived : pass.Measures →
      (1 - q) * pass.inputs.releasedLast ≤ pass.inputs.observedArrivals) :
    ((measure .exact pass.inputs pass.prev pass.now).1 : ℤ) ≤
      max (targetReleasePerInterval pass.inputs.targetRate : ℤ)
        (roundAway (targetReleasePerInterval pass.inputs.targetRate / (1 - q))) := by
  rw [measure]
  split_ifs with unmeasurable
  · exact le_max_left _ _
  refine le_max_of_le_right ?_
  have smoothed := smoothed_le low (observedNoShow_le low unmeasurable (arrived unmeasurable)) carried
  have nonneg : (0 : ℚ) ≤ targetReleasePerInterval pass.inputs.targetRate := Nat.cast_nonneg _
  have denom : 0 < 1 - q := by linarith
  have raw : correction .exact (targetReleasePerInterval pass.inputs.targetRate) q ≤
      targetReleasePerInterval pass.inputs.targetRate / (1 - q) := by
    rw [correction_exact, if_neg (not_le.mpr denom)]
    exact min_le_left _ _
  have whole : (0 : ℤ) ≤ roundAway (targetReleasePerInterval pass.inputs.targetRate / (1 - q)) := by
    rw [← Int.natCast_zero, ← roundAway_natCast 0]
    exact roundAway_mono (by rw [Nat.cast_zero]; exact div_nonneg nonneg denom.le)
  have saturated : ∀ rounded : ℤ, (saturateU64 .exact rounded : ℤ) ≤ max 0 rounded := by
    intro rounded
    rw [saturateU64, Rounding.exact_round]
    split_ifs with none all
    · exact le_max_left _ _
    · exact le_max_of_le_right (by exact_mod_cast all)
    · omega
  calc (boundedRelease .exact (targetReleasePerInterval pass.inputs.targetRate)
        (pass.inputs.smoothed .exact pass.prev) : ℤ)
      ≤ boundedRelease .exact (targetReleasePerInterval pass.inputs.targetRate) q := by
        exact_mod_cast boundedRelease_mono exact_room _ smoothed
    _ ≤ max 0 (roundAway (correction .exact (targetReleasePerInterval pass.inputs.targetRate) q)) := by
        rw [boundedRelease]
        exact saturated _
    _ ≤ roundAway (targetReleasePerInterval pass.inputs.targetRate / (1 - q)) :=
        max_le whole (roundAway_mono raw)

end Rate

/-- **A rate that was measured over a whole run bounds every release of it.** -/
theorem releases_bounded_by_rate {passes : ℕ → Pass} {q : ℚ} (low : 0 ≤ q) (high : q < 1)
    (run : RateRun passes q) (k : ℕ) :
    (passes k).decision.noShow.smoothedRate ≤ q ∧
      ((passes k).decision.release : ℤ) ≤
        max (targetReleasePerInterval (passes k).inputs.targetRate : ℤ)
          (roundAway (targetReleasePerInterval (passes k).inputs.targetRate / (1 - q))) := by
  have carried : ∀ state, (passes k).prev = some state → state.smoothedRate ≤ q := by
    induction k with
    | zero => exact run.starts
    | succ k ih =>
        intro state prev
        obtain rfl := Option.some.inj ((run.carries k).symm.trans prev)
        exact storableRate_le low (measure_rate_le low ih (run.arrived k))
  refine ⟨storableRate_le low (measure_rate_le low carried (run.arrived k)), ?_⟩
  refine le_trans ?_ (measure_positions_le low high carried (run.arrived k))
  exact_mod_cast computeRelease_le .exact _ _ _

/-- **Over-counting arrivals only slows the release, and the correction never exceeds what was
measured.** -/
theorem release_leans_low :
    (∀ (inputs : ReleaseInputs) (prev : Option NoShowState) (now : ℕ) (arrivals : Shard → ℕ),
      (∀ shard, inputs.arrivals shard ≤ arrivals shard) →
      (computeRelease .exact { inputs with arrivals := arrivals } prev now).AtMost
        (computeRelease .exact inputs prev now)) ∧
    (∀ (inputs : ReleaseInputs) (state state' : NoShowState) (now : ℕ),
      state.smoothedRate ≤ state'.smoothedRate →
      (computeRelease .exact inputs (some state) now).AtMost (computeRelease .exact inputs (some state') now)) ∧
    ∀ (passes : ℕ → Pass) (q : ℚ), 0 ≤ q → q < 1 → RateRun passes q → ∀ k,
      (passes k).decision.noShow.smoothedRate ≤ q ∧
        ((passes k).decision.release : ℤ) ≤
          max (targetReleasePerInterval (passes k).inputs.targetRate : ℤ)
            (roundAway (targetReleasePerInterval (passes k).inputs.targetRate / (1 - q))) :=
  ⟨fun _ _ _ _ more => release_antitone more, fun _ _ _ _ larger => release_mono larger,
    fun _ _ low high run => releases_bounded_by_rate low high run⟩

namespace Sample

/-- A hundred were released, and a fifth of them did not come. -/
def fifthMissing : Pass where
  inputs := ⟨fun _ => 8, 0, 1, 101, 1000, 5, 0⟩
  prev := some ⟨1 / 5⟩
  now := 10

theorem fifthMissing_run : RateRun (fun _ => fifthMissing) (1 / 5) where
  carries _ := by
    have rate : fifthMissing.decision.noShow.smoothedRate = 1 / 5 := by decide +kernel
    exact congrArg (fun rate => some (NoShowState.mk rate)) rate.symm
  starts state prev := by
    obtain rfl := Option.some.inj prev
    exact le_rfl
  arrived _ _ := by decide +kernel

end Sample

/-- The release is the target, corrected by that fifth. -/
theorem release_leans_low_sample : Sample.fifthMissing.decision.release = 63 ∧
    (Sample.fifthMissing.decision.release : ℤ) ≤
      max (targetReleasePerInterval 5 : ℤ) (roundAway (targetReleasePerInterval 5 / (1 - 1 / 5))) :=
  ⟨by decide +kernel, (release_leans_low.2.2 _ _ (by norm_num) (by norm_num)
    Sample.fifthMissing_run 0).2⟩

end WaitingRoom
