import WaitingRoom.Lambda.OpenEvent
import WaitingRoom.Numerics.Rounding

/-!
# The outflow controller

One pass reads the `Counters` item and the ten arrivals shards, computes how far the cursor
may move (`computeRelease`) and writes it under a compare-and-set on the cursor it read. The
rates are rationals, rounded after every operation as the code's `f64` rounds them. The rounding is
a parameter of the computation, so that it can also be read in exact arithmetic (`Rounding.exact`);
a pass of the room computes in `f64`. No intermediate result comes near the range of an `f64`.
-/

set_option autoImplicit false

namespace WaitingRoom

open Dynamo Concurrency Numerics

/-- The arithmetic of the code. -/
def f64 : Rounding := binary64.rounding

/-- The controller interval in seconds. -/
def intervalSecs : ℕ := 10

/-- A prior open pass at least this old is stale for the no-show measurement. -/
def staleOpenPassSecs : ℕ := 2 * intervalSecs

/-- EWMA smoothing factor for the no-show rate. -/
def ewmaAlpha : ℚ := 3 / 10

/-- The smallest positive number the table stores. -/
def ddbNumberMinPositive : ℚ := 1 / 10 ^ 130

/-- Upper bound on the correction, as a multiple of the target. -/
def maxCorrectionMultiple : ℚ := 2

/-- Inputs read for one release computation. -/
structure ReleaseInputs where
  arrivals : Shard → ℕ
  lastArrivalsTotal : ℕ
  lastServingCounter : ℕ
  servingCounter : ℕ
  queueCounter : ℕ
  targetRate : ℕ
  lastOpenPassAt : ℕ

/-- Sum the per-shard arrival counts, saturating. -/
def sumArrivals (arrivals : Shard → ℕ) : ℕ :=
  (List.finRange shards).foldl (fun total shard => saturatingAdd total (arrivals shard)) 0

/-- The target release for one interval. -/
def targetReleasePerInterval (targetRate : ℕ) : ℕ := saturatingMul targetRate intervalSecs

/-- `f64::clamp(0.0, 1.0)`. -/
def clampUnit (rate : ℚ) : ℚ := max 0 (min rate 1)

/-- `f64::round`: to the nearest integer, halves away from zero. -/
def roundAway (x : ℚ) : ℤ := if 0 ≤ x then ⌊x + 1 / 2⌋ else -⌊-x + 1 / 2⌋

/-- `target / (1 - smoothed)`, bounded at the cap. -/
def correction (rounding : Rounding) (target : ℕ) (smoothedNoShow : ℚ) : ℚ :=
  let targetF := rounding.round target
  let cap := rounding.round (targetF * maxCorrectionMultiple)
  let denom := rounding.round (1 - smoothedNoShow)
  if denom ≤ 0 then cap else min (rounding.round (targetF / denom)) cap

/-- `as u64` of a rounded number, saturating at both ends. -/
def saturateU64 (rounding : Rounding) (rounded : ℤ) : ℕ :=
  if rounded ≤ 0 then 0
  else if rounding.round u64Max ≤ rounded then u64Max
  else rounded.toNat

/-- The corrected release, as a number of positions. -/
def boundedRelease (rounding : Rounding) (target : ℕ) (smoothedNoShow : ℚ) : ℕ :=
  saturateU64 rounding (roundAway (correction rounding target smoothedNoShow))

namespace ReleaseInputs

/-- The arrivals since the last pass. -/
def observedArrivals (inputs : ReleaseInputs) : ℕ :=
  saturatingSub (sumArrivals inputs.arrivals) inputs.lastArrivalsTotal

/-- The positions the cursor passed last interval. -/
def releasedLast (inputs : ReleaseInputs) : ℕ :=
  saturatingSub inputs.servingCounter (max inputs.lastServingCounter 1)

/-- The prior open pass is too old to measure against. -/
def PriorOpenPassIsStale (inputs : ReleaseInputs) (now : ℕ) : Prop :=
  staleOpenPassSecs ≤ saturatingSub now inputs.lastOpenPassAt

instance (inputs : ReleaseInputs) (now : ℕ) : Decidable (inputs.PriorOpenPassIsStale now) :=
  inferInstanceAs (Decidable (_ ≤ _))

/-- The share of last interval's releases that did not arrive. -/
def observedNoShow (rounding : Rounding) (inputs : ReleaseInputs) : ℚ :=
  rounding.round (1 - clampUnit (rounding.round
    (rounding.round inputs.observedArrivals / rounding.round inputs.releasedLast)))

/-- The smoothed rate after this interval's measurement. -/
def smoothed (rounding : Rounding) (inputs : ReleaseInputs) (prev : Option NoShowState) : ℚ :=
  let alpha := rounding.round ewmaAlpha
  clampUnit
    (match prev with
    | some state => rounding.round (rounding.round (alpha * inputs.observedNoShow rounding) +
        rounding.round (rounding.round (1 - alpha) * state.smoothedRate))
    | none => inputs.observedNoShow rounding)

end ReleaseInputs

/-- The release for this interval and the smoothed rate to carry, before flooring. -/
def measure (rounding : Rounding) (inputs : ReleaseInputs) (prev : Option NoShowState) (now : ℕ) :
    ℕ × ℚ :=
  let target := targetReleasePerInterval inputs.targetRate
  if inputs.releasedLast = 0 ∨ inputs.PriorOpenPassIsStale now then
    (target, (prev.getD ⟨0⟩).smoothedRate)
  else (boundedRelease rounding target (inputs.smoothed rounding prev), inputs.smoothed rounding prev)

/-- Compute the release for this interval and the state to carry forward. -/
def computeRelease (rounding : Rounding) (inputs : ReleaseInputs) (prev : Option NoShowState)
    (now : ℕ) : ReleaseDecision :=
  let (positions, measured) := measure rounding inputs prev now
  let smoothed :=
    if 0 < measured ∧ measured < rounding.round ddbNumberMinPositive then 0 else measured
  -- the cursor is exclusive, so one past the end of the line admits everyone in it
  let ceiling := saturatingAdd inputs.queueCounter 1
  let nextServingCounter :=
    max (min (saturatingAdd inputs.servingCounter positions) ceiling) inputs.servingCounter
  { release := saturatingSub nextServingCounter inputs.servingCounter
    nextServingCounter := nextServingCounter
    previousServingCounter := inputs.servingCounter
    arrivalsTotal := sumArrivals inputs.arrivals
    noShow := ⟨smoothed⟩
    lastOpenPassAt := now }

section Release

variable {rounding : Rounding}

/-- The cursor never moves back, and never past one behind the end of the line that was read. -/
theorem computeRelease_bounds (inputs : ReleaseInputs) (prev : Option NoShowState) (now : ℕ) :
    inputs.servingCounter ≤ (computeRelease rounding inputs prev now).nextServingCounter ∧
      (computeRelease rounding inputs prev now).nextServingCounter ≤
        max (saturatingAdd inputs.queueCounter 1) inputs.servingCounter :=
  ⟨le_max_right _ _, max_le_max_right _ (min_le_right _ _)⟩

/-- What is reported as released is the distance the cursor moves. -/
theorem computeRelease_release (inputs : ReleaseInputs) (prev : Option NoShowState) (now : ℕ) :
    (computeRelease rounding inputs prev now).nextServingCounter =
      inputs.servingCounter + (computeRelease rounding inputs prev now).release :=
  (Nat.add_sub_cancel' (computeRelease_bounds inputs prev now).1).symm

theorem sumArrivals_lt (arrivals : Shard → ℕ) : sumArrivals arrivals < u64Bound := by
  refine List.foldlRecOn (motive := fun total => total < u64Bound) _ _ (Nat.two_pow_pos 64) ?_
  intro total _ shard _
  exact saturatingAdd_lt _ _

theorem clampUnit_bounds (rate : ℚ) : 0 ≤ clampUnit rate ∧ clampUnit rate ≤ 1 :=
  ⟨le_max_left _ _, max_le zero_le_one (min_le_right _ _)⟩

/-- A release that has nothing to measure, or a stale prior pass, carries the rate it read. -/
theorem measure_of_unmeasurable {inputs : ReleaseInputs} {prev : Option NoShowState} {now : ℕ}
    (unmeasurable : inputs.releasedLast = 0 ∨ inputs.PriorOpenPassIsStale now) :
    measure rounding inputs prev now =
      (targetReleasePerInterval inputs.targetRate, (prev.getD ⟨0⟩).smoothedRate) :=
  if_pos unmeasurable

/-- The carried rate is a rate. -/
theorem computeRelease_noShow_bounds (inputs : ReleaseInputs) {prev : Option NoShowState} (now : ℕ)
    (rate : ∀ state, prev = some state → 0 ≤ state.smoothedRate ∧ state.smoothedRate ≤ 1) :
    0 ≤ (computeRelease rounding inputs prev now).noShow.smoothedRate ∧
      (computeRelease rounding inputs prev now).noShow.smoothedRate ≤ 1 := by
  have measured : 0 ≤ (measure rounding inputs prev now).2 ∧
      (measure rounding inputs prev now).2 ≤ 1 := by
    rw [measure]
    split_ifs with unmeasurable
    · cases prev with
      | none => exact ⟨le_rfl, zero_le_one⟩
      | some state => exact rate state rfl
    · exact clampUnit_bounds _
  simp only [computeRelease]
  split_ifs with small
  · exact ⟨le_rfl, zero_le_one⟩
  · exact measured

theorem clampUnit_represents {rate : ℚ} (represents : rounding.Represents rate) :
    rounding.Represents (clampUnit rate) := by
  rcases max_choice 0 (min rate 1) with same | same
  · rw [clampUnit, same]
    exact rounding.round_zero
  · rw [clampUnit, same]
    rcases min_choice rate 1 with same | same
    · rwa [same]
    · rw [same]
      exact rounding.round_one

theorem smoothed_represents (inputs : ReleaseInputs) (prev : Option NoShowState) :
    rounding.Represents (inputs.smoothed rounding prev) := by
  refine clampUnit_represents ?_
  cases prev with
  | none => exact rounding.represents_round _
  | some state => exact rounding.represents_round _

/-- The carried rate is a number of the arithmetic. -/
theorem computeRelease_noShow_represents (inputs : ReleaseInputs) {prev : Option NoShowState}
    (now : ℕ) (represents : ∀ state, prev = some state → rounding.Represents state.smoothedRate) :
    rounding.Represents (computeRelease rounding inputs prev now).noShow.smoothedRate := by
  have measured : rounding.Represents (measure rounding inputs prev now).2 := by
    rw [measure]
    split_ifs with unmeasurable
    · cases prev with
      | none => exact rounding.round_zero
      | some state => exact represents state rfl
    · exact smoothed_represents inputs prev
  simp only [computeRelease]
  split_ifs with small
  · exact rounding.round_zero
  · exact measured

/-- No carried rate is too small to be stored. -/
theorem computeRelease_noShow_storable (inputs : ReleaseInputs) (prev : Option NoShowState)
    (now : ℕ) : ¬ (0 < (computeRelease rounding inputs prev now).noShow.smoothedRate ∧
      (computeRelease rounding inputs prev now).noShow.smoothedRate <
        rounding.round ddbNumberMinPositive) := by
  simp only [computeRelease]
  split_ifs with small
  · rintro ⟨positive, -⟩
    exact absurd positive (lt_irrefl 0)
  · exact small

/-- The cursor moves no further than was measured. -/
theorem computeRelease_le (rounding : Rounding) (inputs : ReleaseInputs) (prev : Option NoShowState) (now : ℕ) :
    (computeRelease rounding inputs prev now).release ≤ (measure rounding inputs prev now).1 := by
  have reach : (computeRelease rounding inputs prev now).nextServingCounter ≤
      inputs.servingCounter + (measure rounding inputs prev now).1 :=
    max_le ((min_le_left _ _).trans (saturatingAdd_le _ _)) (Nat.le_add_right _ _)
  rw [computeRelease_release] at reach
  exact Nat.le_of_add_le_add_left reach

/-! ### How much is released -/

/-- The arithmetic represents a target and its cap, and puts `u64::MAX` where a cast can reach. -/
structure RepresentsTarget (rounding : Rounding) (target : ℕ) : Prop where
  raw : rounding.Represents target
  cap : rounding.Represents (2 * target : ℕ)
  bound : (u64Max : ℚ) ≤ rounding.round u64Max
  room : rounding.round u64Max ≤ u64Bound

theorem exact_room : Rounding.exact.round u64Max ≤ u64Bound := by decide +kernel

theorem representsTarget_exact (target : ℕ) : RepresentsTarget .exact target :=
  ⟨rfl, rfl, le_rfl, exact_room⟩

theorem targetReleasePerInterval_le (targetRate : ℕ) : targetReleasePerInterval targetRate ≤ u64Max :=
  min_le_right _ _

/-- A rate of a `u32` does not saturate the target. -/
theorem targetReleasePerInterval_eq {targetRate : ℕ} (rate : targetRate < u32Bound) :
    targetReleasePerInterval targetRate = targetRate * intervalSecs := by
  refine min_eq_left ?_
  simp only [u32Bound, u64Max, u64Bound, intervalSecs] at *
  omega

/-- An `f64` represents every target there is, and its cap. -/
theorem representsTarget_f64 {targetRate : ℕ} (rate : targetRate < u32Bound) :
    RepresentsTarget f64 (targetReleasePerInterval targetRate) := by
  rw [targetReleasePerInterval_eq rate]
  have room : 2 * (targetRate * intervalSecs) ≤ 2 ^ 53 := by
    simp only [u32Bound, intervalSecs] at *
    omega
  refine ⟨FloatFormat.represents_natCast ?_, FloatFormat.represents_natCast room, by decide +kernel,
    by decide +kernel⟩
  exact (Nat.le_mul_of_pos_left _ two_pos).trans room

theorem roundAway_le {x : ℚ} {n : ℕ} (below : x < n + 1 / 2) : roundAway x ≤ n := by
  rw [roundAway]
  split_ifs with sign
  · refine Int.le_of_lt_add_one (Int.floor_lt.mpr ?_)
    push_cast
    linarith
  · have whole : 0 ≤ ⌊-x + 1 / 2⌋ := Int.floor_nonneg.mpr (by linarith)
    omega

/-- A correction that stays below `n + 1/2` releases `n` at most. -/
theorem boundedRelease_le {target n : ℕ} (represents : RepresentsTarget rounding target) {smoothedNoShow : ℚ}
    (below : correction rounding target smoothedNoShow < n + 1 / 2) :
    boundedRelease rounding target smoothedNoShow ≤ n := by
  have rounded := roundAway_le below
  rw [boundedRelease, saturateU64]
  split_ifs with none all
  · exact Nat.zero_le n
  · have bound := represents.bound.trans all
    have short : (u64Max : ℤ) ≤ roundAway (correction rounding target smoothedNoShow) := by
      exact_mod_cast bound
    exact_mod_cast short.trans rounded
  · exact Int.toNat_le.mpr rounded

theorem correction_cap {target : ℕ} (represents : RepresentsTarget rounding target) :
    rounding.round (rounding.round target * maxCorrectionMultiple) = 2 * target := by
  have cap := represents.cap
  rw [Rounding.Represents, Nat.cast_mul, Nat.cast_ofNat] at cap
  rw [represents.raw, maxCorrectionMultiple, mul_comm, cap]

/-- The cap of one pass. -/
theorem boundedRelease_le_cap {target : ℕ} (represents : RepresentsTarget rounding target) (smoothedNoShow : ℚ) :
    boundedRelease rounding target smoothedNoShow ≤ 2 * target := by
  refine boundedRelease_le represents ?_
  have within : correction rounding target smoothedNoShow ≤ 2 * target := by
    simp only [correction, correction_cap represents]
    split_ifs with full
    · exact le_rfl
    · exact min_le_right _ _
  push_cast
  linarith

theorem measure_le_cap {inputs : ReleaseInputs}
    (represents : RepresentsTarget rounding (targetReleasePerInterval inputs.targetRate))
    (prev : Option NoShowState) (now : ℕ) :
    (measure rounding inputs prev now).1 ≤ 2 * targetReleasePerInterval inputs.targetRate := by
  rw [measure]
  split_ifs with unmeasurable
  · exact Nat.le_mul_of_pos_left _ two_pos
  · exact boundedRelease_le_cap represents _

end Release

/-! ## The store -/

/-- The state the controller needs before it acts. -/
structure ControllerState where
  phase : Phase
  storedControl : StoredControl
  failOpenUntil : ℕ
  inputs : ReleaseInputs
  prevNoShow : Option NoShowState

/-- The outcome of a guarded release. -/
inductive ReleaseOutcome where
  | advanced
  | lostRace
  deriving DecidableEq, Repr

/-- Fold the arrivals shard items into per-shard counts. An item without a shard index is
skipped, and one without a count is an error. -/
def arrivalsFromShardItems : List Item → (Shard → ℕ) → Except StoreError (Shard → ℕ)
  | [], arrivals => .ok arrivals
  | item :: rest, arrivals =>
      match shardIndexOf item with
      | none => arrivalsFromShardItems rest arrivals
      | some shard =>
          match shardCountOf item with
          | none => .error ⟨"arrivals item has an unreadable count"⟩
          | some count => arrivalsFromShardItems rest (Function.update arrivals shard count)

/-- Read the arrivals shards one by one, eventually consistent. -/
def readArrivalItems (order : ShardOrder) : Program Tables (Except StoreError (List Item)) :=
  Program.tryEach (fun shard items =>
    request (.getArrivals shard) "batch_get_item arrivals" fun item => .ok (items ++ item.toList))
    order.shards []

/-- Read the per-shard arrivals. -/
def readArrivals (order : ShardOrder) : Program Tables (Except StoreError (Shard → ℕ)) := do
  match ← readArrivalItems order with
  | .error error => return .error error
  | .ok items => return arrivalsFromShardItems items fun _ => 0

/-- The stored no-show rate, when it is a rate. Its decimal text is parsed to the nearest `f64`; the
text that `to_string` writes for an `f64` is one that parses back to it, and stands for it here. -/
def storedNoShow (item : Item) : Option NoShowState :=
  ((((item "no_show_rate").bind AttributeValue.asN).map f64.round).filter fun rate =>
    0 ≤ rate ∧ rate ≤ 1).map NoShowState.mk

theorem storedNoShow_bounds {item : Item} {state : NoShowState}
    (stored : storedNoShow item = some state) : 0 ≤ state.smoothedRate ∧ state.smoothedRate ≤ 1 := by
  obtain ⟨rate, kept, rfl⟩ := Option.map_eq_some_iff.mp stored
  exact of_decide_eq_true (Option.filter_eq_some_iff.mp kept).2

/-- A stored `f64` is read back. -/
theorem storedNoShow_of_N {item : Item} {rate : ℚ} (stored : item "no_show_rate" = some (.N rate))
    (bounds : 0 ≤ rate ∧ rate ≤ 1) (represents : f64.Represents rate) :
    storedNoShow item = some ⟨rate⟩ := by
  rw [Rounding.Represents] at represents
  simp [storedNoShow, stored, AttributeValue.asN, Option.filter, represents, bounds.1, bounds.2]

/-- What is read of a stored rate is an `f64`. -/
theorem storedNoShow_represents {item : Item} {state : NoShowState}
    (stored : storedNoShow item = some state) : f64.Represents state.smoothedRate := by
  obtain ⟨rate, kept, rfl⟩ := Option.map_eq_some_iff.mp stored
  obtain ⟨parsed, -⟩ := Option.filter_eq_some_iff.mp kept
  obtain ⟨text, -, rfl⟩ := Option.map_eq_some_iff.mp parsed
  exact Rounding.represents_round f64 text

/-- The controller's reading of the `Counters` item. -/
def controllerStateOf (item : Item) (arrivals : Shard → ℕ) : ControllerState where
  phase := ((str item "phase").bind Phase.fromStr).getD .idle
  storedControl := storedControlOf item
  failOpenUntil := (num item "fail_open_until").getD 0
  inputs :=
    { arrivals := arrivals
      lastArrivalsTotal := (num item "last_arrivals_total").getD 0
      lastServingCounter := (num item "last_serving_counter").getD 0
      servingCounter := (num item "serving_counter").getD 0
      queueCounter := (num item "queue_counter").getD 0
      -- a rate outside `u32` is no rate
      targetRate := if (num item "target_rate").getD 0 < u32Bound
        then (num item "target_rate").getD 0 else 0
      lastOpenPassAt := (num item "last_open_pass_at").getD 0 }
  prevNoShow := storedNoShow item

theorem controllerStateOf_targetRate_lt (item : Item) (arrivals : Shard → ℕ) :
    (controllerStateOf item arrivals).inputs.targetRate < u32Bound := by
  simp only [controllerStateOf]
  split_ifs with inside
  · exact inside
  · decide

/-- Read the controller-relevant state. -/
def readState (eventId : String) (order : ShardOrder) :
    Program Tables (Except StoreError ControllerState) := do
  match ← request (.getCounters true) "get_item counters" .ok with
  | .error error => return .error error
  | .ok none => return .error ⟨s!"no Counters item for event {eventId}"⟩
  | .ok (some item) =>
      match ← readArrivals order with
      | .error error => return .error error
      | .ok arrivals => return .ok (controllerStateOf item arrivals)

/-- Advance the cursor if it is still where it was read. -/
def writeRelease (decision : ReleaseDecision) (expectedServingCounter : ℕ) :
    Program Tables (Except StoreError ReleaseOutcome) :=
  request (.updateCounters (.writeRelease decision expectedServingCounter)) "update_item release"
    fun attributes => .ok (if attributes.isSome then .advanced else .lostRace)

/-! ## The pass -/

/-- The result of one controller pass. -/
inductive PassOutcome where
  | notActive (phase : Phase)
  | held (control : AdmissionControl)
  | ran (released : ℕ)
  deriving DecidableEq, Repr

/-- Run one controller pass at `now`. -/
def runPass (eventId : String) (now : ℕ) (order : ShardOrder) :
    Program Tables (Except StoreError PassOutcome) := do
  match ← readState eventId order with
  | .error error => return .error error
  | .ok state =>
      if state.phase ≠ .active then return .ok (.notActive state.phase)
      else
        match resolve state.storedControl state.failOpenUntil now with
        | .paused => return .ok (.held .paused)
        | .failOpen => return .ok (.held .failOpen)
        | .open =>
            let decision := computeRelease f64 state.inputs state.prevNoShow now
            match ← writeRelease decision state.inputs.servingCounter with
            | .error error => return .error error
            | .ok .lostRace => return .ok (.ran 0)
            | .ok .advanced => return .ok (.ran decision.release)

end WaitingRoom
