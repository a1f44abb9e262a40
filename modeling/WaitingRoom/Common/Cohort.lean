import WaitingRoom.Combinatorics.Striping
import WaitingRoom.Common.Arithmetic

/-!
# Pre-queue index space assembly

Registration stripes the pre-queue counter across ten shards. The open folds the shard
counts into prefix offsets and the cohort size (`CohortOffsets.fromCounts`), and a reader
reconstructs a registration from its shard and local index (`CohortOffsets.assign`). The
straggler test is per shard: a local index at or past its own shard's count is a live
join, whatever the cohort size.
-/

set_option autoImplicit false

namespace WaitingRoom

open WaitingRoom.Combinatorics

/-- Number of pre-queue counter shards. -/
def shards : ℕ := 10

/-- A shard index in `0..SHARDS`. -/
abbrev Shard := Fin shards

/-- `Shard::new`: a shard from a stored index, or `none` if it is out of range. -/
def Shard.new (index : ℕ) : Option Shard := if lt : index < shards then some ⟨index, lt⟩ else none

/-- The fixed pre-queue index space: prefix offsets and cohort size. -/
structure CohortOffsets where
  offsets : Shard → ℕ
  participantCount : ℕ

/-- The outcome of reconstructing a registration index. -/
inductive Assignment where
  | preQueue (index : ℕ)
  | liveJoin
  deriving DecidableEq, Repr

/-- The summed cohort size would exceed `u64`. -/
inductive CohortError where
  | overflow
  deriving DecidableEq, Repr

def CohortError.message : CohortError → String
  | .overflow => "pre-queue cohort size overflows u64"

namespace CohortOffsets

/-- The loop of `from_counts`, over the shards not folded in yet. -/
def fold (counts : Shard → ℕ) : List Shard → (Shard → ℕ) → ℕ → Except CohortError CohortOffsets
  | [], offsets, running => .ok ⟨offsets, running⟩
  | shard :: rest, offsets, running =>
      match checkedAdd running (counts shard) with
      | some next => fold counts rest (Function.update offsets shard running) next
      | none => .error .overflow

/-- Fix the index space from the shard counts. -/
def fromCounts (counts : Shard → ℕ) : Except CohortError CohortOffsets :=
  fold counts (List.finRange shards) (fun _ => 0) 0

/-- Reconstruct the index space from published offsets. -/
def fromParts (offsets : Shard → ℕ) (participantCount : ℕ) : CohortOffsets :=
  ⟨offsets, participantCount⟩

/-- `self.offsets.get(shard)`. -/
def offsetAt (cohort : CohortOffsets) (shard : ℕ) : Option ℕ :=
  (Shard.new shard).map cohort.offsets

/-- The number of local indices issued to a shard. -/
def shardCount (cohort : CohortOffsets) (shard : ℕ) : Option ℕ := do
  let start ← cohort.offsetAt shard
  let stop := (cohort.offsetAt (shard + 1)).getD cohort.participantCount
  checkedSub stop start

/-- Reconstruct a visitor's assignment from their stored shard and local index. -/
def assign (cohort : CohortOffsets) (shard localIndex : ℕ) : Assignment :=
  match cohort.offsetAt shard with
  | none => .liveJoin
  | some offset =>
      match cohort.shardCount shard with
      | none => .liveJoin
      | some count =>
          if count ≤ localIndex then .liveJoin
          else
            match checkedAdd offset localIndex with
            | some index => .preQueue index
            | none => .liveJoin

/-- The index space of given counts: offsets are prefix sums. -/
def ofCounts (counts : Shard → ℕ) : CohortOffsets where
  offsets shard := issuedBefore counts shard shard.isLt.le
  participantCount := ∑ shard, counts shard

/-! ## What the fold computes -/

/-- From shard `k` on: the sums so far are prefix sums, and an overflow on the way is an
overflow of the total, because the running sum only grows. -/
theorem fold_drop (counts : Shard → ℕ) {k : ℕ} (le : k ≤ shards) (offsets : Shard → ℕ)
    (folded : ∀ shard : Shard, shard.val < k →
      offsets shard = issuedBefore counts shard shard.isLt.le)
    (inside : issuedBefore counts k le < u64Bound) :
    fold counts ((List.finRange shards).drop k) offsets (issuedBefore counts k le) =
      if ∑ shard, counts shard < u64Bound then .ok (ofCounts counts) else .error .overflow := by
  induction remaining : shards - k generalizing k offsets with
  | zero =>
      obtain rfl : k = shards := by omega
      have none : (List.finRange shards).drop shards = [] := by simp
      have all : offsets = (ofCounts counts).offsets := funext fun shard => folded shard shard.isLt
      rw [none, fold, all, issuedBefore_total, if_pos (by rwa [issuedBefore_total] at inside)]
      rfl
  | succ remaining ih =>
      have lt : k < shards := by omega
      have next : (List.finRange shards).drop k =
          ⟨k, lt⟩ :: (List.finRange shards).drop (k + 1) := by
        rw [List.drop_eq_getElem_cons (by simpa using lt)]
        simp
      rw [next, fold]
      have grown := issuedBefore_succ counts lt
      by_cases room : issuedBefore counts k le + counts ⟨k, lt⟩ < u64Bound
      · rw [checkedAdd, if_pos room]
        simp only
        rw [← grown]
        refine ih lt _ (fun shard before => ?_) (by rwa [grown]) (by omega)
        by_cases here : shard = ⟨k, lt⟩
        · rw [here, Function.update_self]
        · have earlier : shard.val < k := by
            have differ : shard.val ≠ k := fun same => here (Fin.ext same)
            omega
          rw [Function.update_of_ne here, folded shard earlier]
      · have total : issuedBefore counts (k + 1) lt ≤ ∑ shard, counts shard :=
          issuedBefore_le_total counts (Nat.succ_le_of_lt lt)
        rw [grown] at total
        rw [checkedAdd, if_neg room, if_neg (by omega)]

/-- **The fold computes prefix sums and the total, and fails exactly on overflow.** -/
theorem fromCounts_eq (counts : Shard → ℕ) :
    fromCounts counts =
      if ∑ shard, counts shard < u64Bound then .ok (ofCounts counts) else .error .overflow :=
  fold_drop counts (Nat.zero_le _) _ (fun _ before => absurd before (Nat.not_lt_zero _))
    (Nat.two_pow_pos 64)

/-! ## Assignments of a folded cohort -/

@[simp] theorem offsetAt_val (cohort : CohortOffsets) (shard : Shard) :
    cohort.offsetAt shard = some (cohort.offsets shard) := by
  simp [offsetAt, Shard.new]

theorem offsetAt_of_le (cohort : CohortOffsets) {shard : ℕ} (outside : shards ≤ shard) :
    cohort.offsetAt shard = none := by
  simp [offsetAt, Shard.new, Nat.not_lt.mpr outside]

/-- The gap between two offsets is the shard's own count. -/
theorem shardCount_ofCounts (counts : Shard → ℕ) (shard : Shard) :
    (ofCounts counts).shardCount shard = some (counts shard) := by
  have stop : ((ofCounts counts).offsetAt (shard + 1)).getD (ofCounts counts).participantCount =
      issuedBefore counts (shard + 1) shard.isLt := by
    by_cases last : shard.val + 1 < shards
    · simp [offsetAt, Shard.new, last, ofCounts]
    · rw [offsetAt_of_le _ (Nat.not_lt.mp last), Option.getD_none]
      have same : shard.val + 1 = shards := by omega
      simp only [same]
      rfl
  have start : (ofCounts counts).offsets shard = issuedBefore counts shard shard.isLt.le := rfl
  have gap := issuedBefore_succ counts shard.isLt
  simp only [shardCount, offsetAt_val, stop, start, Option.bind_eq_bind, Option.bind_some,
    checkedSub_eq_some]
  rw [gap, Fin.eta]
  omega

/-- **An index is in the cohort exactly when its own shard issued it before the fold.** -/
theorem assign_ofCounts {counts : Shard → ℕ} (inside : ∑ shard, counts shard < u64Bound)
    (shard : Shard) (localIndex : ℕ) :
    (ofCounts counts).assign shard localIndex =
      if localIndex < counts shard then .preQueue (globalIndex counts (shard, localIndex))
      else .liveJoin := by
  rw [assign, offsetAt_val, shardCount_ofCounts]
  simp only
  by_cases issued : localIndex < counts shard
  · have below := globalIndex_lt_total counts issued
    have sum : checkedAdd ((ofCounts counts).offsets shard) localIndex =
        some (globalIndex counts (shard, localIndex)) :=
      checkedAdd_eq_some.mpr ⟨below.trans inside, rfl⟩
    rw [if_neg (Nat.not_le.mpr issued), if_pos issued, sum]
  · rw [if_pos (Nat.not_lt.mp issued), if_neg issued]

end CohortOffsets

end WaitingRoom
