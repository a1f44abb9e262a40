import WaitingRoom.Common.Items

/-!
# The positions of a cohort

Once the counts of the shards are frozen, `cohortPosition` sends every issued pair to its
position: the permutation of its global index. It is a bijection from the issued pairs onto
the positions of the cohort (`cohortPosition_bijOn`), and it is what every reader of the open
outputs resolves a row to (`resolvePrequeue_eq`).
-/

set_option autoImplicit false

namespace WaitingRoom

open WaitingRoom.Combinatorics

/-- The pairs of a shard and a local index that were issued. -/
def issued (counts : Shard → ℕ) : Set (Shard × ℕ) := {p | p.2 < counts p.1}

/-- The position of an issued pair. -/
def cohortPosition (hmac : Hmac) (seed : Seed) (counts : Shard → ℕ) (p : Shard × ℕ) : ℕ :=
  prp hmac seed (globalIndex counts p) (∑ shard, counts shard)

/-- The outputs an open publishes for these counts. -/
def OpenOutputs.ofCounts (counts : Shard → ℕ) (seed : Seed) : OpenOutputs :=
  ⟨.ofCounts counts, seed⟩

section Resolution

variable (hmac : Hmac) (seed : Seed) {counts : Shard → ℕ}

/-- **The cohort's positions are a permutation of its members.** -/
theorem cohortPosition_bijOn (inside : ∑ shard, counts shard < u64Bound) :
    Set.BijOn (cohortPosition hmac seed counts) (issued counts)
      (Set.Iio (∑ shard, counts shard)) :=
  (prp_bijOn hmac seed inside.le).comp (globalIndex_bijOn counts)

variable {counters : Counters}

/-- **What a reader of the open outputs resolves a row to.** -/
theorem resolvePrequeue_eq (inside : ∑ shard, counts shard < u64Bound)
    (outputs : counters.openOutputs = some (.ofCounts counts seed)) (shard : Shard)
    (requestId : RequestId) (localIndex : ℕ) (digest : Option SecretDigest) :
    counters.resolvePrequeue hmac ⟨requestId, shard, localIndex, digest⟩ =
      if localIndex < counts shard then
        .ok (.preQueue (cohortPosition hmac seed counts (shard, localIndex)))
      else .ok .liveJoin := by
  simp only [Counters.resolvePrequeue, outputs, OpenOutputs.ofCounts,
    CohortOffsets.assign_ofCounts inside, if_neg (Nat.not_le.mpr shard.isLt)]
  by_cases counted : localIndex < counts shard
  · rw [if_pos counted, if_pos counted]
    rfl
  · rw [if_neg counted, if_neg counted]

/-- A row on no shard is corrupt. -/
theorem resolvePrequeue_of_le {outputs : OpenOutputs} (opened : counters.openOutputs = some outputs)
    {row : PreQueueItem} (outside : shards ≤ row.s) :
    counters.resolvePrequeue hmac row = .error .badShard := by
  simp only [Counters.resolvePrequeue, opened, if_pos outside]

end Resolution

end WaitingRoom
