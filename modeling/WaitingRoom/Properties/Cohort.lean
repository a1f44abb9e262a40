import WaitingRoom.Lambda.OpenEvent

/-!
# The cohort survives the hand-off

The open folds the shard items it read into counts, publishes offsets, a size and a seed, and
every reader parses them back and resolves rows against them. From the items to the resolved
positions this is one bijection (`cohort_bijection`): nobody who was counted is lost,
duplicated or displaced, and nobody who was not counted gets a place in the cohort.
-/

set_option autoImplicit false

namespace WaitingRoom

open Dynamo

/-- The count of a shard: its item's, or zero when it has none. -/
def countOf (items : List Item) (shard : Shard) : ℕ :=
  ((items.find? fun item => shardIndexOf item = some shard).bind shardCountOf).getD 0

/-- What a batch read of the shards returns: readable items, at most one of a shard, in any
order, whose counts sum to a `u64`. -/
structure ShardItems (items : List Item) : Prop where
  readable : ∀ item ∈ items, ∃ shard count,
    shardIndexOf item = some shard ∧ shardCountOf item = some count
  distinct : (items.map shardIndexOf).Nodup
  bounded : ∑ shard, countOf items shard < u64Bound

section Items

variable {items : List Item}

/-- An item of the read counts for its shard. -/
theorem countOf_eq (read : ShardItems items) {item : Item} (member : item ∈ items) {shard : Shard}
    {count : ℕ} (index : shardIndexOf item = some shard) (number : shardCountOf item = some count) :
    countOf items shard = count := by
  have found : items.find? (fun other => shardIndexOf other = some shard) = some item := by
    cases search : items.find? fun other => decide (shardIndexOf other = some shard) with
    | none =>
        have missed := List.find?_eq_none.mp search item member
        simp [index] at missed
    | some other =>
        have here : shardIndexOf other = some shard := by simpa using List.find?_some search
        exact congrArg some (List.inj_on_of_nodup_map read.distinct (List.mem_of_find?_eq_some search)
          member (here.trans index.symm))
  rw [countOf, found, Option.bind_some, number, Option.getD_some]

theorem countOf_of_absent {shard : Shard} (absent : ∀ item ∈ items, shardIndexOf item ≠ some shard) :
    countOf items shard = 0 := by
  have missed : items.find? (fun item => shardIndexOf item = some shard) = none :=
    List.find?_eq_none.mpr fun item member => by simpa using absent item member
  rw [countOf, missed]
  rfl

/-- The fold of the items is the count of each shard, whatever their order. -/
theorem countsFromShardItems_eq_countOf (read : ShardItems items) :
    countsFromShardItems items (fun _ => 0) = .ok (countOf items) := by
  obtain ⟨counts, folded⟩ := countsFromShardItems_isOk (fun _ => 0) read.readable
  rw [folded, Except.ok.injEq]
  funext shard
  rcases countsFromShardItems_eq folded shard with ⟨item, member, index, number⟩ | ⟨absent, zero⟩
  · exact (countOf_eq read member index number).symm
  · rw [zero, countOf_of_absent absent]

end Items

/-- **Cohort bijection**: from the shard items through the fold, the open's values, the
attributes they are stored as and the reader's parse of them, the issued pairs map
bijectively onto the positions of the cohort, and every other pair resolves to no position
of it. -/
theorem cohort_bijection (hmac : Hmac) (seed : Seed) (eventId : String) {items : List Item}
    (read : ShardItems items) {stored : Item} (guard : openGuard.holds stored) :
    ∃ values item position,
      (countsFromShardItems items fun _ => 0) = .ok (countOf items) ∧
      openValues (countOf items) seed = .ok values ∧
      values.participantCount = ∑ shard, countOf items shard ∧
      updateItem (some stored) (CountersUpdate.writeOpen values).condition
        (CountersUpdate.writeOpen values).clauses = .updated item ∧
      Set.BijOn position (issued (countOf items)) (Set.Iio values.participantCount) ∧
      ∀ row : PreQueueItem, (Counters.fromItem eventId item).resolvePrequeue hmac row =
        if onShard : row.s < shards then
          if row.l < countOf items ⟨row.s, onShard⟩ then
            .ok (.preQueue (position (⟨row.s, onShard⟩, row.l)))
          else .ok .liveJoin
        else .error .badShard := by
  obtain ⟨values, computed, size⟩ : ∃ values, openValues (countOf items) seed = .ok values ∧
      values.participantCount = ∑ shard, countOf items shard :=
    ⟨_, openValues_eq_ok.mpr ⟨read.bounded, rfl⟩, rfl⟩
  obtain ⟨item, updated⟩ := exists_updateItem_writeOpen values guard
  have outputs := openOutputs_of_writeOpen eventId updated computed
  refine ⟨values, item, cohortPosition hmac seed (countOf items),
    countsFromShardItems_eq_countOf read, computed, size, updated, ?_, fun row => ?_⟩
  · rw [size]
    exact cohortPosition_bijOn hmac seed read.bounded
  · by_cases onShard : row.s < shards
    · rw [dif_pos onShard]
      exact resolvePrequeue_eq hmac seed read.bounded outputs ⟨row.s, onShard⟩ row.r row.l row.h
    · rw [dif_neg onShard]
      exact resolvePrequeue_of_le hmac outputs (Nat.not_lt.mp onShard)

/-- A shard item with a count. -/
def shardItem (shard : Shard) (count : ℕ) : Item :=
  (Item.empty.put shardIndexAttr (.N shard.val)).put shardCountAttr (.N count)

/-- Three members on two shards, read out of order. -/
def threeMembers : List Item := [shardItem ⟨7, by decide⟩ 1, shardItem ⟨2, by decide⟩ 2]

/-- The hand-off of three members of a seeded event, under a constant hash. -/
theorem cohort_bijection_threeMembers :
    ∃ values item position,
      (countsFromShardItems threeMembers fun _ => 0) = .ok (countOf threeMembers) ∧
      openValues (countOf threeMembers) ⟨List.replicate 32 0, rfl⟩ = .ok values ∧
      values.participantCount = ∑ shard, countOf threeMembers shard ∧
      updateItem (some (Item.empty.put "phase" (.S "pre_queue")))
        (CountersUpdate.writeOpen values).condition
        (CountersUpdate.writeOpen values).clauses = .updated item ∧
      Set.BijOn position (issued (countOf threeMembers)) (Set.Iio values.participantCount) ∧
      ∀ row : PreQueueItem, (Counters.fromItem "demo" item).resolvePrequeue
          (fun _ _ => Vector.replicate 32 0) row =
        if onShard : row.s < shards then
          if row.l < countOf threeMembers ⟨row.s, onShard⟩ then
            .ok (.preQueue (position (⟨row.s, onShard⟩, row.l)))
          else .ok .liveJoin
        else .error .badShard :=
  cohort_bijection _ _ _
    { readable := by
        simp only [threeMembers, List.forall_mem_cons]
        exact ⟨⟨⟨7, by decide⟩, 1, by decide, by decide⟩,
          ⟨⟨2, by decide⟩, 2, by decide, by decide⟩, nofun⟩
      distinct := by decide
      bounded := by decide }
    (by decide)

end WaitingRoom
