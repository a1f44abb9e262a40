import WaitingRoom.Protocol.Counters

/-!
# Positions and local indices are handed out once

The live positions are drawn in blocks from the end of the line, and the local indices of a
shard in blocks from the shard's count. No position and no local index is ever taken by two
row writes (`RoomTrace.putPosition_unique`, `RoomTrace.putPrequeue_unique`), whichever of the
writes land. A live position lies behind the cohort (`RoomTrace.putPosition_behind`).
-/

set_option autoImplicit false

namespace WaitingRoom

open Dynamo Concurrency

/-- The count of a shard. -/
abbrev Db.count (shard : Shard) (db : Db) : ℚ := numberOf (db.shards shard) shardCountAttr

/-- The position of the `index`-th row of a block. -/
theorem blockPosition_eq {stop n index : ℕ} (fits : n ≤ stop) (inside : stop < u64Bound)
    (room : index < n) : saturatingAdd (blockStart stop n) index = stop - n + 1 + index := by
  have start : blockStart stop n = stop - n + 1 := by
    rw [blockStart, saturatingSub, saturatingAdd_of_lt]
    omega
  rw [start, saturatingAdd_of_lt]
  omega

section Blocks

variable {d : Deployment} {policy : RoomPolicy} {origin db : Db} {log newer older : List RoomEntry}
  {entry claim : RoomEntry}

/-! ## The live blocks -/

/-- An answered claim of live positions. -/
def IsLiveClaim (exchange : Exchange Tables) : Prop :=
  ∃ n, exchange.call = .updateCounters (.claimBlock n)

/-- A claim that handed out a block moved the end of the line across it. -/
theorem Logged.liveBlock (logged : Logged d policy origin older entry) {n stop : ℕ} {item : Item}
    (same : entry.exchange = liveClaim n item) (claimed : num item "queue_counter" = some stop) :
    entry.before.Opened ∧ entry.before.line + n = stop ∧ entry.after.line = stop := by
  obtain ⟨updated, after⟩ := perform_updateCounters_some (logged.committed same rfl nofun)
  have added := updateItem_add [] updated
  rw [eq_N_of_num claimed, Option.some.injEq, AttributeValue.N.injEq] at added
  refine ⟨logged.opened_of_claims (by rw [same]), added.symm, ?_⟩
  rw [after]
  exact numberOf_of_num claimed

theorem RoomTrace.liveClaims_apart (seeded : Seeded origin)
    (trace : RoomTrace d policy origin log db) : ClaimsApart IsLiveClaim Db.line log where
  once claim member claim' member' := by
    refine once_of_fresh IsLiveClaim ?_ member member'
    rintro newer claim older rfl ⟨n, call⟩ x among ⟨n', call'⟩
    have lawful := trace.logged.lawful
    rw [call] at lawful
    exact lawful.once x among n' call'
  grows newer claim older claim' whole below _ _ := by
    subst whole
    obtain ⟨between, oldest, rfl⟩ := List.append_of_mem below
    have earlier := trace.logged.earlier
    exact earlier.line_grows seeded earlier.at_entry

/-- A position row takes its number from its batch's block. -/
theorem RoomTrace.putPosition_takes (seeded : Seeded origin)
    (trace : RoomTrace d policy origin (newer ++ entry :: older) db) {write : PositionWrite}
    (call : entry.exchange.call = .putPosition write) :
    ∃ claim, Takes IsLiveClaim Db.line older entry.thread ((write.position : ℚ) - 1) claim ∧
      claim.before.Opened := by
  have earlier := trace.logged.earlier
  have lawful := trace.logged.lawful
  rw [call] at lawful
  obtain ⟨taken, n, stop, ⟨⟨item, rest, claimed, split⟩, puts_only⟩, room, position⟩ := lawful.block
  obtain ⟨newerLog, claim, olderLog, rfl, mine, same, -, restHistory⟩ :=
    exists_split_of_history split
  have logged := earlier.logged
  obtain ⟨opened, start, finish⟩ := logged.liveBlock same claimed
  obtain ⟨line, stored⟩ := (logged.earlier.lineCounted seeded).whole
  rw [line_of_attr stored] at start
  have sum : line + n = stop := by exact_mod_cast start
  have placed : write.position = line + taken.length + 1 := by
    rw [position, blockPosition_eq (by omega) (num_lt claimed) room]
    omega
  have unclaimed : ∀ x ∈ taken, ¬ IsLiveClaim x := by
    rintro x among ⟨n', call'⟩
    obtain ⟨write', put⟩ := puts_only x among
    rw [put] at call'
    cases call'
  have once : ∀ x ∈ rest, ¬ IsLiveClaim x := by
    rintro x among ⟨n', call'⟩
    have lawfulClaim := logged.lawful
    rw [same, mine, restHistory] at lawfulClaim
    exact lawfulClaim.once x among n' call'
  refine ⟨claim, ⟨by simp, mine, ⟨n, by rw [same]⟩, taken, rest, n, ?_, unclaimed, once, room, ?_, ?_⟩,
    opened⟩
  · rw [same]
    exact split
  · rw [line_of_attr stored, placed]
    push_cast
    ring
  · rw [line_of_attr stored, finish]
    exact start.le

/-- The number a position write takes. -/
def positionNumber (entry : RoomEntry) : ℚ :=
  match entry.exchange.call with
  | .putPosition write => (write.position : ℚ) - 1
  | _ => 0

/-- **No live position is handed out twice.** -/
theorem RoomTrace.putPosition_unique (seeded : Seeded origin)
    (trace : RoomTrace d policy origin log db) {entry entry' : RoomEntry}
    {write write' : PositionWrite} (member : entry ∈ log) (member' : entry' ∈ log)
    (call : entry.exchange.call = .putPosition write)
    (call' : entry'.exchange.call = .putPosition write')
    (same : write.position = write'.position) : write = write' := by
  have equal : entry = entry' := by
    refine unique_of_takes (trace.liveClaims_apart seeded)
      (fun entry => ∃ write, entry.exchange.call = .putPosition write) positionNumber ?_ member member' ⟨write, call⟩ ⟨write', call'⟩ ?_
    · rintro newer entry older rfl ⟨write, call⟩
      obtain ⟨claim, takes, -⟩ := trace.putPosition_takes seeded call
      exact ⟨claim, by rwa [positionNumber, call]⟩
    · simp only [positionNumber, call, call', same]
  rw [equal, call'] at call
  exact (Call.putPosition.inj call).symm

/-- **A live position lies behind the cohort.** -/
theorem RoomTrace.putPosition_behind (seeded : Seeded origin)
    (trace : RoomTrace d policy origin log db) {entry : RoomEntry} {write : PositionWrite}
    (member : entry ∈ log) (call : entry.exchange.call = .putPosition write)
    {counts : Shard → ℕ} {seed : Seed} (published : Published d db counts seed) :
    ∑ shard, counts shard < write.position := by
  obtain ⟨newer, older, rfl⟩ := List.append_of_mem member
  obtain ⟨claim, takes, opened⟩ := trace.putPosition_takes seeded call
  obtain ⟨taken, -, -, -, -, -, -, number, -⟩ := takes.position
  have grows := trace.before_grows (List.mem_append_right newer (List.mem_cons_of_mem _ takes.member))
  have outputs := published.outputs
  rw [openOutputs_of_attrs (grows.opened opened)] at outputs
  obtain ⟨_, _, -, logged⟩ := trace.logged.earlier.logged_of_mem takes.member
  have behind := logged.earlier.startsBehind seeded _ outputs
  have index : (0 : ℚ) ≤ taken.length := Nat.cast_nonneg _
  have strict : ((∑ shard, counts shard : ℕ) : ℚ) < write.position := by
    have size : ((∑ shard, counts shard : ℕ) : ℚ) ≤ claim.before.line := behind
    linarith
  exact_mod_cast strict

/-! ## The blocks of a shard -/

/-- A claim of local indices on a shard. -/
def IsShardClaim (shard : Shard) (exchange : Exchange Tables) : Prop :=
  ∃ count, exchange.call = .addShard shard count

/-- A claim that was answered moved the shard's count across its block. -/
theorem Logged.shardBlock (logged : Logged d policy origin older entry) {shard : Shard}
    {count stop : ℕ} {item : Item} (same : entry.exchange = shardClaim shard count item)
    (claimed : num item shardCountAttr = some stop) :
    entry.before.count shard + count = stop ∧ entry.after.count shard = stop := by
  obtain ⟨counted, after⟩ := perform_addShard_ok (logged.committed same rfl nofun)
  rw [eq_N_of_num claimed, Option.some.injEq, AttributeValue.N.injEq] at counted
  refine ⟨counted.symm, ?_⟩
  have stored : entry.after.shards shard = some item := by simp [after]
  rw [Db.count, stored]
  exact numberOf_of_num claimed

theorem RoomTrace.shardClaims_apart (trace : RoomTrace d policy origin log db) (shard : Shard) :
    ClaimsApart (IsShardClaim shard) (Db.count shard) log where
  once claim member claim' member' := by
    refine once_of_fresh (IsShardClaim shard) ?_ member member'
    rintro newer claim older rfl ⟨n, call⟩ x among ⟨n', call'⟩
    have lawful := trace.logged.lawful
    rw [call] at lawful
    exact lawful.once x among shard n' call'
  grows newer claim older claim' whole below _ _ := by
    subst whole
    exact (trace.between_grows below).shards shard

/-- A pre-queue row takes its local index from its batch's block. -/
theorem RoomTrace.putPrequeue_takes
    (trace : RoomTrace d policy origin (newer ++ entry :: older) db) {write : PreQueueWrite}
    (call : entry.exchange.call = .putPrequeue write) :
    ∃ claim, Takes (IsShardClaim write.shard) (Db.count write.shard) older entry.thread
      (write.localIndex : ℚ) claim := by
  have earlier := trace.logged.earlier
  have lawful := trace.logged.lawful
  rw [call] at lawful
  obtain ⟨taken, count, start, ⟨⟨item, stop, rest, claimed, from_stop, split⟩, puts_only⟩, room,
    localIndex⟩ := lawful.block
  obtain ⟨newerLog, claim, olderLog, rfl, mine, same, -, restHistory⟩ :=
    exists_split_of_history split
  have logged := earlier.logged
  obtain ⟨first, finish⟩ := logged.shardBlock same claimed
  obtain ⟨fits, rfl⟩ := checkedSub_eq_some.mp from_stop
  have inside := num_lt claimed
  have placed : write.localIndex + count = stop + taken.length := by
    rw [localIndex, saturatingAdd_of_lt (by omega)]
    omega
  have unclaimed : ∀ x ∈ taken, ¬ IsShardClaim write.shard x := by
    rintro x among ⟨n', call'⟩
    obtain ⟨write', put⟩ := puts_only x among
    rw [put] at call'
    cases call'
  have once : ∀ x ∈ rest, ¬ IsShardClaim write.shard x := by
    rintro x among ⟨n', call'⟩
    have lawfulClaim := logged.lawful
    rw [same, mine, restHistory] at lawfulClaim
    exact lawfulClaim.once x among _ n' call'
  refine ⟨claim, by simp, mine, ⟨count, by rw [same]⟩, taken, rest, count, ?_, unclaimed, once, room,
    ?_, ?_⟩
  · rw [same]
    exact split
  · have total : (write.localIndex : ℚ) + count = stop + taken.length := by exact_mod_cast placed
    linarith
  · rw [finish]
    exact first.le

/-- The number a pre-queue write takes. -/
def localIndexNumber (entry : RoomEntry) : ℚ :=
  match entry.exchange.call with
  | .putPrequeue write => (write.localIndex : ℚ)
  | _ => 0

/-- **No local index of a shard is handed out twice.** -/
theorem RoomTrace.putPrequeue_unique (trace : RoomTrace d policy origin log db)
    {entry entry' : RoomEntry} {write write' : PreQueueWrite} (member : entry ∈ log)
    (member' : entry' ∈ log) (call : entry.exchange.call = .putPrequeue write)
    (call' : entry'.exchange.call = .putPrequeue write') (onShard : write.shard = write'.shard)
    (same : write.localIndex = write'.localIndex) : write = write' := by
  have equal : entry = entry' := by
    refine unique_of_takes (trace.shardClaims_apart write.shard)
      (fun entry => ∃ other, entry.exchange.call = .putPrequeue other ∧ other.shard = write.shard)
      localIndexNumber ?_ member member' ⟨write, call, rfl⟩ ⟨write', call', onShard.symm⟩ ?_
    · rintro newer entry older rfl ⟨other, call, here⟩
      obtain ⟨claim, takes⟩ := trace.putPrequeue_takes call
      rw [here] at takes
      exact ⟨claim, by rwa [localIndexNumber, call]⟩
    · simp only [localIndexNumber, call, call', same]
  rw [equal, call'] at call
  exact (Call.putPrequeue.inj call).symm

end Blocks

end WaitingRoom
