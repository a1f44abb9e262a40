import WaitingRoom.Common.Resolution
import WaitingRoom.Store.Tables

/-!
# Opening the event

The open reads the ten pre-queue shard counts, folds them into prefix offsets and the
cohort size, pairs them with a fresh seed and writes everything in one conditional update.
The batch read of the shards is one read per shard, in any order. A guard that fails is
either an event that was open already or one in another phase, and a second read tells
them apart.
-/

set_option autoImplicit false

namespace WaitingRoom

open Dynamo Concurrency

/-- The result of attempting an open. -/
inductive OpenResult where
  | opened (values : OpenValues)
  | alreadyOpen

/-- An order in which a batch read may read the ten shards. -/
structure ShardOrder where
  shards : List Shard
  complete : shards.Perm (List.finRange WaitingRoom.shards)

/-- The shards in their own order. -/
def ShardOrder.ascending : ShardOrder := ⟨List.finRange WaitingRoom.shards, .refl _⟩

theorem ShardOrder.mem (order : ShardOrder) (shard : Shard) : shard ∈ order.shards :=
  order.complete.mem_iff.mpr (List.mem_finRange shard)

theorem ShardOrder.nodup (order : ShardOrder) : order.shards.Nodup :=
  order.complete.nodup_iff.mpr (List.nodup_finRange _)

/-- Fold a batch read's shard items into per-shard counts. An item that exists and cannot be
read is an error, never a silent zero. -/
def countsFromShardItems : List Item → (Shard → ℕ) → Except StoreError (Shard → ℕ)
  | [], counts => .ok counts
  | item :: rest, counts =>
      match shardIndexOf item with
      | none => .error ⟨"shard item has an unreadable shard index"⟩
      | some shard =>
          match shardCountOf item with
          | none => .error ⟨"shard item has an unreadable count"⟩
          | some count => countsFromShardItems rest (Function.update counts shard count)

/-- A count of the fold is an item's, or the one it started with if no item has the shard. -/
theorem countsFromShardItems_eq {items : List Item} {base counts : Shard → ℕ}
    (folded : countsFromShardItems items base = .ok counts) (shard : Shard) :
    (∃ item ∈ items, shardIndexOf item = some shard ∧ shardCountOf item = some (counts shard)) ∨
      (∀ item ∈ items, shardIndexOf item ≠ some shard) ∧ counts shard = base shard := by
  induction items generalizing base with
  | nil =>
      obtain rfl := Except.ok.inj folded
      exact .inr ⟨nofun, rfl⟩
  | cons item rest ih =>
      simp only [countsFromShardItems] at folded
      split at folded
      · cases folded
      · next other index =>
          split at folded
          · cases folded
          · next count number =>
              rcases ih folded with ⟨found, member, here, counted⟩ | ⟨elsewhere, kept⟩
              · exact .inl ⟨found, List.mem_cons_of_mem _ member, here, counted⟩
              · by_cases same : shard = other
                · subst same
                  rw [Function.update_self] at kept
                  exact .inl ⟨item, List.mem_cons_self, index, kept ▸ number⟩
                · rw [Function.update_of_ne same] at kept
                  refine .inr ⟨List.forall_mem_cons.mpr ⟨?_, elsewhere⟩, kept⟩
                  rw [index]
                  exact fun equal => same (Option.some.inj equal).symm

/-- The fold fails on an unreadable item only. -/
theorem countsFromShardItems_isOk {items : List Item} (base : Shard → ℕ)
    (readable : ∀ item ∈ items, ∃ shard count,
      shardIndexOf item = some shard ∧ shardCountOf item = some count) :
    ∃ counts, countsFromShardItems items base = .ok counts := by
  induction items generalizing base with
  | nil => exact ⟨base, rfl⟩
  | cons item rest ih =>
      obtain ⟨shard, count, index, number⟩ := readable item List.mem_cons_self
      obtain ⟨counts, folded⟩ := ih (Function.update base shard count) fun later member =>
        readable later (List.mem_cons_of_mem _ member)
      exact ⟨counts, by simp only [countsFromShardItems, index, number, folded]⟩

/-- Read the shards one by one. A shard with no registrations has no item. Keys left out of
the answer fail the read, like any other error. -/
def readShards (order : ShardOrder) : Program Tables (Except StoreError (List Item)) :=
  Program.tryEach (fun shard items =>
    request (.getShard shard) "batch_get_item shards" fun item => .ok (items ++ item.toList))
    order.shards []

/-- Read the ten pre-queue shard counts. -/
def readShardCounts (order : ShardOrder) : Program Tables (Except StoreError (Shard → ℕ)) := do
  match ← readShards order with
  | .error error => return .error error
  | .ok items => return countsFromShardItems items fun _ => 0

/-- Fold the counts into the open values. -/
def openValues (counts : Shard → ℕ) (seed : Seed) : Except CohortError OpenValues :=
  match CohortOffsets.fromCounts counts with
  | .error error => .error error
  | .ok opened => .ok ⟨seed, opened.participantCount, opened.offsets⟩

/-- The open values are the published form of the counts. -/
theorem openValues_eq_ok {counts : Shard → ℕ} {seed : Seed} {values : OpenValues} :
    openValues counts seed = .ok values ↔
      ∑ shard, counts shard < u64Bound ∧
        values = ⟨seed, ∑ shard, counts shard, (CohortOffsets.ofCounts counts).offsets⟩ := by
  rw [openValues, CohortOffsets.fromCounts_eq]
  by_cases inside : ∑ shard, counts shard < u64Bound
  · rw [if_pos inside]
    simp [inside, CohortOffsets.ofCounts, eq_comm]
  · rw [if_neg inside]
    simp [inside]

/-- Write the open under its guard; `false` if the guard rejected it. -/
def writeOpen (values : OpenValues) : Program Tables (Except StoreError Bool) :=
  request (.updateCounters (.writeOpen values)) "update_item" fun attributes =>
    .ok attributes.isSome

/-- Whether the seed is present. -/
def isAlreadyOpen : Program Tables (Except StoreError Bool) :=
  request (.getCounters false) "get_item shuffle_seed" fun item =>
    .ok (item.any fun attributes => (attributes "shuffle_seed").isSome)

/-- Read the shard counts, compute the open values and write them once. -/
def openEvent (seed : Seed) (order : ShardOrder) : Program Tables (Except StoreError OpenResult) := do
  match ← readShardCounts order with
  | .error error => return .error error
  | .ok counts =>
      match openValues counts seed with
      | .error error => return .error ⟨"fold shard counts: " ++ error.message⟩
      | .ok values =>
          match ← writeOpen values with
          | .error error => return .error error
          | .ok true => return .ok (.opened values)
          | .ok false =>
              match ← isAlreadyOpen with
              | .error error => return .error error
              | .ok true => return .ok .alreadyOpen
              | .ok false => return .error ⟨"open rejected: event not in pre_queue phase"⟩

/-! ## What the open publishes -/

/-- The open writes five attributes of an event that is in the pre-queue and has no seed. -/
theorem exists_updateItem_writeOpen {stored : Item} (values : OpenValues)
    (guard : openGuard.holds stored) :
    ∃ item, updateItem (some stored) (CountersUpdate.writeOpen values).condition
      (CountersUpdate.writeOpen values).clauses = .updated item := by
  simp only [updateItem_eq_updated, CountersUpdate.condition, Option.getD_some]
  exact ⟨_, guard, rfl⟩

/-- **What the open stores is what every reader parses.** -/
theorem openOutputs_of_writeOpen {stored : Option Item} {item : Item} {values : OpenValues}
    {counts : Shard → ℕ} {seed : Seed} (eventId : String)
    (updated : updateItem stored (CountersUpdate.writeOpen values).condition
      (CountersUpdate.writeOpen values).clauses = .updated item)
    (computed : openValues counts seed = .ok values) :
    (Counters.fromItem eventId item).openOutputs = some (.ofCounts counts seed) := by
  obtain ⟨inside, rfl⟩ := openValues_eq_ok.mp computed
  have storedSeed : item "shuffle_seed" = some (.B seed.bytes) :=
    updateItem_set [] updated (by simp [Clause.attr])
  have storedCount : item "participant_count" = some (.N (∑ shard, counts shard : ℕ)) :=
    updateItem_set [_] updated (by simp [Clause.attr])
  have storedOffsets : item "prequeue_offsets" =
      some (offsetsAttribute (CohortOffsets.ofCounts counts).offsets) :=
    updateItem_set [_, _, _] updated (by simp [Clause.attr])
  exact openOutputs_of_stored storedSeed storedCount storedOffsets inside fun shard =>
    (Combinatorics.issuedBefore_le_total counts _).trans_lt inside

end WaitingRoom
