import WaitingRoom.Protocol.Trace

/-!
# The open of an event

In every state of a run the three outputs of the open are there together or not at all, an
active event has them, and what they publish are the counts of some shard reads
(`RoomTrace.opening`). The counts are those that the winning open read: each was its shard's
count at a moment before the open landed (`RoomTrace.winner`).
-/

set_option autoImplicit false

namespace WaitingRoom

open Dynamo Concurrency

/-- The counters as every reader of positions parses them. -/
abbrev Deployment.view (d : Deployment) (db : Db) : Counters := d.parse (db.counters.getD .empty)

/-- The counts and the seed an opened event has published. -/
structure Published (d : Deployment) (db : Db) (counts : Shard → ℕ) (seed : Seed) : Prop where
  bounded : ∑ shard, counts shard < u64Bound
  outputs : (d.view db).openOutputs = some (.ofCounts counts seed)

/-- What holds of the open's outputs in every state of a run. -/
structure Opening (d : Deployment) (db : Db) : Prop where
  published : db.Opened → ∃ counts seed, Published d db counts seed
  unopened : ¬ db.Opened → ∀ name ∈ CountersUpdate.openAttrs, db.attr name = none
  active : db.attr "phase" = some (.S Phase.active.asWireStr) → db.Opened

section Outputs

variable {d : Deployment} {db db' : Db} {counts : Shard → ℕ} {seed : Seed}

/-- The open's outputs are what three attributes say. -/
theorem openOutputs_of_attrs
    (same : ∀ name ∈ CountersUpdate.openAttrs, db'.attr name = db.attr name) :
    (d.view db').openOutputs = (d.view db).openOutputs :=
  Counters.openOutputs_congr (same _ (by simp [CountersUpdate.openAttrs]))
    (same _ (by simp [CountersUpdate.openAttrs])) (same _ (by simp [CountersUpdate.openAttrs]))

/-- An event with open outputs was opened. -/
theorem opened_of_openOutputs (outputs : (d.view db).openOutputs ≠ none) : db.Opened := by
  intro absent
  exact outputs (Counters.openOutputs_of_seed_none absent)

/-- What an open published stays published. -/
theorem Published.grows (published : Published d db counts seed) (grows : db.Grows db') :
    Published d db' counts seed where
  bounded := published.bounded
  outputs := by
    have opened : db.Opened := opened_of_openOutputs (by rw [published.outputs]; nofun)
    rw [openOutputs_of_attrs (grows.opened opened), published.outputs]

theorem Published.opened (published : Published d db counts seed) : db.Opened :=
  opened_of_openOutputs (by rw [published.outputs]; nofun)

/-- An opened event resolves every row as before. -/
theorem resolvePrequeue_of_grows (grows : db.Grows db') (opened : db.Opened) (row : PreQueueItem) :
    (d.view db').resolvePrequeue d.hmac row = (d.view db).resolvePrequeue d.hmac row :=
  Counters.resolvePrequeue_congr (openOutputs_of_attrs (grows.opened opened)) row

/-- What a row of an opened event resolves to. -/
theorem Published.resolve (published : Published d db counts seed) (shard : Shard)
    (requestId : RequestId) (localIndex : ℕ) (digest : Option SecretDigest) :
    (d.view db).resolvePrequeue d.hmac ⟨requestId, shard, localIndex, digest⟩ =
      if localIndex < counts shard then
        .ok (.preQueue (cohortPosition d.hmac seed counts (shard, localIndex)))
      else .ok .liveJoin :=
  resolvePrequeue_eq d.hmac seed published.bounded published.outputs shard requestId localIndex digest

end Outputs

/-! ## The phase -/

/-- Who writes the phase. -/
theorem updateItem_phase {update : CountersUpdate} {stored : Option Item} {item : Item}
    (updated : updateItem stored update.condition update.clauses = .updated item) :
    item "phase" = stored.getD .empty "phase" ∨ (∃ values, update = .writeOpen values) ∨
      (∃ prior target audit, update = .setPhase prior target audit ∧
        item "phase" = some (.S target.asWireStr)) ∨
      item "phase" = some (.S Phase.maintenance.asWireStr) := by
  cases update with
  | writeOpen values => exact .inr (.inl ⟨values, rfl⟩)
  | setPhase prior target audit =>
      refine .inr (.inr (.inl ⟨prior, target, audit, rfl, updateItem_set [] updated ?_⟩))
      simp [CountersUpdate.auditClauses, Clause.attr]
  | forceMaintenance prior audit =>
      refine .inr (.inr (.inr (updateItem_set [] updated ?_)))
      simp [CountersUpdate.auditClauses, Clause.attr]
  | claimBlock _ | writeRelease _ _ | setRate _ _ _ | setMessage _ _ | setStoredControl _ _ _
  | stampAction _ | setFailOpenUntil _ _ | setFailOpenUntilFallback _ | rulesAudit _ _ _ =>
      refine .inl (updateItem_of_ne updated ?_)
      simp [CountersUpdate.clauses, CountersUpdate.auditClauses, Clause.attr]
  | setStartsAt startsAt _ =>
      refine .inl (updateItem_of_ne updated ?_)
      cases startsAt <;>
        simp [CountersUpdate.clauses, CountersUpdate.startsAtClauses, CountersUpdate.auditClauses,
          Clause.attr]

section Invariant

variable {d : Deployment} {policy : RoomPolicy} {origin db : Db} {log older : List RoomEntry}
  {entry : RoomEntry}

theorem Seeded.opening (seeded : Seeded origin) : Opening d origin where
  published opened := absurd (seeded.unopened _ (by simp [CountersUpdate.openAttrs])) opened
  unopened _ := seeded.unopened
  active active := absurd active seeded.phase

/-- An operator that makes the event active has read its outputs. -/
theorem Logged.opened_of_activates (logged : Logged d policy origin older entry)
    (before : ∀ old, Held d policy origin older old → Opening d old) {prior : Phase} {audit : Audit}
    (call : entry.exchange.call = .updateCounters (.setPhase prior .active audit)) :
    entry.before.Opened := by
  have lawful := logged.lawful
  rw [call] at lawful
  obtain ⟨item, read, -, checked⟩ := lawful
  obtain ⟨old, held, found⟩ := logged.earlier.read_counters read
  have counted : old.attr "participant_count" ≠ none := by
    intro absent
    rw [Db.attr, found, Option.getD_some] at absent
    exact participantCount_of_checkPhase checked (by simp [controlStateOf, num, absent])
  refine (held.grows logged.earlier).isOpened ?_
  by_contra unopened
  exact counted ((before old held).unopened unopened _ (by simp [CountersUpdate.openAttrs]))

/-- An open that lands publishes the counts it read. -/
theorem Logged.published_of_opens (logged : Logged d policy origin older entry) {values : OpenValues}
    {item : Item} (call : entry.exchange.call = .updateCounters (.writeOpen values))
    (updated : updateItem entry.before.counters (CountersUpdate.writeOpen values).condition
      (CountersUpdate.writeOpen values).clauses = .updated item)
    (after : entry.after.counters = some item) :
    ∃ items counts seed, ShardReads (history older entry.thread) items ∧
      countsFromShardItems items (fun _ => 0) = .ok counts ∧
      Published d entry.after counts seed := by
  have lawful := logged.lawful
  rw [call] at lawful
  obtain ⟨items, counts, seed, reads, folded, computed⟩ := lawful.folded
  refine ⟨items, counts, seed, reads, folded, (openValues_eq_ok.mp computed).1, ?_⟩
  rw [Deployment.view, after, Option.getD_some]
  exact openOutputs_of_writeOpen d.eventId updated computed

/-- An update that is not the open leaves an unopened event unopened. -/
theorem attr_of_updated {before after : Db} {update : CountersUpdate} {item : Item}
    (updated : updateItem before.counters update.condition update.clauses = .updated item)
    (written : after.counters = some item) (other : ∀ values, update ≠ .writeOpen values) :
    ∀ name ∈ CountersUpdate.openAttrs, after.attr name = before.attr name := by
  intro name member
  rw [Db.attr, written, Option.getD_some]
  exact updateItem_of_ne updated (CountersUpdate.attr_of_openAttr other member)

/-- An event that was not opened and still is not. -/
theorem Opening.still {before after : Db} (now : Opening d before) (unopened : ¬ before.Opened)
    (same : ∀ name ∈ CountersUpdate.openAttrs, after.attr name = before.attr name)
    (inactive : after.attr "phase" ≠ some (.S Phase.active.asWireStr)) : Opening d after where
  published opened := by
    refine absurd ?_ unopened
    rwa [Db.Opened, same _ (by simp [CountersUpdate.openAttrs])] at opened
  unopened _ name member := by rw [same name member, now.unopened unopened name member]
  active active := absurd active inactive

/-- One call keeps the opening. -/
theorem Logged.opening (logged : Logged d policy origin older entry)
    (before : ∀ old, Held d policy origin older old → Opening d old) : Opening d entry.after := by
  have now : Opening d entry.before := before _ ⟨[], older, rfl, logged.earlier⟩
  by_cases opened : entry.before.Opened
  · have still := logged.grows.isOpened opened
    obtain ⟨counts, seed, published⟩ := now.published opened
    exact ⟨fun _ => ⟨counts, seed, published.grows logged.grows⟩, fun closed => absurd still closed,
      fun _ => still⟩
  have inactive : entry.before.attr "phase" ≠ some (.S Phase.active.asWireStr) :=
    fun active => opened (now.active active)
  rcases logged.effect.counters_cases with same | ⟨update, item, call, updated, after⟩
  · have attrs : ∀ name, entry.after.attr name = entry.before.attr name := fun name => by
      rw [Db.attr, Db.attr, same]
    exact now.still opened (fun name _ => attrs name) (by rwa [attrs])
  by_cases opens : ∃ values, update = .writeOpen values
  · obtain ⟨values, rfl⟩ := opens
    obtain ⟨_, counts, seed, -, -, published⟩ := logged.published_of_opens call updated after
    exact ⟨fun _ => ⟨counts, seed, published⟩, fun closed => absurd published.opened closed,
      fun _ => published.opened⟩
  · have other : ∀ values, update ≠ .writeOpen values := fun values same => opens ⟨values, same⟩
    refine now.still opened (attr_of_updated updated after other) ?_
    rw [Db.attr, after, Option.getD_some]
    rcases updateItem_phase updated with same | ⟨values, same⟩ | ⟨prior, target, audit, rfl, phase⟩ |
      phase
    · rw [same]
      exact inactive
    · exact absurd same (other values)
    · rw [phase]
      intro activates
      obtain rfl := Phase.asWireStr_injective (AttributeValue.S.inj (Option.some.inj activates))
      exact opened (logged.opened_of_activates before call)
    · rw [phase]
      intro activates
      cases Phase.asWireStr_injective (AttributeValue.S.inj (Option.some.inj activates))

/-- **The open's outputs in every state of a run.** -/
theorem RoomTrace.opening (seeded : Seeded origin) (trace : RoomTrace d policy origin log db) :
    Opening d db :=
  trace.invariant (Opening d) seeded.opening fun _ _ logged before => logged.opening before

/-! ## The open that won -/

/-- Every shard item names its shard. -/
def Stamped (db : Db) : Prop :=
  ∀ shard item, db.shards shard = some item → item shardIndexAttr = some (.N shard.val)

theorem RoomTrace.stamped (seeded : Seeded origin) (trace : RoomTrace d policy origin log db) :
    Stamped db := by
  refine trace.invariant Stamped ?_ fun entry older logged before shard item found => ?_
  · intro shard item found
    rw [seeded.shards shard] at found
    cases found
  · rcases logged.effect.shards_cases shard with same | ⟨count, item', -, index, -, after⟩
    · exact before _ ⟨[], older, rfl, logged.earlier⟩ shard item (same ▸ found)
    · obtain rfl := Option.some.inj (after.symm.trans found)
      exact index

/-- The item an open read of a shard names that shard. -/
theorem RoomTrace.read_index (seeded : Seeded origin) (trace : RoomTrace d policy origin log db)
    {thread : ℕ} {shard : Shard} {item : Item}
    (member : answered (.getShard shard) (.ok (some item)) ∈ history log thread) :
    shardIndexOf item = some shard := by
  obtain ⟨newer, entry, older, rfl, -, same, logged⟩ := trace.logged_of_history member
  have stored : entry.before.shards shard = some item :=
    (Except.ok.inj (logged.committed_answer same rfl nofun)).symm
  have inside : shard.val < u64Bound := shard.isLt.trans (by decide)
  rw [shardIndexOf, num_of_natCast (logged.earlier.stamped seeded shard item stored) inside,
    Option.bind_some, Shard.new, dif_pos shard.isLt]

/-- A job has one read of a shard in the log. -/
theorem RoomTrace.read_unique (trace : RoomTrace d policy origin log db) {read read' : RoomEntry}
    {shard : Shard} (member : read ∈ log) (member' : read' ∈ log)
    (call : read.exchange.call = .getShard shard) (call' : read'.exchange.call = .getShard shard)
    (same : read.thread = read'.thread) : read = read' := by
  refine once_of_fresh (fun exchange : Exchange Tables => exchange.call = Call.getShard shard) ?_
    member member' call call' same
  rintro newer claim older rfl call x among call'
  have lawful := trace.logged.lawful
  rw [call] at lawful
  exact lawful.once x among call'

theorem RoomTrace.read_once (trace : RoomTrace d policy origin log db) {thread : ℕ} {shard : Shard}
    {answer answer' : Except StoreError (Option Item)}
    (member : answered (.getShard shard) answer ∈ history log thread)
    (member' : answered (.getShard shard) answer' ∈ history log thread) : answer = answer' := by
  obtain ⟨read, inLog, mine, same⟩ := mem_history.mp member
  obtain ⟨read', inLog', mine', same'⟩ := mem_history.mp member'
  rw [trace.read_unique inLog inLog' (by rw [same]) (by rw [same']) (mine.trans mine'.symm),
    same'] at same
  cases same
  rfl

/-- A shard read of the log, and the count the shard had. -/
structure ReadsCount (older : List RoomEntry) (thread : ℕ) (shard : Shard) (read : RoomEntry)
    (count : ℕ) : Prop where
  member : read ∈ older
  mine : read.thread = thread
  call : ∃ item, read.exchange = answered (.getShard shard) (.ok item)
  counted : numberOf (read.before.shards shard) shardCountAttr = count

/-- The counts an open folds are the counts its shards had when it read them. -/
theorem RoomTrace.counts_read (seeded : Seeded origin) (trace : RoomTrace d policy origin older db)
    {thread : ℕ} {items : List Item} {counts : Shard → ℕ}
    (complete : ∀ shard, ∃ item, answered (.getShard shard) (.ok item) ∈ history older thread)
    (reads : ShardReads (history older thread) items)
    (folded : countsFromShardItems items (fun _ => 0) = .ok counts) (shard : Shard) :
    ∃ read, ReadsCount older thread shard read (counts shard) := by
  obtain ⟨found, member⟩ := complete shard
  -- an item of the fold with this index is the one this read returned
  have only : ∀ item ∈ items, shardIndexOf item = some shard → found = some item := by
    intro item inside index
    obtain ⟨other, read⟩ := reads.from_read item inside
    obtain rfl := Option.some.inj (index.symm.trans (trace.read_index seeded read))
    exact Except.ok.inj (trace.read_once member read)
  obtain ⟨newer, read, oldest, rfl, mine, same, logged⟩ := trace.logged_of_history member
  have stored : read.before.shards shard = found :=
    (Except.ok.inj (logged.committed_answer same rfl nofun)).symm
  refine ⟨read, by simp, mine, ⟨found, same⟩, ?_⟩
  rw [stored]
  rcases countsFromShardItems_eq folded shard with ⟨item, inside, index, number⟩ | ⟨absent, zero⟩
  · rw [only item inside index]
    exact numberOf_of_num number
  · cases found with
    | none =>
        rw [zero]
        rfl
    | some item =>
        exact absurd (trace.read_index seeded member) (absent item (reads.of_read shard item member))

/-- The open that won: the log below it, the counts it read and what it published. -/
structure Winner (d : Deployment) (policy : RoomPolicy) (origin : Db) (older : List RoomEntry)
    (winner : RoomEntry) (counts : Shard → ℕ) (seed : Seed) : Prop where
  logged : Logged d policy origin older winner
  call : ∃ values, winner.exchange.call = .updateCounters (.writeOpen values)
  unopened : ¬ winner.before.Opened
  published : Published d winner.after counts seed
  reads : ∀ shard, ∃ read, ReadsCount older winner.thread shard read (counts shard)

/-- The step from an unopened to an opened event is a winner. -/
theorem Logged.winner (seeded : Seeded origin) (logged : Logged d policy origin older entry)
    (unopened : ¬ entry.before.Opened) (opened : entry.after.Opened) :
    ∃ counts seed, Winner d policy origin older entry counts seed := by
  rcases logged.effect.counters_cases with same | ⟨update, item, call, updated, after⟩
  · rw [Db.Opened, Db.attr, same] at opened
    exact absurd opened unopened
  · by_cases opens : ∃ values, update = .writeOpen values
    · obtain ⟨values, rfl⟩ := opens
      obtain ⟨items, counts, seed, reads, folded, published⟩ :=
        logged.published_of_opens call updated after
      have lawful := logged.lawful
      rw [call] at lawful
      exact ⟨counts, seed, logged, ⟨values, call⟩, unopened, published,
        fun shard => logged.earlier.counts_read seeded lawful.complete reads folded shard⟩
    · have same := attr_of_updated updated after (fun values is => opens ⟨values, is⟩)
        "shuffle_seed" (by simp [CountersUpdate.openAttrs])
      rw [Db.Opened, same] at opened
      exact absurd opened unopened

/-- **An opened event has a winner**: the outputs of the event are what it published. -/
theorem RoomTrace.winner (seeded : Seeded origin) (trace : RoomTrace d policy origin log db)
    (opened : db.Opened) : ∃ newer winner older counts seed, log = newer ++ winner :: older ∧
      Winner d policy origin older winner counts seed ∧ Published d db counts seed := by
  suffices found : ∃ newer winner older counts seed, log = newer ++ winner :: older ∧
      Winner d policy origin older winner counts seed by
    obtain ⟨newer, winner, older, counts, seed, rfl, won⟩ := found
    exact ⟨newer, winner, older, counts, seed, rfl, won,
      won.published.grows (trace.after_grows (by simp))⟩
  revert opened
  refine trace.rule (motive := fun log db => db.Opened → ∃ newer winner older counts seed,
    log = newer ++ winner :: older ∧ Winner d policy origin older winner counts seed) ?_ ?_
  · intro opened
    exact absurd (seeded.unopened _ (by simp [CountersUpdate.openAttrs])) opened
  · intro entry older logged before opened
    by_cases already : entry.before.Opened
    · obtain ⟨newer, winner, oldest, counts, seed, rfl, won⟩ :=
        before [] older _ rfl logged.earlier already
      exact ⟨entry :: newer, winner, oldest, counts, seed, rfl, won⟩
    · obtain ⟨counts, seed, won⟩ := logged.winner seeded already opened
      exact ⟨[], entry, older, counts, seed, rfl, won⟩

end Invariant

end WaitingRoom
