import WaitingRoom.Common.Cohort
import WaitingRoom.Common.Ids
import WaitingRoom.Common.Permutation
import WaitingRoom.Dynamo.Item

/-!
# Item shapes

The rows of the three tables, and the one parser of the `Counters` item
(`Counters.fromItem`). A row holds what some reader reads: the server's clock stamps
(`t`, `entry_time`, `ttl`) are left out.

`Counters.openOutputs` is `some` once the open has written the seed, the cohort size and
the offsets, and `Counters.resolvePrequeue` derives a registration's position from them.
-/

set_option autoImplicit false

namespace WaitingRoom

open Dynamo

/-- What has happened to a `Positions` row. -/
inductive PositionStatus where
  | issued
  | admitted
  deriving DecidableEq, Repr

/-- A `PreQueue` row: shard and local index of a registration. -/
structure PreQueueItem where
  r : RequestId
  s : ℕ
  l : ℕ
  h : Option SecretDigest
  deriving DecidableEq

/-- A `Positions` row. -/
structure PositionItem where
  requestId : RequestId
  queuePosition : ℕ
  status : PositionStatus
  h : Option SecretDigest
  deriving DecidableEq

/-- The `Counters` item of an event. -/
structure Counters where
  eventId : String
  phase : Phase
  queueCounter : ℕ
  servingCounter : ℕ
  shuffleSeed : Option Seed
  participantCount : Option ℕ
  prequeueOffsets : Option (Shard → ℕ)
  message : Option String
  targetRate : Option ℕ
  storedControl : StoredControl
  failOpenUntil : ℕ
  startsAt : Option ℕ

/-- The fixed pre-queue index space and permutation seed. -/
structure OpenOutputs where
  offsets : CohortOffsets
  seed : Seed

/-- Where a pre-queue registration resolves to. -/
inductive ResolvedPosition where
  | preQueue (position : ℕ)
  | liveJoin
  deriving DecidableEq, Repr

/-- Why a pre-queue registration cannot be resolved to a position. -/
inductive ResolveError where
  | notOpen
  | badShard
  deriving DecidableEq, Repr

def ResolveError.message : ResolveError → String
  | .notOpen => "event not yet open"
  | .badShard => "shard index out of range"

/-! ## Reading attributes -/

/-- A numeric attribute read as `u64`. -/
def num (item : Item) (key : String) : Option ℕ :=
  (item key).bind (AttributeValue.asUnsigned u64Bound)

/-- A text attribute. -/
def str (item : Item) (key : String) : Option String := (item key).bind AttributeValue.asS

/-- `<[u8; 32]>::try_from`. -/
def Seed.ofBytes (bytes : List UInt8) : Option Seed :=
  if size : bytes.length = 32 then some ⟨bytes, size⟩ else none

/-- `<[u64; SHARDS]>::try_from`. -/
def offsetsOfList (values : List ℕ) : Option (Shard → ℕ) :=
  if size : values.length = shards then some fun shard => values.get (shard.cast size.symm)
  else none

/-- The operator's admission control. Absent or empty is open, and a value that is present
and unreadable holds admission. -/
def storedControlOf (item : Item) : StoredControl :=
  match (str item "admission_control").filter (· ≠ "") with
  | none => .open
  | some stored => (StoredControl.fromStr stored).getD .paused

/-- The attribute a shard item records its own index in. -/
def shardIndexAttr : String := "s"

/-- The attribute a shard item holds its count in. -/
def shardCountAttr : String := "n"

/-- A shard item's own index, or `none` if it is missing or out of range. -/
def shardIndexOf (item : Item) : Option Shard := (num item shardIndexAttr).bind Shard.new

/-- A shard item's count, or `none` if it is absent or not a readable number. -/
def shardCountOf (item : Item) : Option ℕ := num item shardCountAttr

namespace Counters

/-- `Some` once the open has written the seed, cohort size and offsets. -/
def openOutputs (counters : Counters) : Option OpenOutputs := do
  let seed ← counters.shuffleSeed
  let offsets ← counters.prequeueOffsets
  let participantCount ← counters.participantCount
  return ⟨.fromParts offsets participantCount, seed⟩

/-- Resolve a pre-queue registration to its queue position. -/
def resolvePrequeue (hmac : Hmac) (counters : Counters) (row : PreQueueItem) :
    Except ResolveError ResolvedPosition :=
  match counters.openOutputs with
  | none => .error .notOpen
  | some outputs =>
      if shards ≤ row.s then .error .badShard
      else
        match outputs.offsets.assign row.s row.l with
        | .preQueue index =>
            .ok (.preQueue (prp hmac outputs.seed index outputs.offsets.participantCount))
        | .liveJoin => .ok .liveJoin

/-- Assemble the item from its raw attributes, defaulting every field a fresh event has
never written. -/
def fromItem (eventId : String) (item : Item) : Counters where
  eventId := eventId
  phase := ((str item "phase").bind Phase.fromStr).getD .idle
  queueCounter := (num item "queue_counter").getD 0
  servingCounter := (num item "serving_counter").getD 0
  shuffleSeed := ((item "shuffle_seed").bind AttributeValue.asB).bind Seed.ofBytes
  participantCount := num item "participant_count"
  prequeueOffsets := do
    let list ← (item "prequeue_offsets").bind AttributeValue.asL
    -- one unreadable element fails the whole list
    let parsed ← list.mapM (AttributeValue.asUnsigned u64Bound)
    offsetsOfList parsed
  message := (str item "message").filter (· ≠ "")
  targetRate := (num item "target_rate").filter (· < u32Bound)
  storedControl := storedControlOf item
  failOpenUntil := (num item "fail_open_until").getD 0
  startsAt := num item "starts_at"

/-- The open outputs depend on three attributes only. -/
theorem openOutputs_congr {eventId eventId' : String} {item item' : Item}
    (seed : item "shuffle_seed" = item' "shuffle_seed")
    (count : item "participant_count" = item' "participant_count")
    (offsets : item "prequeue_offsets" = item' "prequeue_offsets") :
    (fromItem eventId item).openOutputs = (fromItem eventId' item').openOutputs := by
  simp only [openOutputs, fromItem, num, seed, count, offsets]

/-- Without a seed there are no open outputs. -/
theorem openOutputs_of_seed_none {eventId : String} {item : Item}
    (absent : item "shuffle_seed" = none) : (fromItem eventId item).openOutputs = none := by
  simp [openOutputs, fromItem, absent]

/-- Resolution depends on the counters through the open outputs only. -/
theorem resolvePrequeue_congr {hmac : Hmac} {counters counters' : Counters}
    (same : counters.openOutputs = counters'.openOutputs) (row : PreQueueItem) :
    counters.resolvePrequeue hmac row = counters'.resolvePrequeue hmac row := by
  simp only [resolvePrequeue, same]

end Counters

/-! ## What the writers store reads back -/

theorem num_of_natCast {item : Item} {key : String} {n : ℕ} (stored : item key = some (.N n))
    (inside : n < u64Bound) : num item key = some n := by
  rw [num, stored, Option.bind_some, AttributeValue.asUnsigned_natCast inside]

theorem eq_N_of_num {item : Item} {key : String} {n : ℕ} (read : num item key = some n) :
    item key = some (.N n) := by
  obtain ⟨value, found, unsigned⟩ := Option.bind_eq_some_iff.mp read
  rw [found, AttributeValue.eq_of_asUnsigned unsigned]

theorem numberOf_of_num {item : Item} {key : String} {n : ℕ} (read : num item key = some n) :
    numberOf (some item) key = n := by
  rw [numberOf, Option.getD_some, eq_N_of_num read]
  rfl

theorem num_lt {item : Item} {key : String} {n : ℕ} (read : num item key = some n) :
    n < u64Bound := by
  obtain ⟨value, -, unsigned⟩ := Option.bind_eq_some_iff.mp read
  exact AttributeValue.asUnsigned_lt unsigned

theorem Seed.ofBytes_bytes (seed : Seed) : Seed.ofBytes seed.bytes = some seed := by
  simp [Seed.ofBytes, seed.size]

/-- The offsets list an open stores. -/
def offsetsAttribute (offsets : Shard → ℕ) : AttributeValue :=
  .L ((List.ofFn offsets).map fun offset : ℕ => .N offset)

theorem mapM_asUnsigned {values : List ℕ} (inside : ∀ value ∈ values, value < u64Bound) :
    (values.map fun value : ℕ => AttributeValue.N value).mapM
      (AttributeValue.asUnsigned u64Bound) = some values := by
  induction values with
  | nil => rfl
  | cons value values ih =>
      rw [List.map_cons, List.mapM_cons,
        AttributeValue.asUnsigned_natCast (inside value List.mem_cons_self),
        ih fun later member => inside later (List.mem_cons_of_mem _ member)]
      rfl

theorem offsetsOfList_ofFn (offsets : Shard → ℕ) :
    offsetsOfList (List.ofFn offsets) = some offsets := by
  simp [offsetsOfList]

/-- **Open outputs survive the table**: what the open stores under the three attributes is
what every reader parses. -/
theorem openOutputs_of_stored {eventId : String} {item : Item} {seed : Seed}
    {cohort : CohortOffsets} (storedSeed : item "shuffle_seed" = some (.B seed.bytes))
    (storedCount : item "participant_count" = some (.N cohort.participantCount))
    (storedOffsets : item "prequeue_offsets" = some (offsetsAttribute cohort.offsets))
    (countInside : cohort.participantCount < u64Bound)
    (offsetsInside : ∀ shard, cohort.offsets shard < u64Bound) :
    (Counters.fromItem eventId item).openOutputs = some ⟨cohort, seed⟩ := by
  have count : num item "participant_count" = some cohort.participantCount :=
    num_of_natCast storedCount countInside
  have parsed : ((List.ofFn cohort.offsets).map fun value : ℕ => AttributeValue.N value).mapM
      (AttributeValue.asUnsigned u64Bound) = some (List.ofFn cohort.offsets) :=
    mapM_asUnsigned (by simpa [List.mem_ofFn] using offsetsInside)
  have seeded : (Counters.fromItem eventId item).shuffleSeed = some seed := by
    simp only [Counters.fromItem, storedSeed, Option.bind_some, AttributeValue.asB,
      Seed.ofBytes_bytes]
  have listed : (Counters.fromItem eventId item).prequeueOffsets = some cohort.offsets := by
    simp only [Counters.fromItem, storedOffsets, offsetsAttribute, Option.bind_eq_bind,
      Option.bind_some, AttributeValue.asL]
    rw [parsed, Option.bind_some, offsetsOfList_ofFn]
  have counted : (Counters.fromItem eventId item).participantCount =
      some cohort.participantCount := count
  simp only [Counters.openOutputs, seeded, listed, counted, CohortOffsets.fromParts,
    Option.bind_eq_bind, Option.bind_some, Option.pure_def]

end WaitingRoom
