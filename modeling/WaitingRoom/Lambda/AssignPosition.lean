import WaitingRoom.Store.Tables
import Mathlib.Data.List.Basic

/-!
# Batch processing of join messages

A batch reads the `Counters` item once and takes one of three paths: a live join claims a
block of queue positions, a pre-queue registration claims a block of local indices on one
shard, and anything else fails every accepted record. After the pre-queue writes one more
read looks whether the event opened meanwhile, and the rows the open did not count get a
live position (`fixupStragglers`).
-/

set_option autoImplicit false

namespace WaitingRoom

open Dynamo Concurrency

/-- A join message body enqueued by the ingest API. -/
structure JoinMessage where
  requestId : RequestId
  eventId : String
  h : SecretDigest
  deriving DecidableEq

/-- The three text fields a join body has before the digest is validated. -/
structure RawJoin where
  requestId : RequestId
  eventId : String
  h : String

/-- `serde_json`: the fields of a body, or `none` if it does not parse. -/
abbrev DecodeJoin := String → Option RawJoin

/-- One record of the batch. -/
structure BatchRecord where
  messageId : String
  body : String
  deriving DecidableEq

/-- The message ids that must be returned to the queue. -/
structure BatchOutcome where
  failures : List String
  deriving DecidableEq

/-- Why a record was permanently rejected. -/
inductive DropReason where
  | badShape
  | wrongEvent
  deriving DecidableEq

/-- The outcome of classifying one record. -/
inductive RecordVerdict where
  | accept (msg : JoinMessage)
  | reject (reason : DropReason)
  deriving DecidableEq

/-- Deserialize a body: a digest of the wrong shape fails it. -/
def parseJoin (decode : DecodeJoin) (body : String) : Option JoinMessage := do
  let raw ← decode body
  let h ← SecretDigest.parse raw.h
  return ⟨raw.requestId, raw.eventId, h⟩

/-- Parse and validate one record's body. -/
def classifyRecord (decode : DecodeJoin) (body eventId : String) : RecordVerdict :=
  match parseJoin decode body with
  | none => .reject .badShape
  | some msg =>
      if msg.eventId ≠ eventId then .reject .wrongEvent
      else if isUuidShape msg.requestId then .accept msg
      else .reject .badShape

/-- The records that take a position, with their message ids. -/
def accepted (decode : DecodeJoin) (eventId : String) (records : List BatchRecord) :
    List (String × JoinMessage) :=
  records.filterMap fun record =>
    match classifyRecord decode record.body eventId with
    | .accept msg => some (record.messageId, msg)
    | .reject _ => none

/-- Records with distinct message ids are accepted with distinct message ids. -/
theorem accepted_nodup {decode : DecodeJoin} {eventId : String} {records : List BatchRecord}
    (distinct : (records.map BatchRecord.messageId).Nodup) :
    ((accepted decode eventId records).map Prod.fst).Nodup := by
  refine distinct.sublist ?_
  induction records with
  | nil => exact List.Sublist.slnil
  | cons record records ih =>
      have rest := ih (List.nodup_cons.mp distinct).2
      simp only [accepted, List.filterMap_cons, List.map_cons]
      cases classifyRecord decode record.body eventId with
      | accept msg => exact rest.cons_cons _
      | reject reason => exact rest.cons _

/-! ## The store -/

/-- Claim `n` queue positions and return the end of the block. -/
def claimBlock (n : ℕ) : Program Tables (Except StoreError ℕ) :=
  request (.updateCounters (.claimBlock n)) "update_item" fun attributes =>
    match attributes.bind (num · "queue_counter") with
    | some stop => .ok stop
    | none => .error ⟨"queue_counter missing in ALL_NEW"⟩

/-- Write one position row, unless the id has one. -/
def putPosition (write : PositionWrite) : Program Tables (Except StoreError WriteOutcome) :=
  request (.putPosition write) "put_item" .ok

/-- Read the event's `Counters` item with a strongly consistent read. -/
def loadCounters (eventId : String) : Program Tables (Except StoreError (Option Counters)) :=
  request (.getCounters true) "get_item counters" fun item =>
    .ok (item.map (Counters.fromItem eventId))

/-- The first local index of a block: the shard's count after the `ADD` minus its size. -/
def firstLocalIndex (shard shardCountAfterAdd count : ℕ) : Except StoreError ℕ :=
  match checkedSub shardCountAfterAdd count with
  | some start => .ok start
  | none => .error ⟨s!"shard {shard} count {shardCountAfterAdd} underflowed claiming {count}"⟩

theorem firstLocalIndex_eq_ok {shard stop count start : ℕ} :
    firstLocalIndex shard stop count = .ok start ↔ start + count = stop := by
  simp only [firstLocalIndex, checkedSub]
  split_ifs with fits
  · simp only [Except.ok.injEq]
    omega
  · simp only [false_iff]
    omega

/-- Claim `count` local indices on one shard and return the first. -/
def claimPrequeueBlock (shard : Shard) (count : ℕ) : Program Tables (Except StoreError ℕ) :=
  request (.addShard shard count) "update_item prequeue shard" fun attributes =>
    match num attributes shardCountAttr with
    | some stop => firstLocalIndex shard stop count
    | none => .error ⟨"shard count missing in ALL_NEW"⟩

/-- Write one pre-queue row, unless the id has one. A shard index always fits the row's
byte. -/
def putPrequeue (write : PreQueueWrite) : Program Tables (Except StoreError WriteOutcome) :=
  request (.putPrequeue write) "put_item prequeue" .ok

/-- The maximum number of keys one batch read accepts. -/
def batchGetLimit : ℕ := 100

/-- Which ids already have a pre-queue row. -/
def registeredIds (requestIds : List RequestId) :
    Program Tables (Except StoreError (List RequestId)) :=
  Program.tryEach (fun chunk found =>
    request (.batchGetPrequeue chunk) "batch_get_item" fun present => .ok (found ++ present))
    (requestIds.toChunks batchGetLimit) []

/-! ## The live path -/

/-- The first position of a block of `n` that ends at `stop`. -/
def blockStart (stop n : ℕ) : ℕ := saturatingAdd (saturatingSub stop n) 1

/-- One position row per record. A failed write fails its record. -/
def putPositions (start : ℕ) (valid : List (String × JoinMessage)) :
    Program Tables (List String) :=
  Program.forEach (fun offset (messageId, msg) failures => do
    match ← putPosition ⟨msg.requestId, saturatingAdd start offset, msg.h⟩ with
    | .error _ => return failures ++ [messageId]
    | .ok _ => return failures) valid 0 []

/-- Claim one block for the whole valid set and write its rows. -/
def processLiveBatch (valid : List (String × JoinMessage)) : Program Tables BatchOutcome := do
  match ← claimBlock valid.length with
  | .error _ => return ⟨valid.map Prod.fst⟩
  | .ok stop => return ⟨← putPositions (blockStart stop valid.length) valid⟩

/-! ## The pre-queue path -/

/-- Keep the first record of every request id that was not seen before. -/
def dedupe : List (String × JoinMessage) → List RequestId → List (String × JoinMessage)
  | [], _ => []
  | (messageId, msg) :: rest, seen =>
      if seen.contains msg.requestId then dedupe rest seen
      else (messageId, msg) :: dedupe rest (msg.requestId :: seen)

/-- The first records of the ids that are not registered yet. -/
def groupOf (valid : List (String × JoinMessage)) (alreadyRegistered : List RequestId) :
    List (String × JoinMessage) :=
  (dedupe valid []).filter fun record => !alreadyRegistered.contains record.2.requestId

/-- A failed read of the registered ids degrades to none of them. -/
def registeredIdsOrUnknown (requestIds : List RequestId) : Program Tables (List RequestId) := do
  match ← registeredIds requestIds with
  | .ok ids => return ids
  | .error _ => return []

/-- One pre-queue row per record: what was written, and what failed. -/
def putPrequeues (shard : Shard) (start : ℕ) (group : List (String × JoinMessage)) :
    Program Tables (List PreQueueWrite × List String) :=
  Program.forEach (fun offset (messageId, msg) (written, failures) => do
    let write : PreQueueWrite := ⟨msg.requestId, shard, saturatingAdd start offset, msg.h⟩
    match ← putPrequeue write with
    | .ok .written => return (written ++ [write], failures)
    | .ok .duplicate => return (written, failures)
    | .error _ => return (written, failures ++ [messageId])) group 0 ([], [])

/-- One position row per straggler. A failed write is left to self-heal. -/
def putStragglers (start : ℕ) (stragglers : List PreQueueWrite) : Program Tables Unit :=
  Program.forEach (fun offset write () => do
    let _ ← putPosition ⟨write.requestId, saturatingAdd start offset, write.digest⟩
    return ()) stragglers 0 ()

/-- The rows an open did not count. -/
def stragglersOf (opened : OpenOutputs) (written : List PreQueueWrite) : List PreQueueWrite :=
  written.filter fun write => opened.offsets.assign write.shard write.localIndex = .liveJoin

/-- Give every row this invocation wrote that the open did not count a live position. No
failure in here fails the batch. -/
def fixupStragglers (eventId : String) (written : List PreQueueWrite) : Program Tables Unit := do
  match ← loadCounters eventId with
  | .error _ => return
  | .ok counters =>
      match counters.bind Counters.openOutputs with
      | none => return
      | some opened =>
          let stragglers := stragglersOf opened written
          if stragglers.isEmpty then return
          else
            match ← claimBlock stragglers.length with
            | .error _ => return
            | .ok stop => putStragglers (blockStart stop stragglers.length) stragglers

/-- Register whatever is not registered yet on one shard. -/
def processPrequeueBatch (eventId : String) (shard : Shard) (valid : List (String × JoinMessage)) :
    Program Tables BatchOutcome := do
  let deduped := dedupe valid []
  let alreadyRegistered ← registeredIdsOrUnknown (deduped.map fun record => record.2.requestId)
  let group := groupOf valid alreadyRegistered
  if group.isEmpty then return ⟨[]⟩
  else
    match ← claimPrequeueBlock shard group.length with
    | .error _ => return ⟨group.map Prod.fst⟩
    | .ok start =>
        let (written, failures) ← putPrequeues shard start group
        if written.isEmpty then return ⟨failures⟩
        else
          fixupStragglers eventId written
          return ⟨failures⟩

/-! ## The batch -/

/-- Process one batch. -/
def processBatch (decode : DecodeJoin) (eventId : String) (shard : Shard)
    (records : List BatchRecord) : Program Tables BatchOutcome := do
  let valid := accepted decode eventId records
  if valid.isEmpty then return ⟨[]⟩
  else
    match ← loadCounters eventId with
    | .ok (some counters) =>
        -- the open outputs decide, never the phase alone
        if counters.openOutputs.isSome then processLiveBatch valid
        else if counters.phase = .preQueue then processPrequeueBatch eventId shard valid
        else return ⟨valid.map Prod.fst⟩
    | .ok none => return ⟨valid.map Prod.fst⟩
    | .error _ => return ⟨valid.map Prod.fst⟩

end WaitingRoom
