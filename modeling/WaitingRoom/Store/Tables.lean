import WaitingRoom.Concurrency.Pool
import WaitingRoom.Store.Updates

/-!
# The tables and the requests on them

One event's part of the three tables: the `Counters` item with the ten pre-queue and ten
arrivals shards beside it, the `PreQueue` rows and the `Positions` rows. A `Call` is one
request, `perform` is what it does and answers when nothing goes wrong, and `respond` adds
what may go wrong: a request may fail before or after it took effect, an eventually
consistent read may return an older value, and a batch read may leave keys out.

Every later argument about a call starts from three facts. It leaves the tables as they
were or performs its request (`respond_state`). An answered write or consistent read is the
performed one (`respond_ok`), and an answered eventually consistent read is that of the
present or of some older state (`respond_stale`).
-/

set_option autoImplicit false

namespace WaitingRoom

open Dynamo Concurrency

/-- A position write to attempt. -/
structure PositionWrite where
  requestId : RequestId
  position : ℕ
  digest : SecretDigest
  deriving DecidableEq

/-- A pre-queue registration write to attempt. -/
structure PreQueueWrite where
  requestId : RequestId
  shard : Shard
  localIndex : ℕ
  digest : SecretDigest
  deriving DecidableEq

/-- The row a position write stores. -/
def PositionWrite.row (write : PositionWrite) : PositionItem :=
  ⟨write.requestId, write.position, .issued, some write.digest⟩

/-- The row a registration write stores. -/
def PreQueueWrite.row (write : PreQueueWrite) : PreQueueItem :=
  ⟨write.requestId, write.shard, write.localIndex, some write.digest⟩

/-- The result of a single conditional position or pre-queue write. -/
inductive WriteOutcome where
  | written
  | duplicate
  deriving DecidableEq, Repr

/-- Whether an admission claim was this call's to make. -/
inductive AdmissionClaim where
  | first
  | repeat
  deriving DecidableEq, Repr

/-- One event's part of the tables. -/
structure Db where
  counters : Option Item
  shards : Shard → Option Item
  arrivals : Shard → Option Item
  prequeue : RequestId → Option PreQueueItem
  positions : RequestId → Option PositionItem

/-- One request. A read says whether it asks for consistency where the code uses both. -/
inductive Call where
  | getCounters (consistent : Bool)
  | updateCounters (update : CountersUpdate)
  | getShard (shard : Shard)
  | addShard (shard : Shard) (count : ℕ)
  | getArrivals (shard : Shard)
  | addArrivals (shard : Shard)
  | getPrequeue (requestId : RequestId)
  | batchGetPrequeue (requestIds : List RequestId)
  | putPrequeue (write : PreQueueWrite)
  | getPosition (consistent : Bool) (requestId : RequestId)
  | putPosition (write : PositionWrite)
  | claimAdmission (requestId : RequestId) (position : ℕ) (digest : SecretDigest)

/-- What a request is answered with when the store does not fail. An update of the
`Counters` item is answered with the new attributes, or `none` when its condition failed. -/
@[reducible] def Payload : Call → Type
  | .getCounters _ => Option Item
  | .updateCounters _ => Option Item
  | .getShard _ => Option Item
  | .addShard _ _ => Item
  | .getArrivals _ => Option Item
  | .addArrivals _ => Unit
  | .getPrequeue _ => Option PreQueueItem
  | .batchGetPrequeue _ => List RequestId
  | .putPrequeue _ => WriteOutcome
  | .getPosition _ _ => Option PositionItem
  | .putPosition _ => WriteOutcome
  | .claimAdmission _ _ _ => AdmissionClaim

/-- The requests on the tables and their answers. -/
abbrev Tables : Interface where
  Call := Call
  Answer call := Except StoreError (Payload call)

/-- A call that was answered without an error. -/
def succeeded (exchange : Exchange Tables) : Bool :=
  match exchange.answer with
  | .ok _ => true
  | .error _ => false

/-- Send one request. -/
abbrev send (call : Call) : Program Tables (Except StoreError (Payload call)) :=
  Program.ask (I := Tables) call

/-- Send one request, put its name in front of its error, and decode its answer. -/
def request {α : Type} (call : Call) (name : String)
    (decode : Payload call → Except StoreError α) : Program Tables (Except StoreError α) := do
  match ← send call with
  | .error error => return .error (error.at name)
  | .ok payload => return decode payload

/-! ## Performing a request -/

/-- The update of a shard item: it stamps which shard it is beside the `ADD`. -/
def shardClauses (shard : Shard) (count : ℕ) : List Clause :=
  [.set shardIndexAttr (.N shard.val), .add shardCountAttr count]

/-- A request the store refuses as malformed. -/
def validationError : StoreError := ⟨"ValidationException"⟩

/-- `UpdateItem` on a `Positions` row: admit it if it does not exist or was only issued. A
row that exists keeps its digest. -/
def admitRow (requestId : RequestId) (position : ℕ) (digest : SecretDigest) :
    Option PositionItem → Option PositionItem
  | none => some ⟨requestId, position, .admitted, some digest⟩
  | some row =>
      match row.status with
      | .issued => some ⟨row.requestId, position, .admitted, some (row.h.getD digest)⟩
      | .admitted => none

/-- What a request does and answers. -/
def perform : (call : Call) → Db → Except StoreError (Payload call) × Db
  | .getCounters _, db => (.ok db.counters, db)
  | .updateCounters update, db =>
      match updateItem db.counters update.condition update.clauses with
      | .updated item => (.ok (some item), { db with counters := some item })
      | .conditionFailed => (.ok none, db)
      | .rejected => (.error validationError, db)
  | .getShard shard, db => (.ok (db.shards shard), db)
  | .addShard shard count, db =>
      match updateItem (db.shards shard) .always (shardClauses shard count) with
      | .updated item => (.ok item, { db with shards := Function.update db.shards shard item })
      | _ => (.error validationError, db)
  | .getArrivals shard, db => (.ok (db.arrivals shard), db)
  | .addArrivals shard, db =>
      match updateItem (db.arrivals shard) .always (shardClauses shard 1) with
      | .updated item => (.ok (), { db with arrivals := Function.update db.arrivals shard item })
      | _ => (.error validationError, db)
  | .getPrequeue requestId, db => (.ok (db.prequeue requestId), db)
  | .batchGetPrequeue requestIds, db =>
      (.ok (requestIds.filter fun requestId => (db.prequeue requestId).isSome), db)
  | .putPrequeue write, db =>
      match db.prequeue write.requestId with
      | none =>
          (.ok .written,
            { db with prequeue := Function.update db.prequeue write.requestId (some write.row) })
      | some _ => (.ok .duplicate, db)
  | .getPosition _ requestId, db => (.ok (db.positions requestId), db)
  | .putPosition write, db =>
      match db.positions write.requestId with
      | none =>
          (.ok .written,
            { db with positions := Function.update db.positions write.requestId (some write.row) })
      | some _ => (.ok .duplicate, db)
  | .claimAdmission requestId position digest, db =>
      match admitRow requestId position digest (db.positions requestId) with
      | some row =>
          (.ok .first,
            { db with positions := Function.update db.positions requestId (some row) })
      | none => (.ok .repeat, db)

/-! ## What may go wrong -/

/-- How the environment lets one call go. -/
inductive Choice where
  | commit
  | lost (error : StoreError)
  | landed (error : StoreError)
  | stale (age : ℕ)
  | unprocessed (requestIds : List RequestId)

/-- The reads that ask for no consistency. -/
def Call.eventuallyConsistent : Call → Bool
  | .getCounters consistent => !consistent
  | .getArrivals _ => true
  | .getPrequeue _ => true
  | .getPosition consistent _ => !consistent
  | _ => false

/-- A batch read that leaves keys out. -/
def leaveOut (unprocessed : List RequestId) :
    (call : Call) → Db → Option (Except StoreError (Payload call))
  | .batchGetPrequeue requestIds, db =>
      some (.ok (requestIds.filter fun requestId =>
        (db.prequeue requestId).isSome && !unprocessed.contains requestId))
  | _, _ => none

/-- How the tables answer a call. -/
def respond (call : Call) (choice : Choice) (past : List Db) (db : Db) :
    Option (Except StoreError (Payload call) × Db) :=
  match choice with
  | .commit => some (perform call db)
  | .lost error => some (.error error, db)
  | .landed error => some (.error error, (perform call db).2)
  | .stale age =>
      if call.eventuallyConsistent then past[age]?.map fun old => ((perform call old).1, db)
      else none
  | .unprocessed requestIds => (leaveOut requestIds call db).map fun answer => (answer, db)

section Respond

variable {call : Call} {choice : Choice} {past : List Db} {db db' : Db}
  {answer : Except StoreError (Payload call)}

/-- **A call leaves the tables as they were or performs its request.** -/
theorem respond_state (responds : respond call choice past db = some (answer, db')) :
    db' = db ∨ db' = (perform call db).2 := by
  cases choice with
  | commit =>
      obtain ⟨-, rfl⟩ := Prod.mk.inj (Option.some.inj responds)
      exact .inr rfl
  | lost error =>
      obtain ⟨-, rfl⟩ := Prod.mk.inj (Option.some.inj responds)
      exact .inl rfl
  | landed error =>
      obtain ⟨-, rfl⟩ := Prod.mk.inj (Option.some.inj responds)
      exact .inr rfl
  | stale age =>
      simp only [respond] at responds
      split at responds
      · obtain ⟨old, -, same⟩ := Option.map_eq_some_iff.mp responds
        exact .inl (Prod.mk.inj same).2.symm
      · cases responds
  | unprocessed requestIds =>
      obtain ⟨reply, -, same⟩ := Option.map_eq_some_iff.mp responds
      exact .inl (Prod.mk.inj same).2.symm

/-- A batch read is answered with rows that exist. -/
theorem respond_batchGetPrequeue {requestIds : List RequestId} {found : List RequestId}
    (responds : respond (.batchGetPrequeue requestIds) choice past db = some (.ok found, db'))
    {requestId : RequestId} (member : requestId ∈ found) : (db.prequeue requestId).isSome := by
  cases choice with
  | commit =>
      obtain ⟨same, -⟩ := Prod.mk.inj (Option.some.inj responds)
      obtain rfl := Except.ok.inj same
      exact (List.mem_filter.mp member).2
  | lost error | landed error =>
      obtain ⟨same, -⟩ := Prod.mk.inj (Option.some.inj responds)
      cases same
  | stale age => simp [respond, Call.eventuallyConsistent] at responds
  | unprocessed hidden =>
      simp only [respond, leaveOut, Option.map_some, Option.some.injEq, Prod.mk.injEq] at responds
      obtain rfl := Except.ok.inj responds.1
      have kept := (List.mem_filter.mp member).2
      rw [Bool.and_eq_true] at kept
      exact kept.1

/-- An answer that is no error is the performed one, unless the read may be stale or is a
batch read. -/
theorem respond_ok {payload : Payload call} (consistent : call.eventuallyConsistent = false)
    (single : ∀ requestIds, call ≠ .batchGetPrequeue requestIds)
    (responds : respond call choice past db = some (.ok payload, db')) :
    (.ok payload, db') = perform call db := by
  cases choice with
  | commit => exact (Option.some.inj responds).symm
  | lost error | landed error =>
      obtain ⟨same, -⟩ := Prod.mk.inj (Option.some.inj responds)
      cases same
  | stale age => simp [respond, consistent] at responds
  | unprocessed hidden =>
      obtain ⟨reply, left, -⟩ := Option.map_eq_some_iff.mp responds
      cases call with
      | batchGetPrequeue requestIds => exact absurd rfl (single requestIds)
      | _ => cases left

/-- An answer to a read that may be stale is that of the present or of some older state. -/
theorem respond_stale {payload : Payload call} (eventual : call.eventuallyConsistent = true)
    (responds : respond call choice past db = some (.ok payload, db')) :
    ∃ old, (old = db ∨ old ∈ past) ∧ (perform call old).1 = .ok payload := by
  cases choice with
  | commit => exact ⟨db, .inl rfl, by rw [Option.some.inj responds]⟩
  | lost error | landed error =>
      obtain ⟨same, -⟩ := Prod.mk.inj (Option.some.inj responds)
      cases same
  | stale age =>
      simp only [respond, eventual, if_true] at responds
      obtain ⟨old, older, same⟩ := Option.map_eq_some_iff.mp responds
      exact ⟨old, .inr (List.mem_of_getElem? older), (Prod.mk.inj same).1⟩
  | unprocessed hidden =>
      obtain ⟨reply, left, -⟩ := Option.map_eq_some_iff.mp responds
      cases call with
      | batchGetPrequeue requestIds => cases eventual
      | _ => cases left

end Respond

end WaitingRoom
