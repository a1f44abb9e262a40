import WaitingRoom.Store.Tables

/-!
# Answering `/queue_num`

A visitor's position is read off the `PreQueue` row first. A row the open did not count,
and a visitor with no such row, are answered from the `Positions` table. All three reads may
be stale: the `Counters` item comes from a short-lived cache, and no read asks for
consistency.
-/

set_option autoImplicit false

namespace WaitingRoom

open Dynamo Concurrency

/-- What `/queue_num` answers. -/
inductive QueueNumReply where
  | position (position : ℕ) (liveJoin : Bool)
  | eventNotFound
  | notRegistered
  | notOpen
  | corrupt
  deriving DecidableEq, Repr

/-- The status a reply is sent with. -/
def QueueNumReply.status : QueueNumReply → ℕ
  | .position _ _ => 200
  | .eventNotFound => 404
  | .notRegistered => 404
  | .notOpen => 409
  | .corrupt => 500

/-- The error text of a reply. -/
def QueueNumReply.error : QueueNumReply → Option String
  | .position _ _ => none
  | .eventNotFound => some "event not found"
  | .notRegistered => some "not registered"
  | .notOpen => some "event not yet open"
  | .corrupt => some "corrupt registration"

/-- What a pre-queue row resolves to on the read path. -/
inductive ResolvedQueueNum where
  | preQueue (position : ℕ)
  | straggler
  deriving DecidableEq, Repr

/-- Resolve a pre-queue registrant's queue position. -/
def queueNum (hmac : Hmac) (counters : Counters) (row : PreQueueItem) :
    Except ResolveError ResolvedQueueNum :=
  match counters.resolvePrequeue hmac row with
  | .ok (.preQueue position) => .ok (.preQueue position)
  | .ok .liveJoin => .ok .straggler
  | .error .notOpen => .error .notOpen
  | .error .badShard => .error .badShard

theorem queueNum_eq_preQueue {hmac : Hmac} {counters : Counters} {row : PreQueueItem} {position : ℕ} :
    queueNum hmac counters row = .ok (.preQueue position) ↔
      counters.resolvePrequeue hmac row = .ok (.preQueue position) := by
  rw [queueNum]
  rcases counters.resolvePrequeue hmac row with (_ | _) | (_ | _) <;> simp

theorem queueNum_eq_straggler {hmac : Hmac} {counters : Counters} {row : PreQueueItem} :
    queueNum hmac counters row = .ok .straggler ↔
      counters.resolvePrequeue hmac row = .ok .liveJoin := by
  rw [queueNum]
  rcases counters.resolvePrequeue hmac row with (_ | _) | (_ | _) <;> simp

/-- The pure decision of `respond_from_position`. -/
def positionResponse : Option ℕ → QueueNumReply
  | some position => .position position true
  | none => .notRegistered

/-- Answer from the `Positions` table alone. -/
def respondFromPosition (requestId : RequestId) :
    Program Tables (Except StoreError QueueNumReply) := do
  match ← send (.getPosition false requestId) with
  | .error error => return .error error
  | .ok item => return .ok (positionResponse (item.map PositionItem.queuePosition))

/-- `GET /queue_num`. -/
def handleQueueNum (hmac : Hmac) (eventId : String) (requestId : RequestId) :
    Program Tables (Except StoreError QueueNumReply) := do
  match ← send (.getCounters false) with
  | .error error => return .error error
  | .ok none => return .ok .eventNotFound
  | .ok (some item) =>
      match ← send (.getPrequeue requestId) with
      | .error error => return .error error
      | .ok none => respondFromPosition requestId
      | .ok (some row) =>
          match queueNum hmac (Counters.fromItem eventId item) row with
          | .ok (.preQueue position) => return .ok (.position position false)
          | .ok .straggler => respondFromPosition requestId
          | .error .notOpen => return .ok .notOpen
          | .error .badShard => return .ok .corrupt

end WaitingRoom
