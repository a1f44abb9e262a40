import WaitingRoom.Concurrency.Lift
import WaitingRoom.Edge.Actions
import WaitingRoom.Lambda.Admin
import WaitingRoom.Lambda.AssignPosition
import WaitingRoom.Lambda.Controller
import WaitingRoom.Lambda.GenerateToken
import WaitingRoom.Lambda.Read
import WaitingRoom.Schedule.StartTime
import WaitingRoom.Store.Growth

/-!
# The waiting room

The Lambdas of one deployment run as jobs of one pool over the tables of one event. A join
batch, a scheduled or an operator's open, an admission, a controller pass, an operator's
action and a `/queue_num` request are jobs, and any number of each runs at once. The
randomness a job draws (a shard, a seed, the order of a batch read) is part of the job, and so are
the answers that an operator's action gets from the edge's store or from the schedule, which are
any.
-/

set_option autoImplicit false

namespace WaitingRoom

open Dynamo Concurrency

/-- What a deployment brings along: its event and signing key, the keyed hash, the digest and
the JSON decoder it links against, and the edge and the scheduler its console is bound to. -/
structure Deployment where
  minting : Minting
  hmac : Hmac
  digestOf : DigestOf
  decode : DecodeJoin
  edge : Edge.Console
  scheduler : Schedule.Scheduler

namespace Deployment

/-- The event of a deployment. -/
abbrev eventId (d : Deployment) : String := d.minting.eventId

/-- The records of a batch that take a position. -/
abbrev accepted (d : Deployment) (records : List BatchRecord) : List (String × JoinMessage) :=
  WaitingRoom.accepted d.decode d.eventId records

end Deployment

/-- The requests of an edge action on the tables; the edge's store answers the others. -/
def Edge.inRoom (store : Oracle Edge.Stores) : Handler Edge.Stores Tables
  | _, .getItem => send (.getCounters false)
  | _, .updateItem update => send (.updateCounters update.counters)
  | history, .describe => return store history .describe
  | history, .getKey => return store history .getKey
  | history, .putKey etag value => return store history (.putKey etag value)

/-- The requests of a start-time action on the tables; the schedule answers the others. -/
def Schedule.inRoom (schedule : Oracle Schedule.StartStores) : Handler Schedule.StartStores Tables
  | _, .getItem => send (.getCounters false)
  | _, .setStartsAt startsAt audit => send (.updateCounters (.setStartsAt startsAt audit))
  | history, .getSchedule name => return schedule history (.getSchedule name)
  | history, .updateSchedule input => return schedule history (.updateSchedule input)

/-- One invocation. -/
inductive Job where
  | joinBatch (shard : Shard) (records : List BatchRecord)
  | openEvent (seed : Seed) (order : ShardOrder)
  | generateToken (requestId : RequestId) (secret : PossessionSecret) (viewerIp : Option String)
      (now : ℕ) (draw : Option Shard)
  | controllerPass (now : ℕ) (order : ShardOrder)
  | applyPhase (target actor : String) (now : ArrivalTime)
  | applyForceMaintenance (actor : String) (now : ArrivalTime)
  | applyRate (rate actor : String) (now : ArrivalTime)
  | applyMessage (message actor : String) (now : ArrivalTime)
  | applyPause (actor : String) (now : ArrivalTime)
  | applyResume (actor : String) (now : ArrivalTime)
  | applyOpenNow (seed : Seed) (order : ShardOrder) (reply : InvokeReply) (actor : String)
      (now : ArrivalTime)
  | applyEdge (action : Edge.EdgeJob) (store : Oracle Edge.Stores)
  | applyStartTime (action : Schedule.StartJob) (schedule : Oracle Schedule.StartStores)
  | queueNum (requestId : RequestId)

/-- What an invocation returns. -/
inductive Outcome where
  | batch (outcome : BatchOutcome)
  | opened (result : Except StoreError OpenResult)
  | admission (result : Except StoreError Admission)
  | pass (result : Except StoreError PassOutcome)
  | phase (result : Except ApplyError Phase)
  | rate (result : Except ApplyError ℕ)
  | applied (result : Except ApplyError Unit)
  | openedNow (result : Except ApplyError OpenNow)
  | queueNum (result : Except StoreError QueueNumReply)

/-- The program of a job. -/
def Job.program (d : Deployment) : Job → Program Tables Outcome
  | .joinBatch shard records => do
      return .batch (← processBatch d.decode d.eventId shard records)
  | .openEvent seed order => do return .opened (← WaitingRoom.openEvent seed order)
  | .generateToken requestId secret viewerIp now draw => do
      return .admission
        (← WaitingRoom.admitVisitor d.hmac d.digestOf d.minting requestId secret viewerIp now draw)
  | .controllerPass now order => do return .pass (← runPass d.eventId now order)
  | .applyPhase target actor now => do return .phase (← WaitingRoom.applyPhase target actor now)
  | .applyForceMaintenance actor now => do
      return .applied (← WaitingRoom.applyForceMaintenance actor now)
  | .applyRate rate actor now => do return .rate (← WaitingRoom.applyRate rate actor now)
  | .applyMessage message actor now => do
      return .applied (← WaitingRoom.applyMessage message actor now)
  | .applyPause actor now => do return .applied (← WaitingRoom.applyPause actor now)
  | .applyResume actor now => do return .applied (← WaitingRoom.applyResume actor now)
  | .applyOpenNow seed order reply actor now => do
      return .openedNow (← WaitingRoom.applyOpenNow seed order reply actor now)
  | .applyEdge action store => do
      return .applied (← (action.program d.edge).interpret (Edge.inRoom store) [])
  | .applyStartTime action schedule => do
      return .applied (← (Schedule.applyStartTime d.scheduler action.input action.timezone
        action.actor action.now).interpret (Schedule.inRoom schedule) [])
  | .queueNum requestId => do return .queueNum (← handleQueueNum d.hmac d.eventId requestId)

/-- The waiting room of a deployment. -/
def room (d : Deployment) : System Tables Db Job Outcome Choice where
  program := Job.program d
  respond := respond

/-- A configuration of the room. -/
abbrev Room := Config Tables Db Job Outcome

/-- A policy on the room's steps. -/
abbrev RoomPolicy := Policy Tables Db Job Choice

/-- A logged call of the room. -/
abbrev RoomEntry := Entry Tables Db Job

/-! ## Where an event starts -/

/-- The tables of an event that was set up and has not opened: the `Counters` item as it is
seeded, in a phase that is not active, and no row and no shard. -/
structure Seeded (db : Db) : Prop where
  exists_counters : db.counters ≠ none
  unopened : ∀ name ∈ CountersUpdate.openAttrs, db.attr name = none
  phase : db.attr "phase" ≠ some (.S Phase.active.asWireStr)
  queue : db.attr "queue_counter" = some (.N 0)
  serving : db.attr "serving_counter" = some (.N 0)
  shards : ∀ shard, db.shards shard = none
  arrivals : ∀ shard, db.arrivals shard = none
  prequeue : ∀ requestId, db.prequeue requestId = none
  positions : ∀ requestId, db.positions requestId = none

/-- The item the deployment's infrastructure seeds: in the pre-queue when a start is
scheduled, idle otherwise. -/
def seededItem (eventId : String) (scheduled : Bool) (admissionRate : ℕ) : Item :=
  (((((Item.empty.put "event_id" (.S ("EVT#" ++ eventId))).put "phase"
    (.S (if scheduled then Phase.preQueue else Phase.idle).asWireStr)).put "admission_control"
    (.S "open")).put "queue_counter" (.N 0)).put "serving_counter" (.N 0)).put "target_rate"
    (.N admissionRate)

/-- The tables of an event right after its infrastructure was set up. -/
def Db.seeded (eventId : String) (scheduled : Bool) (admissionRate : ℕ) : Db where
  counters := some (seededItem eventId scheduled admissionRate)
  shards _ := none
  arrivals _ := none
  prequeue _ := none
  positions _ := none

theorem Db.seeded_seeded (eventId : String) (scheduled : Bool) (admissionRate : ℕ) :
    Seeded (Db.seeded eventId scheduled admissionRate) where
  exists_counters := nofun
  unopened := by
    intro name member
    simp only [CountersUpdate.openAttrs, List.mem_cons, List.not_mem_nil, or_false] at member
    rcases member with rfl | rfl | rfl <;> rfl
  phase := by cases scheduled <;> simp [Db.attr, Db.seeded, seededItem, Item.put, Phase.asWireStr]
  queue := rfl
  serving := rfl
  shards _ := rfl
  arrivals _ := rfl
  prequeue _ := rfl
  positions _ := rfl

/-- A run of the room from a seeded event. -/
abbrev RoomRun (d : Deployment) (policy : RoomPolicy) (origin : Db) (c : Room) : Prop :=
  (room d).Reaches policy (.initial origin) c

/-! ## A sample deployment -/

namespace Sample

/-- Two visitors, and what each keeps secret. -/
def alice : RequestId := "018f3a2b-7c9d-7e1f-abcd-0123456789ab"

def bob : RequestId := "018f3a2b-7c9d-7e1f-abcd-0123456789ac"

def aliceDigest : SecretDigest := ⟨"DwBzhbb51LfusnSGBa_hqYSgo7-j8BTQnip4TOnlzRo", by decide⟩

def bobDigest : SecretDigest := ⟨"EwBzhbb51LfusnSGBa_hqYSgo7-j8BTQnip4TOnlzRo", by decide⟩

def aliceSecret : PossessionSecret := ⟨"AAAAAAAAAAAAAAAAAAAAAAAAAAAAAAAAAAAAAAAAAAA", by decide⟩

def bobSecret : PossessionSecret := ⟨"BAAAAAAAAAAAAAAAAAAAAAAAAAAAAAAAAAAAAAAAAAA", by decide⟩

/-- The join bodies of the sample: each visitor's own, and one with the other's id. -/
def decode : DecodeJoin := fun body =>
  if body = "alice" then some ⟨alice, "demo", aliceDigest.text⟩
  else if body = "bob" then some ⟨bob, "demo", bobDigest.text⟩
  else if body = "bob as alice" then some ⟨alice, "demo", bobDigest.text⟩
  else none

/-- A deployment under a constant hash. -/
def deployment : Deployment where
  minting := ⟨⟨fun _ => some "session", fun _ => none⟩, "demo", 3600⟩
  hmac _ _ := Vector.replicate 32 0
  digestOf secret := if secret = bobSecret then bobDigest else aliceDigest
  decode := decode
  edge := ⟨⟨fun _ => "", fun _ => some (Edge.GateConfig.toJson ⟨1, 0, 0, [], false⟩)⟩, fun _ => ""⟩
  scheduler := ⟨⟨fun _ => false, fun _ => none, fun _ _ => none⟩, "open"⟩

/-- The tables of its event, scheduled and just set up. -/
def origin : Db := .seeded "demo" true 5

theorem origin_seeded : Seeded origin := Db.seeded_seeded "demo" true 5

def seed : Seed := ⟨List.replicate 32 0, rfl⟩

def shard : Shard := ⟨0, by decide⟩

/-- A thread's next calls, none of which goes wrong. -/
def commits (thread calls : ℕ) : List (Action Job Choice) :=
  List.replicate calls (.advance thread .commit)

end Sample

end WaitingRoom
