import WaitingRoom.Concurrency.Lift
import WaitingRoom.Edge.WriteOrder
import WaitingRoom.Schedule.StartTime
import WaitingRoom.System

/-!
# The operators

The admin console's actions on the tables, on the edge and on the schedule are jobs of one pool over
all three, and share the `Counters` item. What an action writes to the item beside its own fields is
one stamp, with the arrival time of its request (`operators_own`).
-/

set_option autoImplicit false

namespace WaitingRoom

open Dynamo Concurrency

/-! ## Stamps -/

/-- The stamp a request leaves on the item. -/
def CountersUpdate.audit : CountersUpdate → Option Audit
  | .setPhase _ _ audit | .setRate _ _ audit | .setMessage _ audit | .setStoredControl _ _ audit
  | .stampAction audit | .forceMaintenance _ audit | .setFailOpenUntil _ audit
  | .rulesAudit _ _ audit | .setStartsAt _ audit => some audit
  | .claimBlock _ | .writeOpen _ | .writeRelease _ _ | .setFailOpenUntilFallback _ => none

/-- How a stamped request is guarded against another one's stamp. -/
inductive StampGuard where
  | debounced
  | newest
  | phase
  deriving DecidableEq

/-- One conditional update of the `Counters` item. -/
structure ItemUpdate where
  condition : Condition
  clauses : List Clause
  audit : Option Audit
  guarded : StampGuard

/-- The guard of a request on the tables. -/
def CountersUpdate.guarded : CountersUpdate → StampGuard
  | .setRate _ _ _ | .setMessage _ _ | .setStoredControl _ _ _ | .setStartsAt _ _ => .debounced
  | .setPhase _ _ _ | .forceMaintenance _ _ => .phase
  | .claimBlock _ | .writeOpen _ | .writeRelease _ _ | .stampAction _ | .setFailOpenUntil _ _
  | .setFailOpenUntilFallback _ | .rulesAudit _ _ _ => .newest

/-! ## The stores -/

/-- A request of an operator's action. -/
inductive OperatorCall where
  | tables (call : Call)
  | edge (call : Edge.EdgeCall)
  | start (call : Schedule.StartCall)

/-- What a request is answered with when its store does not fail. -/
@[reducible] def OperatorPayload : OperatorCall → Type
  | .tables call => Payload call
  | .edge call => Edge.EdgePayload call
  | .start call => Schedule.StartPayload call

/-- The requests of the operators and their answers. -/
abbrev OperatorStores : Interface where
  Call := OperatorCall
  Answer call := Except StoreError (OperatorPayload call)

/-- The request on the item that a request makes. -/
def OperatorCall.countersUpdate : OperatorCall → Option CountersUpdate
  | .tables (.updateCounters update) => some update
  | .edge (.updateItem update) => some update.counters
  | .start (.setStartsAt startsAt audit) => some (.setStartsAt startsAt audit)
  | _ => none

/-- The update of the item that a request makes. -/
def OperatorCall.itemUpdate (call : OperatorCall) : Option ItemUpdate :=
  call.countersUpdate.map fun update =>
    ⟨update.condition, update.clauses, update.audit, update.guarded⟩

/-- The tables, the gate's document and the schedule. -/
structure OperatorState where
  db : Db
  etag : String
  value : String
  schedule : Schedule.GetScheduleOutput
  fired : Bool

namespace OperatorState

/-- The stores of an edge action. -/
def edge (state : OperatorState) : Edge.EdgeState := ⟨state.etag, state.value, state.db.counters⟩

/-- The stores of a start-time action. -/
def start (state : OperatorState) : Schedule.StartState :=
  ⟨state.db.counters, state.schedule, state.fired⟩

/-- The item has other attributes. -/
def withCounters (state : OperatorState) (counters : Option Item) : OperatorState :=
  { state with db := { state.db with counters := counters } }

end OperatorState

/-- What the environment may do with a request. -/
inductive OperatorChoice where
  | tables (choice : Choice)
  | edge (choice : Edge.EdgeChoice)
  | start (choice : Schedule.StartChoice)

/-- How the stores answer a request. -/
def respondOperator (call : OperatorCall) (choice : OperatorChoice) (past : List OperatorState)
    (state : OperatorState) : Option (Except StoreError (OperatorPayload call) × OperatorState) :=
  match call, choice with
  | .tables call, .tables choice =>
      (respond call choice (past.map OperatorState.db) state.db).map fun reply =>
        (reply.1, { state with db := reply.2 })
  | .edge call, .edge choice =>
      (Edge.respondEdge call choice (past.map OperatorState.edge) state.edge).map fun reply =>
        (reply.1, { state.withCounters reply.2.counters with
          etag := reply.2.etag, value := reply.2.value })
  | .start call, .start choice =>
      (Schedule.respondStart call choice (past.map OperatorState.start) state.start).map fun reply =>
        (reply.1, { state.withCounters reply.2.counters with
          schedule := reply.2.schedule, fired := reply.2.fired })
  | _, _ => none

/-! ## The actions -/

/-- When an operator's request arrived; other jobs of the room are no operator's. -/
def Job.arrival : Job → Option ArrivalTime
  | .applyPhase _ _ now | .applyForceMaintenance _ now | .applyRate _ _ now | .applyMessage _ _ now
  | .applyPause _ now | .applyResume _ now | .applyOpenNow _ _ _ _ now => some now
  | .joinBatch _ _ | .openEvent _ _ | .generateToken _ _ _ _ _ | .controllerPass _ _ | .queueNum _ => none
  -- these two act on more than the tables
  | .applyEdge _ _ | .applyStartTime _ _ => none

/-- When the request of an edge action arrived. -/
def Edge.EdgeJob.arrival : Edge.EdgeJob → ArrivalTime
  | .failOpen _ _ now | .recover _ now | .ipBinding _ _ now | .setRules _ _ now => now

/-- An operator's job of the room. -/
abbrev RoomAction := { job : Job // job.arrival.isSome }

/-- One operator action. -/
inductive OperatorJob where
  | room (action : RoomAction)
  | edge (job : Edge.EdgeJob)
  | start (job : Schedule.StartJob)

/-- When the request of an action arrived. -/
def OperatorJob.arrival : OperatorJob → ArrivalTime
  | .room action => action.1.arrival.get action.2
  | .edge job => job.arrival
  | .start job => job.now

/-- What an action returns. -/
inductive OperatorOutcome where
  | room (outcome : Outcome)
  | edge (result : Except ApplyError Unit)
  | start (result : Except ApplyError Unit)

/-- The requests on the tables. -/
def inTables : Embedding Tables OperatorStores := ⟨.tables, fun _ answer => answer⟩

/-- The requests of an edge action. -/
def inEdge : Embedding Edge.Stores OperatorStores := ⟨.edge, fun _ answer => answer⟩

/-- The requests of a start-time action. -/
def inSchedule : Embedding Schedule.StartStores OperatorStores := ⟨.start, fun _ answer => answer⟩

/-- The program of an action. -/
def OperatorJob.program (d : Deployment) :
    OperatorJob → Program OperatorStores OperatorOutcome
  | .room action => do
      return .room (← (action.1.program d).lift inTables)
  | .edge job => do return .edge (← (job.program d.edge).lift inEdge)
  | .start job => do
      return .start (← (Schedule.applyStartTime d.scheduler job.input job.timezone job.actor
        job.now).lift inSchedule)

/-- The actions of concurrent operators. -/
def operators (d : Deployment) :
    System OperatorStores OperatorState OperatorJob OperatorOutcome OperatorChoice where
  program := OperatorJob.program d
  respond := respondOperator

/-- A configuration of the operators' actions. -/
abbrev OperatorRoom := Config OperatorStores OperatorState OperatorJob OperatorOutcome

/-- A logged request. -/
abbrev OperatorEntry := Entry OperatorStores OperatorState OperatorJob

/-- A run of the actions. -/
abbrev OperatorRun (d : Deployment) (origin : OperatorState) (c : OperatorRoom) : Prop :=
  (operators d).Reaches .free (.initial origin) c

/-! ## Each action stamps its own arrival -/

/-- A request's stamp has that arrival time. -/
def OperatorCall.StampsAt (now : ArrivalTime) (call : OperatorCall) : Prop :=
  ∀ update, call.itemUpdate = some update → ∀ audit, update.audit = some audit → audit.now = now

section Stamps

variable {now : ArrivalTime}

/-- The stamp of a request on the tables. -/
abbrev TablesStamp (now : ArrivalTime) (call : Call) : Prop := OperatorCall.StampsAt now (.tables call)

theorem stampsAt_updateCounters {update : CountersUpdate}
    (own : ∀ audit, update.audit = some audit → audit.now = now) :
    TablesStamp now (.updateCounters update) := by
  intro found same audit stamped
  obtain rfl := Option.some.inj same
  exact own audit stamped

theorem stampsAt_read {call : Call} (reads : (OperatorCall.tables call).itemUpdate = none) :
    TablesStamp now call := by
  intro update found
  rw [reads] at found
  cases found

theorem request_issues {α : Type} {call : Call} {name : String}
    {decode : Payload call → Except StoreError α} (own : TablesStamp now call) :
    (request call name decode).Issues (TablesStamp now) := by
  refine ⟨own, fun answer => ?_⟩
  cases answer <;> exact trivial

theorem sendGuarded_issues {β : Type} {update : CountersUpdate} {what : String}
    {next : Except AdminStoreError Unit → β}
    (own : ∀ audit, update.audit = some audit → audit.now = now) :
    (do
      let written ← sendGuarded update what
      return next written : Program Tables β).Issues (TablesStamp now) := by
  have sent : (sendGuarded update what).Issues (TablesStamp now) := by
    refine Program.Issues.bind (request_issues (stampsAt_updateCounters own)) fun result => ?_
    rcases result with error | (_ | item) <;> exact trivial
  exact sent.bind fun _ => trivial

/-- The load, then what an action makes of the state it loaded. -/
theorem loadControl_issues {β : Type} {next : ControlState → Program Tables (Except ApplyError β)}
    (body : ∀ state, (next state).Issues (TablesStamp now)) :
    (loadControl >>= fun
      | .error error => pure (.error (.store error))
      | .ok none => pure (.error (.action .notFound))
      | .ok (some state) => next state).Issues (TablesStamp now) := by
  have load : loadControl.Issues (TablesStamp now) := by
    refine Program.Issues.bind (request_issues (stampsAt_read rfl)) fun result => ?_
    cases result <;> exact trivial
  refine load.bind fun result => ?_
  rcases result with error | (_ | state)
  · exact trivial
  · exact trivial
  · exact body state

/-- An action behind the debounce. -/
theorem debounced_issues {β : Type} {state : ControlState} {arrived : ArrivalTime}
    {next : Program Tables (Except ApplyError β)} (body : next.Issues (TablesStamp now)) :
    (match debounceCheck state arrived with
      | .error error => pure (.error (.action error))
      | .ok () => next : Program Tables (Except ApplyError β)).Issues (TablesStamp now) := by
  cases debounceCheck state arrived with
  | error error => exact trivial
  | ok => exact body

theorem applyPhase_issues (target actor : String) :
    (applyPhase target actor now).Issues (TablesStamp now) := by
  unfold applyPhase
  cases Phase.fromStr target with
  | none => exact trivial
  | some target =>
      refine loadControl_issues fun state => ?_
      cases checkPhase state target with
      | error error => exact trivial
      | ok => exact sendGuarded_issues (by rintro audit ⟨⟩; rfl)

theorem applyForceMaintenance_issues (actor : String) :
    (applyForceMaintenance actor now).Issues (TablesStamp now) := by
  refine loadControl_issues fun state => ?_
  exact sendGuarded_issues (by rintro audit ⟨⟩; rfl)

theorem applyRate_issues (rate actor : String) :
    (applyRate rate actor now).Issues (TablesStamp now) := by
  unfold applyRate
  cases parseRate rate with
  | error error => exact trivial
  | ok rate =>
      refine loadControl_issues fun state => debounced_issues ?_
      exact sendGuarded_issues (by rintro audit ⟨⟩; rfl)

theorem applyMessage_issues (message actor : String) :
    (applyMessage message actor now).Issues (TablesStamp now) := by
  refine loadControl_issues fun state => debounced_issues ?_
  exact sendGuarded_issues (by rintro audit ⟨⟩; rfl)

theorem applyControl_issues (transition : StoredControl → Except IllegalControl StoredControl)
    (action : AdminAction) (actor : String) :
    (applyControl transition action actor now).Issues (TablesStamp now) := by
  refine loadControl_issues fun state => debounced_issues ?_
  cases transition state.storedControl with
  | error error => exact trivial
  | ok target => exact sendGuarded_issues (by rintro audit ⟨⟩; rfl)

/-- The open stamps nothing. -/
theorem openEvent_issues (seed : Seed) (order : ShardOrder) :
    (openEvent seed order).Issues (TablesStamp now) := by
  have counts : (readShardCounts order).Issues (TablesStamp now) := by
    refine Program.Issues.bind (Program.Issues.tryEach
      (fun shard items => request_issues (stampsAt_read rfl)) order.shards []) fun result => ?_
    cases result <;> exact trivial
  refine counts.bind fun result => ?_
  cases result with
  | error error => exact trivial
  | ok counts =>
      cases computed : openValues counts seed with
      | error error =>
          simp only [computed]
          exact trivial
      | ok values =>
          simp only [computed]
          have unstamped : TablesStamp now (.updateCounters (.writeOpen values)) :=
            stampsAt_updateCounters nofun
          refine Program.Issues.bind (request_issues unstamped) fun result => ?_
          rcases result with error | (_ | _)
          · exact trivial
          · refine Program.Issues.bind (request_issues (stampsAt_read rfl)) fun result => ?_
            rcases result with error | (_ | _) <;> exact trivial
          · exact trivial

theorem applyOpenNow_issues (seed : Seed) (order : ShardOrder) (reply : InvokeReply) (actor : String) :
    (applyOpenNow seed order reply actor now).Issues (TablesStamp now) := by
  refine loadControl_issues fun state => ?_
  by_cases phase : state.phase ≠ .preQueue
  · rw [if_pos phase]
    exact trivial
  rw [if_neg phase]
  have opens : (openNow seed order reply).Issues (TablesStamp now) := by
    refine (openEvent_issues seed order).bind fun result => ?_
    cases reply <;> rcases result with error | (values | _) <;> exact trivial
  refine debounced_issues (opens.bind fun result => ?_)
  rcases result with message | found
  · exact trivial
  · cases found with
    | opened =>
        refine sendGuarded_issues ?_
        rintro audit ⟨⟩
        rfl
    | alreadyOpen => exact trivial

/-- **An operator's job of the room stamps its own arrival.** -/
theorem room_issues (deployment : Deployment) {job : Job} (arrives : job.arrival = some now) :
    (job.program deployment).Issues (TablesStamp now) := by
  cases job with
  | joinBatch _ _ | openEvent _ _ | generateToken _ _ _ _ _ | controllerPass _ _ | queueNum _
  | applyEdge _ _ | applyStartTime _ _ => cases arrives
  | applyPhase target actor arrived =>
      obtain rfl := Option.some.inj arrives
      exact (applyPhase_issues target actor).bind fun _ => trivial
  | applyForceMaintenance actor arrived =>
      obtain rfl := Option.some.inj arrives
      exact (applyForceMaintenance_issues actor).bind fun _ => trivial
  | applyRate rate actor arrived =>
      obtain rfl := Option.some.inj arrives
      exact (applyRate_issues rate actor).bind fun _ => trivial
  | applyMessage message actor arrived =>
      obtain rfl := Option.some.inj arrives
      exact (applyMessage_issues message actor).bind fun _ => trivial
  | applyPause actor arrived =>
      obtain rfl := Option.some.inj arrives
      exact (applyControl_issues StoredControl.pause .pause actor).bind fun _ => trivial
  | applyResume actor arrived =>
      obtain rfl := Option.some.inj arrives
      exact (applyControl_issues StoredControl.resume .resume actor).bind fun _ => trivial
  | applyOpenNow seed order reply actor arrived =>
      obtain rfl := Option.some.inj arrives
      exact (applyOpenNow_issues seed order reply actor).bind fun _ => trivial

/-- The stamp of a request of an edge action. -/
abbrev EdgeStamp (now : ArrivalTime) (call : Edge.EdgeCall) : Prop :=
  OperatorCall.StampsAt now (.edge call)

theorem edgeStamp_read {call : Edge.EdgeCall} (reads : (OperatorCall.edge call).itemUpdate = none) :
    EdgeStamp now call := by
  intro update found
  rw [reads] at found
  cases found

theorem edgeStamp_update {update : Edge.EventUpdate}
    (own : ∀ audit, update.counters.audit = some audit → audit.now = now) :
    EdgeStamp now (.updateItem update) := by
  intro found same audit stamped
  obtain rfl := Option.some.inj same
  exact own audit stamped

/-- A phase on the edge's store stamps nothing. -/
theorem edgeStamp_atEdge {call : Edge.EdgeCall} (edge : call.AtEdge) : EdgeStamp now call := by
  cases call with
  | describe | getKey | putKey _ _ => exact edgeStamp_read rfl
  | getItem | updateItem _ => cases edge

theorem readConfig_issues (text : Edge.JsonText) :
    (Edge.readConfig text).Issues (EdgeStamp now) :=
  Edge.readConfig_atEdge.mono fun _ edge => edgeStamp_atEdge edge

theorem edgeReadModifyWrite_issues (text : Edge.JsonText) (mutate : Edge.GateConfig → Edge.GateConfig) :
    (Edge.edgeReadModifyWrite text mutate).Issues (EdgeStamp now) :=
  (Edge.edgeReadModifyWrite_atEdge mutate).mono fun _ edge => edgeStamp_atEdge edge

theorem sendGuardedEdge_issues {update : Edge.EventUpdate} {what : String}
    (own : ∀ audit, update.counters.audit = some audit → audit.now = now) :
    (Edge.sendGuardedEdge update what).Issues (EdgeStamp now) := by
  refine ⟨edgeStamp_update own, fun answer => ?_⟩
  rcases answer with error | (_ | item) <;> exact trivial

/-- The fallback of a deadline write leaves no stamp. -/
theorem setFailOpenUntil_issues (deadline : ℕ) {audit : Audit} (own : audit.now = now) :
    (Edge.setFailOpenUntil deadline audit).Issues (EdgeStamp now) := by
  refine Program.Issues.bind (sendGuardedEdge_issues ?_) fun result => ?_
  · rintro stamped ⟨⟩
    exact own
  · rcases result with (_ | message) | done
    · refine ⟨edgeStamp_update nofun, fun answer => ?_⟩
      cases answer <;> exact trivial
    · exact trivial
    · exact trivial

/-- The load, then what an action does to an event that is there. -/
theorem loadEvent_issues {next : Item → Program Edge.Stores (Except ApplyError Unit)}
    (body : ∀ item, (next item).Issues (EdgeStamp now)) :
    (Edge.loadEvent >>= fun
      | .error error => pure (.error (.store error))
      | .ok none => pure (.error (.action .notFound))
      | .ok (some item) => next item).Issues (EdgeStamp now) := by
  refine ⟨edgeStamp_read rfl, fun answer => ?_⟩
  rcases answer with error | (_ | item)
  · exact trivial
  · exact trivial
  · exact body item

/-- **An edge action stamps its own arrival.** -/
theorem edge_issues (console : Edge.Console) (job : Edge.EdgeJob) :
    (job.program console).Issues (EdgeStamp job.arrival) := by
  cases job with
  | failOpen minutes actor now =>
      rw [Edge.EdgeJob.program, Edge.applyFailOpen]
      cases Edge.parseMinutes minutes with
      | none => exact trivial
      | some duration =>
          refine loadEvent_issues fun item => ?_
          refine Program.Issues.bind (edgeReadModifyWrite_issues _ _) fun result => ?_
          cases result with
          | error error => exact trivial
          | ok config =>
              refine Program.Issues.bind (setFailOpenUntil_issues _ rfl) fun result => ?_
              cases result <;> exact trivial
  | recover actor now =>
      refine loadEvent_issues fun item => ?_
      refine Program.Issues.bind (setFailOpenUntil_issues _ rfl) fun result => ?_
      cases result with
      | error error => exact trivial
      | ok done =>
          refine Program.Issues.bind (edgeReadModifyWrite_issues _ _) fun result => ?_
          cases result <;> exact trivial
  | ipBinding on actor now =>
      refine loadEvent_issues fun item => ?_
      refine Program.Issues.bind (edgeReadModifyWrite_issues _ _) fun result => ?_
      cases result with
      | error error => exact trivial
      | ok config =>
          refine Program.Issues.bind (sendGuardedEdge_issues ?_) fun _ => trivial
          rintro audit ⟨⟩
          rfl
  | setRules rules actor now =>
      refine loadEvent_issues fun item => ?_
      refine Program.Issues.bind (readConfig_issues _) fun result => ?_
      rcases result with error | ⟨probe, etag⟩
      · exact trivial
      cases checked : Edge.checkRuleset console.text probe rules with
      | error error =>
          simp only [checked]
          exact trivial
      | ok done =>
          simp only [checked]
          refine Program.Issues.bind (edgeReadModifyWrite_issues _ _) fun result => ?_
          cases result with
          | error error => exact trivial
          | ok config =>
              refine Program.Issues.bind (sendGuardedEdge_issues ?_) fun _ => trivial
              rintro audit ⟨⟩
              rfl

/-- The stamp of a request of a start-time action. -/
abbrev StartStamp (now : ArrivalTime) (call : Schedule.StartCall) : Prop :=
  OperatorCall.StampsAt now (.start call)

theorem setStartTime_issues (name : String) (start : Option (String × String)) :
    (Schedule.setStartTime name start).Issues (StartStamp now) := by
  refine ⟨nofun, fun answer => ?_⟩
  cases answer with
  | error error => exact trivial
  | ok current =>
      dsimp only [Program.bind]
      cases Schedule.rewrite name current start with
      | error error => exact trivial
      | ok input =>
          refine ⟨nofun, fun answer => ?_⟩
          cases answer <;> exact trivial

theorem setStartsAt_issues (startsAt : Option (ℕ × String)) {audit : Audit} (own : audit.now = now) :
    (Schedule.setStartsAt startsAt audit).Issues (StartStamp now) := by
  refine ⟨?_, fun answer => ?_⟩
  · rintro update ⟨⟩ stamped ⟨⟩
    exact own
  · rcases answer with error | (_ | item) <;> exact trivial

/-- **A start-time action stamps its own arrival.** -/
theorem start_issues (scheduler : Schedule.Scheduler) (input timezone actor : String) :
    (Schedule.applyStartTime scheduler input timezone actor now).Issues (StartStamp now) := by
  refine ⟨nofun, fun answer => ?_⟩
  rcases answer with error | (_ | item)
  · exact trivial
  · exact trivial
  change Program.Issues _ (match debounceCheck (controlStateOf item) now with
    | .error error => _
    | .ok () => _)
  cases debounceCheck (controlStateOf item) now with
  | error error => exact trivial
  | ok done =>
      by_cases clears : (Schedule.trim input).isEmpty
      · simp only [clears, if_true]
        refine Program.Issues.bind (setStartsAt_issues none rfl) fun result => ?_
        cases result with
        | error error => exact trivial
        | ok done =>
            refine Program.Issues.bind (setStartTime_issues _ none) fun result => ?_
            cases result <;> exact trivial
      · simp only [clears]
        cases Schedule.parseStartTime scheduler.zones input timezone now.epochSeconds with
        | error error => exact trivial
        | ok start =>
            refine Program.Issues.bind (setStartTime_issues _ _) fun result => ?_
            cases result with
            | error error => exact trivial
            | ok done =>
                refine Program.Issues.bind (setStartsAt_issues _ rfl) fun result => ?_
                cases result <;> exact trivial

end Stamps

/-- **Every action stamps its own arrival, whatever the stores answer.** -/
theorem operators_own (d : Deployment) (job : OperatorJob) :
    ((operators d).program job).Issues (OperatorCall.StampsAt job.arrival) := by
  cases job with
  | room action =>
      have arrives : action.1.arrival = some (OperatorJob.room action).arrival :=
        (Option.some_get action.2).symm
      refine Program.Issues.bind (Program.Issues.lift ?_) fun _ => trivial
      exact room_issues d arrives
  | edge job =>
      refine Program.Issues.bind (Program.Issues.lift ?_) fun _ => trivial
      exact edge_issues d.edge job
  | start job =>
      refine Program.Issues.bind (Program.Issues.lift ?_) fun _ => trivial
      exact start_issues d.scheduler job.input job.timezone job.actor

end WaitingRoom
