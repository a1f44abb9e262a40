import WaitingRoom.Protocol.Batch
import WaitingRoom.Protocol.Open
import WaitingRoom.Protocol.Pass
import WaitingRoom.Protocol.Visitor

/-!
# Every job conforms

An operator moves the phase only along a transition that was checked. With the batches, the
opens, the passes and the visitors' requests, every job of the room obeys the protocol, and what
it returns is its report (`program_obeys`).
-/

set_option autoImplicit false

namespace WaitingRoom

open Dynamo Concurrency

section Operators

variable {d : Deployment} {job : Job} {history : History}

/-- The load of the control state: what it returns is the reading of an item. -/
theorem loadControl_obeys :
    Obeys (legal d job)
      (fun later result =>
        (∀ exchange ∈ later, exchange ∈ history ∨ exchange.call = .getCounters false) ∧
        ∀ state, result = .ok (some state) → ∃ item,
          answered (.getCounters false) (.ok (some item)) ∈ later ∧ state = controlStateOf item)
      history loadControl := by
  have grows : ∀ answer, ∀ exchange ∈ answered (.getCounters false) answer :: history,
      exchange ∈ history ∨ exchange.call = .getCounters false := by
    intro answer exchange member
    rcases List.mem_cons.mp member with rfl | before
    · exact .inr rfl
    · exact .inl before
  refine obeys_request_bind trivial (fun error => ⟨grows _, nofun⟩) fun item => ⟨grows _, ?_⟩
  intro state loaded
  cases item with
  | none => cases loaded
  | some item =>
      obtain rfl := Option.some.inj (Except.ok.inj loaded)
      exact ⟨item, List.mem_cons_self, rfl⟩

/-- A guarded write and its answer. -/
theorem sendGuarded_obeys {β : Type} {update : CountersUpdate} {what : String}
    {next : Except AdminStoreError Unit → β}
    (lawful : legal d job history (.updateCounters update)) :
    Obeys (legal d job) (fun _ _ => True) history (do
      let written ← sendGuarded update what
      return next written) := by
  have sent : Obeys (legal d job) (fun _ _ => True) history (sendGuarded update what) := by
    refine obeys_request_bind lawful (fun error => trivial) fun attributes => ?_
    cases attributes with
    | none => exact trivial
    | some item => exact trivial
  exact sent.bind fun _ _ _ => trivial

/-- The load, then what an action makes of the state it loaded. -/
theorem loadControl_bind_obeys {β : Type} {next : ControlState → Program Tables (Except ApplyError β)}
    (body : ∀ later item, answered (.getCounters false) (.ok (some item)) ∈ later →
      (∀ exchange ∈ later, exchange ∈ history ∨ exchange.call = .getCounters false) →
      Obeys (legal d job) (fun _ _ => True) later (next (controlStateOf item))) :
    Obeys (legal d job) (fun _ _ => True) history (loadControl >>= fun
      | .error error => pure (.error (.store error))
      | .ok none => pure (.error (.action .notFound))
      | .ok (some state) => next state) := by
  refine loadControl_obeys.bind ?_
  rintro later result ⟨grows, loaded⟩
  cases result with
  | error error => exact trivial
  | ok found =>
      cases found with
      | none => exact trivial
      | some state =>
          obtain ⟨item, member, rfl⟩ := loaded state rfl
          exact body later item member grows

theorem applyPhase_obeys (target actor : String) (now : ArrivalTime) :
    Obeys (legal d job) (fun _ _ => True) history (applyPhase target actor now) := by
  unfold applyPhase
  cases Phase.fromStr target with
  | none => exact trivial
  | some target =>
      refine loadControl_bind_obeys fun later item member _ => ?_
      cases checked : checkPhase (controlStateOf item) target with
      | error error => exact trivial
      | ok =>
          exact sendGuarded_obeys ⟨item, member, rfl, checked⟩

theorem applyForceMaintenance_obeys (actor : String) (now : ArrivalTime) :
    Obeys (legal d job) (fun _ _ => True) history (applyForceMaintenance actor now) :=
  loadControl_bind_obeys fun _ _ _ _ =>
    sendGuarded_obeys trivial

/-- An action behind the debounce: it conforms when its write does. -/
theorem debounced_obeys {β : Type} {later : History} {state : ControlState} {now : ArrivalTime}
    {next : Program Tables (Except ApplyError β)}
    (body : Obeys (legal d job) (fun _ _ => True) later next) :
    Obeys (legal d job) (fun _ _ => True) later (match debounceCheck state now with
      | .error error => pure (.error (.action error))
      | .ok () => next) := by
  cases debounceCheck state now with
  | error error => exact trivial
  | ok => exact body

theorem applyRate_obeys (rate actor : String) (now : ArrivalTime) :
    Obeys (legal d job) (fun _ _ => True) history (applyRate rate actor now) := by
  unfold applyRate
  cases parseRate rate with
  | error error => exact trivial
  | ok rate =>
      exact loadControl_bind_obeys fun _ _ _ _ =>
        debounced_obeys (sendGuarded_obeys trivial)

theorem applyMessage_obeys (message actor : String) (now : ArrivalTime) :
    Obeys (legal d job) (fun _ _ => True) history (applyMessage message actor now) :=
  loadControl_bind_obeys fun _ _ _ _ =>
    debounced_obeys (sendGuarded_obeys trivial)

theorem applyControl_obeys (transition : StoredControl → Except IllegalControl StoredControl)
    (action : AdminAction) (actor : String) (now : ArrivalTime) :
    Obeys (legal d job) (fun _ _ => True) history (applyControl transition action actor now) := by
  refine loadControl_bind_obeys fun _ item _ _ => debounced_obeys ?_
  cases transition (controlStateOf item).storedControl with
  | error error => exact trivial
  | ok target =>
      exact sendGuarded_obeys trivial

theorem openNow_obeys (opens : job.Opens) (seed : Seed) (order : ShardOrder) (reply : InvokeReply)
    (fresh : ReadsNoShard history) :
    Obeys (legal d job) (fun _ _ => True) history (openNow seed order reply) := by
  refine (openEvent_obeys opens seed order fresh).bind fun later result _ => ?_
  cases reply <;> rcases result with error | (values | _) <;> exact trivial

theorem applyOpenNow_obeys (opens : job.Opens) (seed : Seed) (order : ShardOrder)
    (reply : InvokeReply) (actor : String) (now : ArrivalTime) :
    Obeys (legal d job) (fun _ _ => True) [] (applyOpenNow seed order reply actor now) := by
  refine loadControl_bind_obeys fun later item _ grows => ?_
  have fresh : ReadsNoShard later := by
    intro exchange member shard read
    rcases grows exchange member with old | load
    · cases old
    · rw [load] at read
      cases read
  by_cases phase : (controlStateOf item).phase ≠ .preQueue
  · rw [if_pos phase]
    exact trivial
  · rw [if_neg phase]
    refine debounced_obeys ((openNow_obeys opens seed order reply fresh).bind fun _ result _ => ?_)
    rcases result with message | found
    · exact trivial
    · cases found with
      | opened => exact sendGuarded_obeys trivial
      | alreadyOpen => exact trivial

/-- A program that makes only calls that are legal after any history. -/
theorem unrestricted_obeys {α : Type} {program : Program Tables α}
    (issues : program.Issues fun call => ∀ later, legal d job later call) :
    Obeys (legal d job) (fun _ _ => True) history program :=
  (issues.obeys history).mono (fun later _ lawful => lawful later) fun _ _ _ => trivial

theorem edge_inRoom_issues (store : Oracle Edge.Stores) (answered : List (Exchange Edge.Stores))
    (request : Edge.EdgeCall) :
    (Edge.inRoom store answered request).Issues fun call => ∀ later, legal d job later call := by
  cases request with
  | getItem => exact ⟨fun _ => trivial, fun _ => trivial⟩
  | updateItem update => cases update <;> exact ⟨fun _ => trivial, fun _ => trivial⟩
  | describe | getKey | putKey _ _ => exact trivial

theorem schedule_inRoom_issues (schedule : Oracle Schedule.StartStores)
    (answered : List (Exchange Schedule.StartStores)) (request : Schedule.StartCall) :
    (Schedule.inRoom schedule answered request).Issues fun call =>
      ∀ later, legal d job later call := by
  cases request with
  | getItem | setStartsAt _ _ => exact ⟨fun _ => trivial, fun _ => trivial⟩
  | getSchedule _ | updateSchedule _ => exact trivial

end Operators

/-! ## Every job -/

/-- What a job's answers show when it returns. -/
def final (d : Deployment) : Job → History → Outcome → Prop
  | .joinBatch _ records, history, outcome =>
      ∃ batch, outcome = .batch batch ∧ BatchReport d (d.accepted records) history batch
  | .generateToken requestId secret viewerIp now draw, history, outcome =>
      ∃ result, outcome = .admission result ∧
        AdmitReport d requestId secret viewerIp now draw history result
  | .controllerPass _ _, history, outcome =>
      ∃ result, outcome = .pass result ∧ PassReport history result
  | .queueNum requestId, history, outcome =>
      ∃ result, outcome = .queueNum result ∧ QueueNumReport d requestId history result
  | _, _, _ => True

/-- **Every job of the room obeys the protocol, whatever the store answers.** -/
theorem program_obeys (d : Deployment) (job : Job) :
    Obeys (legal d job) (final d job) [] ((room d).program job) := by
  cases job with
  | joinBatch shard records =>
      exact (processBatch_obeys shard records).bind fun _ batch report => ⟨batch, rfl, report⟩
  | openEvent seed order =>
      exact (openEvent_obeys (show Job.Opens (.openEvent seed order) from trivial) seed order
        (by simp [ReadsNoShard])).bind
        fun _ _ _ => trivial
  | generateToken requestId secret viewerIp now draw =>
      exact (admit_obeys requestId secret viewerIp now draw).bind
        fun _ result report => ⟨result, rfl, report⟩
  | controllerPass now order =>
      exact ((runPass_obeys d.eventId now order).mono (fun _ _ => And.left)
        fun _ _ report => report).bind fun _ result report => ⟨result, rfl, report⟩
  | applyPhase target actor now => exact (applyPhase_obeys target actor now).bind fun _ _ _ => trivial
  | applyForceMaintenance actor now =>
      exact (applyForceMaintenance_obeys actor now).bind fun _ _ _ => trivial
  | applyRate rate actor now => exact (applyRate_obeys rate actor now).bind fun _ _ _ => trivial
  | applyMessage message actor now =>
      exact (applyMessage_obeys message actor now).bind fun _ _ _ => trivial
  | applyPause actor now =>
      exact (applyControl_obeys StoredControl.pause .pause actor now).bind fun _ _ _ => trivial
  | applyResume actor now =>
      exact (applyControl_obeys StoredControl.resume .resume actor now).bind fun _ _ _ => trivial
  | applyOpenNow seed order reply actor now =>
      exact (applyOpenNow_obeys (show Job.Opens (.applyOpenNow seed order reply actor now) from trivial)
        seed order reply actor now).bind fun _ _ _ => trivial
  | applyEdge action store =>
      exact (unrestricted_obeys (Program.Issues.interpret (edge_inRoom_issues store) [] _)).bind
        fun _ _ _ => trivial
  | applyStartTime action schedule =>
      exact (unrestricted_obeys
        (Program.Issues.interpret (schedule_inRoom_issues schedule) [] _)).bind fun _ _ _ => trivial
  | queueNum requestId =>
      exact (handleQueueNum_obeys d requestId).bind fun _ result report => ⟨result, rfl, report⟩

/-- No pass makes a call after its release. -/
theorem program_releases_last (d : Deployment) (job : Job) :
    Obeys (passLegal d job) (fun _ _ => True) [] ((room d).program job) := by
  by_cases pass : ∃ now order, job = .controllerPass now order
  · obtain ⟨now, order, rfl⟩ := pass
    exact (runPass_obeys d.eventId now order).bind fun _ _ _ => trivial
  · refine (program_obeys d job).mono (fun _ _ lawful => ⟨lawful, fun now order same => ?_⟩)
      fun _ _ _ => trivial
    exact absurd ⟨now, order, same⟩ pass

/-! ## What a run knows -/

/-- The protocol as a trace of the room knows it. -/
abbrev RoomTrace (d : Deployment) (policy : RoomPolicy) (origin : Db) (log : List RoomEntry)
    (db : Db) : Prop :=
  Trace (room d) policy (legal d) origin log db

theorem RoomRun.trace {d : Deployment} {policy : RoomPolicy} {origin : Db} {c : Room}
    (run : RoomRun d policy origin c) : RoomTrace d policy origin c.log c.state :=
  System.Reaches.trace run (program_obeys d)

/-- A thread that returned has its report. -/
theorem RoomRun.report {d : Deployment} {policy : RoomPolicy} {origin : Db} {c : Room}
    (run : RoomRun d policy origin c) {thread : ℕ} {job : Job} {outcome : Outcome}
    (returned : c.threads[thread]? = some ⟨job, .done outcome⟩) :
    final d job (history c.log thread) outcome :=
  (System.Reaches.obeys run (program_obeys d)).1 thread job _ returned

end WaitingRoom
