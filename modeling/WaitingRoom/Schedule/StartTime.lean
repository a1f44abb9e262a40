import WaitingRoom.Edge.Rules
import WaitingRoom.Lambda.Admin

/-!
# The operator's start time

The start of an event is in two stores: the `Counters` item announces it to the waiting page, and a
one-time schedule fires the open. `applyStartTime` arms the schedule before it announces a start,
and withdraws the announcement before it disables the schedule. Each of its two writes may fail,
and a write of the schedule resends the whole definition it has read (`rewrite`).
-/

set_option autoImplicit false

namespace WaitingRoom.Schedule

open Dynamo Concurrency
open Edge (utf8)

/-! ## The requested start -/

/-- A date and a time of day, in no zone. -/
structure CivilTime where
  year : ℤ
  month : ℕ
  day : ℕ
  hour : ℕ
  minute : ℕ
  second : ℕ
  subsecond : ℕ
  deriving DecidableEq

/-- The time zone database: the zones it knows, how it reads a civil time, and the civil time and the
second of the epoch that it resolves one to in a zone. -/
structure TimeZones where
  known : String → Bool
  civil : String → Option CivilTime
  compatible : String → CivilTime → Option (CivilTime × Int64)

/-- A start time the operator asked for. -/
structure StartTime where
  epochSecs : ℕ
  expression : String
  timezone : String
  deriving DecidableEq, Repr

/-- The white space that is trimmed. -/
def isWhiteSpace (c : Char) : Bool :=
  (9 ≤ c.toNat ∧ c.toNat ≤ 13) ∨ c.toNat ∈ [0x20, 0x85, 0xA0, 0x1680, 0x2028, 0x2029, 0x202F, 0x205F, 0x3000] ∨
    (0x2000 ≤ c.toNat ∧ c.toNat ≤ 0x200A)

/-- `str::trim`. -/
def trim (text : String) : String :=
  String.ofList (((text.toList.dropWhile isWhiteSpace).reverse.dropWhile isWhiteSpace).reverse)

/-- The trimmed field in seconds. Only the two accepted lengths, so no offset and no fraction reaches
the parser. -/
def normalizeStart (input : String) : Option String :=
  let trimmed := trim input
  if (utf8 trimmed).length = 16 then some (trimmed ++ ":00")
  else if (utf8 trimmed).length = 19 then some trimmed
  else none

/-- Parse the wall-clock field, read in a zone. -/
def parseStartTime (zones : TimeZones) (input timezone : String) (nowSecs : ℕ) :
    Except ActionError StartTime :=
  if ¬ zones.known timezone then .error .unknownTimezone
  else
    match normalizeStart input with
    | none => .error .invalidStartTime
    | some normalized =>
        match zones.civil normalized with
        | none => .error .invalidStartTime
        | some civil =>
            match zones.compatible timezone civil with
            | none => .error .invalidStartTime
            | some (resolved, second) =>
                -- a time that a change of the clocks skips resolves to another one
                if resolved ≠ civil ∨ second.toInt < 0 then .error .invalidStartTime
                else if second.toInt.toNat ≤ nowSecs then .error .startTimeInPast
                else .ok ⟨second.toInt.toNat, normalized, timezone⟩

/-! ## The schedule -/

inductive ScheduleState where
  | enabled
  | disabled
  deriving DecidableEq, Repr

/-- What a schedule invokes, and how it retries. -/
structure Target where
  arn : String
  roleArn : String
  input : Option String
  maximumEventAgeInSeconds : Option ℕ
  maximumRetryAttempts : Option ℕ
  deadLetterArn : Option String
  deriving DecidableEq

structure FlexibleTimeWindow where
  mode : String
  maximumWindowInMinutes : Option ℕ
  deriving DecidableEq

/-- What `GetSchedule` returns. -/
structure GetScheduleOutput where
  groupName : Option String
  scheduleExpression : Option String
  scheduleExpressionTimezone : Option String
  flexibleTimeWindow : Option FlexibleTimeWindow
  state : Option ScheduleState
  target : Option Target
  description : Option String
  kmsKeyArn : Option String
  startDate : Option ℤ
  endDate : Option ℤ
  actionAfterCompletion : Option String
  deriving DecidableEq

/-- What `UpdateSchedule` is sent. -/
structure UpdateScheduleInput where
  name : String
  definition : GetScheduleOutput
  deriving DecidableEq

/-- An open-schedule failure. -/
structure ScheduleError where
  message : String
  deriving DecidableEq, Repr

/-- The expression the schedule is created with. -/
def disabledPlaceholder : String := "at(2099-12-31T23:59:59)"

/-- The `at()` expression of a bare timestamp. -/
def atExpression (timestamp : String) : String := "at(" ++ timestamp ++ ")"

/-- Rebuild the whole schedule from what was read, with only the expression and the state changed. -/
def rewrite (name : String) (current : GetScheduleOutput) (start : Option (String × String)) :
    Except ScheduleError UpdateScheduleInput :=
  match current.target, current.flexibleTimeWindow with
  | none, _ => .error ⟨"schedule has no target"⟩
  | some _, none => .error ⟨"schedule has no flexible time window"⟩
  | some target, some window =>
      let (expression, timezone, state) := match start with
        | some (timestamp, timezone) => (atExpression timestamp, timezone, ScheduleState.enabled)
        -- the expression is required even when the schedule is disabled
        | none => (current.scheduleExpression.getD disabledPlaceholder,
            current.scheduleExpressionTimezone.getD "UTC", ScheduleState.disabled)
      .ok ⟨name, { current with
        scheduleExpression := some expression
        scheduleExpressionTimezone := some timezone
        flexibleTimeWindow := some window
        state := some state
        target := some target }⟩

/-! ## Requests -/

/-- A request of the start-time action. -/
inductive StartCall where
  | getItem
  | setStartsAt (startsAt : Option (ℕ × String)) (audit : Audit)
  | getSchedule (name : String)
  | updateSchedule (input : UpdateScheduleInput)

/-- What a request is answered with when its store does not fail. -/
@[reducible] def StartPayload : StartCall → Type
  | .getItem => Option Item
  | .setStartsAt _ _ => Option Item
  | .getSchedule _ => GetScheduleOutput
  | .updateSchedule _ => Unit

/-- The requests on the two stores and their answers. -/
abbrev StartStores : Interface where
  Call := StartCall
  Answer call := Except StoreError (StartPayload call)

/-- The update of the announced start. -/
def startsAtClauses (startsAt : Option (ℕ × String)) (audit : Audit) : List Clause :=
  (CountersUpdate.setStartsAt startsAt audit).clauses

/-- The event's item, the schedule, and whether the open has fired. -/
structure StartState where
  counters : Option Item
  schedule : GetScheduleOutput
  fired : Bool

/-- What a request does and answers. -/
def performStart :
    (call : StartCall) → StartState → Except StoreError (StartPayload call) × StartState
  | .getItem, state => (.ok state.counters, state)
  | .setStartsAt startsAt audit, state =>
      match Dynamo.updateItem state.counters (debouncePredicate audit.now)
          (startsAtClauses startsAt audit) with
      | .updated item => (.ok (some item), { state with counters := some item })
      | .conditionFailed => (.ok none, state)
      | .rejected => (.error validationError, state)
  | .getSchedule _, state => (.ok state.schedule, state)
  | .updateSchedule input, state => (.ok (), { state with schedule := input.definition })

/-- What the environment may do with a request. The schedule may fire before it. -/
inductive StartChoice where
  | commit
  | lost (error : StoreError)
  | landed (error : StoreError)
  | stale (age : ℕ)
  | fires (choice : StartChoice)

/-- How the stores answer a request. -/
def respondStart (call : StartCall) : StartChoice → List StartState → StartState →
    Option (Except StoreError (StartPayload call) × StartState)
  | .commit, _, state => some (performStart call state)
  | .lost error, _, state => some (.error error, state)
  | .landed error, _, state => some (.error error, (performStart call state).2)
  | .stale age, past, state =>
      match call with
      | .getItem => past[age]?.map fun old => (.ok old.counters, state)
      | .getSchedule _ => past[age]?.map fun old => (.ok old.schedule, state)
      | _ => none
  | .fires choice, past, state =>
      if state.schedule.state = some .enabled then
        respondStart call choice past { state with fired := true }
      else none

/-- Send one request. -/
abbrev sendStart (call : StartCall) : Program StartStores (Except StoreError (StartPayload call)) :=
  Program.ask (I := StartStores) call

/-! ## The action -/

/-- Load the event's control state. -/
def loadState : Program StartStores (Except AdminStoreError (Option ControlState)) := do
  match ← sendStart .getItem with
  | .error error => return .error (.backend ("get_item: " ++ error.message))
  | .ok item => return .ok (item.map controlStateOf)

/-- Write or clear the announced start; a failed condition is a conflict. -/
def setStartsAt (startsAt : Option (ℕ × String)) (audit : Audit) :
    Program StartStores (Except AdminStoreError Unit) := do
  match ← sendStart (.setStartsAt startsAt audit) with
  | .error error => return .error (.backend ("update_item(starts_at): " ++ error.message))
  | .ok (some _) => return .ok ()
  | .ok none => return .error .conflict

/-- Arm the schedule, or disable it: read it and resend it. -/
def setStartTime (name : String) (start : Option (String × String)) :
    Program StartStores (Except ScheduleError Unit) := do
  match ← sendStart (.getSchedule name) with
  | .error error => return .error ⟨"get_schedule: " ++ error.message⟩
  | .ok current =>
      match rewrite name current start with
      | .error error => return .error error
      | .ok input =>
          match ← sendStart (.updateSchedule input) with
          | .error error => return .error ⟨"update_schedule: " ++ error.message⟩
          | .ok () => return .ok ()

/-- A schedule failure as the action reports it. -/
def scheduleFailure (error : ScheduleError) : Except ApplyError Unit :=
  .error (.store (.backend ("open schedule error: " ++ error.message)))

/-- The time zone database and the schedule the console is bound to. -/
structure Scheduler where
  zones : TimeZones
  scheduleName : String

/-- Withdraw the announcement, then disable the schedule. -/
def clearStart (scheduler : Scheduler) (actor : String) (now : ArrivalTime) :
    Program StartStores (Except ApplyError Unit) := do
  match ← setStartsAt none ⟨.clearStartTime, actor, now⟩ with
  | .error error => return .error (.store error)
  | .ok () =>
      match ← setStartTime scheduler.scheduleName none with
      | .error error => return scheduleFailure error
      | .ok () => return .ok ()

/-- Arm the schedule, then announce the start. -/
def announceStart (scheduler : Scheduler) (start : StartTime) (actor : String) (now : ArrivalTime) :
    Program StartStores (Except ApplyError Unit) := do
  match ← setStartTime scheduler.scheduleName (some (start.expression, start.timezone)) with
  | .error error => return scheduleFailure error
  | .ok () =>
      match ← setStartsAt (some (start.epochSecs, start.timezone)) ⟨.setStartTime, actor, now⟩ with
      | .error error => return .error (.store error)
      | .ok () => return .ok ()

/-- Set or clear the event's scheduled start. -/
def applyStartTime (scheduler : Scheduler) (input timezone actor : String) (now : ArrivalTime) :
    Program StartStores (Except ApplyError Unit) := do
  match ← loadState with
  | .error error => return .error (.store error)
  | .ok none => return .error (.action .notFound)
  | .ok (some state) =>
      match debounceCheck state now with
      | .error error => return .error (.action error)
      | .ok () =>
          if (trim input).isEmpty then clearStart scheduler actor now
          else
            match parseStartTime scheduler.zones input timezone now.epochSeconds with
            | .error error => return .error (.action error)
            | .ok start => announceStart scheduler start actor now

/-! ## The operators -/

/-- One start-time action. -/
structure StartJob where
  input : String
  timezone : String
  actor : String
  now : ArrivalTime

/-- The start-time actions of concurrent operators. -/
def startTimes (scheduler : Scheduler) :
    System StartStores StartState StartJob (Except ApplyError Unit) StartChoice where
  program job := applyStartTime scheduler job.input job.timezone job.actor job.now
  respond := respondStart

end WaitingRoom.Schedule
