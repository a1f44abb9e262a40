import WaitingRoom.Lambda.OpenEvent

/-!
# The operator's actions

Each action loads the event's control state, checks the request against it, and writes one
guarded update. The load asks for no consistency, so the guard of the write is what decides.
`applyOpenNow` invokes the open itself and stamps the audit fields after it.
-/

set_option autoImplicit false

namespace WaitingRoom

open Dynamo Concurrency

/-- A store failure or a lost transition race. -/
inductive AdminStoreError where
  | conflict
  | backend (message : String)
  deriving DecidableEq, Repr

/-- An operator action rejected before it touches the store. -/
inductive ActionError where
  | unknownPhase
  | illegalTransition (source target : Phase)
  | invalidRate
  | rateTooHigh (max : ℕ)
  | invalidDuration
  | invalidRules (message : String)
  | tooFast
  | conflict
  | notFound
  | invalidStartTime
  | startTimeInPast
  | unknownTimezone
  | notOpened
  deriving DecidableEq, Repr

/-- The union of a rejected action and a store failure. -/
inductive ApplyError where
  | action (error : ActionError)
  | store (error : AdminStoreError)
  deriving DecidableEq, Repr

/-- The control state the actions check. -/
structure ControlState where
  phase : Phase
  participantCount : Option ℕ
  targetRate : Option ℕ
  storedControl : StoredControl
  lastActionTime : Option ℤ

/-- The upper sanity bound on the admission target rate. -/
def maxAdmissionRate : ℕ := 100000

/-! ## The store -/

/-- The instants a stamped epoch in milliseconds can name. -/
def isInstant (millis : ℤ) : Bool := -377705023201000 ≤ millis ∧ millis ≤ 253402207200999

/-- A stamped epoch. One that names no instant is dropped. -/
def lastActionTimeOf (item : Item) : Option ℤ :=
  (((item "last_action_epoch_ms").bind AttributeValue.asN).bind fun number =>
    if number.den = 1 then some number.num else none).filter fun millis => isInstant millis

/-- The admin's reading of the `Counters` item. -/
def controlStateOf (item : Item) : ControlState where
  phase := ((str item "phase").bind Phase.fromStr).getD .idle
  participantCount := num item "participant_count"
  targetRate := (num item "target_rate").filter (· < u32Bound)
  storedControl := storedControlOf item
  lastActionTime := lastActionTimeOf item

/-- Load the event's control state, eventually consistent. -/
def loadControl : Program Tables (Except AdminStoreError (Option ControlState)) := do
  match ← request (.getCounters false) "get_item" .ok with
  | .error error => return .error (.backend error.message)
  | .ok item => return .ok (item.map controlStateOf)

/-- Send a guarded update; a failed condition is a conflict. -/
def sendGuarded (update : CountersUpdate) (what : String) :
    Program Tables (Except AdminStoreError Unit) := do
  match ← request (.updateCounters update) ("update_item(" ++ what ++ ")") .ok with
  | .error error => return .error (.backend error.message)
  | .ok (some _) => return .ok ()
  | .ok none => return .error .conflict

/-- What an action answers once its write is done. -/
def afterWrite {α : Type} (result : α) : Except AdminStoreError Unit → Except ApplyError α
  | .ok () => .ok result
  | .error error => .error (.store error)

/-! ## Phases -/

/-- Whether a phase transition is legal. -/
def transitionAllowed (source target : Phase) : Bool :=
  if source = target ∨ target = .maintenance ∨ source = .maintenance then true
  else
    match source, target with
    | .idle, .preQueue | .preQueue, .active | .active, .postEvent => true
    | _, _ => false

/-- What `apply_phase` checks before it writes. -/
def checkPhase (state : ControlState) (target : Phase) : Except ActionError Unit :=
  if target = .maintenance then .error (.illegalTransition state.phase target)
  else if ¬ transitionAllowed state.phase target then
    .error (.illegalTransition state.phase target)
  else if target = .active ∧ state.participantCount = none then .error .notOpened
  else .ok ()

/-- An event is made active only if it has been opened. -/
theorem participantCount_of_checkPhase {state : ControlState}
    (checked : checkPhase state .active = .ok ()) : state.participantCount ≠ none := by
  intro absent
  simp only [checkPhase, absent, and_self, if_true] at checked
  split_ifs at checked

/-- Transition the event to the requested phase. -/
def applyPhase (target : String) (actor : String) (now : ArrivalTime) :
    Program Tables (Except ApplyError Phase) := do
  match Phase.fromStr target with
  | none => return .error (.action .unknownPhase)
  | some target =>
      match ← loadControl with
      | .error error => return .error (.store error)
      | .ok none => return .error (.action .notFound)
      | .ok (some state) =>
          match checkPhase state target with
          | .error error => return .error (.action error)
          | .ok () =>
              let written ←
                sendGuarded (.setPhase state.phase target ⟨.setPhase, actor, now⟩) "phase"
              return afterWrite target written

/-- Force the maintenance phase. -/
def applyForceMaintenance (actor : String) (now : ArrivalTime) :
    Program Tables (Except ApplyError Unit) := do
  match ← loadControl with
  | .error error => return .error (.store error)
  | .ok none => return .error (.action .notFound)
  | .ok (some state) =>
      let written ←
        sendGuarded (.forceMaintenance state.phase ⟨.forceMaintenance, actor, now⟩)
          "force_maintenance"
      return afterWrite () written

/-! ## Debounced actions -/

/-- `TooFast` if the last stamped action is within the debounce window before `now`. -/
def debounceCheck (state : ControlState) (now : ArrivalTime) : Except ActionError Unit :=
  match state.lastActionTime with
  | some last =>
      let elapsed := (now.nanos : ℤ) - last * 1000000
      if 0 ≤ elapsed ∧ elapsed < (debounceMillis : ℤ) * 1000000 then .error .tooFast else .ok ()
  | none => .ok ()

/-- `str::parse::<u32>`. -/
def parseU32 (s : String) : Option ℕ :=
  let digits := match s.toList with
    | '+' :: rest => rest
    | all => all
  if digits ≠ [] ∧ digits.all (fun c => '0' ≤ c ∧ c ≤ '9') then
    let value := digits.foldl (fun value c => 10 * value + (c.toNat - '0'.toNat)) 0
    if value < u32Bound then some value else none
  else none

/-- The rate a request asks for. -/
def parseRate (rate : String) : Except ActionError ℕ :=
  match parseU32 rate with
  | none => .error .invalidRate
  | some rate =>
      if rate = 0 then .error .invalidRate
      else if maxAdmissionRate < rate then .error (.rateTooHigh maxAdmissionRate)
      else .ok rate

/-- Set the admission target rate. -/
def applyRate (rate : String) (actor : String) (now : ArrivalTime) :
    Program Tables (Except ApplyError ℕ) := do
  match parseRate rate with
  | .error error => return .error (.action error)
  | .ok rate =>
      match ← loadControl with
      | .error error => return .error (.store error)
      | .ok none => return .error (.action .notFound)
      | .ok (some state) =>
          match debounceCheck state now with
          | .error error => return .error (.action error)
          | .ok () =>
              let written ← sendGuarded (.setRate state.targetRate rate ⟨.setRate, actor, now⟩) "rate"
              return afterWrite rate written

/-- Set the broadcast message. -/
def applyMessage (message : String) (actor : String) (now : ArrivalTime) :
    Program Tables (Except ApplyError Unit) := do
  match ← loadControl with
  | .error error => return .error (.store error)
  | .ok none => return .error (.action .notFound)
  | .ok (some state) =>
      match debounceCheck state now with
      | .error error => return .error (.action error)
      | .ok () =>
          let written ← sendGuarded (.setMessage message ⟨.setMessage, actor, now⟩) "message"
          return afterWrite () written

/-- Apply one stored-control transition. -/
def applyControl (transition : StoredControl → Except IllegalControl StoredControl)
    (action : AdminAction) (actor : String) (now : ArrivalTime) :
    Program Tables (Except ApplyError Unit) := do
  match ← loadControl with
  | .error error => return .error (.store error)
  | .ok none => return .error (.action .notFound)
  | .ok (some state) =>
      match debounceCheck state now with
      | .error error => return .error (.action error)
      | .ok () =>
          match transition state.storedControl with
          | .error _ => return .error (.action .conflict)
          | .ok target =>
              let written ←
                sendGuarded (.setStoredControl state.storedControl target ⟨action, actor, now⟩)
                  "admission_control"
              return afterWrite () written

/-- Hold admission. -/
def applyPause : String → ArrivalTime → Program Tables (Except ApplyError Unit) :=
  applyControl StoredControl.pause .pause

/-- Release a hold. -/
def applyResume : String → ArrivalTime → Program Tables (Except ApplyError Unit) :=
  applyControl StoredControl.resume .resume

/-! ## Open now -/

/-- What an `open_now` found. -/
inductive OpenNow where
  | opened
  | alreadyOpen
  deriving DecidableEq, Repr

/-- How the answer of the invoked function reaches the operator: it arrives, its body cannot
be read, or the invoke itself fails although the function ran. -/
inductive InvokeReply where
  | delivered
  | unreadable
  | failed (message : String)

/-- Perform the open by invoking its function, and report whether this call did it. -/
def openNow (seed : Seed) (order : ShardOrder) (reply : InvokeReply) :
    Program Tables (Except String OpenNow) := do
  let result ← openEvent seed order
  match reply, result with
  | .failed message, _ => return .error ("invoke: " ++ message)
  | _, .error error => return .error ("open failed (Unhandled): " ++ error.message)
  | .delivered, .ok (.opened _) => return .ok .opened
  | .delivered, .ok .alreadyOpen => return .ok .alreadyOpen
  -- the conservative answer
  | .unreadable, .ok _ => return .ok .alreadyOpen

/-- Open the event now. Only the call that opened it stamps the audit fields, and a failed
stamp is only logged. -/
def applyOpenNow (seed : Seed) (order : ShardOrder) (reply : InvokeReply) (actor : String)
    (now : ArrivalTime) : Program Tables (Except ApplyError OpenNow) := do
  match ← loadControl with
  | .error error => return .error (.store error)
  | .ok none => return .error (.action .notFound)
  | .ok (some state) =>
      if state.phase ≠ .preQueue then
        return .error (.action (.illegalTransition state.phase .active))
      else
        match debounceCheck state now with
        | .error error => return .error (.action error)
        | .ok () =>
            match ← openNow seed order reply with
            | .error message => return .error (.store (.backend ("open error: " ++ message)))
            | .ok .alreadyOpen => return .ok .alreadyOpen
            | .ok .opened => do
                let _ ← sendGuarded (.stampAction ⟨.openNow, actor, now⟩) "stamp_action"
                return .ok .opened

end WaitingRoom
