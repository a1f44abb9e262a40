import WaitingRoom.Concurrency.Script
import WaitingRoom.Page.Destination
import WaitingRoom.Text.References

/-!
# The waiting page

The page's script polls for the visitor's turn. A poll is a chain of requests, `/v1/status` first, of
which one is outstanding at a time; what is done with an answer runs to the next request or to the end
of the chain (`Page.resume`). Between two answers the browser fires timers and tells the script when the
page is hidden or shown. What is drawn may throw, whatever it is given; how long a timer runs is left
open.
-/

set_option autoImplicit false

namespace WaitingRoom.Page

open Text Edge Concurrency

/-! ## What the script runs on -/

/-- What the script draws or measures of the answers it is given. -/
inductive Drawing where
  | broadcast (message : JsValue)
  | cursor (serving : JsValue)
  | countdown (startsAt : JsValue)
  | queue (position serving participants targetRate : JsValue)
  | interval (serving targetRate : JsValue)

/-- What the browser answers while the script runs: the clock, a random number, what the storage
holds, and what its own operators make of values that are no numbers. -/
structure Moment where
  now : ℕ
  random : ℚ
  /-- `readStored(JOINED_KEY) === requestId`. -/
  storedJoined : Bool
  /-- `Number(readStored(IP_REBIND_KEY)) || 0`. -/
  storedRebind : ℚ
  draw : Drawing → Except JsError Unit
  lessThan : JsValue → JsValue → Except JsError Bool
  /-- `Number(value)`, unless it is `NaN`. -/
  toNumber : JsValue → Option JsNumber
  /-- The authorities, and the addresses with a scheme, that the browser can read. -/
  hosts : Hosts UInt16 Unit

/-- An address, relative to the page's own, that the browser can read. -/
def Moment.parses (moment : Moment) (address : Units) : Bool :=
  (Text.resolve UInt16.toNat moment.hosts () address).isSome

/-- A response: whether the web ACL gave it, its status, and its JSON, if it is any. -/
structure Response where
  waf : Bool
  status : ℕ
  body : Option JsValue

/-- How a promise settles. -/
inductive Answer where
  | rejected
  | resolved (response : Response)

/-- Where the page goes. -/
inductive Destination where
  | root
  | next
  | verify
  deriving DecidableEq

/-! ## The state -/

/-- When to poll again. -/
structure Policy where
  floorMs : ℚ
  ceilingMs : ℚ
  divisor : ℚ

/-- What a chain goes on with once the place is claimed. -/
inductive AfterJoin where
  | schedule
  | ask (status : JsValue)

/-- The promise a chain waits for. -/
inductive Awaiting where
  | status
  | digest (next : AfterJoin)
  | join (next : AfterJoin)
  | queueNum (status : JsValue)
  | token

/-- The page: its address, the script's variables, and what is pending in the browser. -/
structure State where
  search : Units
  /-- `crypto.subtle`. -/
  subtle : Bool
  policy : Policy
  eventId : JsValue
  /-- The digest of the secret, once it is there or has failed. -/
  digest : Option Bool
  /-- `joinedId === requestId`. -/
  joined : Bool
  joinAttempts : ℕ
  rejoinCycles : ℕ
  joinBlockedUntil : ℚ
  misses : ℕ
  knownPosition : JsValue
  /-- `none` is `null`, and none inside is `NaN`. -/
  firstAskAt : Option (Option ℚ)
  admitting : Bool
  timer : Option ℕ
  stopped : Bool
  lastPollAt : ℕ
  inFlight : Bool
  catchUpWanted : Bool
  /-- `document.hidden`. -/
  hidden : Bool
  /-- The handles of the timers that are pending; each runs `tick`. -/
  timers : List ℕ
  nextHandle : ℕ
  /-- The chains that have not settled, each with what it waits for. -/
  chains : List Awaiting
  navigations : List Destination

/-- The script's work between two events. -/
abbrev Work (α : Type) := Script State JsError α

/-! ## Timers -/

namespace State

def setTimeout (page : State) : State :=
  { page with timers := page.timers ++ [page.nextHandle], timer := some page.nextHandle
              nextHandle := page.nextHandle + 1 }

/-- `if (timer) clearTimeout(timer)`. -/
def clearTimer (page : State) : State :=
  match page.timer with
  | some handle => { page with timers := page.timers.erase handle }
  | none => page

/-- `if (timer) { clearTimeout(timer); timer = null; }`. -/
def dropTimer (page : State) : State := { page.clearTimer with timer := none }

def stop (page : State) : State := { page.dropTimer with stopped := true }

def schedule (page : State) : State :=
  if page.stopped then page
  else if page.hidden then { page.clearTimer with catchUpWanted := false, timer := none }
  else if page.catchUpWanted then { page.clearTimer with catchUpWanted := false }.setTimeout
  else page.clearTimer.setTimeout

def tick (page : State) (moment : Moment) : State :=
  if page.inFlight then { page with catchUpWanted := true }
  else { page with inFlight := true, lastPollAt := moment.now, chains := page.chains ++ [.status] }

/-- The listener for `visibilitychange`. -/
def visibilityChange (page : State) (moment : Moment) : State :=
  if page.stopped then page
  else if page.hidden then page.dropTimer
  else if page.policy.floorMs ≤ (moment.now : ℚ) - page.lastPollAt then page.dropTimer.tick moment
  else page.dropTimer.setTimeout

def navigate (page : State) (destination : Destination) : State :=
  { page with navigations := page.navigations ++ [destination] }

end State

/-! ## Reading values -/

/-- `value.name`. -/
def readMember (value : JsValue) (name : String) : Except JsError JsValue :=
  match value with
  | .undefined | .null => .error .typeError
  | _ => .ok (value.member name)

/-- `value === text`. -/
def isText (value : JsValue) (text : String) : Bool := value.strictEquals (.string (utf16 text))

/-- `left < right`. -/
def less (moment : Moment) (left right : JsValue) : Except JsError Bool :=
  match left, right with
  | .number a, .number b => .ok (!b.le a)
  | _, _ => moment.lessThan left right

/-- A finite number between two bounds. -/
def num (value : JsValue) (lo hi : ℚ) : Option ℚ :=
  match value with
  | .number (.finite v) => if lo ≤ v ∧ v ≤ hi then some v else none
  | _ => none

/-- A policy that is published whole and in bounds; otherwise the one in force. -/
def adoptPolicy (policy : Policy) (published : JsValue) : Policy :=
  match num (published.member "floor_ms") 1000 300000, num (published.member "ceiling_ms") 1000 300000,
      num (published.member "divisor") 1 1000 with
  | some floor, some ceiling, some divisor =>
      if ceiling < floor then policy else ⟨floor, ceiling, divisor⟩
  | _, _, _ => policy

/-- The slice of the window a page waits before it asks for its number, unless it is `NaN`. -/
def spreadOf (participants : Option JsNumber) : Option ℚ :=
  match participants with
  | some (.finite n) => some (min 60000 (n / 5000 * 1000))
  | some (.infinite false) => some 60000
  | some (.infinite true) | none => none

/-- When to ask for the number. -/
def firstAsk (moment : Moment) (participants : JsValue) : Option ℚ :=
  (spreadOf (if participants.truthy then moment.toNumber participants else some (.finite 0))).map
    fun spread => moment.now + (moment.random * spread).floor

/-- `Date.now() < firstAskAt`; `null` counts as zero, and nothing is less than `NaN`. -/
def beforeFirstAsk (moment : Moment) (page : State) : Bool :=
  match page.firstAskAt with
  | some (some at_) => decide ((moment.now : ℚ) < at_)
  | _ => false

/-- `/[?&]waf=(\d+)/`: the time of the last renewal. -/
def wafMark : Units → Option ℕ
  | [] => none
  | unit :: rest =>
      let digits := (rest.drop 4).takeWhile fun unit => 48 ≤ unit && unit ≤ 57
      if (unit = 63 ∨ unit = 38) ∧ (utf16 "waf=").isPrefixOf rest ∧ digits ≠ [] then
        some (digits.foldl (fun value digit => value * 10 + (digit.toNat - 48)) 0)
      else wafMark rest

/-- `/[?&]r=ip(&|$)/`: the gate refused a session from another network. -/
def refusedNetwork (search : Units) : Bool :=
  (indexOf (utf16 "?r=ip&") (search ++ utf16 "&")).isSome ||
    (indexOf (utf16 "&r=ip&") (search ++ utf16 "&")).isSome

/-! ## Requests -/

/-- How far a chain has come: to its next promise, or to its end. -/
inductive Progress where
  | awaiting (promise : Awaiting)
  | settled

/-- Stop, and go to the verify page; not twice in a minute. -/
def renewWafToken (moment : Moment) : Work Unit := do
  Script.update State.stop
  let mark ← Script.read fun page => wafMark page.search
  match mark with
  | some last => if (moment.now : ℤ) - last < 60000 then pure () else Script.update (·.navigate .verify)
  | none => Script.update (·.navigate .verify)

/-- What comes back from the network, past the web ACL. -/
def checkWaf (moment : Moment) : Answer → Work Response
  | .rejected => throw .typeError
  | .resolved response =>
      if response.waf then do
        renewWafToken moment
        throw (.error "waf")
      else pure response

/-- The answer to a `GET`: the status and the JSON, without which it is rejected. -/
def getJSON (moment : Moment) (answer : Answer) : Work (ℕ × JsValue) := do
  let response ← checkWaf moment answer
  match response.body with
  | some body => pure (response.status, body)
  | none => throw (.error "not JSON")

/-- The answer to a `POST`: what is not JSON is an empty object. -/
def postJSON (moment : Moment) (answer : Answer) : Work (ℕ × JsValue) := do
  let response ← checkWaf moment answer
  pure (response.status, response.body.getD (.object []))

/-! ## Joining -/

/-- `schedule()`, and the chain is at its end. -/
def scheduleNext : Work Progress := do
  Script.update State.schedule
  return .settled

/-- Whether the place is claimed, or claiming it is to wait or is over: then the chain goes on. -/
def join (moment : Moment) (next : AfterJoin) : Work (Option Awaiting) := do
  let page ← Script.read id
  if page.joined || moment.storedJoined then
    Script.update fun page => { page with joined := true }
    return none
  else if (moment.now : ℚ) < page.joinBlockedUntil then return none
  else if 8 ≤ page.joinAttempts then
    Script.update State.stop
    return none
  else if !page.subtle then
    Script.update State.stop
    return none
  else
    Script.update fun page => { page with joinAttempts := page.joinAttempts + 1 }
    match page.digest with
    | none => return some (.digest next)
    | some true => return some (.join next)
    | some false => throw .typeError

/-- Only a request the ingest accepted claims a place. -/
def joinAnswered (moment : Moment) (answer : Answer) : Work Unit := do
  let (status, _) ← postJSON moment answer
  if 200 ≤ status ∧ status < 300 then
    Script.update fun page => { page with joined := true, joinAttempts := 0 }
  else
    Script.update fun page =>
      { page with joinBlockedUntil :=
          moment.now + min 120000 (page.policy.floorMs * 2 ^ (page.joinAttempts - 1)) }

def forgetPosition (page : State) : State := { page with knownPosition := .null }

def forgetJoin (page : State) : State :=
  { forgetPosition { page with misses := 0 } with joined := false, joinAttempts := 0, joinBlockedUntil := 0 }

/-! ## Redeeming -/

/-- Collect the cookies, unless an attempt is under way. -/
def redeem : Work Progress := do
  let admitting ← Script.read State.admitting
  if admitting then
    -- the caller schedules only when no attempt is under way
    return .settled
  else
    Script.update fun page => { page with admitting := true }
    return .awaiting .token

/-- `res.status === 200 && res.body.admitted`. -/
def admitted (status : ℕ) (body : JsValue) : Except JsError Bool :=
  if status = 200 then (readMember body "admitted").map JsValue.truthy else .ok false

/-- The answer to an attempt: go where the visitor came from, or keep polling. -/
def tokenAnswered (moment : Moment) (status : ℕ) (body : JsValue) : Work Unit := do
  if ← Script.ofExcept (admitted status body) then
    let search ← Script.read State.search
    if refusedNetwork search && (moment.now : ℚ) - moment.storedRebind < 60000 then
      Script.update State.stop
    -- `location.replace` throws, and the attempt stays under way
    else if !moment.parses (nextDestination search) then throw .syntaxError
    else Script.update (·.navigate .next)
  else
    Script.update fun page => { page with admitting := false }
    if status = 403 then Script.update State.stop else pure ()

/-- A failed attempt clears the flag before the chain's `catch` retries. -/
def tokenFailed (page : State) : State := { page with admitting := false }

/-- What follows an attempt. -/
def afterRedeem : Work Progress := do
  let admitting ← Script.read State.admitting
  if admitting then return .settled else scheduleNext

/-! ## Polling -/

/-- The answer to `/v1/queue_num`, or the number already known. -/
def queueAnswered (moment : Moment) (s : JsValue) (status : ℕ) (body : JsValue) : Work Progress := do
  if status = 404 then
    Script.update fun page => { page with misses := page.misses + 1 }
    let misses ← Script.read State.misses
    if 8 ≤ misses then
      Script.update fun page => { page with rejoinCycles := page.rejoinCycles + 1 }
      let rejoinCycles ← Script.read State.rejoinCycles
      if 3 < rejoinCycles then
        Script.update State.stop
        return .settled
      else
        Script.update forgetJoin
        scheduleNext
    else scheduleNext
  else
    Script.update fun page => { page with misses := 0 }
    if status ≠ 200 then throw (.error "queue_num")
    else
      let position ← Script.ofExcept (readMember body "position")
      Script.update fun page => { page with knownPosition := position }
      let serving := s.member "serving_position"
      let targetRate := s.member "target_rate"
      Script.ofExcept (moment.draw (.queue position serving (s.member "participant_count") targetRate))
      let reached ← Script.ofExcept (less moment position serving)
      if reached then redeem
      else
        Script.ofExcept (moment.draw (.interval serving targetRate))
        scheduleNext

/-- The place is claimed: go on with the number that is known, wait, or ask for it. -/
def askNumber (moment : Moment) (s : JsValue) : Work Progress := do
  let page ← Script.read id
  match page.knownPosition with
  | .null =>
      if beforeFirstAsk moment page then scheduleNext else return .awaiting (.queueNum s)
  | known => queueAnswered moment s 200 (.object [(utf16 "position", known)])

/-- What a chain goes on with. -/
def afterJoin (moment : Moment) : AfterJoin → Work Progress
  | .schedule => scheduleNext
  | .ask s => askNumber moment s

/-- Join, and go on. -/
def joinThen (moment : Moment) (next : AfterJoin) : Work Progress := do
  match ← join moment next with
  | some promise => return .awaiting promise
  | none => afterJoin moment next

/-- The answer to `/v1/status`. -/
def statusAnswered (moment : Moment) (status : ℕ) (s : JsValue) : Work Progress := do
  if status ≠ 200 then throw (.error "status")
  else
    let message ← Script.ofExcept (readMember s "message")
    Script.ofExcept (moment.draw (.broadcast message))
    Script.ofExcept (moment.draw (.cursor (s.member "serving_position")))
    Script.update fun page => { page with policy := adoptPolicy page.policy (s.member "poll_policy") }
    Script.update fun page =>
      { page with eventId := if (s.member "event_id").truthy then s.member "event_id" else page.eventId }
    let eventId ← Script.read State.eventId
    if !eventId.truthy then scheduleNext
    else if isText (s.member "serving_state") "closed" then
      Script.update forgetPosition
      Script.ofExcept (moment.draw (.countdown (s.member "starts_at")))
      if isText (s.member "phase") "pre_queue" then joinThen moment .schedule else scheduleNext
    else if isText (s.member "serving_state") "paused" then
      Script.ofExcept (moment.draw (.interval (s.member "serving_position") (s.member "target_rate")))
      scheduleNext
    else if isText (s.member "serving_state") "fail_open" then
      Script.update (·.navigate .root)
      return .settled
    else
      Script.update fun page =>
        { page with firstAskAt :=
            page.firstAskAt.orElse fun _ => some (firstAsk moment (s.member "participant_count")) }
      joinThen moment (.ask s)

/-! ## Chains -/

/-- What a chain does when the promise it waits for settles. -/
def resume (moment : Moment) (answer : Answer) : Awaiting → Work Progress
  | .status => do
      let (status, body) ← getJSON moment answer
      statusAnswered moment status body
  | .digest next =>
      match answer with
      | .resolved _ => do
          Script.update fun page => { page with digest := some true }
          return .awaiting (.join next)
      | .rejected => do
          Script.update fun page => { page with digest := some false }
          throw .typeError
  | .join next => do
      joinAnswered moment answer
      afterJoin moment next
  | .queueNum s => do
      let (status, body) ← getJSON moment answer
      queueAnswered moment s status body
  | .token => do
      let (status, body) ← tryCatch (postJSON moment answer) fun error => do
        Script.update tokenFailed
        throw error
      tokenAnswered moment status body
      afterRedeem

/-- The end of a chain: what it threw is caught and polled again, and the chain is over. -/
def conclude : Except JsError Progress × State → State
  | (.ok (.awaiting promise), page) => { page with chains := page.chains ++ [promise] }
  | (.ok .settled, page) => { page with inFlight := false }
  | (.error _, page) => { page.schedule with inFlight := false }

/-! ## Events -/

/-- What the browser does. -/
inductive Event where
  | fire (handle : ℕ)
  | visibility (hidden : Bool)
  | settle (chain : ℕ) (answer : Answer)

/-- One event, and the script's work on it, where the event can happen. -/
def step (moment : Moment) (event : Event) (page : State) : Option State :=
  match event with
  | .fire handle =>
      if handle ∈ page.timers then
        some (State.tick { page with timers := page.timers.erase handle } moment)
      else none
  | .visibility hidden => some (State.visibilityChange { page with hidden := hidden } moment)
  | .settle chain answer =>
      page.chains[chain]?.map fun promise =>
        conclude ((resume moment answer promise).exec { page with chains := page.chains.eraseIdx chain })

/-- The page when its script has run: the first poll is under way, hidden or not. -/
def load (search : Units) (subtle hidden : Bool) (moment : Moment) : State :=
  State.tick
    { search, subtle, hidden, policy := ⟨5000, 5000, 1⟩, eventId := .null, digest := none
      joined := false, joinAttempts := 0, rejoinCycles := 0, joinBlockedUntil := 0, misses := 0
      knownPosition := .null, firstAskAt := none, admitting := false, timer := none, stopped := false
      lastPollAt := 0, inFlight := false, catchUpWanted := false, timers := [], nextHandle := 0
      chains := [], navigations := [] } moment

/-- A page reached by events that are allowed where they happen. -/
inductive Reached (allowed : State → Moment → Event → Prop) : State → Prop where
  | load (search : Units) (subtle hidden : Bool) (moment : Moment) :
      Reached allowed (load search subtle hidden moment)
  | step {page page' : State} (reached : Reached allowed page) {moment : Moment} {event : Event}
      (allows : allowed page moment event) (steps : step moment event page = some page') :
      Reached allowed page'

end WaitingRoom.Page
