import Mathlib.Data.List.Chain
import WaitingRoom.Edge.Numbers
import WaitingRoom.Page.PollLoop

/-!
# The page and the clock

How long the page waits between two polls: the interval it keeps, the rate it measures, and the delays
it sets its timers with. The clock does not go back, and a timer does not run before it is due. A timed
page does, but for the time, what the page does (`reached_page`), so that what holds of every page holds
of every timed one.
-/

set_option autoImplicit false

namespace WaitingRoom.Page

open Text Edge Concurrency

/-! ## The state -/

/-- Where the cursor was seen, and when. -/
structure CursorSample where
  at_ : ℕ
  serving : JsValue

/-- A timer that was set: the delay it was given, when it is due, and the floor that was in force. -/
structure Alarm where
  delay : Number
  due : ℕ
  floorMs : ℚ

/-- A fetch of `/v1/status`, and the floor in force when its timer was set, or, without one, when it was
made. -/
structure Fetch where
  at_ : ℕ
  floorMs : ℚ

/-- A page, and what it measures time with. -/
structure Timed where
  page : State
  clock : ℕ
  nextIntervalMs : Number
  cursorSamples : List CursorSample
  /-- Every timer that was set, by its handle. -/
  alarms : List Alarm
  /-- Every fetch of the status, the latest first. -/
  fetches : List Fetch

/-- The script's work between two events, with the time. -/
abbrev TimedWork (α : Type) := Script Timed JsError α

namespace Timed

/-- Work that does not look at the time. -/
def onPage {α : Type} (work : Work α) : TimedWork α :=
  Script.within Timed.page (fun page timed => { timed with page := page }) work

/-! ## Timers -/

/-- How long a timer waits, from what `setTimeout` is given: a whole number of 32 bits. -/
def timeoutMs (delay : Number) : ℕ :=
  match delay with
  | some (.finite q) => ((q.num.tdiv q.den).bmod (2 ^ 32)).toNat
  | _ => 0

def setTimeout (timed : Timed) (delay : Number) : Timed :=
  { timed with
    page := timed.page.setTimeout
    alarms := timed.alarms ++ [⟨delay, timed.clock + timeoutMs delay, timed.page.policy.floorMs⟩] }

/-- The interval, and up to three tenths more. -/
def jitter (moment : Moment) (nextIntervalMs : Number) : Number :=
  rounded (times nextIntervalMs (some (.finite (1 + moment.random * (3 / 10)))))

/-- How long ago the last poll was. -/
def sinceLastPoll (timed : Timed) : ℚ := (timed.clock : ℚ) - timed.page.lastPollAt

def schedule (moment : Moment) (timed : Timed) : Timed :=
  if timed.page.stopped then timed
  else
    let cleared := { timed with page := timed.page.clearTimer }
    if timed.page.hidden then
      { cleared with page := { cleared.page with catchUpWanted := false, timer := none } }
    else if timed.page.catchUpWanted then
      { cleared with page := { cleared.page with catchUpWanted := false } }.setTimeout
        (some (.finite (max 0 (timed.page.policy.floorMs - timed.sinceLastPoll))))
    else cleared.setTimeout (jitter moment timed.nextIntervalMs)

/-- A poll, under a floor. -/
def tick (moment : Moment) (floorMs : ℚ) (timed : Timed) : Timed :=
  { timed with
    page := timed.page.tick moment
    fetches := if timed.page.inFlight then timed.fetches else ⟨timed.clock, floorMs⟩ :: timed.fetches }

/-- The listener for `visibilitychange`. -/
def visibilityChange (moment : Moment) (timed : Timed) : Timed :=
  if timed.page.stopped then timed
  else
    let dropped := { timed with page := timed.page.dropTimer }
    if timed.page.hidden then dropped
    else if timed.page.policy.floorMs ≤ timed.sinceLastPoll then
      dropped.tick moment timed.page.policy.floorMs
    else dropped.setTimeout (some (.finite (timed.page.policy.floorMs - timed.sinceLastPoll)))

/-! ## The interval -/

/-- The samples that are not too old, and the last two. -/
def shiftOld (now : ℕ) : List CursorSample → List CursorSample
  | first :: second :: third :: rest =>
      if 60000 < (now : ℤ) - first.at_ then shiftOld now (second :: third :: rest)
      else first :: second :: third :: rest
  | samples => samples

/-- Where the cursor is seen now; where it went back, what was seen before is of another event. -/
def observeCursor (moment : Moment) (serving : JsValue) (timed : Timed) : Timed :=
  let samples :=
    match timed.cursorSamples.getLast? with
    | some last =>
        match less moment serving last.serving with
        | .ok true => []
        | _ => timed.cursorSamples
    | none => timed.cursorSamples
  { timed with cursorSamples := shiftOld timed.clock (samples ++ [⟨timed.clock, serving⟩]) }

/-- How fast the cursor moves, in positions a second; `none` is `null`. -/
def measuredRate (moment : Moment) (samples : List CursorSample) : Option Number :=
  match samples.head?, samples.getLast? with
  | some first, some last =>
      let seconds : ℚ := ((last.at_ : ℚ) - first.at_) / 1000
      if samples.length < 2 ∨ seconds < 30000 / 1000 then none
      else
        let moved := minus (moment.toNumber last.serving) (moment.toNumber first.serving)
        if above moved (some (.finite 0)) then some (dividedBy moved (some (.finite seconds))) else none
  | _, _ => none

/-- What was measured, or the rate that was declared. -/
def currentRate (moment : Moment) (timed : Timed) (targetRate : JsValue) : Number :=
  (measuredRate moment timed.cursorSamples).getD (moment.toNumber targetRate)

def intervalFor (policy : Policy) (waitSeconds : Number) : Number :=
  if !above waitSeconds (some (.finite 0)) then some (.finite policy.floorMs)
  else
    least (some (.finite policy.ceilingMs))
      (greatest (some (.finite policy.floorMs))
        (dividedBy (times waitSeconds (some (.finite 1000))) (some (.finite policy.divisor))))

def intervalForPosition (policy : Policy) (ahead rate : Number) : Number :=
  if above rate (some (.finite 0)) then intervalFor policy (dividedBy ahead rate) else some (.finite policy.floorMs)

/-- How far ahead the visitor is; `none` is `null`. -/
def aheadNow (moment : Moment) (timed : Timed) (serving : JsValue) : Option Number :=
  match timed.page.knownPosition with
  | .null => none
  | known => some (atLeastZero (minus (moment.toNumber known) (moment.toNumber serving)))

def atFloor (timed : Timed) : Timed :=
  { timed with nextIntervalMs := some (.finite timed.page.policy.floorMs) }

def atCeiling (timed : Timed) : Timed :=
  { timed with nextIntervalMs := some (.finite timed.page.policy.ceilingMs) }

/-- The interval of a visitor with a number; `null / rate` is `0 / rate`. -/
def atPosition (moment : Moment) (s : JsValue) (timed : Timed) : Timed :=
  let ahead := timed.aheadNow moment (s.member "serving_position")
  if ahead = some (some (.finite 0)) then timed.atFloor
  else
    { timed with
      nextIntervalMs := intervalForPosition timed.page.policy (ahead.getD (some (.finite 0)))
        (timed.currentRate moment (s.member "target_rate")) }

/-- The interval across a pause. -/
def atPause (moment : Moment) (s : JsValue) (timed : Timed) : Timed :=
  match timed.aheadNow moment (s.member "serving_position") with
  | none => timed.atCeiling
  | some ahead =>
      { timed with
        nextIntervalMs := intervalForPosition timed.page.policy ahead
          (timed.currentRate moment (s.member "target_rate")) }

/-! ## Polling -/

/-- `schedule()`, and the chain is at its end. -/
def scheduleNext (moment : Moment) : TimedWork Progress := do
  Script.update (schedule moment)
  return .settled

/-- What follows an attempt. -/
def afterRedeem (moment : Moment) : TimedWork Progress := do
  let admitting ← onPage (Script.read State.admitting)
  if admitting then return .settled else scheduleNext moment

/-- The answer to `/v1/queue_num`, or the number already known. -/
def queueAnswered (moment : Moment) (s : JsValue) (status : ℕ) (body : JsValue) : TimedWork Progress := do
  if status = 404 then
    onPage (Script.update fun page => { page with misses := page.misses + 1 })
    Script.update atFloor
    let misses ← onPage (Script.read State.misses)
    if 8 ≤ misses then
      onPage (Script.update fun page => { page with rejoinCycles := page.rejoinCycles + 1 })
      let rejoinCycles ← onPage (Script.read State.rejoinCycles)
      if 3 < rejoinCycles then
        onPage (Script.update State.stop)
        return .settled
      else
        onPage (Script.update forgetJoin)
        scheduleNext moment
    else scheduleNext moment
  else
    onPage (Script.update fun page => { page with misses := 0 })
    if status ≠ 200 then throw (.error "queue_num")
    else
      let position ← onPage (Script.ofExcept (readMember body "position"))
      onPage (Script.update fun page => { page with knownPosition := position })
      let serving := s.member "serving_position"
      let targetRate := s.member "target_rate"
      onPage (Script.ofExcept (moment.draw (.queue position serving (s.member "participant_count") targetRate)))
      let reached ← onPage (Script.ofExcept (less moment position serving))
      if reached then
        Script.update atFloor
        onPage redeem
      else
        onPage (Script.ofExcept (moment.draw (.interval serving targetRate)))
        Script.update (atPosition moment s)
        scheduleNext moment

/-- The place is claimed: go on with the number that is known, wait, or ask for it. -/
def askNumber (moment : Moment) (s : JsValue) : TimedWork Progress := do
  let page ← onPage (Script.read id)
  match page.knownPosition with
  | .null =>
      if beforeFirstAsk moment page then
        Script.update atFloor
        scheduleNext moment
      else return .awaiting (.queueNum s)
  | known => queueAnswered moment s 200 (.object [(utf16 "position", known)])

/-- What a chain goes on with. -/
def afterJoin (moment : Moment) : AfterJoin → TimedWork Progress
  | .schedule => scheduleNext moment
  | .ask s => askNumber moment s

/-- Join, and go on. -/
def joinThen (moment : Moment) (next : AfterJoin) : TimedWork Progress := do
  match ← onPage (join moment next) with
  | some promise => return .awaiting promise
  | none => afterJoin moment next

/-- The answer to `/v1/status`. -/
def statusAnswered (moment : Moment) (status : ℕ) (s : JsValue) : TimedWork Progress := do
  if status ≠ 200 then throw (.error "status")
  else
    let message ← onPage (Script.ofExcept (readMember s "message"))
    onPage (Script.ofExcept (moment.draw (.broadcast message)))
    onPage (Script.ofExcept (moment.draw (.cursor (s.member "serving_position"))))
    Script.update (observeCursor moment (s.member "serving_position"))
    onPage (Script.update fun page => { page with policy := adoptPolicy page.policy (s.member "poll_policy") })
    onPage (Script.update fun page =>
      { page with eventId := if (s.member "event_id").truthy then s.member "event_id" else page.eventId })
    let eventId ← onPage (Script.read State.eventId)
    if !eventId.truthy then
      Script.update atFloor
      scheduleNext moment
    else if isText (s.member "serving_state") "closed" then
      onPage (Script.update forgetPosition)
      Script.update atCeiling
      onPage (Script.ofExcept (moment.draw (.countdown (s.member "starts_at"))))
      if isText (s.member "phase") "pre_queue" then joinThen moment .schedule else scheduleNext moment
    else if isText (s.member "serving_state") "paused" then
      onPage (Script.ofExcept
        (moment.draw (.interval (s.member "serving_position") (s.member "target_rate"))))
      Script.update (atPause moment s)
      scheduleNext moment
    else if isText (s.member "serving_state") "fail_open" then
      onPage (Script.update (·.navigate .root))
      return .settled
    else
      onPage (Script.update fun page =>
        { page with firstAskAt :=
            page.firstAskAt.orElse fun _ => some (firstAsk moment (s.member "participant_count")) })
      joinThen moment (.ask s)

/-! ## Chains -/

/-- What a chain does when the promise it waits for settles. -/
def resume (moment : Moment) (answer : Answer) : Awaiting → TimedWork Progress
  | .status => do
      let (status, body) ← onPage (getJSON moment answer)
      statusAnswered moment status body
  | .digest next =>
      match answer with
      | .resolved _ => do
          onPage (Script.update fun page => { page with digest := some true })
          return .awaiting (.join next)
      | .rejected => do
          onPage (Script.update fun page => { page with digest := some false })
          throw .typeError
  | .join next => do
      onPage (joinAnswered moment answer)
      afterJoin moment next
  | .queueNum s => do
      let (status, body) ← onPage (getJSON moment answer)
      queueAnswered moment s status body
  | .token => do
      let (status, body) ← onPage (tryCatch (postJSON moment answer) fun error => do
        Script.update tokenFailed
        throw error)
      onPage (tokenAnswered moment status body)
      afterRedeem moment

/-- The end of a chain: what it threw is caught and polled again, and the chain is over. -/
def conclude (moment : Moment) : Except JsError Progress × Timed → Timed
  | (.ok (.awaiting promise), timed) =>
      { timed with page := { timed.page with chains := timed.page.chains ++ [promise] } }
  | (.ok .settled, timed) => { timed with page := { timed.page with inFlight := false } }
  | (.error _, timed) =>
      let next := timed.schedule moment
      { next with page := { next.page with inFlight := false } }

/-! ## Events -/

/-- What becomes of a chain: what its work returns or throws, and where that leaves the page. -/
def outcome (moment : Moment) (answer : Answer) (chain : ℕ) (promise : Awaiting) (timed : Timed) :
    Except JsError Progress × Timed :=
  (resume moment answer promise).exec
    { timed with page := { timed.page with chains := timed.page.chains.eraseIdx chain } }

/-- An event on a page whose clock is set. -/
def react (moment : Moment) (event : Event) (timed : Timed) : Option Timed :=
  match event with
  | .fire handle =>
      match timed.alarms[handle]? with
      | some alarm =>
          if handle ∈ timed.page.timers ∧ alarm.due ≤ timed.clock then
            some ({ timed with page :=
                { timed.page with timers := timed.page.timers.erase handle } }.tick moment alarm.floorMs)
          else none
      | none => none
  | .visibility hidden =>
      some ({ timed with page := { timed.page with hidden := hidden } }.visibilityChange moment)
  | .settle chain answer =>
      timed.page.chains[chain]?.map fun promise =>
        conclude moment (timed.outcome moment answer chain promise)

/-- One event: the clock does not go back, and a random number is at least zero and less than one. -/
def step (moment : Moment) (event : Event) (timed : Timed) : Option Timed :=
  if timed.clock ≤ moment.now ∧ 0 ≤ moment.random ∧ moment.random < 1 then
    react moment event { timed with clock := moment.now }
  else none

/-- The page when its script has run. -/
def load (search : Units) (subtle hidden : Bool) (moment : Moment) : Timed :=
  { page := Page.load search subtle hidden moment, clock := moment.now
    nextIntervalMs := some (.finite 5000), cursorSamples := [], alarms := []
    fetches := [⟨moment.now, 5000⟩] }

/-- A timed page reached by events that are allowed where they happen. -/
inductive Reached (allowed : Timed → Moment → Event → Prop) : Timed → Prop where
  | load (search : Units) (subtle hidden : Bool) (moment : Moment) :
      Reached allowed (load search subtle hidden moment)
  | step {timed timed' : Timed} (reached : Reached allowed timed) {moment : Moment} {event : Event}
      (allows : allowed timed moment event) (steps : step moment event timed = some timed') :
      Reached allowed timed'

/-! ## But for the time, a page -/

section Erasure

variable {moment : Moment}

theorem follows_onPage {α : Type} (work : Work α) : Script.Follows Timed.page (onPage work) work :=
  .within fun _ _ => rfl

theorem page_schedule (timed : Timed) : (timed.schedule moment).page = timed.page.schedule := by
  rw [schedule, State.schedule]
  split_ifs <;> rfl

theorem page_visibilityChange {timed : Timed} (set : timed.clock = moment.now) :
    (timed.visibilityChange moment).page = timed.page.visibilityChange moment := by
  rw [visibilityChange, State.visibilityChange, sinceLastPoll, set]
  split_ifs <;> rfl

theorem page_atPosition (s : JsValue) (timed : Timed) : (timed.atPosition moment s).page = timed.page := by
  simp only [atPosition]
  split_ifs <;> rfl

theorem page_atPause (s : JsValue) (timed : Timed) : (timed.atPause moment s).page = timed.page := by
  rw [atPause]
  split <;> rfl

theorem scheduleNext_follows : Script.Follows Timed.page (scheduleNext moment) Page.scheduleNext :=
  .bind (.update page_schedule) fun _ => .pure _

theorem afterRedeem_follows : Script.Follows Timed.page (afterRedeem moment) Page.afterRedeem :=
  .bind (follows_onPage _) fun _ => .ite (.pure _) scheduleNext_follows

theorem queueAnswered_follows (s : JsValue) (status : ℕ) (body : JsValue) :
    Script.Follows Timed.page (queueAnswered moment s status body) (Page.queueAnswered moment s status body) := by
  refine .ite (.bind (follows_onPage _) fun _ => .silent (fun _ => rfl) ?_) (.bind (follows_onPage _) fun _ => ?_)
  · refine .bind (follows_onPage _) fun misses => .ite ?_ scheduleNext_follows
    refine .bind (follows_onPage _) fun _ => .bind (follows_onPage _) fun cycles => .ite ?_ ?_
    · exact .bind (follows_onPage _) fun _ => .pure _
    · exact .bind (follows_onPage _) fun _ => scheduleNext_follows
  · refine .ite (.throw _) (.bind (follows_onPage _) fun position => .bind (follows_onPage _) fun _ => ?_)
    refine .bind (follows_onPage _) fun _ => .bind (follows_onPage _) fun reached => .ite ?_ ?_
    · exact .silent (fun _ => rfl) (follows_onPage _)
    · exact .bind (follows_onPage _) fun _ => .silent (page_atPosition s) scheduleNext_follows

theorem askNumber_follows (s : JsValue) :
    Script.Follows Timed.page (askNumber moment s) (Page.askNumber moment s) := by
  refine .bind (follows_onPage _) fun page => ?_
  cases page.knownPosition with
  | null => exact .ite (.silent (fun _ => rfl) scheduleNext_follows) (.pure _)
  | _ => exact queueAnswered_follows s 200 _

theorem afterJoin_follows (next : AfterJoin) :
    Script.Follows Timed.page (afterJoin moment next) (Page.afterJoin moment next) := by
  cases next with
  | schedule => exact scheduleNext_follows
  | ask s => exact askNumber_follows s

theorem joinThen_follows (next : AfterJoin) :
    Script.Follows Timed.page (joinThen moment next) (Page.joinThen moment next) := by
  refine .bind (follows_onPage _) fun promise => ?_
  cases promise with
  | none => exact afterJoin_follows next
  | some promise => exact .pure _

theorem statusAnswered_follows (status : ℕ) (s : JsValue) :
    Script.Follows Timed.page (statusAnswered moment status s) (Page.statusAnswered moment status s) := by
  refine .ite (.throw _) (.bind (follows_onPage _) fun message => .bind (follows_onPage _) fun _ => ?_)
  refine .bind (follows_onPage _) fun _ => .silent (fun _ => rfl) (.bind (follows_onPage _) fun _ => ?_)
  refine .bind (follows_onPage _) fun _ => .bind (follows_onPage _) fun eventId => ?_
  refine .ite (.silent (fun _ => rfl) scheduleNext_follows) (.ite ?_ (.ite ?_ (.ite ?_ ?_)))
  · refine .bind (follows_onPage _) fun _ => .silent (fun _ => rfl) (.bind (follows_onPage _) fun _ => ?_)
    exact .ite (joinThen_follows .schedule) scheduleNext_follows
  · exact .bind (follows_onPage _) fun _ => .silent (page_atPause s) scheduleNext_follows
  · exact .bind (follows_onPage _) fun _ => .pure _
  · exact .bind (follows_onPage _) fun _ => joinThen_follows (.ask s)

/-- What is done with an answer is, but for the time, what the page does with it. -/
theorem resume_follows (answer : Answer) (promise : Awaiting) :
    Script.Follows Timed.page (resume moment answer promise) (Page.resume moment answer promise) := by
  cases promise with
  | status => exact .bind (follows_onPage _) fun _ => statusAnswered_follows _ _
  | digest next =>
      cases answer with
      | rejected => exact .bind (follows_onPage _) fun _ => .throw _
      | resolved response => exact .bind (follows_onPage _) fun _ => .pure _
  | join next => exact .bind (follows_onPage _) fun _ => afterJoin_follows next
  | queueNum s => exact .bind (follows_onPage _) fun _ => queueAnswered_follows s _ _
  | token =>
      exact .bind (follows_onPage _) fun _ => .bind (follows_onPage _) fun _ => afterRedeem_follows

theorem page_conclude (outcome : Except JsError Progress × Timed) :
    (conclude moment outcome).page = Page.conclude (Prod.map id Timed.page outcome) := by
  rcases outcome with ⟨error | promise | _, timed⟩
  · simp only [conclude, page_schedule]
    rfl
  · rfl
  · rfl

/-- **One event does to the page, but for the time, what it does to a page without a clock.** -/
theorem step_page {event : Event} {timed timed' : Timed} (steps : step moment event timed = some timed') :
    Page.step moment event timed.page = some timed'.page := by
  rw [step] at steps
  split_ifs at steps
  cases event with
  | fire handle =>
      rw [react] at steps
      split at steps
      · split_ifs at steps with pending
        obtain rfl := Option.some.inj steps
        exact if_pos pending.1
      · cases steps
  | visibility hidden =>
      obtain rfl := Option.some.inj steps
      rw [page_visibilityChange rfl]
      rfl
  | settle chain answer =>
      obtain ⟨promise, chained, rfl⟩ := Option.map_eq_some_iff.mp steps
      rw [page_conclude, outcome, resume_follows answer promise]
      exact Option.map_eq_some_iff.mpr ⟨promise, chained, rfl⟩

end Erasure

/-- **A timed page is a page**: what holds of every page that is reached holds of it. -/
theorem reached_page {allowed : Timed → Moment → Event → Prop} {timed : Timed} (reached : Reached allowed timed) :
    Page.Reached (fun _ _ _ => True) timed.page := by
  induction reached with
  | load search subtle hidden moment => exact .load search subtle hidden moment
  | step _ _ steps ih => exact .step ih trivial (step_page steps)

end Timed

end WaitingRoom.Page
